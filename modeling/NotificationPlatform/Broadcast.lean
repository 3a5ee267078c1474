import NotificationPlatform.Lib.Uuid
import NotificationPlatform.Permissions
import NotificationPlatform.Schedules

/-!
# The API process and its websocket hub

The handlers `SendPublicNotification` and `SendAdminNotification` call `Send` and then
`broadcastIfWebSocket`, which hands the notification to the connected clients of the tenant at
once and tries to record it for the app. The pipeline below them is the system of `World`: every
step of the API is a step of that system or leaves it alone.
-/

namespace NotificationPlatform

open Lib

structure WsDelivery where
  notificationID : String
  title : String
  body : String
  data : JsonMap
  channel : String

/-- `websocket.Client` with what its send channel holds. -/
structure Client where
  id : Nat
  tenantID : String
  contactID : String
  externalUserID : String
  send : List WsDelivery

def Client.hasRoom (c : Client) : Bool := c.send.length < 64

def Client.sendDelivery (c : Client) (d : WsDelivery) : Client :=
  if c.hasRoom then { c with send := c.send ++ [d] } else c

/-- An `in_app_notifications` row, with the request it is about and the time it was written. -/
structure InAppRow where
  id : Nat
  tenantID : String
  notificationID : String
  contactID : Option String
  externalUserID : Option String
  title : String
  data : JsonMap
  unread : Bool
  req : Request
  time : Nat

/-- The delivery that `SyncUnread` makes of a row. -/
def InAppRow.delivery (row : InAppRow) : WsDelivery :=
  ⟨toString row.id, row.title, "", row.data, "in_app"⟩

/-- One message given to a client, with the request it is about and the time. -/
structure Frame where
  client : Nat
  delivery : WsDelivery
  req : Request
  time : Nat

/-- Where a handler stands: inside `Send`, before the broadcast to the rest of the channels, or
between a broadcast and the row that records it. -/
inductive HandlerState where
  | sending (p : Code (Except Err Accepted))
  | broadcasting (publicID : String) (todo : List String)
  | recording (publicID title : String) (todo : List String)
  | done

structure Handler where
  process : Nat
  tenantID : String
  req : Request
  state : HandlerState

inductive Task where
  | handler (h : Handler)
  | pipeline (th : Thread)

/-- What the pipeline sees of a task: a handler is its call of `Send`. -/
def Task.thread : Task → Thread
  | .handler h => ⟨.request h.tenantID h.req,
      match h.state with
      | .sending p => p >>= fun _ => .ret ()
      | _ => .ret ()⟩
  | .pipeline th => th

def Task.next? : Task → Option ((c : Call) × (Reply c → Task))
  | .handler ⟨process, t, req, .sending (.call c k)⟩ =>
      some ⟨c, fun r => .handler ⟨process, t, req, .sending (k r)⟩⟩
  | .pipeline ⟨party, .call c k⟩ => some ⟨c, fun r => .pipeline ⟨party, k r⟩⟩
  | _ => none

def Task.stop : Task → Task
  | .handler h => .handler { h with state := .done }
  | .pipeline th => .pipeline { th with prog := .ret () }

/-- The title of a broadcast; `subject` is what the query for the template returned, empty when
there is no such template. -/
def broadcastTitle (req : Request) (subject : String) : String :=
  let title := match (req.data.getD .empty).get? "title" with
    | some (.str title) => title
    | _ => "Notification"
  if req.template ≠ "" ∧ subject ≠ "" then subject else title

def isLive (channel : String) : Bool := channel == "websocket" || channel == "in_app"

/-- The shared state, the tasks, the hub of each API process, the in-app rows, and the history
of the messages given to clients. -/
structure Api where
  sys : Sys
  tasks : List Task
  hub : Nat → Option (List Client)
  inApp : List InAppRow
  frames : List Frame

inductive ApiEvent where
  | sendPublic (process unixNano : Nat) (tenantID : String) (req : Request)
  | sendAdmin (process unixNano : Nat) (p : Principal) (tenantID : String) (req : Request)
  | call (i : Nat) (o : Outcome)
  | answer (i : Nat)
  | broadcast (i : Nat) (subject : String)
  | record (i : Nat) (o : Outcome)
  | crash (i : Nat)
  | connect (process : Nat) (client : Client)
  | syncUnread (process : Nat) (id : Nat)
  | read (tenantID : String) (row : Nat)
  | write (process : Nat) (id : Nat)
  | disconnect (process : Nat) (id : Nat)
  | pipeline (e : Event)

def Event.external : Event → Bool
  | .tick | .deliver _ | .admin _ | .clock _ | .requeue _ => true
  | .request _ _ _ | .step _ _ | .crash _ => false

namespace Api

def world (a : Api) : World := ⟨a.sys, a.tasks.map Task.thread⟩

def startSend (cfg : Config) (a : Api) (process unixNano : Nat) (tenantID : String)
    (req : Request) : Api :=
  { a with tasks := a.tasks ++
      [.handler ⟨process, tenantID, req,
        .sending (Notifications.send cfg unixNano tenantID req).run⟩] }

def withClients (a : Api) (process : Nat) (f : List Client → List Client) : Api :=
  { a with hub := fun i => if i = process then (a.hub i).map f else a.hub i }

def receivers (a : Api) (process : Nat) (tenantID : String) : List Client :=
  ((a.hub process).getD []).filter fun c => c.tenantID == tenantID && c.hasRoom

def broadcastToTenant (a : Api) (process : Nat) (tenantID : String) (d : WsDelivery)
    (req : Request) : Api :=
  { a.withClients process fun clients => clients.map fun c =>
      if c.tenantID = tenantID then c.sendDelivery d else c with
    frames := a.frames ++ (a.receivers process tenantID).map fun c =>
      ⟨c.id, d, req, a.sys.db.now⟩ }

/-- The rows that the query of `SyncUnread` selects for a client, the newest first. -/
def unread (a : Api) (c : Client) : List InAppRow :=
  (a.inApp.reverse.filter fun row => row.tenantID == c.tenantID && row.unread &&
    (row.contactID == some c.contactID ||
      (row.externalUserID == some c.externalUserID && c.externalUserID != ""))).take 50

/-- `Hub.SyncUnread` for a client of a process: one delivery for each row while there is room. -/
def syncUnread (a : Api) (process id : Nat) : Api :=
  match ((a.hub process).getD []).find? fun c => c.id == id with
  | none => a
  | some c =>
      let rows := (a.unread c).take (64 - c.send.length)
      { a.withClients process fun clients => clients.map fun x =>
          if x.id = id then { x with send := x.send ++ rows.map InAppRow.delivery } else x with
        frames := a.frames ++ rows.map fun row => ⟨id, row.delivery, row.req, a.sys.db.now⟩ }

/-- The `INSERT INTO in_app_notifications` of `broadcastIfWebSocket`. The column
`notification_id` is a `uuid`; an error is ignored. -/
def insertInApp (a : Api) (tenantID publicID title : String) (req : Request) (o : Outcome) : Api :=
  if o.fail || (Uuid.read publicID).isNone then a
  else { a with inApp := a.inApp ++
    [⟨a.inApp.length, tenantID, publicID, none, none, title, req.data.getD .empty, true, req,
      a.sys.db.now⟩] }

def setHandler (a : Api) (i : Nat) (h : Handler) : Api :=
  { a with tasks := a.tasks.set i (.handler h) }

/-- One iteration of the loop of `broadcastIfWebSocket`, up to the insert. -/
def broadcast (a : Api) (i : Nat) (h : Handler) (publicID channel : String) (todo : List String)
    (subject : String) : Api :=
  if isLive channel then
    let title := broadcastTitle h.req subject
    let d : WsDelivery := ⟨publicID, title, "", h.req.data.getD .empty, channel⟩
    (a.broadcastToTenant h.process h.tenantID d h.req).setHandler i
      { h with state := .recording publicID title todo }
  else a.setHandler i { h with state := .broadcasting publicID todo }

def step (cfg : Config) (a : Api) : ApiEvent → Option Api
  | .sendPublic process unixNano tenantID req =>
      some (a.startSend cfg process unixNano tenantID req)
  | .sendAdmin process unixNano p tenantID req =>
      if p.isPlatform then
        -- the handler answers `tenant_id is required for platform admin`
        if tenantID = "" then some a
        else some (a.startSend cfg process unixNano tenantID req)
      else some (a.startSend cfg process unixNano p.tenantID req)
  | .call i o =>
      match a.tasks[i]? with
      | none => none
      | some task =>
          match task.next? with
          | none => none
          | some ⟨c, k⟩ =>
              let r := a.sys.exec cfg task.thread.party c o
              some { a with sys := r.2, tasks := a.tasks.set i (k r.1) }
  | .answer i =>
      match a.tasks[i]? with
      | some (.handler ⟨process, t, req, .sending (.ret r)⟩) =>
          some (a.setHandler i ⟨process, t, req,
            match r with
            | .error _ => .done
            | .ok accepted => .broadcasting accepted.notificationID req.channels⟩)
      | _ => none
  | .broadcast i subject =>
      match a.tasks[i]? with
      | some (.handler ⟨process, t, req, .broadcasting publicID (channel :: todo)⟩) =>
          some (a.broadcast i ⟨process, t, req, .done⟩ publicID channel todo subject)
      | _ => none
  | .record i o =>
      match a.tasks[i]? with
      | some (.handler ⟨process, t, req, .recording publicID title todo⟩) =>
          some ((a.insertInApp t publicID title req o).setHandler i
            ⟨process, t, req, .broadcasting publicID todo⟩)
      | _ => none
  | .crash i =>
      match a.tasks[i]? with
      | none => none
      | some task => some { a with tasks := a.tasks.set i task.stop }
  | .connect process client =>
      some (a.withClients process fun clients => clients ++ [{ client with send := [] }])
  | .syncUnread process id => some (a.syncUnread process id)
  | .read tenantID id =>
      some { a with inApp := a.inApp.map fun row =>
        if row.id = id ∧ row.tenantID = tenantID then { row with unread := false } else row }
  | .write process id =>
      some (a.withClients process fun clients => clients.map fun c =>
        if c.id = id then { c with send := c.send.tail } else c)
  | .disconnect process id =>
      some (a.withClients process fun clients => clients.filter fun c => c.id != id)
  | .pipeline e =>
      if e.external then
        (a.world.step cfg e).map fun w =>
          { a with
            sys := w.sys
            tasks := a.tasks ++ (w.threads.drop a.tasks.length).map .pipeline }
      else none

/-- A run of the API whose events all meet a condition on the state they are taken in. -/
abbrev RunOf (cfg : Config) (ok : Api → ApiEvent → Prop) : Api → List ApiEvent → Api → Prop :=
  Run (step cfg) ok

theorem exists_run (cfg : Config) (ok : Api → ApiEvent → Bool) (a : Api) (es : List ApiEvent)
    (p : Api → Bool) (h : (execute (step cfg) ok a es).any p = true) :
    ∃ a', a.RunOf cfg (fun a e => ok a e = true) es a' ∧ p a' = true :=
  Run.exists_of_execute (fun _ _ hok => hok) h

/-- Nothing has been sent yet: any tenants, configuration, hubs and connected clients. -/
structure Fresh (a : Api) : Prop where
  world : a.world.Fresh
  inApp : a.inApp = []
  frames : a.frames = []

end Api

section

variable {cfg : Config} {a a' : Api} {e : ApiEvent}

private theorem Task.next?_thread {task : Task} {c : Call} {k : Reply c → Task}
    (h : task.next? = some ⟨c, k⟩) :
    task.thread.prog = .call c (fun r => (k r).thread.prog) ∧
      ∀ r, { task.thread with prog := (k r).thread.prog } = (k r).thread := by
  unfold Task.next? at h
  split at h
  · cases h
    exact ⟨rfl, fun _ => rfl⟩
  · cases h
    exact ⟨rfl, fun _ => rfl⟩
  · simp at h

private theorem World.step_external {w w' : World} {e : Event} (he : e.external = true)
    (h : w.step cfg e = some w') : ∃ new, w'.threads = w.threads ++ new := by
  cases e with
  | request _ _ _ => simp [Event.external] at he
  | step _ _ => simp [Event.external] at he
  | crash _ => simp [Event.external] at he
  | tick =>
      obtain rfl := Option.some.inj h
      exact ⟨_, rfl⟩
  | deliver i =>
      simp only [World.step] at h
      split at h
      · simp at h
      · obtain ⟨prog, -, rfl⟩ := Option.map_eq_some_iff.mp h
        exact ⟨_, rfl⟩
  | admin a =>
      obtain rfl := Option.some.inj h
      exact ⟨[], (List.append_nil _).symm⟩
  | clock seconds =>
      obtain rfl := Option.some.inj h
      exact ⟨[], (List.append_nil _).symm⟩
  | requeue i =>
      simp only [World.step] at h
      split at h
      · simp at h
      · obtain rfl := Option.some.inj h
        exact ⟨[], (List.append_nil _).symm⟩

@[simp] private theorem Api.world_startSend (process unixNano : Nat) (t : String) (req : Request) :
    (a.startSend cfg process unixNano t req).world =
      a.world.spawn (.request t req) (forget (Notifications.send cfg unixNano t req)) := by
  simp [Api.world, Api.startSend, World.spawn, Task.thread, forget]

private theorem Api.world_setHandler {i : Nat} {task : Task} {h : Handler}
    (htask : a.tasks[i]? = some task) (hthread : (Task.handler h).thread = task.thread) :
    (a.setHandler i h).world = a.world := by
  have hi : (a.tasks.map Task.thread)[i]? = some task.thread := by simp [htask]
  have hset : (a.tasks.map Task.thread).set i task.thread = a.tasks.map Task.thread := by
    obtain ⟨before, after, hsplit, -, hreplace⟩ := exists_split_of_getElem? hi
    rw [hreplace, hsplit]
  simp only [Api.world, Api.setHandler, List.map_set, hthread, hset]

theorem Api.step_world (h : a.step cfg e = some a') :
    a'.world = a.world ∨ ∃ e', a.world.step cfg e' = some a'.world := by
  cases e with
  | sendPublic process unixNano t req =>
      obtain rfl := Option.some.inj h
      exact .inr ⟨.request unixNano t req, by rw [Api.world_startSend]; rfl⟩
  | sendAdmin process unixNano p t req =>
      simp only [Api.step] at h
      split at h
      · split at h
        · obtain rfl := Option.some.inj h
          exact .inl rfl
        · obtain rfl := Option.some.inj h
          exact .inr ⟨.request unixNano t req, by rw [Api.world_startSend]; rfl⟩
      · obtain rfl := Option.some.inj h
        exact .inr ⟨.request unixNano p.tenantID req, by rw [Api.world_startSend]; rfl⟩
  | call i o =>
      simp only [Api.step] at h
      split at h
      · simp at h
      · next task htask =>
          split at h
          · simp at h
          · next c k hnext =>
              obtain rfl := Option.some.inj h
              obtain ⟨hprog, hthread⟩ := Task.next?_thread hnext
              refine .inr ⟨.step i o, ?_⟩
              have hi : a.world.threads[i]? = some task.thread := by simp [Api.world, htask]
              simp only [World.step, hi, hprog, hthread]
              simp only [Api.world, List.map_set]
  | answer i =>
      simp only [Api.step] at h
      split at h
      · next process t req r htask =>
          obtain rfl := Option.some.inj h
          refine .inl (Api.world_setHandler htask ?_)
          cases r <;> rfl
      · simp at h
  | broadcast i subject =>
      simp only [Api.step] at h
      split at h
      · next process t req publicID channel todo htask =>
          obtain rfl := Option.some.inj h
          unfold Api.broadcast
          split
          · exact .inl (Api.world_setHandler (a := a.broadcastToTenant _ _ _ _) htask rfl)
          · exact .inl (Api.world_setHandler htask rfl)
      · simp at h
  | record i o =>
      simp only [Api.step] at h
      split at h
      · next process t req publicID title todo htask =>
          obtain rfl := Option.some.inj h
          unfold Api.insertInApp
          split
          · exact .inl (Api.world_setHandler htask rfl)
          · exact .inl (Api.world_setHandler (a := { a with inApp := _ }) htask rfl)
      · simp at h
  | crash i =>
      simp only [Api.step] at h
      split at h
      · simp at h
      · next task htask =>
          obtain rfl := Option.some.inj h
          refine .inr ⟨.crash i, ?_⟩
          have hi : a.world.threads[i]? = some task.thread := by simp [Api.world, htask]
          simp only [World.step, hi, Option.some.injEq]
          simp only [Api.world, List.map_set]
          cases task <;> rfl
  | connect process client =>
      obtain rfl := Option.some.inj h
      exact .inl rfl
  | syncUnread process id =>
      obtain rfl := Option.some.inj h
      refine .inl ?_
      unfold Api.syncUnread
      split <;> rfl
  | read t id =>
      obtain rfl := Option.some.inj h
      exact .inl rfl
  | write process id =>
      obtain rfl := Option.some.inj h
      exact .inl rfl
  | disconnect process id =>
      obtain rfl := Option.some.inj h
      exact .inl rfl
  | pipeline e =>
      simp only [Api.step] at h
      split at h
      · next hexternal =>
          obtain ⟨w, hw, rfl⟩ := Option.map_eq_some_iff.mp h
          refine .inr ⟨e, ?_⟩
          obtain ⟨new, hnew⟩ := World.step_external hexternal hw
          have hlen : a.world.threads.length = a.tasks.length := by simp [Api.world]
          have hthread : new.map (Task.thread ∘ Task.pipeline) = new :=
            List.map_id'' (fun _ => rfl) new
          rw [hw, Option.some.injEq]
          cases w with
          | mk sys threads =>
              simp only at hnew
              simp [Api.world, hnew, hthread]
      · simp at h

theorem Api.exists_world_run {ok : Api → ApiEvent → Prop} {es : List ApiEvent}
    (h : a.RunOf cfg ok es a') :
    ∃ es', a.world.RunOf cfg (fun _ _ => True) es' a'.world := by
  induction h with
  | nil a => exact ⟨[], .nil _⟩
  | cons _ hstep _ ih =>
      obtain ⟨es', hrest⟩ := ih
      rcases Api.step_world hstep with hsame | ⟨e', he'⟩
      · exact ⟨es', by rwa [hsame] at hrest⟩
      · exact ⟨e' :: es', .cons trivial he' hrest⟩

end

private abbrev Returns {α : Type} (Q : α → Prop) (p : Code α) : Prop :=
  Prog.Follows (fun (_ : Unit) _ _ => True) (fun _ => Q) () p

private theorem returns_any {α : Type} (p : Code α) : Returns (fun _ => True) p := by
  induction p with
  | ret a => exact trivial
  | call c k ih => exact Prog.follows_call _ trivial ih

/-- The text is one that `Send` makes for a notification. -/
def IsPublicID (publicID : String) : Prop := ∃ x, publicID = "ntf_" ++ x

private def Named : Except Err Accepted → Prop
  | .ok accepted => IsPublicID accepted.notificationID
  | .error _ => True

private theorem returns_bind {α : Type} {p : Go α} {f : α → Go Accepted}
    (hf : ∀ a, Returns Named (f a).run) : Returns Named (p >>= f).run := by
  refine (returns_any p.run).bind fun _ r _ => ?_
  cases r with
  | error e => exact trivial
  | ok a => exact hf a

private theorem send_named (cfg : Config) (unixNano : Nat) (t : String) (req : Request) :
    Returns Named (Notifications.send cfg unixNano t req).run := by
  unfold Notifications.send
  by_cases ht : t = ""
  · simp only [if_pos ht]
    exact trivial
  by_cases hc : req.channels = []
  · simp only [if_neg ht, if_pos hc]
    exact trivial
  simp only [if_neg ht, if_neg hc]
  apply returns_bind
  intro _
  apply returns_bind
  intro _
  cases scheduleState cfg req.withDefaultSchedule.schedule with
  | error e => exact trivial
  | ok state =>
      apply returns_bind
      intro _
      exact ⟨toString unixNano, rfl⟩

theorem IsPublicID.read_eq_none {publicID : String} (h : IsPublicID publicID) :
    Uuid.read publicID = none := by
  obtain ⟨x, rfl⟩ := h
  have htext : ("ntf_" ++ x).toList = 'n' :: ('t' :: 'f' :: '_' :: x.toList) := by
    rw [String.toList_append]
    rfl
  exact Uuid.read_eq_none htext (by decide) (by decide)

/-- The identifier that a handler works with comes from `Send`. -/
private def Task.Named : Task → Prop
  | .handler ⟨_, _, _, .sending p⟩ => Returns NotificationPlatform.Named p
  | .handler ⟨_, _, _, .broadcasting publicID _⟩ => IsPublicID publicID
  | .handler ⟨_, _, _, .recording publicID _ _⟩ => IsPublicID publicID
  | .handler ⟨_, _, _, .done⟩ => True
  | .pipeline _ => True

private theorem Task.named_next? {task : Task} {c : Call} {k : Reply c → Task}
    (h : task.next? = some ⟨c, k⟩) (hnamed : task.Named) (r : Reply c) : (k r).Named := by
  unfold Task.next? at h
  split at h
  · cases h
    obtain ⟨_, _, hk⟩ := hnamed
    exact hk r
  · cases h
    exact trivial
  · simp at h

namespace Api

/-- When a handler broadcasts a scheduled request before its time, there is nobody to hear it. -/
def held (cfg : Config) (a : Api) : ApiEvent → Bool
  | .broadcast i _ =>
      match a.tasks[i]? with
      | some (.handler ⟨process, t, req, .broadcasting _ (channel :: _)⟩) =>
          !isLive channel || (a.receivers process t).isEmpty ||
            match req.sendsAt? cfg with
            | some time => time ≤ a.sys.db.now
            | none => true
      | _ => true
  | _ => true

/-- Nothing of a scheduled request is out before its time: no delivery and no job exists, no
client was given a message, and no in-app row was written. -/
structure InTime (cfg : Config) (a : Api) : Prop where
  unsent : ∀ n t publicID req scheduledAt status time,
    a.sys.db.notifications.get? n = some (Notifications.newNotification t publicID
      (Request.withDefaultSchedule req) scheduledAt status) →
    req.sendsAt? cfg = some time → a.sys.db.now < time → a.sys.Unsent n
  frames : ∀ f ∈ a.frames, ∀ time, f.req.sendsAt? cfg = some time → time ≤ f.time
  inApp : ∀ row ∈ a.inApp, ∀ time, row.req.sendsAt? cfg = some time → time ≤ row.time

/-- No row has been written, and the handlers work with identifiers of `Send`, which no row can
hold. -/
private structure Unrecorded (a : Api) : Prop where
  inApp : a.inApp = []
  named : ∀ task ∈ a.tasks, task.Named

section

variable {cfg : Config} {a a' : Api}

private theorem named_set {tasks : List Task} {i : Nat} {task : Task}
    (h : ∀ x ∈ tasks, x.Named) (htask : task.Named) : ∀ x ∈ tasks.set i task, x.Named := by
  intro x hx
  rcases List.mem_or_eq_of_mem_set hx with hx | rfl
  · exact h x hx
  · exact htask

private theorem named_append {tasks new : List Task} (h : ∀ x ∈ tasks, x.Named)
    (hnew : ∀ x ∈ new, x.Named) : ∀ x ∈ tasks ++ new, x.Named := by
  intro x hx
  rcases List.mem_append.mp hx with hx | hx
  · exact h x hx
  · exact hnew x hx

private theorem unrecorded_startSend (h : a.Unrecorded) (process unixNano : Nat) (t : String)
    (req : Request) : (a.startSend cfg process unixNano t req).Unrecorded where
  inApp := h.inApp
  named := named_append h.named fun x hx => by
    rw [List.mem_singleton.mp hx]
    exact send_named cfg unixNano t req

private theorem Unrecorded.step {e : ApiEvent} (h : a.Unrecorded)
    (hstep : a.step cfg e = some a') : a'.Unrecorded := by
  cases e with
  | sendPublic process unixNano t req =>
      obtain rfl := Option.some.inj hstep
      exact unrecorded_startSend h process unixNano t req
  | sendAdmin process unixNano p t req =>
      simp only [Api.step] at hstep
      split at hstep
      · split at hstep
        · obtain rfl := Option.some.inj hstep
          exact h
        · obtain rfl := Option.some.inj hstep
          exact unrecorded_startSend h process unixNano t req
      · obtain rfl := Option.some.inj hstep
        exact unrecorded_startSend h process unixNano p.tenantID req
  | call i o =>
      simp only [Api.step] at hstep
      split at hstep
      · simp at hstep
      · next task htask =>
          split at hstep
          · simp at hstep
          · next c k hnext =>
              obtain rfl := Option.some.inj hstep
              have hnamed := h.named task (List.mem_of_getElem? htask)
              exact ⟨h.inApp, named_set h.named (Task.named_next? hnext hnamed _)⟩
  | answer i =>
      simp only [Api.step] at hstep
      split at hstep
      · next process t req r htask =>
          obtain rfl := Option.some.inj hstep
          have hnamed : NotificationPlatform.Named r := h.named _ (List.mem_of_getElem? htask)
          refine ⟨h.inApp, named_set h.named ?_⟩
          cases r with
          | error e => exact trivial
          | ok accepted => exact hnamed
      · simp at hstep
  | broadcast i subject =>
      simp only [Api.step] at hstep
      split at hstep
      · next process t req publicID channel todo htask =>
          obtain rfl := Option.some.inj hstep
          have hpublic : IsPublicID publicID := h.named _ (List.mem_of_getElem? htask)
          unfold Api.broadcast
          split
          · exact ⟨h.inApp, named_set h.named hpublic⟩
          · exact ⟨h.inApp, named_set h.named hpublic⟩
      · simp at hstep
  | record i o =>
      simp only [Api.step] at hstep
      split at hstep
      · next process t req publicID title todo htask =>
          obtain rfl := Option.some.inj hstep
          have hpublic : IsPublicID publicID := h.named _ (List.mem_of_getElem? htask)
          have hfails : a.insertInApp t publicID title req o = a := by
            simp [Api.insertInApp, hpublic.read_eq_none]
          rw [hfails]
          exact ⟨h.inApp, named_set h.named hpublic⟩
      · simp at hstep
  | crash i =>
      simp only [Api.step] at hstep
      split at hstep
      · simp at hstep
      · next task htask =>
          obtain rfl := Option.some.inj hstep
          refine ⟨h.inApp, named_set h.named ?_⟩
          cases task <;> exact trivial
  | connect process client =>
      obtain rfl := Option.some.inj hstep
      exact ⟨h.inApp, h.named⟩
  | syncUnread process id =>
      obtain rfl := Option.some.inj hstep
      unfold Api.syncUnread
      split
      · exact h
      · exact ⟨h.inApp, h.named⟩
  | read t id =>
      obtain rfl := Option.some.inj hstep
      exact ⟨by simp [h.inApp], h.named⟩
  | write process id =>
      obtain rfl := Option.some.inj hstep
      exact ⟨h.inApp, h.named⟩
  | disconnect process id =>
      obtain rfl := Option.some.inj hstep
      exact ⟨h.inApp, h.named⟩
  | pipeline e =>
      simp only [Api.step] at hstep
      split at hstep
      · obtain ⟨w, -, rfl⟩ := Option.map_eq_some_iff.mp hstep
        refine ⟨h.inApp, named_append h.named fun x hx => ?_⟩
        obtain ⟨th, -, rfl⟩ := List.mem_map.mp hx
        exact trivial
      · simp at hstep

private theorem Unrecorded.run {ok : Api → ApiEvent → Prop} {es : List ApiEvent}
    (hfresh : a.Fresh) (hrun : a.RunOf cfg ok es a') : a'.Unrecorded := by
  have hstart : a.Unrecorded := by
    have htasks : a.tasks = [] := List.map_eq_nil_iff.mp hfresh.world.threads
    exact ⟨hfresh.inApp, by simp [htasks]⟩
  exact hrun.invariant (fun _ _ _ h _ hstep => h.step hstep) hstart

theorem inApp_eq_nil {ok : Api → ApiEvent → Prop} {es : List ApiEvent} (hfresh : a.Fresh)
    (hrun : a.RunOf cfg ok es a') : a'.inApp = [] :=
  (Unrecorded.run hfresh hrun).inApp

/-- No message of a scheduled request has been given to a client before its time. -/
private structure Punctual (cfg : Config) (a : Api) : Prop extends Unrecorded a where
  frames : ∀ f ∈ a.frames, ∀ time, f.req.sendsAt? cfg = some time → time ≤ f.time

private theorem frames_broadcast (h : a.Punctual cfg) {i process : Nat} {t publicID : String}
    {req : Request} {channel : String} {todo : List String} {subject : String}
    (htask : a.tasks[i]? =
      some (.handler ⟨process, t, req, .broadcasting publicID (channel :: todo)⟩))
    (hheld : a.held cfg (.broadcast i subject) = true) :
    ∀ f ∈ (a.broadcast i ⟨process, t, req, .done⟩ publicID channel todo subject).frames,
      ∀ time, f.req.sendsAt? cfg = some time → time ≤ f.time := by
  unfold Api.broadcast
  split
  · next hlive =>
      intro f hf time htime
      rcases List.mem_append.mp hf with hf | hf
      · exact h.frames f hf time htime
      · obtain ⟨client, hclient, rfl⟩ := List.mem_map.mp hf
        have hsome : (a.receivers process t).isEmpty = false := by
          cases hreceivers : a.receivers process t with
          | nil => rw [hreceivers] at hclient; simp at hclient
          | cons _ _ => rfl
        have htime' : req.sendsAt? cfg = some time := htime
        simpa [Api.held, htask, hlive, hsome, htime'] using hheld
  · exact h.frames

private theorem frames_syncUnread (h : a.Punctual cfg) (process id : Nat) :
    (a.syncUnread process id).frames = a.frames := by
  unfold Api.syncUnread
  split
  · rfl
  · next client _ =>
      have hnone : a.unread client = [] := by simp [Api.unread, h.inApp]
      simp [hnone]

private theorem Punctual.step {e : ApiEvent} (h : a.Punctual cfg) (hheld : a.held cfg e = true)
    (hstep : a.step cfg e = some a') : a'.Punctual cfg := by
  refine ⟨h.toUnrecorded.step hstep, ?_⟩
  cases e with
  | sendPublic process unixNano t req =>
      obtain rfl := Option.some.inj hstep
      exact h.frames
  | sendAdmin process unixNano p t req =>
      simp only [Api.step] at hstep
      split at hstep
      · split at hstep <;> (obtain rfl := Option.some.inj hstep; exact h.frames)
      · obtain rfl := Option.some.inj hstep
        exact h.frames
  | call i o =>
      simp only [Api.step] at hstep
      split at hstep
      · simp at hstep
      · split at hstep
        · simp at hstep
        · obtain rfl := Option.some.inj hstep
          exact h.frames
  | answer i =>
      simp only [Api.step] at hstep
      split at hstep
      · obtain rfl := Option.some.inj hstep
        exact h.frames
      · simp at hstep
  | broadcast i subject =>
      have hguard := hheld
      simp only [Api.step] at hstep
      split at hstep
      · next process t req publicID channel todo htask =>
          obtain rfl := Option.some.inj hstep
          exact frames_broadcast h htask hguard
      · simp at hstep
  | record i o =>
      simp only [Api.step] at hstep
      split at hstep
      · obtain rfl := Option.some.inj hstep
        unfold Api.insertInApp
        split <;> exact h.frames
      · simp at hstep
  | crash i =>
      simp only [Api.step] at hstep
      split at hstep
      · simp at hstep
      · obtain rfl := Option.some.inj hstep
        exact h.frames
  | syncUnread process id =>
      obtain rfl := Option.some.inj hstep
      rw [frames_syncUnread h]
      exact h.frames
  | connect process client =>
      obtain rfl := Option.some.inj hstep
      exact h.frames
  | read t id =>
      obtain rfl := Option.some.inj hstep
      exact h.frames
  | write process id =>
      obtain rfl := Option.some.inj hstep
      exact h.frames
  | disconnect process id =>
      obtain rfl := Option.some.inj hstep
      exact h.frames
  | pipeline e =>
      simp only [Api.step] at hstep
      split at hstep
      · obtain ⟨w, -, rfl⟩ := Option.map_eq_some_iff.mp hstep
        exact h.frames
      · simp at hstep

end

end Api

/-- In every run in which nobody hears a broadcast of a scheduled request before its time,
nothing of a scheduled request is out before its time. -/
theorem nothing_before_time {cfg : Config} {a₀ a : Api} {es : List ApiEvent} (hfresh : a₀.Fresh)
    (hrun : a₀.RunOf cfg (fun a e => a.held cfg e = true) es a) : a.InTime cfg := by
  have hstart : a₀.Punctual cfg := by
    have htasks : a₀.tasks = [] := List.map_eq_nil_iff.mp hfresh.world.threads
    exact ⟨⟨hfresh.inApp, by simp [htasks]⟩, by simp [hfresh.frames]⟩
  have hend : a.Punctual cfg :=
    hrun.invariant (fun _ _ _ h hheld hstep => h.step hheld hstep) hstart
  obtain ⟨es', hworld⟩ := Api.exists_world_run hrun
  constructor
  · intro n t publicID req scheduledAt status time hrow htime hnow
    exact unsent_before_time hfresh.world hworld hrow htime hnow
  · exact hend.frames
  · simp [hend.inApp]

def sampleApi (clients : List Client) : Api where
  sys :=
    ⟨{ sampleDb with
        features := [⟨"t1", "channel.websocket", true⟩]
        channels := [⟨"t1", "websocket", true, "one_way"⟩]
        platformChannels := [⟨"websocket", true⟩]
        providerConfigs := [⟨"t1", "websocket", "mock", true, "active"⟩] },
      ⟨[], [], 0⟩, [], [], [], []⟩
  tasks := []
  hub := fun process => if process = 0 then some clients else none
  inApp := []
  frames := []

def sampleClient (tenantID : String) : Client := ⟨1, tenantID, "", "", []⟩

def scheduledBroadcast : List ApiEvent :=
  [.sendPublic 0 1 "t1" (sampleRequest ["websocket"] ⟨"Scheduled", "2026-06-28T10:00:00Z"⟩ "")] ++
    List.replicate 8 (.call 0 {}) ++ [.answer 0, .broadcast 0 "", .record 0 {}]

theorem sampleApi_fresh (clients : List Client) : (sampleApi clients).Fresh := by
  constructor
  · constructor <;> rfl
  · rfl
  · rfl

/-- Only a client of another tenant is connected: nothing is out before its time. -/
theorem nothing_before_time_unheard : ∃ a, (sampleApi [sampleClient "t2"]).RunOf (sampleConfig 3)
    (fun a e => a.held (sampleConfig 3) e = true) scheduledBroadcast a ∧
      (a.sys.db.notifications.rows ≠ [] ∧ a.sys.db.now < 10) ∧ a.InTime (sampleConfig 3) := by
  obtain ⟨a, hrun, hend⟩ := Api.exists_run (sampleConfig 3) (Api.held (sampleConfig 3))
    (sampleApi [sampleClient "t2"]) scheduledBroadcast
    (fun a => a.sys.db.notifications.rows.length == 1 && a.sys.db.now < 10) (by decide +kernel)
  refine ⟨a, hrun, ?_, nothing_before_time (sampleApi_fresh _) hrun⟩
  obtain ⟨hrows, hnow⟩ : a.sys.db.notifications.rows.length = 1 ∧ a.sys.db.now < 10 := by
    simpa using hend
  refine ⟨fun hempty => ?_, hnow⟩
  rw [hempty] at hrows
  simp at hrows

/-- A client of the tenant is given the message of a request that is scheduled for later. -/
theorem scheduled_broadcast_early : ¬∀ (cfg : Config) (a₀ a : Api) (es : List ApiEvent),
    a₀.Fresh → a₀.RunOf cfg (fun _ _ => True) es a → a.InTime cfg := by
  intro h
  obtain ⟨a, hrun, hend⟩ := Api.exists_run (sampleConfig 3) (fun _ _ => true)
    (sampleApi [sampleClient "t1"]) scheduledBroadcast
    (fun a => a.frames.any fun f => f.req.sendsAt? (sampleConfig 3) == some 10 && f.time < 10)
    (by decide +kernel)
  obtain ⟨f, hf, hearly⟩ := List.any_eq_true.mp hend
  obtain ⟨htime, hlt⟩ : f.req.sendsAt? (sampleConfig 3) = some 10 ∧ f.time < 10 := by
    simpa using hearly
  have hrun' := hrun.mono fun _ _ _ => trivial
  have hle := (h _ _ _ _ (sampleApi_fresh _) hrun').frames f hf 10 htime
  omega

end NotificationPlatform

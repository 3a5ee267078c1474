import NotificationPlatform.Broadcast

/-!
# Messages for one user

A request may name the user it is for in the recipient of its target. `broadcastIfWebSocket` does
not look at it: the message goes to every client of the tenant, and what it tries to record for
those who are away names nobody.
-/

namespace NotificationPlatform

open Lib

def Request.externalUser? (req : Request) : Option String :=
  match (req.target.recipient.getD .empty).get? "external_user_id" with
  | some (.str user) => some user
  | _ => none

/-- A message that a handler is about to give to the hub of its process: an accepted request, on a
live channel, for a user. -/
structure Announcement where
  process : Nat
  tenantID : String
  user : String
  publicID : String
  deriving DecidableEq

namespace Api

def announces? (a : Api) (i : Nat) : Option Announcement :=
  match a.tasks[i]? with
  | some (.handler ⟨process, t, req, .broadcasting publicID (channel :: _)⟩) =>
      if isLive channel then req.externalUser?.map fun user => ⟨process, t, user, publicID⟩
      else none
  | _ => none

def connected (a : Api) (process : Nat) : List Client := (a.hub process).getD []

/-- The clients of a process whose send channels hold more afterwards. -/
def gained (a a' : Api) (process : Nat) : List Client :=
  (((a.connected process).zip (a'.connected process)).filter fun p =>
    decide (p.1.send.length < p.2.send.length)).map Prod.fst

section

variable {cfg : Config} {a a' : Api} {i : Nat} {subject : String} {m : Announcement}

theorem length_sendDelivery (c : Client) (d : WsDelivery) :
    (c.sendDelivery d).send.length = c.send.length + if c.hasRoom then 1 else 0 := by
  unfold Client.sendDelivery
  split <;> simp

private theorem zip_map_self {α : Type} (f : α → α) (xs : List α) :
    xs.zip (xs.map f) = xs.map fun x => (x, f x) := by
  induction xs with
  | nil => rfl
  | cons x xs ih => simp [ih]

theorem gained_broadcast (hm : a.announces? i = some m)
    (hstep : a.step cfg (.broadcast i subject) = some a') (process : Nat) :
    a.gained a' process =
      if process = m.process then a.receivers m.process m.tenantID else [] := by
  unfold announces? at hm
  split at hm
  · next p t req publicID channel todo htask =>
      split at hm
      · next hlive =>
          obtain ⟨user, -, rfl⟩ := Option.map_eq_some_iff.mp hm
          simp only [Api.step, htask, Option.some.injEq] at hstep
          rw [Api.broadcast, if_pos hlive] at hstep
          subst hstep
          have hlen : ∀ (c : Client) (d : WsDelivery),
              c.send.length < (if c.tenantID = t then c.sendDelivery d else c).send.length ↔
                c.tenantID = t ∧ c.hasRoom = true := by
            intro c d
            by_cases htenant : c.tenantID = t
            · rw [if_pos htenant, length_sendDelivery]
              cases c.hasRoom <;> simp [htenant]
            · simp [htenant]
          by_cases hprocess : process = p
          · subst hprocess
            simp only [gained, connected, setHandler, broadcastToTenant, withClients, if_true]
            cases hhub : a.hub process with
            | none => simp [receivers, hhub]
            | some clients =>
                simp only [Option.map_some, Option.getD_some, zip_map_self, receivers, hhub,
                  List.filter_map, List.map_map, Function.comp_def, List.map_id']
                apply List.filter_congr
                intro c _
                rw [Bool.eq_iff_iff, decide_eq_true_iff, hlen]
                simp
          · simp only [gained, connected, setHandler, broadcastToTenant, withClients,
              if_neg hprocess]
            rw [List.map_eq_nil_iff, List.filter_eq_nil_iff]
            intro q hq
            have hself := zip_map_self id ((a.hub process).getD [])
            rw [List.map_id] at hself
            rw [hself] at hq
            obtain ⟨c, -, rfl⟩ := List.mem_map.mp hq
            simp
      · simp at hm
  · simp at hm

end

end Api

/-- A message for a user is given to no client of another user if and only if all clients of the
tenant that are connected to the process, and whose send channel has room, are the user's. -/
theorem message_reaches_only_user_iff {cfg : Config} {a a' : Api} {i : Nat} {subject : String}
    {m : Announcement} (hm : a.announces? i = some m)
    (hstep : a.step cfg (.broadcast i subject) = some a') :
    (∀ process, ∀ c ∈ a.gained a' process, c.externalUserID = m.user) ↔
      ∀ c ∈ a.connected m.process, c.tenantID = m.tenantID → c.hasRoom = true →
        c.externalUserID = m.user := by
  have hreceivers : ∀ c, c ∈ a.receivers m.process m.tenantID ↔
      c ∈ a.connected m.process ∧ c.tenantID = m.tenantID ∧ c.hasRoom = true := by
    intro c
    simp [Api.receivers, Api.connected]
  constructor
  · intro h c hc htenant hroom
    apply h m.process c
    rw [Api.gained_broadcast hm hstep, if_pos rfl]
    exact (hreceivers c).mpr ⟨hc, htenant, hroom⟩
  · intro h process c hc
    rw [Api.gained_broadcast hm hstep] at hc
    split at hc
    · obtain ⟨hconnected, htenant, hroom⟩ := (hreceivers c).mp hc
      exact h c hconnected htenant hroom
    · simp at hc

def requestForAlice : Request :=
  { sampleRequest ["websocket"] ⟨"", ""⟩ "" with
    target := ⟨"websocket_user", some (JsonMap.empty.set "external_user_id" (.str "alice")), ""⟩ }

def clientOf (id : Nat) (user : String) : Client := ⟨id, "t1", "", user, []⟩

def acceptedForAlice : List ApiEvent :=
  .sendPublic 0 1 "t1" requestForAlice :: List.replicate 10 (.call 0 {}) ++ [.answer 0]

private theorem exists_broadcast (clients : List Client) (p : Api → Api → Bool)
    (h : (execute (Api.step (sampleConfig 3)) (fun _ _ => true) (sampleApi clients)
      acceptedForAlice).any (fun a => decide (a.announces? 0 = some ⟨0, "t1", "alice", "ntf_1"⟩) &&
        (a.step (sampleConfig 3) (.broadcast 0 "")).any (p a)) = true) :
    ∃ a a', (sampleApi clients).RunOf (sampleConfig 3) (fun _ _ => True) acceptedForAlice a ∧
      a.announces? 0 = some ⟨0, "t1", "alice", "ntf_1"⟩ ∧
      a.step (sampleConfig 3) (.broadcast 0 "") = some a' ∧ p a a' = true := by
  obtain ⟨a, hrun, hcheck⟩ := Api.exists_run (sampleConfig 3) (fun _ _ => true) (sampleApi clients)
    acceptedForAlice _ h
  obtain ⟨hm, hany⟩ := Bool.and_eq_true_iff.mp hcheck
  cases hstep : a.step (sampleConfig 3) (.broadcast 0 "") with
  | none => simp [hstep] at hany
  | some a' =>
      rw [hstep] at hany
      exact ⟨a, a', hrun.mono fun _ _ _ => trivial, of_decide_eq_true hm, hstep, hany⟩

/-- Two clients of the user are connected, and both are given the message. -/
theorem message_reaches_only_alice : ∃ a a' : Api,
    a.announces? 0 = some ⟨0, "t1", "alice", "ntf_1"⟩ ∧
      a.step (sampleConfig 3) (.broadcast 0 "") = some a' ∧ (a.gained a' 0).length = 2 ∧
      ∀ process, ∀ c ∈ a.gained a' process, c.externalUserID = "alice" := by
  obtain ⟨a, a', -, hm, hstep, hcheck⟩ := exists_broadcast [clientOf 1 "alice", clientOf 2 "alice"]
    (fun a a' => (a.gained a' 0).length == 2 &&
      (a.connected 0).all fun c => c.externalUserID == "alice") (by decide +kernel)
  obtain ⟨hlength, hall⟩ := Bool.and_eq_true_iff.mp hcheck
  refine ⟨a, a', hm, hstep, by simpa using hlength, ?_⟩
  apply (message_reaches_only_user_iff hm hstep).mpr
  intro c hc _ _
  simpa using List.all_eq_true.mp hall c hc

/-- A client of another user of the tenant is given the message too. -/
theorem message_reaches_bob : ¬∀ (cfg : Config) (a₀ a a' : Api) (es : List ApiEvent) (i : Nat)
    (subject : String) (m : Announcement), a₀.Fresh → a₀.RunOf cfg (fun _ _ => True) es a →
    a.announces? i = some m → a.step cfg (.broadcast i subject) = some a' →
      ∀ process, ∀ c ∈ a.gained a' process, c.externalUserID = m.user := by
  intro h
  obtain ⟨a, a', hrun, hm, hstep, hcheck⟩ := exists_broadcast [clientOf 1 "alice", clientOf 2 "bob"]
    (fun a a' => (a.gained a' 0).any fun c => c.externalUserID == "bob") (by decide +kernel)
  obtain ⟨c, hc, hbob⟩ := List.any_eq_true.mp hcheck
  have halice := h _ _ _ _ _ _ _ _ (sampleApi_fresh _) hrun hm hstep 0 c hc
  rw [of_decide_eq_true hbob] at halice
  exact absurd halice (by decide)

namespace Api

/-- A message for a user went out while no client of the user was connected, and a client of the
user has connected since. -/
structure Missed (cfg : Config) (a : Api) (process : Nat) (c : Client) (m : Announcement) :
    Prop where
  run : ∃ (a₀ a₁ : Api) (before since : List ApiEvent) (i : Nat) (subject : String),
    a₀.Fresh ∧ a₀.RunOf cfg (fun _ _ => True) before a₁ ∧ a₁.announces? i = some m ∧
      (∀ p, ∀ x ∈ a₁.connected p, x.tenantID = m.tenantID → x.externalUserID ≠ m.user) ∧
      a₁.RunOf cfg (fun _ _ => True) (.broadcast i subject :: since ++ [.connect process c]) a
  client : c.tenantID = m.tenantID ∧ c.externalUserID = m.user

/-- `SyncUnread` reads the row of the message for the client, and enqueues every row it reads. -/
structure Resyncs (a : Api) (process : Nat) (c : Client) (m : Announcement) : Prop where
  reads : ∃ row ∈ a.unread c, row.tenantID = m.tenantID ∧ row.notificationID = m.publicID
  enqueues : ∀ row ∈ a.unread c,
    ⟨c.id, row.delivery, row.req, a.sys.db.now⟩ ∈ (a.syncUnread process c.id).frames

theorem unread_eq_nil {cfg : Config} {ok : Api → ApiEvent → Prop} {a₀ a : Api}
    {es : List ApiEvent} (hfresh : a₀.Fresh) (hrun : a₀.RunOf cfg ok es a) (c : Client) :
    a.unread c = [] := by
  rw [unread, inApp_eq_nil hfresh hrun]
  rfl

end Api

/-- No message that a user missed is delivered when a client of the user connects. -/
theorem missed_message_never_synced {cfg : Config} {a : Api} {process : Nat} {c : Client}
    {m : Announcement} (hmissed : a.Missed cfg process c m) : ¬a.Resyncs process c m := by
  intro hsync
  obtain ⟨a₀, a₁, before, since, i, subject, hfresh, hrun, -, -, hrest⟩ := hmissed.run
  obtain ⟨row, hrow, -⟩ := hsync.reads
  rw [Api.unread_eq_nil hfresh (hrun.append hrest)] at hrow
  simp at hrow

private def sends : ApiEvent → Bool
  | .sendPublic _ _ _ _ | .call _ _ | .answer _ => true
  | _ => false

private theorem hub_of_sends {cfg : Config} {a a' : Api} {es : List ApiEvent}
    (hrun : a.RunOf cfg (fun _ e => sends e = true) es a') : a'.hub = a.hub := by
  apply hrun.invariant (I := fun x => x.hub = a.hub) ?_ rfl
  intro x e x' hhub hsends hstep
  rw [← hhub]
  cases e with
  | sendPublic process unixNano t req =>
      obtain rfl := Option.some.inj hstep
      rfl
  | call i o =>
      simp only [Api.step] at hstep
      split at hstep
      · simp at hstep
      · split at hstep
        · simp at hstep
        · obtain rfl := Option.some.inj hstep
          rfl
  | answer i =>
      simp only [Api.step] at hstep
      split at hstep
      · obtain rfl := Option.some.inj hstep
        rfl
      · simp at hstep
  | _ => simp [sends] at hsends

private theorem alice_missed :
    ∃ a : Api, a.Missed (sampleConfig 3) 0 (clientOf 2 "alice") ⟨0, "t1", "alice", "ntf_1"⟩ := by
  obtain ⟨a₁, hrun, hcheck⟩ := Api.exists_run (sampleConfig 3) (fun _ e => sends e)
    (sampleApi [clientOf 1 "bob"]) acceptedForAlice
    (fun a => decide (a.announces? 0 = some ⟨0, "t1", "alice", "ntf_1"⟩) &&
      (execute (Api.step (sampleConfig 3)) (fun _ _ => true) a
        [.broadcast 0 "", .record 0 {}, .connect 0 (clientOf 2 "alice")]).isSome)
    (by decide +kernel)
  obtain ⟨hm, hsome⟩ := Bool.and_eq_true_iff.mp hcheck
  obtain ⟨a, hexec⟩ := Option.isSome_iff_exists.mp hsome
  have habsent : ∀ p, ∀ x ∈ a₁.connected p, x.tenantID = "t1" → x.externalUserID ≠ "alice" := by
    intro p x hx _
    rw [Api.connected, hub_of_sends hrun] at hx
    by_cases hp : p = 0
    · have hbob : x = clientOf 1 "bob" := by simpa [sampleApi, hp] using hx
      rw [hbob]
      decide
    · simp [sampleApi, hp] at hx
  exact ⟨a, ⟨_, a₁, acceptedForAlice, [.record 0 {}], 0, "", sampleApi_fresh _,
    hrun.mono fun _ _ _ => trivial, of_decide_eq_true hm, habsent,
    Run.of_execute (fun _ _ _ => trivial) hexec⟩, rfl, rfl⟩

/-- The run of a user who connects after the message went out. -/
theorem missed_message_never_synced_alice : ∃ a : Api,
    a.Missed (sampleConfig 3) 0 (clientOf 2 "alice") ⟨0, "t1", "alice", "ntf_1"⟩ ∧
      ¬a.Resyncs 0 (clientOf 2 "alice") ⟨0, "t1", "alice", "ntf_1"⟩ := by
  obtain ⟨a, hmissed⟩ := alice_missed
  exact ⟨a, hmissed, missed_message_never_synced hmissed⟩

/-- In that run the message is lost to the user. -/
theorem missed_message_lost : ¬∀ (cfg : Config) (a : Api) (process : Nat) (c : Client)
    (m : Announcement), a.Missed cfg process c m → a.Resyncs process c m := by
  intro h
  obtain ⟨a, hmissed⟩ := alice_missed
  obtain ⟨row, hrow, -⟩ := (h _ a _ _ _ hmissed).reads
  obtain ⟨a₀, a₁, before, since, i, subject, hfresh, hrun, -, -, hrest⟩ := hmissed.run
  rw [Api.unread_eq_nil hfresh (hrun.append hrest)] at hrow
  simp at hrow

end NotificationPlatform

import NotificationPlatform.Gates
import NotificationPlatform.SendAtomicity

/-!
# The connection pool

Concurrent calls of `Send` over a pool of connections whose `Acquire` blocks. The gates and
`EnsureControl` take a connection for each query and give it back, the transaction keeps one from
`Begin` to its end. `EnsureControl` is called with the pool while the transaction is open.
-/

namespace NotificationPlatform

open Lib

/-- The arguments of a call of `Send`, with the clock reading of its public id. -/
structure SendCall where
  unixNano : Nat
  tenantID : String
  req : Request

def SendCall.party (x : SendCall) : Party := .request x.tenantID x.req

/-- A call in progress: whether it holds the connection of its transaction, and whether it has a
connection for the query it is at. -/
structure Sender where
  call : SendCall
  prog : Code (Except Err Accepted)
  holds : Bool
  busy : Bool

def Stmt.acquires : Stmt → Bool
  | .selectTenantStatus _ | .selectFeature _ _ | .selectChannelConfig _ _ | .begin
  | .ensureControl _ _ => true
  | _ => false

def Stmt.mayAcquire : Stmt → Bool
  | .allow _ _ => true
  | stmt => stmt.acquires

def Stmt.isEnsureControl : Stmt → Bool
  | .ensureControl _ _ => true
  | _ => false

def Stmt.isBegin : Stmt → Bool
  | .begin => true
  | _ => false

namespace Sender

def start (cfg : Config) (x : SendCall) : Sender :=
  ⟨x, (Notifications.send cfg x.unixNano x.tenantID x.req).run, false, false⟩

def connections (x : Sender) : Nat := x.holds.toNat + x.busy.toNat

/-- A sender that waits for a connection in `EnsureControl`. -/
def waits (x : Sender) : Bool :=
  !x.busy && x.prog.next?.any fun c => c.stmt.isEnsureControl

/-- The sender after the reply to a call: `Begin` keeps its connection, all others give theirs back,
and the end of `Send` commits or rolls back. -/
def resume (x : Sender) (c : Call) (r : Reply c) (prog : Code (Except Err Accepted)) : Sender :=
  { x with
    prog := prog
    holds := match prog with
      | .ret _ => false
      | .call _ _ => x.holds || (c.stmt.isBegin && r.isOk)
    busy := false }

theorem resume_of_next {x : Sender} {c : Call} {r : Reply c} {prog : Code (Except Err Accepted)}
    (hnext : prog.next? ≠ none) :
    x.resume c r prog = ⟨x.call, prog, x.holds || (c.stmt.isBegin && r.isOk), false⟩ := by
  cases prog with
  | ret a => simp [Prog.next?] at hnext
  | call c' k => rfl

end Sender

structure PoolWorld where
  size : Nat
  sys : Sys
  senders : List Sender

/-- A sender gets a connection for its next statement; between two queries of `EnsureControl` it
gives it back; its statement is executed; its context ends while it waits for a connection. -/
inductive PoolEvent where
  | acquire (i : Nat)
  | pause (i : Nat)
  | execute (i : Nat) (o : Outcome)
  | giveUp (i : Nat)

namespace PoolWorld

def inUse (w : PoolWorld) : Nat := (w.senders.map Sender.connections).sum

def setSender (w : PoolWorld) (i : Nat) (x : Sender) : PoolWorld :=
  { w with senders := w.senders.set i x }

def step (cfg : Config) (w : PoolWorld) : PoolEvent → Option PoolWorld
  | .acquire i =>
      match w.senders[i]? with
      | some x =>
          match x.prog with
          | .call c _ =>
              if c.stmt.mayAcquire && !x.busy && decide (w.inUse < w.size) then
                some (w.setSender i { x with busy := true })
              else none
          | .ret _ => none
      | none => none
  | .pause i =>
      match w.senders[i]? with
      | some x =>
          match x.prog with
          | .call c _ =>
              if c.stmt.isEnsureControl && x.busy then
                some (w.setSender i { x with busy := false })
              else none
          | .ret _ => none
      | none => none
  | .execute i o =>
      match w.senders[i]? with
      | some x =>
          match x.prog with
          | .call c k =>
              if c.stmt.acquires && !x.busy then none
              else
                let r := w.sys.exec cfg x.call.party c o
                some ({ w with sys := r.2 }.setSender i (x.resume c r.1 (k r.1)))
          | .ret _ => none
      | none => none
  | .giveUp i =>
      match w.senders[i]? with
      | some x =>
          match x.prog with
          | .call c k =>
              if c.stmt.mayAcquire && !x.busy then
                some (w.setSender i (x.resume c (.error .driver) (k (.error .driver))))
              else none
          | .ret _ => none
      | none => none

abbrev RunOf (cfg : Config) (ok : PoolWorld → PoolEvent → Prop) :
    PoolWorld → List PoolEvent → PoolWorld → Prop :=
  Run (step cfg) ok

def start (cfg : Config) (size : Nat) (s : Sys) (calls : List SendCall) : PoolWorld :=
  ⟨size, s, calls.map (Sender.start cfg)⟩

/-- All connections are held by transactions, each of which waits for another connection in
`EnsureControl`. -/
structure Deadlocked (w : PoolWorld) : Prop where
  full : w.senders.countP Sender.holds = w.size
  waiting : ∀ x ∈ w.senders, x.holds = true → x.waits = true

end PoolWorld

/-- The call gets past its gates and creates its deliveries at once. -/
def SendCall.admitted (cfg : Config) (db : Db) (x : SendCall) : Bool :=
  decide (x.tenantID ≠ "") && !x.req.channels.isEmpty &&
    (match scheduleState cfg x.req.withDefaultSchedule.schedule with
      | .ok (none, _) => true
      | _ => false) &&
    x.req.channels.all fun channel =>
      (gatesOf channel).all fun fact => fact.isOpen x.tenantID db

theorem SendCall.admitted_iff {cfg : Config} {db : Db} {x : SendCall} :
    x.admitted cfg db = true ↔ x.tenantID ≠ "" ∧ x.req.channels ≠ [] ∧
      (∃ status, scheduleState cfg x.req.withDefaultSchedule.schedule = .ok (none, status)) ∧
      ∀ channel ∈ x.req.channels, GatesOpen x.tenantID db channel := by
  have hstate : (match scheduleState cfg x.req.withDefaultSchedule.schedule with
      | .ok (none, _) => true
      | _ => false) = true ↔
      ∃ status, scheduleState cfg x.req.withDefaultSchedule.schedule = .ok (none, status) := by
    split
    · next status heq => simp [heq]
    · next hother =>
        simp only [Bool.false_eq_true, false_iff]
        rintro ⟨status, heq⟩
        exact hother status heq
  simp only [admitted, Bool.and_eq_true, hstate, decide_eq_true_eq, Bool.not_eq_true',
    List.isEmpty_eq_false_iff, List.all_eq_true, GateFact.isOpen_iff, GatesOpen, and_assoc]

def SameGates (db db' : Db) : Prop := ∀ t x, GateFact.Holds t db x ↔ x.Holds t db'

theorem SendCall.admitted_congr {cfg : Config} {db db' : Db} (h : SameGates db db') :
    SendCall.admitted cfg db = SendCall.admitted cfg db' := by
  funext x
  have hopen : ∀ channel, GatesOpen x.tenantID db channel ↔ GatesOpen x.tenantID db' channel := by
    intro channel
    apply forall₂_congr
    intro fact _
    exact h x.tenantID fact
  rw [Bool.eq_iff_iff, admitted_iff, admitted_iff]
  simp only [hopen]

/-- The time of the notification in the transaction is that of the request, and a delivery is only
created when there is none. -/
structure Dated (cfg : Config) (req : Request) (stage : Stage) : Prop where
  tx : ∀ tx, stage.tx? = some tx → ∃ status,
    scheduleState cfg req.withDefaultSchedule.schedule = .ok (tx.notification.2.scheduledAt, status)
  creating : ∀ n id tx channel todo ensured, stage = .creating n id tx channel todo ensured →
    tx.notification.2.scheduledAt = none

section

variable {cfg : Config} {s s' : Sys} {t : String} {req : Request} {stage stage' : Stage} {c : Call}
  {success : Bool}

theorem dated_of_none (h : stage.tx? = none) : Dated cfg req stage where
  tx tx htx := by simp [h] at htx
  creating n id tx channel todo ensured hstage := by simp [hstage, Stage.tx?] at h

theorem Dated.call (heffect : Effect cfg s (.request t req) stage c success stage' s')
    (h : Dated cfg req stage) : Dated cfg req stage' := by
  cases heffect with
  | gate _ => exact dated_of_none rfl
  | gateClosed => exact dated_of_none rfl
  | begin _ => exact dated_of_none rfl
  | commit _ => exact dated_of_none rfl
  | giveUp _ _ => exact dated_of_none rfl
  | insertNotification hrow hstate =>
      refine ⟨?_, by simp⟩
      intro tx htx
      obtain rfl := Option.some.inj htx
      rw [hrow]
      exact ⟨_, hstate⟩
  | @insertScheduledJob t req n dueAt tx₀ todo _ _ =>
      refine ⟨?_, by simp⟩
      intro tx htx
      obtain rfl := Option.some.inj htx
      exact h.tx tx₀ rfl
  | @insertTxDelivery t channel req n i tx₀ target todo hinstant =>
      refine ⟨?_, ?_⟩
      · intro tx htx
        obtain rfl := Option.some.inj htx
        exact h.tx tx₀ rfl
      · intro n id tx channel todo ensured hstage
        cases hstage
        exact hinstant
  | sendEnsureControl _ =>
      refine ⟨h.tx, ?_⟩
      intro n id tx channel todo ensured hstage
      cases hstage
      exact h.creating _ _ _ _ _ _ rfl
  | sendPublish _ => exact ⟨h.tx, by simp⟩

end

/-- How far a sender has come, in a database with the given gates. -/
structure Sender.Sound (cfg : Config) (db : Db) (x : Sender) : Prop where
  named : ∀ c k, x.prog = .call c k → x.call.tenantID ≠ "" ∧ x.call.req.channels ≠ []
  stage : ∃ stage, Prog.Follows (Allowed cfg x.call.party) (fun _ _ => True) stage x.prog ∧
    RequestGated db x.call.tenantID x.call.req stage ∧ Dated cfg x.call.req stage

namespace Sender

variable {cfg : Config} {db : Db} {x : Sender}

theorem sound_start (cfg : Config) (db : Db) (call : SendCall) :
    (start cfg call).Sound cfg db where
  named c k hprog := by
    simp only [start, Notifications.send] at hprog
    by_cases ht : call.tenantID = ""
    · rw [if_pos ht] at hprog
      cases hprog
    · rw [if_neg ht] at hprog
      by_cases hchannels : call.req.channels = []
      · rw [if_pos hchannels] at hprog
        cases hprog
      · exact ⟨ht, hchannels⟩
  stage := by
    refine ⟨.gates [], send_follows cfg _ _ _, ?_, dated_of_none rfl⟩
    refine ⟨?_, by simp [Stage.stores], by simp [Stage.tx?]⟩
    intro facts hstage channel _ fact _ hmem
    obtain rfl := Stage.gates.inj hstage
    simp at hmem

theorem Sound.admitted (h : x.Sound cfg db) (hwaits : x.waits = true) :
    x.call.admitted cfg db = true := by
  obtain ⟨stage, hfollows, hgated, hdated⟩ := h.stage
  obtain ⟨⟨unixNano, t, req⟩, prog, holds, busy⟩ := x
  cases prog with
  | ret r => simp [waits, Prog.next?] at hwaits
  | call c k =>
      obtain ⟨ht, hchannels⟩ := h.named c k rfl
      obtain ⟨f, hallowed, -⟩ := hfollows
      have hensure : c.stmt.isEnsureControl = true := by
        simpa [waits, Prog.next?] using (Bool.and_eq_true_iff.mp hwaits).2
      simp only [SendCall.party] at hallowed
      cases hallowed with
      | @sendEnsureControl t channel req n i id tx todo =>
          obtain ⟨status, hstate⟩ := hdated.tx tx rfl
          rw [hdated.creating _ _ _ _ _ _ rfl] at hstate
          exact SendCall.admitted_iff.mpr ⟨ht, hchannels, ⟨status, hstate⟩, hgated.passed rfl⟩
      | _ => simp [Stmt.isEnsureControl] at hensure

theorem Sound.resume {s : Sys} {c : Call} {k : Reply c → Code (Except Err Accepted)}
    (h : x.Sound cfg db) (hsame : SameGates s.db db) (hprog : x.prog = .call c k) (o : Outcome) :
    (x.resume c (s.exec cfg x.call.party c o).1 (k (s.exec cfg x.call.party c o).1)).Sound cfg db ∧
      SameGates (s.exec cfg x.call.party c o).2.db db := by
  obtain ⟨stage, hfollows, hgated, hdated⟩ := h.stage
  rw [hprog] at hfollows
  obtain ⟨f, hallowed, hrest⟩ := hfollows
  have heffect := hallowed.effect o s
  have hsame' : SameGates (s.exec cfg x.call.party c o).2.db db := by
    intro t fact
    exact (heffect.gate_iff t fact).trans (hsame t fact)
  refine ⟨⟨fun _ _ _ => h.named c k hprog, _, hrest _, ?_, hdated.call heffect⟩, hsame'⟩
  have hbefore : RequestGated s.db x.call.tenantID x.call.req stage :=
    hgated.mono fun fact hfact => (hsame _ fact).mpr hfact
  exact (RequestGated.call heffect hbefore).mono fun fact hfact => (hsame' _ fact).mp hfact

theorem Sound.giveUp {s : Sys} {c : Call} {k : Reply c → Code (Except Err Accepted)}
    (h : x.Sound cfg db) (hsame : SameGates s.db db) (hprog : x.prog = .call c k) :
    (x.resume c (.error .driver) (k (.error .driver))).Sound cfg db := by
  have hfailed := (h.resume hsame hprog { fail := true }).1
  rwa [Sys.exec, if_pos rfl] at hfailed

end Sender

namespace PoolWorld

variable {cfg : Config} {db : Db} {w w' : PoolWorld} {e : PoolEvent}

/-- Every sender is sound, and no sender changes what the gates read. -/
structure Sound (cfg : Config) (db : Db) (w : PoolWorld) : Prop where
  gates : SameGates w.sys.db db
  senders : ∀ x ∈ w.senders, x.Sound cfg db

theorem sound_set {senders : List Sender} {i : Nat} {x : Sender}
    (h : ∀ y ∈ senders, y.Sound cfg db) (hx : x.Sound cfg db) :
    ∀ y ∈ senders.set i x, y.Sound cfg db := by
  intro y hy
  rcases List.mem_or_eq_of_mem_set hy with hy | rfl
  · exact h y hy
  · exact hx

theorem step_cases (hstep : w.step cfg e = some w') :
    w'.size = w.size ∧ ∃ i x x', w.senders[i]? = some x ∧ x'.call = x.call ∧
      w'.senders = w.senders.set i x' ∧
      ((w'.sys = w.sys ∧ x'.prog = x.prog) ∨
        ∃ c k, x.prog = .call c k ∧
          ((w'.sys = w.sys ∧ x' = x.resume c (.error .driver) (k (.error .driver))) ∨
            ∃ o, w'.sys = (w.sys.exec cfg x.call.party c o).2 ∧
              x' = x.resume c (w.sys.exec cfg x.call.party c o).1
                (k (w.sys.exec cfg x.call.party c o).1))) := by
  cases e with
  | acquire i =>
      simp only [step] at hstep
      split at hstep
      · next x hx =>
          split at hstep
          · split at hstep
            · obtain rfl := Option.some.inj hstep
              exact ⟨rfl, i, x, { x with busy := true }, hx, rfl, rfl, .inl ⟨rfl, rfl⟩⟩
            · simp at hstep
          · simp at hstep
      · simp at hstep
  | pause i =>
      simp only [step] at hstep
      split at hstep
      · next x hx =>
          split at hstep
          · split at hstep
            · obtain rfl := Option.some.inj hstep
              exact ⟨rfl, i, x, { x with busy := false }, hx, rfl, rfl, .inl ⟨rfl, rfl⟩⟩
            · simp at hstep
          · simp at hstep
      · simp at hstep
  | execute i o =>
      simp only [step] at hstep
      split at hstep
      · next x hx =>
          split at hstep
          · next c k hprog =>
              split at hstep
              · simp at hstep
              · obtain rfl := Option.some.inj hstep
                refine ⟨rfl, i, x, x.resume c _ (k _), hx, rfl, rfl, .inr ⟨c, k, hprog, .inr ?_⟩⟩
                exact ⟨o, rfl, rfl⟩
          · simp at hstep
      · simp at hstep
  | giveUp i =>
      simp only [step] at hstep
      split at hstep
      · next x hx =>
          split at hstep
          · next c k hprog =>
              split at hstep
              · obtain rfl := Option.some.inj hstep
                refine ⟨rfl, i, x, x.resume c _ (k _), hx, rfl, rfl, .inr ⟨c, k, hprog, .inl ?_⟩⟩
                exact ⟨rfl, rfl⟩
              · simp at hstep
          · simp at hstep
      · simp at hstep

theorem Sound.step (h : w.Sound cfg db) (hstep : w.step cfg e = some w') : w'.Sound cfg db := by
  obtain ⟨-, i, x, x', hx, hcall, hsenders, hcases⟩ := step_cases hstep
  have hsound := h.senders x (List.mem_of_getElem? hx)
  rcases hcases with ⟨hsys, hprog⟩ | ⟨c, k, hprog, ⟨hsys, rfl⟩ | ⟨o, hsys, rfl⟩⟩
  · refine ⟨by rw [hsys]; exact h.gates, ?_⟩
    rw [hsenders]
    apply sound_set h.senders
    refine ⟨?_, ?_⟩
    · rw [hprog, hcall]
      exact hsound.named
    · rw [hprog, hcall]
      exact hsound.stage
  · refine ⟨by rw [hsys]; exact h.gates, ?_⟩
    rw [hsenders]
    exact sound_set h.senders (hsound.giveUp h.gates hprog)
  · obtain ⟨hresume, hgates⟩ := hsound.resume h.gates hprog o
    refine ⟨by rw [hsys]; exact hgates, ?_⟩
    rw [hsenders]
    exact sound_set h.senders hresume

theorem calls_step (hstep : w.step cfg e = some w') :
    w'.senders.map Sender.call = w.senders.map Sender.call ∧ w'.size = w.size := by
  obtain ⟨hsize, i, x, x', hx, hcall, hsenders, -⟩ := step_cases hstep
  refine ⟨?_, hsize⟩
  obtain ⟨before, after, hsplit, -, hset⟩ := exists_split_of_getElem? hx
  rw [hsenders, hset, hsplit]
  simp [hcall]

theorem run_sound {size : Nat} {s : Sys} {calls : List SendCall}
    {ok : PoolWorld → PoolEvent → Prop} {es : List PoolEvent}
    (hrun : (start cfg size s calls).RunOf cfg ok es w) :
    w.Sound cfg s.db ∧ w.senders.map Sender.call = calls ∧ w.size = size := by
  apply hrun.invariant (I := fun w => w.Sound cfg s.db ∧ w.senders.map Sender.call = calls ∧
    w.size = size)
  · intro w e w' h _ hstep
    obtain ⟨hcalls, hsize⟩ := calls_step hstep
    exact ⟨h.1.step hstep, hcalls.trans h.2.1, hsize.trans h.2.2⟩
  · refine ⟨⟨fun _ _ => Iff.rfl, ?_⟩, ?_, rfl⟩
    · intro x hx
      obtain ⟨call, -, rfl⟩ := List.mem_map.mp hx
      exact Sender.sound_start cfg s.db call
    · simp only [start, List.map_map]
      exact List.map_id'' (fun _ => rfl) calls

theorem Deadlocked.le_admitted {size : Nat} {s : Sys} {calls : List SendCall}
    {ok : PoolWorld → PoolEvent → Prop} {es : List PoolEvent}
    (hrun : (start cfg size s calls).RunOf cfg ok es w) (h : w.Deadlocked) :
    size ≤ calls.countP (SendCall.admitted cfg s.db) := by
  obtain ⟨hsound, hcalls, hsize⟩ := run_sound hrun
  rw [← hsize, ← h.full, ← hcalls, List.countP_map]
  apply List.countP_mono_left
  intro x hx hholds
  exact (hsound.senders x hx).admitted (h.waiting x hx hholds)

end PoolWorld

section

variable {cfg : Config} {party : Party} {t : String} {s : Sys}

private theorem reaches_bind {α β : Type} {P : Call → Prop} {p : Go α} {f : α → Go β} {a : α}
    {q : Code (Except Err β)} {s₁ s₂ : Sys}
    (hp : Prog.Reaches (handler cfg party fun _ => {}) P p.run s (.ret (.ok a)) s₁)
    (hf : Prog.Reaches (handler cfg party fun _ => {}) P (f a).run s₁ q s₂) :
    Prog.Reaches (handler cfg party fun _ => {}) P (p >>= f).run s q s₂ :=
  (hp.bind _).trans hf

private theorem call_returns {P : Call → Prop} {site : Site} {stmt : Stmt} {r : Result stmt}
    {s₁ : Sys} (hc : P ⟨site, stmt⟩) (hperform : s.perform cfg party {} stmt = .ok (r, s₁)) :
    Prog.Reaches (handler cfg party fun _ => {}) P (call site stmt).run s (.ret (.ok r)) s₁ :=
  .of_call (s := ⟨site, stmt⟩) hc (handler_ok rfl hperform) (.refl _ s₁)

private theorem attempt_returns {P : Call → Prop} {site : Site} {stmt : Stmt} {r : Result stmt}
    {s₁ : Sys} (hc : P ⟨site, stmt⟩) (hperform : s.perform cfg party {} stmt = .ok (r, s₁)) :
    Prog.Reaches (handler cfg party fun _ => {}) P (attempt site stmt).run s
      (.ret (.ok (.ok r))) s₁ :=
  .of_call (s := ⟨site, stmt⟩) hc (handler_ok rfl hperform) (.refl _ s₁)

private theorem ensureActive_returns (hactive : s.db.tenantStatus t = .ok .active) :
    Prog.Reaches (handler cfg party fun _ => {}) (fun c => c.stmt.isBegin = false)
      (Notifications.ensureActive t).run s (.ret (.ok ())) s := by
  have hread : s.perform cfg party {} (.selectTenantStatus t) = .ok (.active, s) := by
    simp [Sys.perform, hactive, Except.map]
  exact reaches_bind (call_returns rfl hread) (.refl _ s)

private theorem checkChannel_returns {channel : String} (hopen : GatesOpen t s.db channel)
    (i : Nat) :
    Prog.Reaches (handler cfg party fun _ => {}) (fun c => c.stmt.isBegin = false)
      (Notifications.checkChannel t i channel).run s (.ret (.ok ())) s := by
  have hfeature : s.perform cfg party {} (.selectFeature t ("channel." ++ channel)) =
      .ok (true, s) := by
    have hholds : s.db.featureEnabled t ("channel." ++ channel) = .ok true :=
      hopen (.feature channel) (by simp [gatesOf])
    simp [Sys.perform, hholds, Except.map]
  obtain ⟨config, hvalid, hcheck⟩ := hopen (.valid channel) (by simp [gatesOf])
  have hconfig : s.perform cfg party {} (.selectChannelConfig t channel) = .ok (config, s) := by
    simp [Sys.perform, hvalid, Except.map]
  have hallow : s.perform cfg party {} (.allow t channel) = .ok (true, s) := rfl
  refine reaches_bind (attempt_returns rfl hfeature) ?_
  refine reaches_bind (attempt_returns rfl hconfig) ?_
  simp only [hcheck]
  exact reaches_bind (attempt_returns rfl hallow) (.refl _ s)

private theorem checkChannels_returns {channels : List String}
    (hopen : ∀ channel ∈ channels, GatesOpen t s.db channel) (i : Nat) :
    Prog.Reaches (handler cfg party fun _ => {}) (fun c => c.stmt.isBegin = false)
      (Notifications.checkChannels t i channels).run s (.ret (.ok ())) s := by
  induction channels generalizing i with
  | nil => exact .refl _ s
  | cons channel rest ih =>
      apply reaches_bind (checkChannel_returns (hopen channel (by simp)) i)
      exact ih (fun c hc => hopen c (List.mem_cons_of_mem _ hc)) (i + 1)

private theorem store_reaches_control {α : Type} {req : Request} (hchannels : req.channels ≠ [])
    (publicID : String) (status : NotificationStatus) (f : Unit → Go α) :
    ∃ k, (Notifications.store t publicID req none status >>= f).run =
        .call ⟨.send .begin 0, .begin⟩ k ∧
      ∃ c k' s', c.stmt.isEnsureControl = true ∧ SameGates s'.db s.db ∧
        Prog.Reaches (handler cfg party fun _ => {}) (fun c => c.stmt.acquires = false)
          (k (.ok ())) s (.call c k') s' := by
  obtain ⟨channel, todo, hcons⟩ := List.exists_cons_of_ne_nil hchannels
  obtain ⟨event, channels, template, target, data, priority, schedule, key⟩ := req
  obtain rfl : channels = channel :: todo := hcons
  refine ⟨_, rfl, ⟨.send .ensureControl 0, .ensureControl t channel⟩, _, _, rfl, ?_,
    Prog.Reaches.of_call ?_ (handler_ok rfl rfl)
      (Prog.Reaches.of_call ?_ (handler_ok rfl rfl) (.refl _ _))⟩
  · intro t fact
    cases fact <;> exact Iff.rfl
  · rfl
  · rfl

private theorem send_reaches_control (party : Party) {x : SendCall}
    (hadmitted : x.admitted cfg s.db = true) :
    ∃ k c k' s',
      Prog.Reaches (handler cfg party fun _ => {}) (fun c => c.stmt.isBegin = false)
        (Notifications.send cfg x.unixNano x.tenantID x.req).run s
        (.call ⟨.send .begin 0, .begin⟩ k) s ∧
      c.stmt.isEnsureControl = true ∧ SameGates s'.db s.db ∧
      Prog.Reaches (handler cfg party fun _ => {}) (fun c => c.stmt.acquires = false)
        (k (.ok ())) s (.call c k') s' := by
  obtain ⟨ht, hchannels, ⟨status, hstate⟩, hopen⟩ := SendCall.admitted_iff.mp hadmitted
  rw [← Request.withDefaultSchedule_channels] at hopen
  have hactive : s.db.tenantStatus x.tenantID = .ok .active := by
    obtain ⟨channel, hmem⟩ := List.exists_mem_of_ne_nil _ hchannels
    rw [← Request.withDefaultSchedule_channels] at hmem
    exact hopen channel hmem .active (by simp [gatesOf])
  obtain ⟨k, hstore, c, k', s', hensure, hsame, htransaction⟩ := store_reaches_control
    (by rwa [Request.withDefaultSchedule_channels]) ("ntf_" ++ toString x.unixNano) status _
  refine ⟨k, c, k', s', ?_, hensure, hsame, htransaction⟩
  rw [Notifications.send, if_neg ht, if_neg hchannels]
  apply reaches_bind (ensureActive_returns hactive)
  apply reaches_bind (checkChannels_returns hopen 0)
  rw [hstate, ← hstore]
  exact .refl _ s

end

namespace PoolWorld

variable {cfg : Config} {size : Nat} {s : Sys} {before after : List Sender} {x : Sender}

def others (before after : List Sender) : Nat :=
  (before.map Sender.connections).sum + (after.map Sender.connections).sum

theorem inUse_split (size : Nat) (s : Sys) (before after : List Sender) (x : Sender) :
    inUse ⟨size, s, before ++ x :: after⟩ = others before after + x.connections := by
  simp only [inUse, others, List.map_append, List.map_cons, List.sum_append, List.sum_cons]
  omega

theorem run_execute (cfg : Config) (size : Nat) (s : Sys) (before after : List Sender) {c : Call}
    {k : Reply c → Code (Except Err Accepted)} (hprog : x.prog = .call c k)
    (hready : c.stmt.acquires = true → x.busy = true) :
    RunOf cfg (fun _ _ => True) ⟨size, s, before ++ x :: after⟩ [.execute before.length {}]
      ⟨size, (s.exec cfg x.call.party c {}).2,
        before ++ x.resume c (s.exec cfg x.call.party c {}).1 (k (s.exec cfg x.call.party c {}).1)
          :: after⟩ := by
  apply Run.cons trivial _ (.nil _)
  have hfree : (c.stmt.acquires && !x.busy) = false := by
    cases hacquires : c.stmt.acquires with
    | false => rfl
    | true => simp [hready hacquires]
  simp [step, hprog, hfree, setSender]

theorem run_acquire (cfg : Config) (s : Sys) {c : Call}
    {k : Reply c → Code (Except Err Accepted)} (hprog : x.prog = .call c k)
    (hacquires : c.stmt.acquires = true) (hbusy : x.busy = false)
    (hfree : others before after + x.connections < size) :
    RunOf cfg (fun _ _ => True) ⟨size, s, before ++ x :: after⟩
      [.acquire before.length, .execute before.length {}]
      ⟨size, (s.exec cfg x.call.party c {}).2,
        before ++ x.resume c (s.exec cfg x.call.party c {}).1 (k (s.exec cfg x.call.party c {}).1)
          :: after⟩ := by
  have hmay : c.stmt.mayAcquire = true := by
    cases hstmt : c.stmt <;> simp_all [Stmt.mayAcquire, Stmt.acquires]
  have hstep : step cfg ⟨size, s, before ++ x :: after⟩ (.acquire before.length) =
      some ⟨size, s, before ++ { x with busy := true } :: after⟩ := by
    simp [step, hprog, hmay, hbusy, inUse_split, hfree, setSender]
  apply Run.cons trivial hstep
  exact run_execute cfg size s before after (x := { x with busy := true }) hprog fun _ => rfl

theorem run_reaches {P : Call → Prop} {call : SendCall} {p p' : Code (Except Err Accepted)}
    {s' : Sys} {holds : Bool}
    (hP : ∀ c, P c → c.stmt.isBegin = false ∧
      (c.stmt.acquires = true → others before after + holds.toNat < size))
    (hreach : Prog.Reaches (handler cfg call.party fun _ => {}) P p s p' s')
    (hnext : p'.next? ≠ none) :
    ∃ es, RunOf cfg (fun _ _ => True) ⟨size, s, before ++ ⟨call, p, holds, false⟩ :: after⟩ es
      ⟨size, s', before ++ ⟨call, p', holds, false⟩ :: after⟩ := by
  induction hreach with
  | refl p s => exact ⟨[], .nil _⟩
  | @call c k p' s s' hc hrest ih =>
      obtain ⟨es, hrun⟩ := ih hnext
      obtain ⟨hbegin, hfree⟩ := hP c hc
      have hresume : Sender.resume ⟨call, .call c k, holds, false⟩ c
          (s.exec cfg call.party c {}).1 (k (s.exec cfg call.party c {}).1) =
          ⟨call, k (s.exec cfg call.party c {}).1, holds, false⟩ := by
        have hcall : (k (s.exec cfg call.party c {}).1).next? ≠ none :=
          hrest.next?_ne_none hnext
        rw [Sender.resume_of_next hcall, hbegin]
        simp
      have hstep : ∃ es, RunOf cfg (fun _ _ => True)
          ⟨size, s, before ++ ⟨call, .call c k, holds, false⟩ :: after⟩ es
          ⟨size, (s.exec cfg call.party c {}).2,
            before ++ ⟨call, k (s.exec cfg call.party c {}).1, holds, false⟩ :: after⟩ := by
        rw [← hresume]
        by_cases hacquires : c.stmt.acquires = true
        · refine ⟨_, run_acquire cfg s rfl hacquires rfl ?_⟩
          simpa [Sender.connections] using hfree hacquires
        · exact ⟨_, run_execute cfg size s before after rfl fun h => absurd h hacquires⟩
      obtain ⟨es₁, hstep⟩ := hstep
      exact ⟨es₁ ++ es, hstep.append hrun⟩

theorem run_admitted {call : SendCall} (hadmitted : call.admitted cfg s.db = true)
    (hfree : others before after < size) :
    ∃ es x s', RunOf cfg (fun _ _ => True) ⟨size, s, before ++ Sender.start cfg call :: after⟩ es
        ⟨size, s', before ++ x :: after⟩ ∧
      SameGates s'.db s.db ∧ x.holds = true ∧ x.waits = true := by
  obtain ⟨k, c, k', s', hgates, hensure, hsame, htransaction⟩ := send_reaches_control call.party hadmitted
  have hgate : ∀ c : Call, c.stmt.isBegin = false → c.stmt.isBegin = false ∧
      (c.stmt.acquires = true → others before after + false.toNat < size) :=
    fun c hc => ⟨hc, fun _ => hfree⟩
  have hinside : ∀ c : Call, c.stmt.acquires = false → c.stmt.isBegin = false ∧
      (c.stmt.acquires = true → others before after + true.toNat < size) := by
    intro c hc
    refine ⟨?_, by simp [hc]⟩
    cases hstmt : c.stmt <;> simp_all [Stmt.isBegin, Stmt.acquires]
  obtain ⟨es, hrun⟩ := run_reaches hgate hgates (by simp [Prog.next?])
  obtain ⟨es', hrun'⟩ := run_reaches hinside htransaction (by simp [Prog.next?])
  have hbegin : RunOf cfg (fun _ _ => True)
      ⟨size, s, before ++ ⟨call, .call ⟨.send .begin 0, .begin⟩ k, false, false⟩ :: after⟩
      [.acquire before.length, .execute before.length {}]
      ⟨size, s, before ++ ⟨call, k (.ok ()), true, false⟩ :: after⟩ := by
    have hstep := run_acquire cfg s
      (x := ⟨call, .call ⟨.send .begin 0, .begin⟩ k, false, false⟩) rfl rfl rfl hfree
    have hexec : s.exec cfg call.party ⟨.send .begin 0, .begin⟩ {} = (.ok (), s) := rfl
    rw [hexec, Sender.resume_of_next (htransaction.next?_ne_none (by simp [Prog.next?]))] at hstep
    exact hstep
  refine ⟨_, _, s', hrun.append (hbegin.append hrun'), hsame, rfl, ?_⟩
  simp [Sender.waits, Prog.next?, hensure]

theorem countP_holds_le_inUse (w : PoolWorld) : w.senders.countP Sender.holds ≤ w.inUse := by
  rw [inUse]
  induction w.senders with
  | nil => simp
  | cons x rest ih =>
      rw [List.countP_cons, List.map_cons, List.sum_cons, Sender.connections]
      cases x.holds <;> simp <;> omega

/-- In a deadlock a transaction goes on only when its context ends. -/
theorem Deadlocked.stuck {w : PoolWorld} {i : Nat} (h : w.Deadlocked)
    (hx : w.senders[i]? = some x) (hholds : x.holds = true) (o : Outcome) :
    w.step cfg (.acquire i) = none ∧ w.step cfg (.pause i) = none ∧
      w.step cfg (.execute i o) = none := by
  have hwaits := h.waiting x (List.mem_of_getElem? hx) hholds
  have hfull : ¬w.inUse < w.size := by
    rw [← h.full]
    exact Nat.not_lt.mpr (countP_holds_le_inUse w)
  obtain ⟨call, prog, holds, busy⟩ := x
  obtain ⟨hbusy, hensure⟩ := Bool.and_eq_true_iff.mp hwaits
  obtain rfl : busy = false := by simpa using hbusy
  cases prog with
  | ret a => simp [Prog.next?] at hensure
  | call c k =>
      have hacquires : c.stmt.acquires = true := by
        have hcontrol : c.stmt.isEnsureControl = true := hensure
        cases hstmt : c.stmt <;> simp_all [Stmt.acquires, Stmt.isEnsureControl]
      refine ⟨?_, ?_, ?_⟩
      · simp [step, hx, hfull]
      · simp [step, hx]
      · simp [step, hx, hacquires]

theorem sum_connections {senders : List Sender} (h : ∀ x ∈ senders, x.busy = false) :
    (senders.map Sender.connections).sum = senders.countP Sender.holds := by
  induction senders with
  | nil => rfl
  | cons x rest ih =>
      have hrest := ih fun y hy => h y (List.mem_cons_of_mem _ hy)
      have hx := h x (List.mem_cons_self ..)
      rw [List.map_cons, List.sum_cons, hrest, List.countP_cons, Sender.connections, hx]
      cases x.holds <;> simp [Nat.add_comm]

theorem countP_start (cfg : Config) (calls : List SendCall) :
    (calls.map (Sender.start cfg)).countP Sender.holds = 0 := by
  rw [List.countP_eq_zero]
  intro x hx
  obtain ⟨call, -, rfl⟩ := List.mem_map.mp hx
  simp [Sender.start]

/-- Senders that are between two statements, with those in a transaction at `EnsureControl`. -/
def Settled (senders : List Sender) : Prop :=
  ∀ x ∈ senders, x.busy = false ∧ (x.holds = true → x.waits = true)

theorem Settled.snoc {done : List Sender} (h : Settled done) (hbusy : x.busy = false)
    (hx : x.holds = true → x.waits = true) : Settled (done ++ [x]) := by
  intro y hy
  rcases List.mem_append.mp hy with hdone | hlast
  · exact h y hdone
  · rw [List.mem_singleton.mp hlast]
    exact ⟨hbusy, hx⟩

theorem others_start {done : List Sender} (hsettled : Settled done) (calls : List SendCall) :
    others done (calls.map (Sender.start cfg)) = done.countP Sender.holds := by
  have hstart : ∀ x ∈ calls.map (Sender.start cfg), x.busy = false := by
    intro x hx
    obtain ⟨call, -, rfl⟩ := List.mem_map.mp hx
    rfl
  rw [others, sum_connections fun x hx => (hsettled x hx).1, sum_connections hstart, countP_start,
    Nat.add_zero]

theorem Settled.deadlocked {done : List Sender} (hsettled : Settled done)
    (hfull : done.countP Sender.holds = size) (todo : List SendCall) :
    Deadlocked ⟨size, s, done ++ todo.map (Sender.start cfg)⟩ where
  full := by
    show (done ++ todo.map (Sender.start cfg)).countP Sender.holds = size
    rw [List.countP_append, countP_start, hfull, Nat.add_zero]
  waiting := by
    intro x hx hholds
    rcases List.mem_append.mp hx with hdone | htodo
    · exact (hsettled x hdone).2 hholds
    · obtain ⟨call, -, rfl⟩ := List.mem_map.mp htodo
      simp [Sender.start] at hholds

theorem exists_deadlock (cfg : Config) (size : Nat) (s : Sys) (done : List Sender)
    (todo : List SendCall) (hsettled : Settled done) (hle : done.countP Sender.holds ≤ size)
    (henough : size ≤ done.countP Sender.holds + todo.countP (SendCall.admitted cfg s.db)) :
    ∃ es w, RunOf cfg (fun _ _ => True) ⟨size, s, done ++ todo.map (Sender.start cfg)⟩ es w ∧
      w.Deadlocked := by
  induction todo generalizing s done with
  | nil =>
      have hfull : done.countP Sender.holds = size := by
        simp only [List.countP_nil] at henough
        omega
      exact ⟨[], _, .nil _, hsettled.deadlocked hfull []⟩
  | cons call rest ih =>
      by_cases hfull : done.countP Sender.holds = size
      · exact ⟨[], _, .nil _, hsettled.deadlocked hfull (call :: rest)⟩
      rw [List.countP_cons] at henough
      by_cases hadmitted : call.admitted cfg s.db = true
      · rw [if_pos hadmitted] at henough
        have hfree : others done (rest.map (Sender.start cfg)) < size := by
          rw [others_start hsettled]
          omega
        obtain ⟨es, x, s', hrun, hsame, hholds, hwaits⟩ := run_admitted hadmitted hfree
        have hbusy : x.busy = false := by
          simpa using (Bool.and_eq_true_iff.mp hwaits).1
        have hcount : (done ++ [x]).countP Sender.holds = done.countP Sender.holds + 1 := by
          simp [List.countP_append, hholds]
        rw [← SendCall.admitted_congr hsame] at henough
        obtain ⟨es', w, hrun', hdeadlock⟩ := ih s' (done ++ [x])
          (hsettled.snoc hbusy fun _ => hwaits) (by omega) (by omega)
        rw [List.append_assoc] at hrun'
        exact ⟨es ++ es', w, hrun.append hrun', hdeadlock⟩
      · -- a call that is not admitted need not start
        rw [if_neg hadmitted] at henough
        have hcount : (done ++ [Sender.start cfg call]).countP Sender.holds =
            done.countP Sender.holds := by
          simp [List.countP_append, Sender.start]
        obtain ⟨es, w, hrun, hdeadlock⟩ := ih s (done ++ [Sender.start cfg call])
          (hsettled.snoc rfl (by simp [Sender.start])) (by omega) (by omega)
        rw [List.append_assoc] at hrun
        exact ⟨es, w, hrun, hdeadlock⟩

/-- Concurrent calls of `Send` cannot exhaust the pool with transactions that wait in
`EnsureControl` exactly when fewer of them are admitted than there are connections. -/
theorem pool_never_deadlocks_iff (cfg : Config) (size : Nat) (s : Sys) (calls : List SendCall) :
    (∀ es w, (start cfg size s calls).RunOf cfg (fun _ _ => True) es w → ¬w.Deadlocked) ↔
      calls.countP (SendCall.admitted cfg s.db) < size := by
  constructor
  · intro hnever
    by_contra hmany
    obtain ⟨es, w, hrun, hdeadlock⟩ := exists_deadlock cfg size s [] calls
      (by simp [Settled]) (by simp) (by simpa using hmany)
    exact hnever es w hrun hdeadlock
  · intro hfew es w hrun hdeadlock
    have hmany := hdeadlock.le_admitted hrun
    omega

theorem exists_run (cfg : Config) (w : PoolWorld) (es : List PoolEvent) (p : PoolWorld → Bool)
    (h : (execute (step cfg) (fun _ _ => true) w es).any p = true) :
    ∃ w', w.RunOf cfg (fun _ _ => True) es w' ∧ p w' = true :=
  Run.exists_of_execute (fun _ _ _ => trivial) h

def sampleSteps (i : Nat) : List PoolEvent :=
  [.acquire i, .execute i {}, .acquire i, .execute i {}, .acquire i, .execute i {},
    .execute i {}, .acquire i, .execute i {}, .execute i {}, .execute i {}]

/-- Two calls over a pool of two connections, each with a transaction that waits for another
connection. -/
theorem two_calls_deadlock : ¬∀ (cfg : Config) (size : Nat) (s : Sys) (calls : List SendCall),
    1 ≤ size → (∀ x ∈ calls, x.req.schedule.type = "instant") → ∀ es w,
    (start cfg size s calls).RunOf cfg (fun _ _ => True) es w → ¬w.Deadlocked := by
  intro hclaim
  have hinstant : ∀ x ∈ [(⟨1, "t1", sampleRequest ["email"] ⟨"instant", ""⟩ ""⟩ : SendCall),
      ⟨2, "t1", sampleRequest ["email"] ⟨"instant", ""⟩ ""⟩], x.req.schedule.type = "instant" := by
    simp [sampleRequest]
  obtain ⟨w, hrun, hw⟩ := exists_run (sampleConfig 3)
    (start (sampleConfig 3) 2 sampleWorld.sys
      [⟨1, "t1", sampleRequest ["email"] ⟨"instant", ""⟩ ""⟩,
        ⟨2, "t1", sampleRequest ["email"] ⟨"instant", ""⟩ ""⟩])
    (sampleSteps 0 ++ sampleSteps 1)
    (fun w => decide (w.senders.countP Sender.holds = w.size) &&
      w.senders.all fun x => !x.holds || x.waits)
    (by decide +kernel)
  obtain ⟨hfull, hwaiting⟩ := Bool.and_eq_true_iff.mp hw
  apply hclaim (sampleConfig 3) 2 sampleWorld.sys _ (by decide) hinstant _ w hrun
  refine ⟨of_decide_eq_true hfull, ?_⟩
  intro x hx hholds
  have hor := List.all_eq_true.mp hwaiting x hx
  simpa [hholds] using hor

end PoolWorld

end NotificationPlatform

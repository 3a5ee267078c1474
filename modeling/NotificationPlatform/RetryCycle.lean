import NotificationPlatform.RetryBudget
import NotificationPlatform.Solo

/-!
# The rounds of a delivery that always fails

A worker, the retry loop and the consumer of the dead queue take turns until the row is dead.
Together with the count of `RetryBudget` this decides for which limits a delivery gets as many
tries as the limit says.
-/

namespace NotificationPlatform

open Lib

def Stmt.callsProvider : Stmt → Bool
  | .providerSend _ => true
  | _ => false

def Answered (c : Call) (r : Reply c) : Prop := r.isOk = !c.stmt.callsProvider

/-- Every statement and publication succeeds, every provider fails, and nothing crashes. -/
def FailsAlways (cfg : Config) (w : World) : World.Label → Prop
  | .call party c o => Answered c (w.sys.exec cfg party c o).1
  | .crash _ | .requeue => False
  | _ => True

instance (cfg : Config) (w : World) : (l : World.Label) → Decidable (FailsAlways cfg w l)
  | .call party c o => inferInstanceAs (Decidable ((w.sys.exec cfg party c o).1.isOk = !c.stmt.callsProvider))
  | .crash _ | .requeue => inferInstanceAs (Decidable False)
  | .deliver _ | .request _ _ | .tick | .admin _ | .clock | .none =>
      inferInstanceAs (Decidable True)

/-- The row of a job in a queue is committed, and the queue of its tenant is active. -/
structure Prepared (db : Db) (q : Queue) (job : Job) : Prop where
  row : ∃ row, db.deliveries.get? job.deliveryID = some row ∧
    (q.isChannel = true ∨ ∃ fields, row.response = .obj fields)
  control : ∃ control, db.findControl job.tenantID job.channel = some control ∧
    control.status = .active

def Waiting (s : Sys) (q : Queue) (job : Job) : Prop :=
  ⟨q, some job⟩ ∈ s.broker.ready ∧ Prepared s.db q job

def failing (c : Call) : Outcome :=
  match c.stmt with
  | .providerSend _ => { fail := true }
  | _ => {}

/-- Queues and queue controls are as before, and the row of the delivery is there. -/
private structure Reaches (s : Sys) (id : Nat) (row : DeliveryRow) (s' : Sys) : Prop where
  controls : s'.db.controls = s.db.controls
  broker : s'.broker = s.broker
  row : s'.db.deliveries.get? id = some row

section

variable {cfg : Config} {s : Sys} {d : Delivery} {job : Job} {row row' : DeliveryRow}
  {f : DeliveryRow → Option DeliveryRow} {id : Nat}

private theorem update_reaches (hrow : s.db.deliveries.get? id = some row)
    (hf : f row = some row') :
    ∃ s', s.withDb (s.db.updateDelivery id f) = .ok ((), s') ∧ Reaches s id row' s' := by
  refine ⟨{ s with db := { s.db with
    deliveries := s.db.deliveries.modify id fun _ => row' } }, ?_, rfl, rfl, ?_⟩
  · simp [Db.updateDelivery, hrow, hf, Sys.withDb, Except.map]
  · simp [hrow]

private theorem attempt_reaches (hrow : s.db.deliveries.get? id = some row) (t : String)
    (status : DeliveryStatus) (response : Json) :
    ∃ s', s.withDb (s.db.insertAttempt t id status response) = .ok ((), s') ∧
      Reaches s id row s' := by
  refine ⟨{ s with db := { s.db with
    attempts := s.db.attempts ++ [⟨t, id, 1, status, response⟩] } }, ?_, rfl, rfl, hrow⟩
  simp [Db.insertAttempt, hrow, Sys.withDb, Except.map]

private theorem send_reaches (hrow : s.db.deliveries.get? id = some row) (party : Party)
    (message : ProviderMessage) : Reaches s id row (s.failed party (.providerSend message)) :=
  ⟨rfl, rfl, hrow⟩

private theorem worker_alone (hbody : d.message.body = some job)
    {q : Queue} (hdb : Prepared s.db q job) :
    (Worker.run d).Ends (handler cfg (.consumer d) failing) Answered
      (fun _ s' => Waiting s' .retry { job with attempt := job.attempt + 1 }) s := by
  obtain ⟨row, hrow, -⟩ := hdb.row
  obtain ⟨⟨cid, tenantID, channel, queueName, status⟩, hfind, hactive⟩ := hdb.control
  obtain rfl : status = .active := hactive
  have hget : s.perform cfg (.consumer d) {} (.getControl job.tenantID job.channel) =
      .ok (⟨cid, tenantID, channel, queueName, .active⟩, s) := by
    simp [Sys.perform, Db.getControl, hfind, Except.map]
  obtain ⟨s₁, hsending, h₁⟩ := update_reaches hrow (f := Db.markSending) rfl
  have h₂ := send_reaches h₁.row (.consumer d) (Worker.providerMessage job)
  obtain ⟨s₃, hstored, h₃⟩ := update_reaches h₂.row (f := Db.storeResult _ .failed none (.obj [])) rfl
  obtain ⟨s₄, hattempt, h₄⟩ := attempt_reaches h₃.row job.tenantID .failed (.obj [])
  have hcontrols : s₄.db.controls = s.db.controls := by
    rw [h₄.controls, h₃.controls, h₂.controls, h₁.controls]
  rw [Worker.run, hbody]
  refine Prog.ends_call (handler_ok rfl hget) rfl ?_
  refine Prog.ends_call (handler_ok rfl hsending) rfl ?_
  refine Prog.ends_call (handler_fail rfl) rfl ?_
  refine Prog.ends_call (handler_ok rfl hstored) rfl ?_
  refine Prog.ends_call (handler_ok rfl hattempt) rfl ?_
  refine Prog.ends_call (handler_ok rfl rfl) rfl ?_
  refine Prog.ends_call (handler_ok rfl rfl) rfl ?_
  refine ⟨by simp, ⟨_, h₄.row, .inr ⟨[], rfl⟩⟩, ⟨⟨cid, tenantID, channel, queueName, .active⟩, ?_, rfl⟩⟩
  rw [← hfind]
  simp [Db.findControl, hcontrols]

private theorem retry_alone (hbody : d.message.body = some job)
    (htries : ¬cfg.maxDeliveryTries ≤ job.attempt) (hdb : Prepared s.db .retry job) :
    (Retry.retryLoop cfg d).Ends (handler cfg (.consumer d) failing) Answered
      (fun _ s' => Waiting s' (Retry.channelQueue job.channel)
        { job with attempt := job.attempt + 1 }) s := by
  obtain ⟨row, hrow, hresponse⟩ := hdb.row
  obtain ⟨fields, hfields⟩ := hresponse.resolve_left (by simp [Queue.isChannel])
  obtain ⟨control, hfind, hactive⟩ := hdb.control
  have hrow' : (s.addPublication (.consumer d) (Retry.channelQueue job.channel)
      { job with attempt := job.attempt + 1 }).db.deliveries.get? job.deliveryID = some row := hrow
  obtain ⟨s₁, hcount, h₁⟩ := update_reaches hrow'
    (f := Db.storeRetryCount (job.attempt + 1)) (by simp only [Db.storeRetryCount, hfields]; rfl)
  rw [Retry.retryLoop, hbody]
  dsimp only
  rw [if_neg htries]
  refine Prog.ends_call (handler_ok rfl rfl) rfl ?_
  refine Prog.ends_call (handler_ok rfl hcount) rfl ?_
  refine Prog.ends_call (handler_ok rfl rfl) rfl ?_
  refine ⟨?_, ⟨_, h₁.row, .inl (Retry.channelQueue_isChannel _)⟩, control, ?_, hactive⟩
  · simp [h₁.broker]
  · rw [← hfind]
    simp [Db.findControl, h₁.controls]

private theorem dead_alone (hbody : d.message.body = some job)
    (htries : cfg.maxDeliveryTries ≤ job.attempt) (hdb : Prepared s.db .retry job) :
    (Retry.retryLoop cfg d).Ends (handler cfg (.consumer d) failing) Answered
      (fun _ s' => Waiting s' .dead job) s := by
  rw [Retry.retryLoop, hbody]
  dsimp only
  rw [if_pos htries]
  refine Prog.ends_call (handler_ok rfl rfl) rfl ?_
  refine Prog.ends_call (handler_ok rfl rfl) rfl ?_
  exact ⟨by simp, hdb.row, hdb.control⟩

private theorem record_alone (hbody : d.message.body = some job) (hdb : Prepared s.db .dead job) :
    (Retry.retryDeadLetters d).Ends (handler cfg (.consumer d) failing) Answered
      (fun _ s' => ∃ row, s'.db.deliveries.get? job.deliveryID = some row ∧ row.status = .dead)
      s := by
  obtain ⟨row, hrow, hresponse⟩ := hdb.row
  obtain ⟨fields, hfields⟩ := hresponse.resolve_left (by simp [Queue.isChannel])
  obtain ⟨s₁, hdead, h₁⟩ := update_reaches hrow
    (f := Db.mark .dead "dead_letter" "max_retries_exceeded")
    (by simp only [Db.mark, hfields]; rfl)
  rw [Retry.retryDeadLetters, hbody]
  refine Prog.ends_call (handler_ok rfl hdead) rfl ?_
  refine Prog.ends_call (handler_ok rfl rfl) rfl ?_
  exact ⟨_, h₁.row, rfl⟩

end

private theorem round {cfg : Config} {w : World} {q : Queue} {job : Job} {Q : Unit → Sys → Prop}
    (hw : Waiting w.sys q job)
    (h : ∀ (d : Delivery) (s : Sys), d.message = ⟨q, some job⟩ → Prepared s.db q job →
      ∃ p, consumer cfg d = some p ∧
        p.Ends (handler cfg (.consumer d) failing) Answered Q s) :
    ∃ es w', w.RunOf cfg (FailsAlways cfg) es w' ∧ Q () w'.sys := by
  obtain ⟨i, hi, hmem⟩ := List.mem_iff_getElem.mp hw.1
  have hget : w.sys.broker.ready[i]? = some ⟨q, some job⟩ := by
    rw [List.getElem?_eq_getElem hi, hmem]
  obtain ⟨p, hp, hends⟩ := h ⟨w.sys.broker.nextTag, ⟨q, some job⟩⟩
    (w.sys.deliver i ⟨w.sys.broker.nextTag, ⟨q, some job⟩⟩) rfl hw.2
  obtain ⟨es, s', hrun, hQ⟩ : ∃ es s', World.RunOf cfg (FailsAlways cfg) ⟨_, w.threads ++ _⟩ es
      ⟨s', _⟩ ∧ Q () s' := World.run_alone (fun _ _ _ h => h) hends w.threads
  refine ⟨.deliver i :: es, _, .cons ?_ ?_ hrun, hQ⟩
  · simp [World.label, hget, FailsAlways]
  · simp [World.step, hget, hp, World.spawn]

private theorem consumer_channel {cfg : Config} {d : Delivery}
    (h : d.message.queue.isChannel = true) : consumer cfg d = some (Worker.run d) := by
  unfold consumer
  cases hq : d.message.queue <;> simp_all [Queue.isChannel]

private theorem exists_dead {cfg : Config} (n : Nat) {w : World} {q : Queue} {job : Job}
    (hn : cfg.maxDeliveryTries - job.attempt ≤ n) (hq : q.isChannel = true)
    (hw : Waiting w.sys q job) :
    ∃ es w', w.RunOf cfg (FailsAlways cfg) es w' ∧
      ∃ row, w'.sys.db.deliveries.get? job.deliveryID = some row ∧ row.status = .dead := by
  induction n using Nat.strong_induction_on generalizing w q job with
  | _ n ih =>
      obtain ⟨es₁, w₁, hrun₁, hw₁⟩ := round hw fun d s hd hdb =>
        ⟨_, consumer_channel (by rw [hd]; exact hq), worker_alone (by rw [hd]) hdb⟩
      by_cases htries : cfg.maxDeliveryTries ≤ (job.attempt + 1 : Nat)
      · obtain ⟨es₂, w₂, hrun₂, hw₂⟩ := round hw₁ fun d s hd hdb =>
          ⟨_, by rw [consumer, hd], dead_alone (by rw [hd]) htries hdb⟩
        obtain ⟨es₃, w₃, hrun₃, hdead⟩ := round hw₂ fun d s hd hdb =>
          ⟨_, by rw [consumer, hd], record_alone (by rw [hd]) hdb⟩
        exact ⟨_, w₃, (hrun₁.append hrun₂).append hrun₃, hdead⟩
      · obtain ⟨es₂, w₂, hrun₂, hw₂⟩ := round hw₁ fun d s hd hdb =>
          ⟨_, by rw [consumer, hd], retry_alone (by rw [hd]) htries hdb⟩
        obtain ⟨es₃, w₃, hrun₃, hdead⟩ := ih (n - 2) (by omega)
          (by push_cast at htries ⊢; omega) (Retry.channelQueue_isChannel _) hw₂
        exact ⟨_, w₃, (hrun₁.append hrun₂).append hrun₃, hdead⟩

theorem FailsAlways.steady {cfg : Config} {w : World} {l : World.Label}
    (h : FailsAlways cfg w l) : Steady w l := by
  cases l with
  | crash party => exact h.elim
  | requeue => exact h.elim
  | _ => trivial

/-- In every run in which every provider fails and all else succeeds, a delivery is given up
after exactly `maxDeliveryTries` calls of a provider; and every job that was published with
attempt 0 on an active queue can be worked off until its row is dead. -/
def SpendsBudget (cfg : Config) : Prop :=
  ∀ (w₀ w : World) (es : List Event), w₀.Fresh → w₀.RunOf cfg (FailsAlways cfg) es w →
    (∀ d, w.sys.deadLettered d → (w.sys.tries d : Int) = cfg.maxDeliveryTries) ∧
    (∀ d row, w.sys.db.deliveries.get? d = some row → row.status = .dead →
      w.sys.deadLettered d) ∧
    ∀ q job, ⟨q, some job⟩ ∈ w.sys.broker.ready → job.attempt = 0 →
      (∃ row, w.sys.db.deliveries.get? job.deliveryID = some row) →
      (∃ control, w.sys.db.findControl job.tenantID job.channel = some control ∧
        control.status = .active) →
      ∃ es' w', w.RunOf cfg (FailsAlways cfg) es' w' ∧
        ∃ row, w'.sys.db.deliveries.get? job.deliveryID = some row ∧ row.status = .dead

private theorem onBudget_reachable {cfg : Config} {w₀ w : World} {es : List Event}
    (hfresh : w₀.Fresh) (hrun : w₀.RunOf cfg (FailsAlways cfg) es w) :
    ∃ ms, OnBudget cfg w.sys ms := by
  have hfirst : OnBudget cfg w₀.sys [] := by
    constructor <;> simp [hfresh.calls, hfresh.ready, Sys.deadLettered, hfresh.published,
      Db.stamp?, hfresh.deliveries]
  obtain ⟨ms, -, -, h⟩ := ((tidy_inductive cfg).and (onBudget_inductive cfg)).reachable hfresh
    (hrun.mono fun _ _ h => FailsAlways.steady h) ⟨tidy_fresh hfresh, hfirst⟩
  exact ⟨ms, h⟩

private theorem dead_after_tries {cfg : Config} (hlimit : 1 ≤ cfg.maxDeliveryTries) {w₀ w : World}
    {es : List Event} (hfresh : w₀.Fresh) (hrun : w₀.RunOf cfg (FailsAlways cfg) es w) :
    (∀ d, w.sys.deadLettered d → (w.sys.tries d : Int) = cfg.maxDeliveryTries / 2 + 1) ∧
    ∀ d row, w.sys.db.deliveries.get? d = some row → row.status = .dead →
      w.sys.deadLettered d := by
  obtain ⟨ms, h⟩ := onBudget_reachable hfresh hrun
  refine ⟨fun d hd => tries_eq hlimit (h.dead d hd).1, fun d row hrow hdead => ?_⟩
  exact h.status d row.deliveredAt.isSome (by simp [Db.stamp?, hrow, DeliveryRow.stamp, hdead])

private theorem works_off {cfg : Config} {w₀ w : World} {es : List Event} (hfresh : w₀.Fresh)
    (hrun : w₀.RunOf cfg (FailsAlways cfg) es w) {q : Queue} {job : Job}
    (hmem : ⟨q, some job⟩ ∈ w.sys.broker.ready) (hattempt : job.attempt = 0)
    (hrow : ∃ row, w.sys.db.deliveries.get? job.deliveryID = some row)
    (hcontrol : ∃ control, w.sys.db.findControl job.tenantID job.channel = some control ∧
      control.status = .active) :
    ∃ es' w', w.RunOf cfg (FailsAlways cfg) es' w' ∧
      ∃ row, w'.sys.db.deliveries.get? job.deliveryID = some row ∧ row.status = .dead := by
  obtain ⟨ms, h⟩ := onBudget_reachable hfresh hrun
  have hq : q.isChannel = true := by
    have hbudget := h.queues _ hmem job rfl
    cases q <;> simp_all [onBudget, Queue.isChannel] <;> omega
  obtain ⟨row, hrow⟩ := hrow
  exact exists_dead cfg.maxDeliveryTries.toNat (by omega) hq
    ⟨hmem, ⟨row, hrow, .inl hq⟩, hcontrol⟩

private theorem exists_first_job (cfg : Config) :
    ∃ es w, sampleWorld.RunOf cfg (FailsAlways cfg) es w ∧ ∃ q job,
      ⟨q, some job⟩ ∈ w.sys.broker.ready ∧ job.attempt = 0 ∧
      (∃ row, w.sys.db.deliveries.get? job.deliveryID = some row) ∧
      ∃ control, w.sys.db.findControl job.tenantID job.channel = some control ∧
        control.status = .active := by
  obtain ⟨w, hrun, hw⟩ := World.exists_run cfg (FailsAlways cfg) sampleWorld
    (List.flatten [[.request 1 "t1" (sampleRequest ["email"] ⟨"", ""⟩ "")], steps 0 10])
    (fun w => w.sys.broker.ready.any fun m => m.body.any fun job =>
      job.attempt == 0 && (w.sys.db.deliveries.get? job.deliveryID).isSome &&
        (w.sys.db.findControl job.tenantID job.channel).any fun control =>
          control.status == .active) rfl
  obtain ⟨⟨q, body⟩, hmem, hm⟩ := List.any_eq_true.mp hw
  obtain ⟨job, hbody, hjob⟩ := (Option.any_eq_true _ _).mp hm
  obtain rfl : body = some job := hbody
  simp only [Bool.and_eq_true, beq_iff_eq, Option.isSome_iff_exists, Option.any_eq_true] at hjob
  exact ⟨_, w, hrun, q, job, hmem, hjob.1.1, hjob.1.2, hjob.2⟩

/-- The limit is the number of tries exactly when it is 1 or 2: each round counts twice. -/
theorem spends_budget_iff {cfg : Config} (hlimit : 1 ≤ cfg.maxDeliveryTries) :
    SpendsBudget cfg ↔ cfg.maxDeliveryTries ≤ 2 := by
  constructor
  · intro hspends
    obtain ⟨es, w, hrun, q, job, hmem, hattempt, hrow, hcontrol⟩ := exists_first_job cfg
    obtain ⟨es', w', hrun', row, hrow', hdead⟩ :=
      works_off sampleWorld_fresh hrun hmem hattempt hrow hcontrol
    have hall := hrun.append hrun'
    obtain ⟨htries, hstatus⟩ := dead_after_tries hlimit sampleWorld_fresh hall
    have hlettered := hstatus _ row hrow' hdead
    have hspent := (hspends sampleWorld w' _ sampleWorld_fresh hall).1 _ hlettered
    have hcount := htries _ hlettered
    omega
  · intro hle w₀ w es hfresh hrun
    obtain ⟨htries, hstatus⟩ := dead_after_tries hlimit hfresh hrun
    refine ⟨fun d hd => ?_, hstatus, fun q job hmem hattempt hrow hcontrol =>
      works_off hfresh hrun hmem hattempt hrow hcontrol⟩
    have hcount := htries d hd
    omega

theorem spends_budget_two : (1 : Int) ≤ (sampleConfig 2).maxDeliveryTries ∧
    (SpendsBudget (sampleConfig 2) ↔ (sampleConfig 2).maxDeliveryTries ≤ 2) :=
  ⟨by decide, spends_budget_iff (by decide)⟩

/-- With a limit of 3 a delivery is dead after two calls of the provider. -/
theorem dead_after_two_tries : ¬∀ cfg : Config, 1 ≤ cfg.maxDeliveryTries → SpendsBudget cfg := by
  intro hclaim
  obtain ⟨w, hrun, hw⟩ := World.exists_run (sampleConfig 3) (FailsAlways (sampleConfig 3))
    sampleWorld (List.flatten [[.request 1 "t1" (sampleRequest ["email"] ⟨"", ""⟩ "")],
      steps 0 10, [.deliver 0], steps 1 2, [failure 1], steps 1 4, [.deliver 0], steps 2 3,
      [.deliver 0], steps 3 2, [failure 3], steps 3 4, [.deliver 0], steps 4 2, [.deliver 0],
      steps 5 2])
    (fun w => w.sys.tries 1 == 2 && (w.sys.db.deliveries.get? 1).any fun row =>
      row.status == .dead) (by decide +kernel)
  obtain ⟨htries, hdead⟩ := Bool.and_eq_true_iff.mp hw
  obtain ⟨row, hrow, hstatus⟩ := (Option.any_eq_true _ _).mp hdead
  obtain ⟨hspent, hlettered, -⟩ := hclaim (sampleConfig 3) (by decide) sampleWorld w _
    sampleWorld_fresh hrun
  have hcount := hspent 1 (hlettered 1 row hrow (by simpa using hstatus))
  rw [beq_iff_eq.mp htries] at hcount
  exact absurd hcount (by decide)

end NotificationPlatform

import NotificationPlatform.RetryBudget

/-!
# The numbers of the attempts

After every call of a provider a worker adds a row to the attempts of the delivery. The rows are
as many as the calls, whatever the interleaving of workers and retries. Their numbers are
another matter: the statement carries the constant 1, so the second row repeats the number of the
first.
-/

namespace NotificationPlatform

open Lib

def Db.attemptRows (db : Db) (d : Nat) : List Attempt :=
  db.attempts.filter (fun a => a.deliveryID == d)

/-- The attempts of delivery `d` are numbered from 1 up to the calls of its provider, and at most
the last of them has been sent. -/
def Sys.numbered (s : Sys) (d : Nat) : Prop :=
  (s.db.attemptRows d).map Attempt.attemptNo = List.range' 1 (s.tries d) ∧
    ∀ a ∈ (s.db.attemptRows d).dropLast, a.status ≠ .sent

/-- The statements that record a try: its result in the row of the delivery, and its attempt. -/
def Stmt.recordsTry : Stmt → Bool
  | .storeResult _ _ _ _ | .insertAttempt _ _ _ _ => true
  | _ => false

def Stmt.recordsFor : Stmt → Option Nat
  | .storeResult id _ _ _ | .insertAttempt _ id _ _ => some id
  | _ => none

/-- The thread has called the provider for delivery `d` and goes on to record the try. -/
def Thread.recording (d : Nat) (th : Thread) : Prop :=
  match th.prog with
  | .call c _ => c.stmt.recordsFor = some d
  | .ret _ => False

instance (d : Nat) : (th : Thread) → Decidable (th.recording d)
  | ⟨_, .call c _⟩ => inferInstanceAs (Decidable (c.stmt.recordsFor = some d))
  | ⟨_, .ret _⟩ => inferInstanceAs (Decidable False)

def World.recording (w : World) (d : Nat) : Prop := ∃ th ∈ w.threads, th.recording d

instance (w : World) (d : Nat) : Decidable (w.recording d) :=
  inferInstanceAs (Decidable (∃ th ∈ w.threads, th.recording d))

/-- Every try is recorded: the two statements that do so succeed, and no worker dies before
them. -/
def TriesRecorded (cfg : Config) (w : World) : World.Label → Prop
  | .call party c o => c.stmt.recordsTry = true → w.sys.succeeds cfg party c o = true
  | .crash party => ∀ th ∈ w.threads, th.party = party → ∀ d, ¬th.recording d
  | _ => True

theorem Clean.triesRecorded {cfg : Config} {w : World} {l : World.Label} (h : Clean cfg w l) :
    TriesRecorded cfg w l := by
  cases l with
  | call party c o =>
      intro hrecords
      apply h.resolve_left
      obtain ⟨site, stmt⟩ := c
      cases stmt <;> simp_all [Stmt.recordsTry, Stmt.answersFreely]
  | crash _ => exact h.elim
  | _ => trivial

/-- A consumer has called the provider and has not recorded the try yet. -/
def Phase.recording : Phase → Bool
  | .called _ | .stored _ => true
  | _ => false

def records (d : Nat) : Party × Stage → Bool
  | (.consumer u, .consumer phase) => u.message.carries d && phase.recording
  | _ => false

@[simp] theorem records_consumer (d : Nat) (u : Delivery) (phase : Phase) :
    records d (.consumer u, .consumer phase) = (u.message.carries d && phase.recording) := rfl

@[simp] theorem records_over (d : Nat) (party : Party) : records d (party, .over) = false := by
  cases party <;> rfl

@[simp] theorem Phase.recording_sending : Phase.sending.recording = false := rfl

@[simp] theorem Phase.recording_called (r : Except Err ProviderResult) :
    (Phase.called r).recording = true := rfl

@[simp] theorem Phase.recording_stored (r : Except Err ProviderResult) :
    (Phase.stored r).recording = true := rfl

/-- The attempts and the tries still to be recorded are the calls of the provider. -/
structure TriesCounted (s : Sys) (ms : Members) : Prop where
  count : ∀ d, (s.db.attemptRows d).length + ms.countP (records d) = s.tries d
  first : ∀ a ∈ s.db.attempts, a.attemptNo = 1

theorem Db.attempts_of_insert {db db' : Db} {t : String} {id : Nat} {status : DeliveryStatus}
    {response : Json} (h : db.insertAttempt t id status response = .ok db') :
    db'.attempts = db.attempts ++ [⟨t, id, 1, status, response⟩] := by
  unfold insertAttempt at h
  split at h
  · simp at h
  · obtain rfl := Except.ok.inj h
    rfl

section

variable {cfg : Config} {s s' : Sys} {party : Party} {stage stage' : Stage} {c : Call}
  {success : Bool}

theorem Effect.attempts_cases (h : Effect cfg s party stage c success stage' s') :
    s'.db.attempts = s.db.attempts ∨
    ∃ u job result, party = .consumer u ∧ u.message.body = some job ∧
      stage = .consumer (.stored result) ∧
      stage' = .consumer (if result.isOk then .settled else .failed) ∧
      s'.db.attempts = s.db.attempts ++ [⟨job.tenantID, job.deliveryID, 1,
        Worker.resultStatus result, Worker.resultResponse result⟩] := by
  cases h with
  | getControl _ _ hget =>
      obtain ⟨controls, next, rfl, -⟩ := Db.getControl_cases hget
      exact .inl rfl
  | write _ _ hdb =>
      rcases Db.updateDelivery_cases hdb with ⟨-, rfl⟩ | ⟨_, _, -, -, rfl⟩
      · exact .inl rfl
      · exact .inl rfl
  | insertAttempt hbody hdb =>
      exact .inr ⟨_, _, _, rfl, hbody, rfl, rfl, Db.attempts_of_insert hdb⟩
  | requeue _ => split <;> exact .inl rfl
  | sendEnsureControl hensure =>
      obtain ⟨controls, next, rfl, -⟩ := Db.ensureControl_cases hensure
      exact .inl rfl
  | routeEnsureControl hensure =>
      obtain ⟨controls, next, rfl, -⟩ := Db.ensureControl_cases hensure
      exact .inl rfl
  | _ => exact .inl rfl

theorem Effect.records_kept (h : Effect cfg s party stage c success stage' s')
    (hok : c.stmt.recordsTry = true → success = true) (hcalls : s'.calls = s.calls)
    (hattempts : s'.db.attempts = s.db.attempts) (d : Nat) :
    records d (party, stage') = records d (party, stage) := by
  cases h with
  | write _ hwrites _ => cases hwrites <;> rfl
  | writeError _ hwrites =>
      cases hwrites with
      | result r => simp [Stmt.recordsTry] at hok
      | _ => rfl
  | providerSend _ _ => simp at hcalls
  | insertAttempt _ hdb => simp [Db.attempts_of_insert hdb] at hattempts
  | insertAttemptError _ => simp [Stmt.recordsTry] at hok
  | republish _ hrep => cases hrep <;> rfl
  | republishError _ hrep => cases hrep <;> rfl
  | settle hphase => rcases hphase with rfl | rfl | rfl | ⟨rfl, -⟩ <;> rfl
  | requeue hphase => rcases hphase with rfl | rfl <;> rfl
  | settleError hphase _ =>
      rcases hphase with rfl | rfl | rfl | rfl | rfl | ⟨rfl, -⟩ <;> rfl
  | giveUp _ hparty =>
      cases party with
      | consumer u => exact absurd rfl (hparty u)
      | request _ _ => rfl
      | pass _ => rfl
  | _ => rfl

theorem Effect.try_recorded (h : Effect cfg s party stage c success stage' s')
    (hok : c.stmt.recordsTry = true → success = true) (d : Nat) :
    (s'.db.attemptRows d).length + [(party, stage')].countP (records d) + s.tries d =
      (s.db.attemptRows d).length + [(party, stage)].countP (records d) + s'.tries d := by
  rcases h.attempts_cases with hattempts | ⟨u, job, result, rfl, hbody, rfl, rfl, hattempts⟩
  · have hrows : s'.db.attemptRows d = s.db.attemptRows d := by
      rw [Db.attemptRows, hattempts, Db.attemptRows]
    rw [hrows]
    rcases h.calls_cases with hcalls | ⟨u, job, result, hbody, rfl, rfl, rfl, rfl⟩
    · have hkept := h.records_kept hok hcalls hattempts d
      simp only [List.countP_singleton, hkept, Sys.tries, hcalls]
    · -- the provider is called: a try more, and one more to be recorded
      have hcarries := carries_of_body hbody d
      by_cases hd : job.deliveryID = d
      · simp [Sys.tries, hcarries, hd, Worker.providerMessage]
        omega
      · simp [Sys.tries, hcarries, hd, Worker.providerMessage]
  · -- the attempt is inserted: a row more, and one try fewer to be recorded
    have hcalls : s'.calls = s.calls := by
      rcases h.calls_cases with hcalls | ⟨_, _, _, _, _, hstage, _, _⟩
      · exact hcalls
      · simp at hstage
    have hcarries := carries_of_body hbody d
    have hover : (if result.isOk then Phase.settled else .failed).recording = false := by
      split <;> rfl
    by_cases hd : job.deliveryID = d
    · simp [Sys.tries, hcalls, Db.attemptRows, hattempts, hcarries, hover, hd]
    · simp [Sys.tries, hcalls, Db.attemptRows, hattempts, hcarries, hd]

theorem recording_of_records {d : Nat} {th : Thread} (hrecords : records d (party, stage) = true)
    (hkeeps : Keeps cfg party stage th.prog) : th.recording d := by
  cases party with
  | request _ _ => simp [records] at hrecords
  | pass _ => simp [records] at hrecords
  | consumer u =>
      cases stage with
      | consumer phase =>
          rw [records_consumer, Bool.and_eq_true] at hrecords
          obtain ⟨hcarries, hphase⟩ := hrecords
          obtain ⟨party, prog⟩ := th
          cases prog with
          | ret _ =>
              have hended : (Stage.consumer phase).ended = true := hkeeps
              cases phase <;> simp_all [Phase.recording, Stage.ended]
          | call c k =>
              obtain ⟨f, hallowed, -⟩ := hkeeps
              cases hallowed with
              | storeResult hbody =>
                  have hid := carries_of_body hbody d
                  rw [hcarries, eq_comm, beq_iff_eq] at hid
                  simp [Thread.recording, Stmt.recordsFor, hid]
              | insertAttempt hbody =>
                  have hid := carries_of_body hbody d
                  rw [hcarries, eq_comm, beq_iff_eq] at hid
                  simp [Thread.recording, Stmt.recordsFor, hid]
              | ack hphase' =>
                  rcases hphase' with rfl | rfl | rfl <;> simp [Phase.recording] at hphase
              | nackRequeue hphase' =>
                  rcases hphase' with rfl | rfl <;> simp [Phase.recording] at hphase
              | nackDiscard hphase' =>
                  rcases hphase' with rfl | ⟨rfl, -⟩ <;> simp [Phase.recording] at hphase
              | _ => simp [Phase.recording] at hphase
      | _ => simp [records] at hrecords

end

theorem triesCounted_inductive (cfg : Config) :
    Inductive cfg (TriesRecorded cfg) Anything TriesCounted where
  call := by
    intro w before after party stage stage' c o success s' _ hok hsuccess heffect _ h
    have hrecorded : c.stmt.recordsTry = true → success = true := fun hc => hsuccess ▸ hok hc
    constructor
    · intro d
      have hold := h.count d
      have hstep := heffect.try_recorded hrecorded d
      rw [← List.singleton_append, List.countP_append, List.countP_append] at hold ⊢
      omega
    · intro a ha
      rcases heffect.attempts_cases with hattempts | ⟨_, _, _, _, _, _, _, hattempts⟩
      · rw [hattempts] at ha
        exact h.first a ha
      · rw [hattempts] at ha
        rcases List.mem_append.mp ha with ha | ha
        · exact h.first a ha
        · rw [List.mem_singleton.mp ha]
  request := by
    intro w ms t req _ _ _ h
    refine ⟨fun d => ?_, h.first⟩
    rw [List.countP_append, ← h.count d]
    simp [records]
  tick := by
    intro w ms _ _ _ h
    refine ⟨fun d => ?_, h.first⟩
    rw [List.countP_append, ← h.count d]
    simp [records]
  deliver := by
    intro w ms i m _ _ _ _ h
    refine ⟨fun d => ?_, h.first⟩
    have hnew : [(Party.consumer ⟨w.sys.broker.nextTag, m⟩,
        Stage.consumer .received)].countP (records d) = 0 := by
      simp [Phase.recording]
    rw [List.countP_append, hnew]
    exact h.count d
  admin := by
    intro w ms a _ _ _ h
    cases a <;> exact ⟨h.count, h.first⟩
  clock := by
    intro w ms now _ _ _ _ h
    exact ⟨h.count, h.first⟩
  crash := by
    intro w before after party stage hal hok _ h
    refine ⟨fun d => ?_, h.first⟩
    have hnone : records d (party, stage) = false := by
      by_contra hrecords
      rw [Bool.not_eq_false] at hrecords
      obtain ⟨_, th, _, hthreads, -, ⟨hparty, hkeeps⟩, -⟩ := exists_split_of_forall₂_append hal
      have hth : th ∈ w.threads := by simp [hthreads]
      exact hok th hth hparty.symm d (recording_of_records hrecords hkeeps)
    have hold := h.count d
    rw [← List.singleton_append, List.countP_append, List.countP_append] at hold ⊢
    simpa [hnone] using hold
  requeue := by
    intro w ms d _ _ _ _ h
    exact ⟨h.count, h.first⟩

theorem TriesCounted.attemptNos {s : Sys} {ms : Members} (h : TriesCounted s ms) {d : Nat}
    (hnone : ms.countP (records d) = 0) :
    (s.db.attemptRows d).map Attempt.attemptNo = List.replicate (s.tries d) 1 := by
  have hcount := h.count d
  rw [List.eq_replicate_iff]
  constructor
  · rw [List.length_map]
    omega
  · intro n hn
    obtain ⟨a, ha, rfl⟩ := List.mem_map.mp hn
    exact h.first a (List.mem_filter.mp ha).1

private theorem replicate_eq_range'_iff (n : Nat) :
    List.replicate n 1 = List.range' 1 n ↔ n ≤ 1 := by
  constructor
  · intro h
    by_contra hlt
    have hsecond := congrArg (fun l => l[1]?) h
    simp [show 1 < n by omega] at hsecond
  · intro h
    cases n with
    | zero => rfl
    | succ n =>
        obtain rfl : n = 0 := by omega
        rfl

/-- In every run in which every try is recorded, whatever the workers, the retry loop and the
provider do: once no try of a delivery is left to record, its attempts are numbered from 1 up to
the calls of its provider, the last of them at most sent, just when there was at most one call. -/
theorem attempts_numbered_iff {cfg : Config} {w₀ w : World} {es : List Event}
    (hfresh : w₀.Fresh) (hattempts : w₀.sys.db.attempts = [])
    (hrun : w₀.RunOf cfg (TriesRecorded cfg) es w) {d : Nat} (hrest : ¬w.recording d) :
    w.sys.numbered d ↔ w.sys.tries d ≤ 1 := by
  have hfirst : TriesCounted w₀.sys [] := by
    constructor <;> simp [Db.attemptRows, Sys.tries, hattempts, hfresh.calls]
  obtain ⟨ms, hal, h⟩ := (triesCounted_inductive cfg).reachable hfresh hrun hfirst
  have hnone : ms.countP (records d) = 0 := by
    rw [List.countP_eq_zero]
    intro m hm hrecords
    obtain ⟨before, after, rfl⟩ := List.append_of_mem hm
    obtain ⟨_, th, _, hthreads, -, ⟨-, hkeeps⟩, -⟩ := exists_split_of_forall₂_append hal
    exact hrest ⟨th, by simp [hthreads], recording_of_records hrecords hkeeps⟩
  have hnos := h.attemptNos hnone
  rw [Sys.numbered, hnos, replicate_eq_range'_iff]
  refine and_iff_left_of_imp fun hle a ha => ?_
  -- a single attempt has none before it
  have hlength : (w.sys.db.attemptRows d).length ≤ 1 := by
    have hcount := h.count d
    omega
  have hdrop : (w.sys.db.attemptRows d).dropLast = [] := by
    rw [← List.length_eq_zero_iff, List.length_dropLast]
    omega
  simp [hdrop] at ha

/-- A delivery that the provider takes at once has one attempt, with the number 1. -/
theorem attempts_numbered_once : ∃ es w, sampleWorld.RunOf (sampleConfig 3)
    (TriesRecorded (sampleConfig 3)) es w ∧ w.sys.tries 1 = 1 ∧ w.sys.numbered 1 := by
  obtain ⟨w, hrun, hw⟩ := World.exists_run (sampleConfig 3) (Clean (sampleConfig 3)) sampleWorld
    (List.flatten [[.request 1 "t1" (sampleRequest ["email"] ⟨"", ""⟩ "")], steps 0 10,
      [.deliver 0], steps 1 6])
    (fun w => decide (¬w.recording 1) && w.sys.tries 1 == 1) (by decide +kernel)
  rw [Bool.and_eq_true, decide_eq_true_eq, beq_iff_eq] at hw
  have hrun := hrun.mono fun _ _ hok => hok.triesRecorded
  exact ⟨_, w, hrun, hw.2,
    (attempts_numbered_iff sampleWorld_fresh rfl hrun hw.1).mpr (by omega)⟩

/-- A first failure and a success after the retry: no statement and no publication fails, and the
two attempts of the delivery have the same number. -/
theorem retry_numbered_again : ¬∀ (w₀ w : World) (es : List Event) (d : Nat), w₀.Fresh →
    w₀.sys.db.attempts = [] → w₀.RunOf (sampleConfig 3) (Clean (sampleConfig 3)) es w →
    ¬w.recording d → w.sys.numbered d := by
  intro hclaim
  obtain ⟨w, hrun, hw⟩ := World.exists_run (sampleConfig 3) (Clean (sampleConfig 3)) sampleWorld
    (List.flatten [[.request 1 "t1" (sampleRequest ["email"] ⟨"", ""⟩ "")], steps 0 10,
      [.deliver 0], steps 1 2, [failure 1], steps 1 4, [.deliver 0], steps 2 3, [.deliver 0],
      steps 3 6])
    (fun w => decide (¬w.recording 1) && w.sys.tries 1 == 2 &&
      (w.sys.db.attemptRows 1).map Attempt.attemptNo == [1, 1]) (by decide +kernel)
  rw [Bool.and_eq_true, Bool.and_eq_true, decide_eq_true_eq, beq_iff_eq, beq_iff_eq] at hw
  obtain ⟨⟨hrest, htries⟩, hnos⟩ := hw
  have hnumbered := (hclaim _ w _ 1 sampleWorld_fresh rfl hrun hrest).1
  rw [hnos, htries] at hnumbered
  simp [List.range'] at hnumbered

end NotificationPlatform

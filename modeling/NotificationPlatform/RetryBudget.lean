import NotificationPlatform.Conservation

/-!
# The retry budget

A worker that fails counts an attempt, and so does the retry loop when it hands the job out
again: every round adds two. A delivery that ends in the dead queue has therefore been tried
`maxDeliveryTries / 2 + 1` times, in every run and under every interleaving.
-/

namespace NotificationPlatform

open Lib

/-- How often a provider has been called for delivery `d`. -/
def Sys.tries (s : Sys) (d : Nat) : Nat := s.calls.countP (fun a => a.message.deliveryID == d)

def Sys.deadLettered (s : Sys) (d : Nat) : Prop :=
  ∃ p ∈ s.published, p.queue = .dead ∧ p.job.deliveryID = d

def underLimit (limit : Int) (tries : Nat) : Prop := tries ≤ 1 ∨ 2 * (tries : Int) - 3 < limit

def onBudget (limit : Int) (q : Queue) (attempt tries : Nat) : Prop :=
  match q with
  | .scheduler => False
  | .retry => attempt + 1 = 2 * tries ∧ underLimit limit tries
  | .dead => attempt + 1 = 2 * tries ∧ underLimit limit tries ∧ limit ≤ attempt
  | _ => attempt = 2 * tries ∧ underLimit limit (tries + 1)

def partyOnBudget (limit : Int) (tries : Nat) : Party × Stage → Prop
  | (.consumer u, .consumer phase) => ∀ job, u.message.body = some job →
      match phase with
      | .received => onBudget limit u.message.queue job.attempt tries
      | .refused | .checked _ | .paused | .sending =>
          u.message.queue.isChannel = true ∧
            onBudget limit u.message.queue job.attempt tries
      | .called _ | .stored _ | .failed =>
          job.attempt + 2 = 2 * tries ∧ underLimit limit tries
      | _ => True
  | _ => tries = 0

def ofDeadQueue : Party × Stage → Prop
  | (.consumer u, .consumer .received) => u.message.queue = .dead
  | _ => False

/-- The attempts that jobs carry agree with the calls of the providers. -/
structure OnBudget (cfg : Config) (s : Sys) (ms : Members) : Prop where
  known : ∀ a ∈ s.calls, a.message.deliveryID < s.db.nextId
  queues : ∀ m ∈ s.broker.ready, ∀ job, m.body = some job →
    onBudget cfg.maxDeliveryTries m.queue job.attempt (s.tries job.deliveryID)
  parties : ∀ m ∈ ms, ∀ d, holds d m = true →
    partyOnBudget cfg.maxDeliveryTries (s.tries d) m
  dead : ∀ d, s.deadLettered d →
    (0 < s.tries d ∧ underLimit cfg.maxDeliveryTries (s.tries d) ∧
      cfg.maxDeliveryTries + 1 ≤ 2 * (s.tries d : Int)) ∧
    (∀ m ∈ s.broker.ready, m.carries d = true → m.queue = .dead) ∧
    ∀ m ∈ ms, holds d m = true → ofDeadQueue m
  deadQueue : ∀ m ∈ s.broker.ready, m.queue = .dead → ∀ job, m.body = some job →
    s.deadLettered job.deliveryID
  deadParty : ∀ u stage, (Party.consumer u, stage) ∈ ms → u.message.queue = .dead →
    ∀ job, u.message.body = some job → s.deadLettered job.deliveryID
  pending : ∀ m ∈ ms, ∀ tx, m.2.tx? = some tx → ∀ p ∈ tx.deliveries, p.2.status = .queued
  status : ∀ d at?, s.db.stamp? d = some (.dead, at?) → s.deadLettered d

theorem tries_eq {limit : Int} {tries : Nat} (hlimit : 1 ≤ limit)
    (h : 0 < tries ∧ underLimit limit tries ∧ limit + 1 ≤ 2 * (tries : Int)) :
    (tries : Int) = limit / 2 + 1 := by
  unfold underLimit at h
  omega

theorem onBudget_channel {limit : Int} {q : Queue} {attempt tries : Nat}
    (h : q.isChannel = true) :
    onBudget limit q attempt tries ↔ attempt = 2 * tries ∧ underLimit limit (tries + 1) := by
  cases q <;> simp_all [onBudget, Queue.isChannel]

section

variable {cfg : Config} {s s' : Sys} {before after : Members} {party : Party}
  {stage stage' : Stage} {c : Call} {success : Bool} {d : Nat}

private theorem tries_nextId {ms : Members} (h : OnBudget cfg s ms) : s.tries s.db.nextId = 0 := by
  rw [Sys.tries, List.countP_eq_zero]
  intro a ha
  simpa using (h.known a ha).ne

private theorem Effect.caller_onBudget (heffect : Effect cfg s party stage c success stage' s')
    (hcalls : s'.calls = s.calls)
    (hnew : s.tries s.db.nextId = 0)
    (h : holds d (party, stage) = true →
      partyOnBudget cfg.maxDeliveryTries (s.tries d) (party, stage))
    (hholds : holds d (party, stage') = true) :
    partyOnBudget cfg.maxDeliveryTries (s.tries d) (party, stage') := by
  cases heffect with
  | getControl _ hqueue _ =>
      have hold := h (by simpa [Phase.live] using hholds)
      exact fun job hbody => ⟨hqueue, hold job hbody⟩
  | getControlError _ hqueue =>
      have hold := h (by simpa [Phase.live] using hholds)
      exact fun job hbody => ⟨hqueue, hold job hbody⟩
  | write _ hwrites _ =>
      cases hwrites with
      | retryCount => simp at hholds
      | dead _ => simp [Phase.live] at hholds
      | blocked => simp [Phase.live] at hholds
      | _ => exact h (by simpa [Phase.live] using hholds)
  | writeError _ hwrites =>
      cases hwrites with
      | retryCount => simp at hholds
      | dead _ => simp [Phase.live] at hholds
      | _ => exact h (by simpa [Phase.live] using hholds)
  | providerSend _ _ => simp at hcalls
  | @insertAttempt _ _ result _ _ _ =>
      cases result with
      | ok r => simp [Phase.live, Except.isOk, Except.toBool] at hholds
      | error e => exact h (by simpa [Phase.live, Except.isOk, Except.toBool] using hholds)
  | insertAttemptError _ => exact h (by simpa [Phase.live] using hholds)
  | insertTxDelivery =>
      obtain rfl := beq_iff_eq.mp hholds
      exact hnew
  | insertDelivery _ =>
      obtain rfl := beq_iff_eq.mp hholds
      exact hnew
  | sendEnsureControl _ => exact h hholds
  | routeEnsureControl _ => exact h hholds
  | _ => simp [holds, Phase.live] at hholds

private theorem Effect.ready_onBudget (heffect : Effect cfg s party stage c success stage' s')
    (h : ∀ d, holds d (party, stage) = true →
      partyOnBudget cfg.maxDeliveryTries (s.tries d) (party, stage))
    {m : Message} (hm : m ∈ s'.broker.ready) {job : Job} (hbody : m.body = some job) :
    m ∈ s.broker.ready ∨
      onBudget cfg.maxDeliveryTries m.queue job.attempt (s.tries job.deliveryID) := by
  refine (heffect.ready_cases hm).imp id ?_
  rintro (⟨u, job₀, phase, q, job', rfl, rfl, hbody₀, hrep, rfl, -⟩ |
    ⟨u, phase, rfl, rfl, hphase, rfl⟩ | ⟨q, job', hparty, hq, hattempt, hholds, rfl⟩)
  · obtain rfl : job' = job := by simpa using hbody
    obtain ⟨hlive, hid⟩ := hrep.live
    have hold := h job₀.deliveryID (by simp [carries_of_body hbody₀, hlive]) job₀ hbody₀
    rw [hid]
    cases hrep with
    | retry =>
        refine ⟨?_, hold.2⟩
        have := hold.1
        dsimp only
        omega
    | dead hqueue htries =>
        simp only [hqueue] at hold
        exact ⟨hold.1, hold.2, htries⟩
    | again hqueue htries =>
        simp only [hqueue] at hold
        rw [onBudget_channel (Retry.channelQueue_isChannel _)]
        have := hold.1
        dsimp only
        refine ⟨by omega, .inr ?_⟩
        push_cast
        omega
  · have hcarries := carries_of_body hbody job.deliveryID
    rcases hphase with rfl | rfl
    · exact (h job.deliveryID (by simp [hcarries, Phase.live]) job hbody).2
    · exact (h job.deliveryID (by simp [hcarries, Phase.live]) job hbody).2
  · obtain rfl : job' = job := by simpa using hbody
    have hzero : s.tries job'.deliveryID = 0 := by
      have hold := h _ hholds
      cases party with
      | consumer u => exact absurd rfl (hparty u)
      | request _ _ => exact hold
      | pass _ => exact hold
    rw [onBudget_channel hq, hzero, hattempt]
    exact ⟨rfl, .inl (le_refl _)⟩

private theorem Effect.deadLettered_mono (heffect : Effect cfg s party stage c success stage' s')
    (h : s.deadLettered d) : s'.deadLettered d := by
  obtain ⟨p, hp, hq, hid⟩ := h
  rcases heffect.published_cases with hsame | ⟨q, job, rfl, -⟩
  · exact ⟨p, by rwa [hsame], hq, hid⟩
  · exact ⟨p, List.mem_append_left _ hp, hq, hid⟩

private theorem Effect.deadLettered_cases
    (heffect : Effect cfg s party stage c success stage' s') (h : s'.deadLettered d) :
    s.deadLettered d ∨ ∃ u job, party = .consumer u ∧ stage = .consumer .received ∧
      stage' = .consumer .moved ∧ u.message.body = some job ∧ job.deliveryID = d ∧
      u.message.queue = .retry ∧ cfg.maxDeliveryTries ≤ job.attempt := by
  have hchannel : ∀ {q : Queue}, q.isChannel = true → q ≠ .dead := by
    rintro q hq rfl
    simp [Queue.isChannel] at hq
  cases heffect with
  | republish hbody hrep =>
      obtain ⟨p, hp, hq, hid⟩ := h
      simp only [Sys.addPublication_published, List.mem_append, List.mem_singleton] at hp
      rcases hp with hp | rfl
      · exact .inl ⟨p, hp, hq, hid⟩
      · cases hrep with
        | retry => simp at hq
        | dead hqueue htries => exact .inr ⟨_, _, rfl, rfl, rfl, hbody, hid, hqueue, htries⟩
        | again _ _ => exact absurd hq (hchannel (Retry.channelQueue_isChannel _))
  | requeue _ => split at h <;> exact .inl h
  | sendPublish _ =>
      obtain ⟨p, hp, hq, hid⟩ := h
      simp only [Sys.addPublication_published, List.mem_append, List.mem_singleton] at hp
      rcases hp with hp | rfl
      · exact .inl ⟨p, hp, hq, hid⟩
      · exact absurd hq (hchannel (Notifications.channelQueue_isChannel _))
  | routePublish _ =>
      obtain ⟨p, hp, hq, hid⟩ := h
      simp only [Sys.addPublication_published, List.mem_append, List.mem_singleton] at hp
      rcases hp with hp | rfl
      · exact .inl ⟨p, hp, hq, hid⟩
      · exact absurd hq (hchannel (Notifications.channelQueue_isChannel _))
  | _ => exact .inl h

private theorem Effect.dead_stays (heffect : Effect cfg s party stage c success stage' s')
    (hd : d < s.db.nextId) (h : holds d (party, stage) = true → ofDeadQueue (party, stage)) :
    holds d (party, stage') = false ∧
      ∀ m ∈ s'.broker.ready, m.carries d = true → m ∈ s.broker.ready := by
  constructor
  · by_contra hholds
    rw [Bool.not_eq_false] at hholds
    cases heffect with
    | getControl _ hqueue _ =>
        have hdead : _ = Queue.dead := h (by simpa [Phase.live] using hholds)
        simp [hdead, Queue.isChannel] at hqueue
    | getControlError _ hqueue =>
        have hdead : _ = Queue.dead := h (by simpa [Phase.live] using hholds)
        simp [hdead, Queue.isChannel] at hqueue
    | write _ hwrites _ =>
        cases hwrites with
        | retryCount => simp at hholds
        | dead _ => simp [Phase.live] at hholds
        | blocked => simp [Phase.live] at hholds
        | _ => exact h (by simpa [Phase.live] using hholds)
    | writeError _ hwrites =>
        cases hwrites with
        | retryCount => simp at hholds
        | dead _ => simp [Phase.live] at hholds
        | _ => exact h (by simpa [Phase.live] using hholds)
    | providerSend _ _ => exact h (by simpa [Phase.live] using hholds)
    | @insertAttempt _ _ result _ _ _ =>
        cases result with
        | ok r => simp [Phase.live, Except.isOk, Except.toBool] at hholds
        | error e => exact h (by simpa [Phase.live, Except.isOk, Except.toBool] using hholds)
    | insertAttemptError _ => exact h (by simpa [Phase.live] using hholds)
    | insertTxDelivery => exact hd.ne' (beq_iff_eq.mp hholds)
    | insertDelivery _ => exact hd.ne' (beq_iff_eq.mp hholds)
    | sendEnsureControl _ => exact h hholds
    | routeEnsureControl _ => exact h hholds
    | _ => simp [holds, Phase.live] at hholds
  · intro m hm hcarries
    refine (heffect.ready_cases hm).resolve_right ?_
    rintro (⟨u, job, phase, q, job', rfl, rfl, hbody, hrep, rfl, -⟩ |
      ⟨u, phase, rfl, rfl, hphase, rfl⟩ | ⟨q, job, hparty, -, -, hholds, rfl⟩)
    · obtain ⟨hlive, hid⟩ := hrep.live
      have hold := h (by simpa [carries_of_body hbody, hlive, hid] using hcarries)
      cases hrep with
      | retry => exact hold
      | dead hqueue _ => simp [ofDeadQueue, hqueue] at hold
      | again hqueue _ => simp [ofDeadQueue, hqueue] at hold
    · rcases hphase with rfl | rfl
      · exact h (by simpa [Phase.live] using hcarries)
      · exact h (by simpa [Phase.live] using hcarries)
    · obtain rfl : job.deliveryID = d := by simpa using hcarries
      have hold := h hholds
      cases party with
      | consumer u => exact hparty u rfl
      | request _ _ => exact hold
      | pass _ => exact hold

private theorem Effect.stamp_dead_cases (heffect : Effect cfg s party stage c success stage' s')
    {at? : Bool} (h : s'.db.stamp? d = some (.dead, at?)) :
    (∃ at?, s.db.stamp? d = some (.dead, at?)) ∨
    (∃ u job, party = .consumer u ∧ u.message.body = some job ∧ job.deliveryID = d ∧
      u.message.queue = .dead) ∨
    ∃ tx row, stage.tx? = some tx ∧ (d, row) ∈ tx.deliveries ∧ row.status = .dead := by
  cases heffect with
  | getControl _ _ hget =>
      obtain ⟨controls, next, rfl, -⟩ := Db.getControl_cases hget
      exact .inl ⟨at?, h⟩
  | @write u job phase _ _ _ _ _ hbody hwrites hdb =>
      by_cases hd : d = job.deliveryID
      · subst hd
        rcases Db.updateDelivery_cases hdb with ⟨-, rfl⟩ | ⟨row, row', hrow, hf, rfl⟩
        · exact .inl ⟨at?, h⟩
        have hst : row'.status = .dead := by
          have hstamp : some row'.stamp = some (.dead, at?) := by
            simpa [Db.stamp?, hrow] using h
          exact congrArg Prod.fst (Option.some.inj hstamp)
        cases hwrites with
        | dead hqueue => exact .inr (.inl ⟨u, job, rfl, hbody, rfl, hqueue⟩)
        | retryCount =>
            obtain ⟨response, -, rfl⟩ := Option.map_eq_some_iff.mp hf
            have hdead : row.status = .dead := hst
            exact .inl ⟨row.deliveredAt.isSome, by simp [Db.stamp?, hrow, DeliveryRow.stamp, hdead]⟩
        | paused =>
            obtain ⟨response, -, rfl⟩ := Option.map_eq_some_iff.mp hf
            simp at hst
        | blocked =>
            obtain ⟨response, -, rfl⟩ := Option.map_eq_some_iff.mp hf
            simp at hst
        | sending =>
            obtain rfl := Option.some.inj hf
            simp at hst
        | result r =>
            obtain rfl := Option.some.inj hf
            cases r <;> simp [Worker.resultStatus] at hst
      · exact .inl ⟨at?, by rwa [← stamp?_update_ne hdb hd]⟩
  | insertAttempt _ hdb =>
      obtain ⟨-, attempts, rfl⟩ := Db.insertAttempt_cases hdb
      exact .inl ⟨at?, h⟩
  | requeue _ => split at h <;> exact .inl ⟨at?, h⟩
  | sendEnsureControl hensure =>
      obtain ⟨controls, next, rfl, -⟩ := Db.ensureControl_cases hensure
      exact .inl ⟨at?, h⟩
  | routeEnsureControl hensure =>
      obtain ⟨controls, next, rfl, -⟩ := Db.ensureControl_cases hensure
      exact .inl ⟨at?, h⟩
  | @commit _ _ tx _ hstage =>
      obtain ⟨row, hrow, hst⟩ := Option.map_eq_some_iff.mp h
      rcases Table.get?_insertAll_cases hrow with hrow | hmem
      · exact .inl ⟨at?, by rw [Db.stamp?, hrow, Option.map_some, hst]⟩
      · refine .inr (.inr ⟨tx, row, ?_, hmem, congrArg Prod.fst hst⟩)
        rcases hstage with ⟨n, rfl⟩ | rfl <;> rfl
  | @insertDelivery _ _ _ _ _ _ new hnew =>
      obtain ⟨row, hrow, hst⟩ := Option.map_eq_some_iff.mp h
      have hadd : (s.db.deliveries.insertAll [(s.db.nextId, new)]).get? d = some row := hrow
      rcases Table.get?_insertAll_cases hadd with hrow | hmem
      · exact .inl ⟨at?, by rw [Db.stamp?, hrow, Option.map_some, hst]⟩
      · obtain ⟨-, rfl⟩ := Prod.mk.inj (List.mem_singleton.mp hmem)
        rw [hnew] at hst
        simp [Db.newDelivery, DeliveryRow.stamp] at hst
  | _ => exact .inl ⟨at?, h⟩

private theorem Effect.pending_queued (heffect : Effect cfg s party stage c success stage' s')
    (h : ∀ tx, stage.tx? = some tx → ∀ p ∈ tx.deliveries, p.2.status = .queued) {tx : Tx}
    (htx : stage'.tx? = some tx) {p : Nat × DeliveryRow} (hp : p ∈ tx.deliveries) :
    p.2.status = .queued := by
  cases heffect with
  | insertNotification _ =>
      obtain rfl := Option.some.inj htx
      simp at hp
  | @insertScheduledJob _ _ _ _ tx₀ _ hempty =>
      obtain rfl := Option.some.inj htx
      simp [hempty] at hp
  | @insertTxDelivery _ _ _ _ _ tx₀ _ _ =>
      obtain rfl := Option.some.inj htx
      rcases List.mem_append.mp hp with hp | hp
      · exact h tx₀ rfl p hp
      · obtain rfl := List.mem_singleton.mp hp
        rfl
  | sendEnsureControl _ => exact h tx htx p hp
  | sendPublish _ => exact h tx htx p hp
  | _ => simp [Stage.tx?] at htx

private theorem onBudget_status (heffect : Effect cfg s party stage c success stage' s')
    (h : OnBudget cfg s (before ++ (party, stage) :: after)) :
    ∀ d at?, s'.db.stamp? d = some (.dead, at?) → s'.deadLettered d := by
  intro d at? hst
  rcases heffect.stamp_dead_cases hst with ⟨at?', hst'⟩ | ⟨u, job, rfl, hbody, rfl, hqueue⟩ |
    ⟨tx, row, htx, hmem, hdead⟩
  · exact heffect.deadLettered_mono (h.status d at?' hst')
  · exact heffect.deadLettered_mono (h.deadParty u stage (by simp) hqueue job hbody)
  · have hqueued := h.pending (party, stage) (by simp) tx htx _ hmem
    simp [hdead] at hqueued

private theorem onBudget_pending (heffect : Effect cfg s party stage c success stage' s')
    (h : OnBudget cfg s (before ++ (party, stage) :: after)) :
    ∀ m ∈ before ++ (party, stage') :: after, ∀ tx, m.2.tx? = some tx →
      ∀ p ∈ tx.deliveries, p.2.status = .queued := by
  intro m hm tx htx p hp
  rw [List.mem_append, List.mem_cons] at hm
  rcases hm with hm | rfl | hm
  · exact h.pending m (by simp [hm]) tx htx p hp
  · exact heffect.pending_queued (h.pending (party, stage) (by simp)) htx hp
  · exact h.pending m (by simp [hm]) tx htx p hp

private theorem onBudget_deadParty (heffect : Effect cfg s party stage c success stage' s')
    (h : OnBudget cfg s (before ++ (party, stage) :: after)) :
    ∀ u stage₀, (Party.consumer u, stage₀) ∈ before ++ (party, stage') :: after →
      u.message.queue = .dead → ∀ job, u.message.body = some job →
      s'.deadLettered job.deliveryID := by
  intro u stage₀ hm hqueue job hbody
  refine heffect.deadLettered_mono ?_
  rw [List.mem_append, List.mem_cons] at hm
  rcases hm with hm | heq | hm
  · exact h.deadParty u stage₀ (by simp [hm]) hqueue job hbody
  · obtain ⟨rfl, rfl⟩ := Prod.mk.inj heq
    exact h.deadParty u stage (by simp) hqueue job hbody
  · exact h.deadParty u stage₀ (by simp [hm]) hqueue job hbody

private theorem onBudget_deadQueue (heffect : Effect cfg s party stage c success stage' s')
    (h : OnBudget cfg s (before ++ (party, stage) :: after)) :
    ∀ m ∈ s'.broker.ready, m.queue = .dead → ∀ job, m.body = some job →
      s'.deadLettered job.deliveryID := by
  intro m hm hqueue job hbody
  rcases heffect.ready_cases hm with hm | ⟨u, job₀, phase, q, job', rfl, rfl, hbody', hrep, rfl,
    rfl⟩ | ⟨u, phase, rfl, rfl, hp, rfl⟩ | ⟨q, job', hparty, hchannel, -, -, rfl⟩
  · exact heffect.deadLettered_mono (h.deadQueue m hm hqueue job hbody)
  · obtain rfl : job' = job := by simpa using hbody
    exact ⟨_, List.mem_append_right _ (List.mem_singleton.mpr rfl), hqueue, rfl⟩
  · exact heffect.deadLettered_mono
      (h.deadParty u (.consumer phase) (by simp) hqueue job hbody)
  · obtain rfl : q = .dead := hqueue
    simp [Queue.isChannel] at hchannel

private theorem onBudget_dead {u : Delivery} {job : Job}
    (heffect : Effect cfg s (.consumer u) (.consumer .received) c success (.consumer .moved) s')
    (hK : Tidy s (before ++ (.consumer u, .consumer .received) :: after))
    (h : OnBudget cfg s (before ++ (.consumer u, .consumer .received) :: after))
    (hbody : u.message.body = some job) (hqueue : u.message.queue = .retry)
    (hlimit : cfg.maxDeliveryTries ≤ job.attempt) :
    (0 < s.tries job.deliveryID ∧ underLimit cfg.maxDeliveryTries (s.tries job.deliveryID) ∧
      cfg.maxDeliveryTries + 1 ≤ 2 * (s.tries job.deliveryID : Int)) ∧
    (∀ m ∈ s'.broker.ready, m.carries job.deliveryID = true → m.queue = .dead) ∧
    ∀ m ∈ before ++ (.consumer u, .consumer .moved) :: after,
      holds job.deliveryID m = true → ofDeadQueue m := by
  have hown : holds job.deliveryID (.consumer u, .consumer .received) = true := by
    simp [carries_of_body hbody, Phase.live]
  obtain ⟨hready, hrest⟩ := hK.token.sole hown
  have hold := h.parties (.consumer u, .consumer .received) (by simp) _ hown job hbody
  simp only [hqueue] at hold
  have hattempt := hold.1
  refine ⟨⟨by omega, hold.2, by omega⟩, ?_, ?_⟩
  · intro m hm hcarries
    rcases heffect.ready_cases hm with hm | ⟨u', job₀, phase, q, job', hu, hphase, hbody', hrep,
      rfl, -⟩ | ⟨u', phase, hu, hphase, hp, rfl⟩ | ⟨q, job', hparty, -⟩
    · simp [hready m hm] at hcarries
    · obtain rfl := Stage.consumer.inj hphase
      obtain rfl := Party.consumer.inj hu
      obtain rfl : job = job₀ := by simpa [hbody] using hbody'
      cases hrep with
      | dead _ _ => rfl
      | again _ hnot => exact absurd hlimit hnot
    · obtain rfl := Stage.consumer.inj hphase
      simp at hp
    · exact absurd rfl (hparty u)
  · intro m hm hholds
    rw [List.mem_append, List.mem_cons] at hm
    rcases hm with hm | rfl | hm
    · simp [hrest m (by simp [hm])] at hholds
    · simp at hholds
    · simp [hrest m (by simp [hm])] at hholds

private theorem tries_lt {ms : Members} (h : OnBudget cfg s ms) (hpos : 0 < s.tries d) :
    d < s.db.nextId := by
  obtain ⟨a, ha, hid⟩ := List.countP_pos_iff.mp hpos
  rw [← beq_iff_eq.mp hid]
  exact h.known a ha

private theorem onBudget_quiet (heffect : Effect cfg s party stage c success stage' s')
    (hcalls : s'.calls = s.calls) (hK : Tidy s (before ++ (party, stage) :: after))
    (h : OnBudget cfg s (before ++ (party, stage) :: after)) :
    OnBudget cfg s' (before ++ (party, stage') :: after) := by
  have htries : ∀ d, s'.tries d = s.tries d := fun d => by rw [Sys.tries, hcalls, Sys.tries]
  have hself := h.parties (party, stage) (by simp)
  constructor
  · rw [hcalls]
    exact fun a ha => (h.known a ha).trans_le heffect.nextId_le
  · intro m hm job hbody
    rw [htries]
    rcases heffect.ready_onBudget hself hm hbody with hm | hon
    · exact h.queues m hm job hbody
    · exact hon
  · intro m hm d hholds
    rw [htries]
    rw [List.mem_append, List.mem_cons] at hm
    rcases hm with hm | rfl | hm
    · exact h.parties m (by simp [hm]) d hholds
    · exact heffect.caller_onBudget hcalls (tries_nextId h) (hself d) hholds
    · exact h.parties m (by simp [hm]) d hholds
  · intro d hdead
    rw [htries]
    rcases heffect.deadLettered_cases hdead with hold | ⟨u, job, rfl, rfl, rfl, hbody, rfl, hq,
      hlimit⟩
    · obtain ⟨hspent, hqueues, hparties⟩ := h.dead d hold
      obtain ⟨hnot, hready⟩ :=
        heffect.dead_stays (tries_lt h hspent.1) (hparties (party, stage) (by simp))
      refine ⟨hspent, fun m hm hcarries => hqueues m (hready m hm hcarries) hcarries, ?_⟩
      intro m hm hholds
      rw [List.mem_append, List.mem_cons] at hm
      rcases hm with hm | rfl | hm
      · exact hparties m (by simp [hm]) hholds
      · simp [hnot] at hholds
      · exact hparties m (by simp [hm]) hholds
    · exact onBudget_dead heffect hK h hbody hq hlimit
  · exact onBudget_deadQueue heffect h
  · exact onBudget_deadParty heffect h
  · exact onBudget_pending heffect h
  · exact onBudget_status heffect h

private theorem onBudget_send {u : Delivery} {job : Job} {result : Except Err ProviderResult}
    (hbody : u.message.body = some job)
    (heffect : Effect cfg s (.consumer u) (.consumer .sending) c success
      (.consumer (.called result))
      { s with calls := s.calls ++ [⟨Worker.providerMessage job, result.isOk, .consumer u⟩] })
    (hK : Tidy s (before ++ (.consumer u, .consumer .sending) :: after))
    (h : OnBudget cfg s (before ++ (.consumer u, .consumer .sending) :: after)) :
    OnBudget cfg { s with calls := s.calls ++ [⟨Worker.providerMessage job, result.isOk, .consumer u⟩] }
      (before ++ (.consumer u, .consumer (.called result)) :: after) := by
  have hown : holds job.deliveryID (.consumer u, .consumer .sending) = true := by
    simp [carries_of_body hbody, Phase.live]
  obtain ⟨hready, hrest⟩ := hK.token.sole hown
  have htries : ∀ d, d ≠ job.deliveryID → Sys.tries { s with
      calls := s.calls ++ [⟨Worker.providerMessage job, result.isOk, .consumer u⟩] } d = s.tries d := by
    intro d hd
    simp [Sys.tries, List.countP_append, Worker.providerMessage, Ne.symm hd]
  have hone : Sys.tries { s with
      calls := s.calls ++ [⟨Worker.providerMessage job, result.isOk, .consumer u⟩] } job.deliveryID =
      s.tries job.deliveryID + 1 := by
    simp [Sys.tries, List.countP_append, Worker.providerMessage]
  have hold := h.parties (.consumer u, .consumer .sending) (by simp) _ hown job hbody
  have hattempt := (onBudget_channel hold.1).mp hold.2
  have hother : ∀ m ∈ before ++ after, ∀ d, holds d m = true → d ≠ job.deliveryID := by
    rintro m hm d hholds rfl
    simp [hrest m hm] at hholds
  constructor
  · intro a ha
    rcases List.mem_append.mp ha with ha | ha
    · exact h.known a ha
    · obtain rfl := List.mem_singleton.mp ha
      exact hK.token.lt_nextId hown
  · intro m hm job' hbody'
    rw [htries]
    · exact h.queues m hm job' hbody'
    · intro hid
      have hcarries := hready m hm
      simp [Message.carries, hbody', hid] at hcarries
  · intro m hm d hholds
    rw [List.mem_append, List.mem_cons] at hm
    rcases hm with hm | rfl | hm
    · rw [htries d (hother m (by simp [hm]) d hholds)]
      exact h.parties m (by simp [hm]) d hholds
    · obtain rfl : job.deliveryID = d := by
        simpa [carries_of_body hbody, Phase.live] using hholds
      rw [hone]
      intro job' hbody'
      obtain rfl : job = job' := by simpa [hbody] using hbody'
      exact ⟨by omega, hattempt.2⟩
    · rw [htries d (hother m (by simp [hm]) d hholds)]
      exact h.parties m (by simp [hm]) d hholds
  · intro d hdead
    obtain ⟨hspent, hqueues, hparties⟩ := h.dead d hdead
    have hd : d ≠ job.deliveryID := by
      rintro rfl
      exact hparties (.consumer u, .consumer .sending) (by simp) hown
    rw [htries d hd]
    refine ⟨hspent, hqueues, fun m hm hholds => ?_⟩
    rw [List.mem_append, List.mem_cons] at hm
    rcases hm with hm | rfl | hm
    · exact hparties m (by simp [hm]) hholds
    · have hid : job.deliveryID = d := by simpa [carries_of_body hbody, Phase.live] using hholds
      exact absurd hid.symm hd
    · exact hparties m (by simp [hm]) hholds
  · exact onBudget_deadQueue heffect h
  · exact onBudget_deadParty heffect h
  · exact onBudget_pending heffect h
  · exact onBudget_status heffect h

private theorem onBudget_members {ms ms' : Members} (h : OnBudget cfg s ms)
    (hms : ∀ m ∈ ms', m ∈ ms ∨ (∀ d, holds d m = false) ∧ (∀ u, m.1 = .consumer u →
      ∃ stage, (m.1, stage) ∈ ms) ∧ m.2.tx? = none) : OnBudget cfg s ms' where
  known := h.known
  queues := h.queues
  parties := by
    intro m hm d hholds
    rcases hms m hm with hold | ⟨hnone, -, -⟩
    · exact h.parties m hold d hholds
    · simp [hnone d] at hholds
  dead := by
    intro d hdead
    refine ⟨(h.dead d hdead).1, (h.dead d hdead).2.1, fun m hm hholds => ?_⟩
    rcases hms m hm with hold | ⟨hnone, -, -⟩
    · exact (h.dead d hdead).2.2 m hold hholds
    · simp [hnone d] at hholds
  deadQueue := h.deadQueue
  deadParty := by
    intro u stage hm
    rcases hms _ hm with hold | ⟨-, hconsumer, -⟩
    · exact h.deadParty u stage hold
    · obtain ⟨stage₀, hold⟩ := hconsumer u rfl
      exact h.deadParty u stage₀ hold
  pending := by
    intro m hm tx htx
    rcases hms m hm with hold | ⟨-, -, hnone⟩
    · exact h.pending m hold tx htx
    · simp [hnone] at htx
  status := h.status

end

theorem onBudget_inductive (cfg : Config) :
    Inductive cfg Steady Tidy (OnBudget cfg) where
  call := by
    intro w before after party stage stage' c o success s' _ _ _ heffect hK h
    rcases heffect.calls_cases with hcalls | ⟨u, job, result, hbody, rfl, rfl, rfl, rfl⟩
    · exact onBudget_quiet heffect hcalls hK h
    · exact onBudget_send hbody heffect hK h
  request := by
    intro w ms t req _ _ _ h
    refine onBudget_members h fun m hm => (List.mem_append.mp hm).imp id fun hm => ?_
    obtain rfl := List.mem_singleton.mp hm
    exact ⟨fun d => rfl, by simp, rfl⟩
  tick := by
    intro w ms _ _ _ h
    refine onBudget_members h fun m hm => (List.mem_append.mp hm).imp id fun hm => ?_
    obtain rfl := List.mem_singleton.mp hm
    exact ⟨fun d => rfl, by simp, rfl⟩
  deliver := by
    intro w ms i m _ _ hm _ h
    have hready := List.mem_of_getElem? hm
    constructor
    · exact h.known
    · intro m' hm'
      exact h.queues m' (List.mem_of_mem_eraseIdx hm')
    · intro x hx d hholds
      rcases List.mem_append.mp hx with hx | hx
      · exact h.parties x hx d hholds
      · obtain rfl := List.mem_singleton.mp hx
        intro job hbody
        obtain rfl : job.deliveryID = d := by
          simpa [Message.carries, show m.body = some job from hbody, Phase.live] using hholds
        exact h.queues m hready job hbody
    · intro d hdead
      obtain ⟨hspent, hqueues, hparties⟩ := h.dead d hdead
      refine ⟨hspent, fun m' hm' => hqueues m' (List.mem_of_mem_eraseIdx hm'), ?_⟩
      intro x hx hholds
      rcases List.mem_append.mp hx with hx | hx
      · exact hparties x hx hholds
      · obtain rfl := List.mem_singleton.mp hx
        exact hqueues m hready (by simpa [Phase.live] using hholds)
    · intro m' hm'
      exact h.deadQueue m' (List.mem_of_mem_eraseIdx hm')
    · intro u stage hmem hqueue job hbody
      rcases List.mem_append.mp hmem with hmem | hmem
      · exact h.deadParty u stage hmem hqueue job hbody
      · obtain ⟨rfl, -⟩ : u = ⟨w.sys.broker.nextTag, m⟩ ∧ _ := by simpa using hmem
        exact h.deadQueue m hready hqueue job hbody
    · intro x hx tx htx
      rcases List.mem_append.mp hx with hx | hx
      · exact h.pending x hx tx htx
      · obtain rfl := List.mem_singleton.mp hx
        simp [Stage.tx?] at htx
    · exact h.status
  admin := by
    intro w ms a _ _ _ h
    cases a <;> exact ⟨h.known, h.queues, h.parties, h.dead, h.deadQueue, h.deadParty, h.pending,
      h.status⟩
  clock := by
    intro w ms now _ _ _ _ h
    exact ⟨h.known, h.queues, h.parties, h.dead, h.deadQueue, h.deadParty, h.pending, h.status⟩
  crash := by
    intro w before after party stage _ _ _ h
    refine onBudget_members h fun m hm => ?_
    simp only [List.mem_append, List.mem_cons] at hm
    rcases hm with hm | rfl | hm
    · exact .inl (by simp [hm])
    · exact .inr ⟨fun d => by simp [holds], fun u _ => ⟨stage, by simp⟩, rfl⟩
    · exact .inl (by simp [hm])
  requeue := by
    intro w ms d _ hok
    exact hok.elim

end NotificationPlatform

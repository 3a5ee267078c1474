import NotificationPlatform.AttemptNumbers
import NotificationPlatform.Providers

/-!
# The retry counters

The retry loop leaves the number of the attempt that it hands out in the row of the delivery, and
the collector adds these numbers up as the number of retries. The attempt counts the failures of
the worker as well, and the worker writes its result over the number: a row shows an even
number or none, never the first retry.
-/

namespace NotificationPlatform

open Lib

/-- The publication hands a job out again: only the retry loop takes a job and publishes it to
the queue of a channel. -/
def Publication.retries (p : Publication) : Bool := p.party.isConsumer && p.queue.isChannel

/-- How often the retry loop has republished the job of delivery `d`. -/
def Sys.republished (s : Sys) (d : Nat) : Nat :=
  s.published.countP fun p => p.retries && p.job.deliveryID == d

def DeliveryRow.retryCount (row : DeliveryRow) : Json :=
  (row.response.field? "retry_count").getD (.num 0)

/-- `(response_json->>'retry_count')::int`, where `text` reads the text of an integer: `none`
inside is the SQL null, `none` outside an error of the cast. -/
def castRetryCount (text : String → Option Int) : Json → Option (Option Int)
  | .null => some none
  | .num q => if q.den = 1 ∧ -2 ^ 31 ≤ q.num ∧ q.num < 2 ^ 31 then some (some q.num) else none
  | .str s => (text s).map some
  | .bool _ | .arr _ | .obj _ => none

/-- The sum that `refresh` stores as the number of retries. The error of the query is dropped,
and the sum is then 0. -/
def Db.notificationsRetried (text : String → Option Int) (db : Db) : Int :=
  let counts := db.deliveries.rows.filterMap fun r => r.2.response.field? "retry_count"
  match counts.mapM (castRetryCount text) with
  | some ns => (ns.filterMap id).sum
  | none => 0

/-- The retry counters count the republications, in each row and in the exported total. -/
def Sys.retriesCounted (text : String → Option Int) (s : Sys) : Prop :=
  (∀ d row, s.db.deliveries.get? d = some row → row.retryCount = .num (s.republished d)) ∧
    s.db.notificationsRetried text = s.published.countP Publication.retries

/-- The answer of a provider that the statement stores has no field `retry_count`. -/
def Stmt.plain : Stmt → Bool
  | .storeResult _ _ _ response => (response.field? "retry_count").isNone
  | _ => true

/-- No answer of a provider that a worker stores has a field `retry_count`. -/
def PlainAnswers (_ : World) : World.Label → Prop
  | .call _ c _ => c.stmt.plain = true
  | _ => True

instance (w : World) : (l : World.Label) → Decidable (PlainAnswers w l)
  | .call _ c _ => inferInstanceAs (Decidable (c.stmt.plain = true))
  | .crash _ | .requeue | .deliver _ | .request _ _ | .tick | .admin _ | .clock | .none =>
      inferInstanceAs (Decidable True)

/-- The attempt of a job is even in the queue of a channel and odd in the retry and the dead
queue: the worker and the retry loop count one each. -/
def Message.alternates (m : Message) : Prop :=
  ∀ job, m.body = some job → job.attempt % 2 = if m.queue.isChannel then 0 else 1

def Tx.uncounted (tx : Tx) : Prop :=
  ∀ p ∈ tx.deliveries, p.2.response.field? "retry_count" = none

structure Sys.EvenCounts (s : Sys) : Prop where
  ready : ∀ m ∈ s.broker.ready, m.alternates
  unacked : ∀ u ∈ s.broker.unacked, u.message.alternates
  rows : ∀ d row j, s.db.deliveries.get? d = some row →
    row.response.field? "retry_count" = some j →
    0 < s.republished d ∧ ∃ n : Nat, j = .num (2 * n : Nat)

/-- A consumer that goes on to store a counter has republished its job. -/
structure CountsRetries (cfg : Config) (s : Sys) (m : Party × Stage) : Prop where
  message : ∀ u, m.1 = .consumer u → u.message.alternates
  moved : ∀ u job, m = (.consumer u, .consumer .moved) → u.message.queue = .retry →
    u.message.body = some job → ¬cfg.maxDeliveryTries ≤ job.attempt →
    0 < s.republished job.deliveryID
  opened : ∀ tx, m.2.tx? = some tx → tx.uncounted

theorem field?_jsonbSet {target response value : Json} {key : String}
    (h : jsonbSet target key value = some response) (other : String) :
    response.field? other = if key = other then some value else target.field? other := by
  cases target with
  | obj fields =>
      obtain rfl := Option.some.inj h
      exact Json.field?_setField fields key other value
  | _ => simp [jsonbSet] at h

section

variable {cfg : Config} {s s' : Sys} {party : Party} {stage stage' : Stage} {c : Call}
  {success : Bool} {d : Nat}

theorem republished_add (s : Sys) (party : Party) (q : Queue) (job : Job) (d : Nat) :
    (s.addPublication party q job).republished d = s.republished d +
      if party.isConsumer && q.isChannel && job.deliveryID == d then 1 else 0 := by
  simp [Sys.republished, List.countP_append, List.countP_singleton, Publication.retries]

theorem Effect.republished_le (h : Effect cfg s party stage c success stage' s') (d : Nat) :
    s.republished d ≤ s'.republished d := by
  rcases h.published_cases with hsame | ⟨q, job, rfl, -⟩
  · rw [Sys.republished, Sys.republished, hsame]
  · rw [republished_add]
    exact Nat.le_add_right _ _

/-- Where the response of a row comes from: it was there before, a consumer has written it, the
row is committed, or it is new. -/
theorem Effect.response_cases (h : Effect cfg s party stage c success stage' s')
    {row : DeliveryRow} (hrow : s'.db.deliveries.get? d = some row) :
    s.db.deliveries.get? d = some row ∨
    (∃ u job phase f onOk onError old, party = .consumer u ∧ stage = .consumer phase ∧
      u.message.body = some job ∧ job.deliveryID = d ∧
      Writes cfg u job s.db.now phase c f onOk onError ∧
      s.db.deliveries.get? d = some old ∧ f old = some row) ∨
    (∃ tx, stage.tx? = some tx ∧ (d, row) ∈ tx.deliveries) ∨ row.response = .obj [] := by
  cases h with
  | getControl _ _ hget =>
      obtain ⟨controls, next, rfl, -⟩ := Db.getControl_cases hget
      exact .inl hrow
  | @write u job phase onOk onError _ f _ hbody hwrites hdb =>
      rcases Db.updateDelivery_cases hdb with ⟨-, rfl⟩ | ⟨old, new, hold, hf, rfl⟩
      · exact .inl hrow
      · by_cases hd : d = job.deliveryID
        · obtain rfl : new = row := by simpa [hd, hold] using hrow
          rw [← hd] at hold
          exact .inr (.inl ⟨u, job, phase, f, onOk, onError, old, rfl, rfl, hbody, hd.symm,
            hwrites, hold, hf⟩)
        · exact .inl (by rwa [Table.get?_modify_ne _ _ hd] at hrow)
  | insertAttempt _ hdb =>
      obtain ⟨-, attempts, rfl⟩ := Db.insertAttempt_cases hdb
      exact .inl hrow
  | requeue _ => split at hrow <;> exact .inl hrow
  | sendEnsureControl hensure =>
      obtain ⟨controls, next, rfl, -⟩ := Db.ensureControl_cases hensure
      exact .inl hrow
  | routeEnsureControl hensure =>
      obtain ⟨controls, next, rfl, -⟩ := Db.ensureControl_cases hensure
      exact .inl hrow
  | @commit _ _ tx _ hstage =>
      rcases Table.get?_insertAll_cases hrow with hold | hmem
      · exact .inl hold
      · have htx : stage.tx? = some tx := by
          rcases hstage with ⟨n, rfl⟩ | rfl <;> rfl
        exact .inr (.inr (.inl ⟨tx, htx, hmem⟩))
  | @insertDelivery _ _ _ _ _ _ new hnew =>
      have hadd : (s.db.deliveries.insertAll [(s.db.nextId, new)]).get? d = some row := hrow
      rcases Table.get?_insertAll_cases hadd with hold | hmem
      · exact .inl hold
      · have heq : row = new := congrArg Prod.snd (List.mem_singleton.mp hmem)
        rw [heq, hnew]
        exact .inr (.inr (.inr rfl))
  | _ => exact .inl hrow

theorem Writes.retryCount_cases {u : Delivery} {job : Job} {now : Nat}
    {phase onOk onError : Phase} {f : DeliveryRow → Option DeliveryRow} {row row' : DeliveryRow}
    (h : Writes cfg u job now phase c f onOk onError) (hf : f row = some row')
    (hplain : c.stmt.plain = true) :
    row'.response.field? "retry_count" = row.response.field? "retry_count" ∨
    row'.response.field? "retry_count" = none ∨
    phase = .moved ∧ u.message.queue = .retry ∧ ¬cfg.maxDeliveryTries ≤ job.attempt ∧
      row'.response.field? "retry_count" = some (.num (job.attempt + 1 : Nat)) := by
  have hmark : ∀ {status : DeliveryStatus} {key value : String}, key ≠ "retry_count" →
      Db.mark status key value row = some row' →
      row'.response.field? "retry_count" = row.response.field? "retry_count" := by
    intro status key value hkey hf
    obtain ⟨response, hset, rfl⟩ := Option.map_eq_some_iff.mp hf
    exact (field?_jsonbSet hset _).trans (if_neg hkey)
  cases h with
  | paused => exact .inl (hmark (by decide) hf)
  | blocked => exact .inl (hmark (by decide) hf)
  | dead _ => exact .inl (hmark (by decide) hf)
  | sending =>
      obtain rfl := Option.some.inj hf
      exact .inl rfl
  | result r =>
      obtain rfl := Option.some.inj hf
      exact .inr (.inl (Option.isNone_iff_eq_none.mp hplain))
  | retryCount hqueue htries =>
      obtain ⟨response, hset, rfl⟩ := Option.map_eq_some_iff.mp hf
      have hcount := field?_jsonbSet hset "retry_count"
      rw [if_pos rfl] at hcount
      exact .inr (.inr ⟨rfl, hqueue, htries, by simpa using hcount⟩)

theorem Effect.ready_alternates (h : Effect cfg s party stage c success stage' s')
    (hplaced : NotificationPlatform.placed (party, stage))
    (hself : CountsRetries cfg s (party, stage)) {m : Message}
    (hm : m ∈ s'.broker.ready) : m ∈ s.broker.ready ∨ m.alternates := by
  refine (h.ready_cases hm).imp id ?_
  rintro (⟨u, job, phase, q, job', rfl, rfl, hbody, hrep, rfl, -⟩ |
    ⟨u, phase, rfl, rfl, -, rfl⟩ | ⟨q, job, -, hq, hattempt, -, rfl⟩)
  · have hparity := hself.message u rfl job hbody
    intro job₀ hbody₀
    obtain rfl := Option.some.inj hbody₀
    cases hrep with
    | retry =>
        have hchannel : u.message.queue.isChannel = true := hplaced.2 rfl
        simp only [hchannel, if_true] at hparity
        simp only [Queue.isChannel, Bool.false_eq_true, if_false]
        omega
    | dead hqueue _ => simpa [hqueue, Queue.isChannel] using hparity
    | again hqueue _ =>
        simp only [hqueue, Queue.isChannel, Bool.false_eq_true, if_false] at hparity
        simp only [Retry.channelQueue_isChannel, if_true]
        omega
  · exact hself.message u rfl
  · intro job₀ hbody
    obtain rfl := Option.some.inj hbody
    simp [hq, hattempt]

theorem Effect.counts (h : Effect cfg s party stage c success stage' s')
    (hplaced : NotificationPlatform.placed (party, stage))
    (hself : CountsRetries cfg s (party, stage)) :
    CountsRetries cfg s' (party, stage') where
  message := hself.message
  moved := by
    intro u job hm hqueue hbody htries
    cases h with
    | @write u₀ _ phase _ _ _ _ _ _ hwrites _ =>
        cases hwrites with
        | retryCount _ _ => exact hself.moved u job hm hqueue hbody htries
        | _ => simp at hm
    | @writeError _ _ phase _ _ _ _ _ hwrites =>
        cases hwrites with
        | retryCount _ _ => exact hself.moved u job hm hqueue hbody htries
        | _ => simp at hm
    | @republish u₀ job₀ job' _ _ q hbody₀ hrep =>
        obtain rfl : u₀ = u := by simpa using hm
        obtain rfl : job₀ = job := by simpa [hbody₀] using hbody
        rw [republished_add]
        cases hrep with
        | retry =>
            have hchannel : u₀.message.queue.isChannel = true := hplaced.2 rfl
            simp [hqueue, Queue.isChannel] at hchannel
        | dead _ hdead => exact absurd hdead htries
        | again _ _ => simp [Party.isConsumer, Retry.channelQueue_isChannel]
    | insertAttempt _ _ => split at hm <;> simp at hm
    | giveUp _ hparty => simp at hm
    | _ => simp at hm
  opened := by
    intro tx htx p hp
    cases h with
    | insertNotification _ _ =>
        obtain rfl := Option.some.inj htx
        simp at hp
    | insertScheduledJob _ _ =>
        obtain rfl := Option.some.inj htx
        exact hself.opened _ rfl p hp
    | insertTxDelivery _ =>
        obtain rfl := Option.some.inj htx
        rcases List.mem_append.mp hp with hp | hp
        · exact hself.opened _ rfl p hp
        · obtain rfl := List.mem_singleton.mp hp
          rfl
    | sendEnsureControl _ => exact hself.opened tx htx p hp
    | sendPublish _ => exact hself.opened tx htx p hp
    | _ => simp [Stage.tx?] at htx

theorem CountsRetries.mono {m : Party × Stage} (h : CountsRetries cfg s m)
    (hle : ∀ d, s.republished d ≤ s'.republished d) : CountsRetries cfg s' m where
  message := h.message
  moved := fun u job hm hqueue hbody htries =>
    (h.moved u job hm hqueue hbody htries).trans_le (hle _)
  opened := h.opened

theorem Effect.evenCounts (h : Effect cfg s party stage c success stage' s')
    (hplain : c.stmt.plain = true)
    (hplaced : NotificationPlatform.placed (party, stage))
    (hself : CountsRetries cfg s (party, stage))
    (hs : s.EvenCounts) : s'.EvenCounts where
  ready := by
    intro m hm
    rcases h.ready_alternates hplaced hself hm with hold | hnew
    · exact hs.ready m hold
    · exact hnew
  unacked := fun u hu => hs.unacked u (h.unacked_subset hu)
  rows := by
    intro d row j hrow hj
    have hkept : ∀ old, s.db.deliveries.get? d = some old →
        old.response.field? "retry_count" = some j →
        0 < s'.republished d ∧ ∃ n : Nat, j = .num (2 * n : Nat) := by
      intro old hold hj
      obtain ⟨hpos, hn⟩ := hs.rows d old j hold hj
      exact ⟨hpos.trans_le (h.republished_le d), hn⟩
    rcases h.response_cases hrow with hold | ⟨u, job, phase, f, onOk, onError, old, rfl, rfl,
      hbody, rfl, hwrites, hold, hf⟩ | ⟨tx, htx, hmem⟩ | hempty
    · exact hkept row hold hj
    · rcases hwrites.retryCount_cases hf hplain with hsame | hnone | ⟨rfl, hqueue, htries, hcount⟩
      · exact hkept old hold (hsame ▸ hj)
      · simp [hnone] at hj
      · -- the attempt of the retry queue is odd, and one is added to it
        have hpos := hself.moved u job rfl hqueue hbody htries
        have hparity := hself.message u rfl job hbody
        simp only [hqueue, Queue.isChannel, Bool.false_eq_true, if_false] at hparity
        have hj' : .num (job.attempt + 1 : Nat) = j := Option.some.inj (hcount ▸ hj)
        refine ⟨hpos.trans_le (h.republished_le _), (job.attempt + 1) / 2, ?_⟩
        rw [← hj', Nat.mul_div_cancel' (by omega)]
    · rw [hself.opened tx htx _ hmem] at hj
      simp at hj
    · rw [hempty] at hj
      simp [Json.field?] at hj

end

theorem evenCounts_inductive (cfg : Config) :
    Inductive cfg PlainAnswers (fun s ms => s.Placed ∧ ∀ m ∈ ms, placed m)
      (fun s ms => s.EvenCounts ∧ ∀ m ∈ ms, CountsRetries cfg s m) := by
  apply Inductive.each
  case call =>
    intro w before after party stage stage' c o success s' hok _ heffect hK hs hms
    have hself := hms (party, stage) (by simp)
    have hplaced := hK.2 (party, stage) (by simp)
    refine ⟨heffect.evenCounts hok hplaced hself hs, heffect.counts hplaced hself,
      fun m hm => (hms m ?_).mono heffect.republished_le⟩
    simp only [List.mem_append, List.mem_cons] at hm ⊢
    tauto
  case request =>
    intro w t req _
    constructor <;> simp [Stage.tx?]
  case tick =>
    intro w
    constructor <;> simp [Stage.tx?]
  case deliver =>
    intro s i m hm hs
    have hmessage := hs.ready m (List.mem_of_getElem? hm)
    refine ⟨⟨fun x hx => hs.ready x (List.mem_of_mem_eraseIdx hx), fun u hu => ?_, hs.rows⟩, ?_,
      fun x hx => hx.mono fun d => le_refl _⟩
    · rcases List.mem_append.mp hu with hu | hu
      · exact hs.unacked u hu
      · rw [List.mem_singleton.mp hu]
        exact hmessage
    · constructor
      · rintro u ⟨⟩
        exact hmessage
      · simp
      · simp [Stage.tx?]
  case admin =>
    intro s a hs
    cases a <;> exact ⟨⟨hs.ready, hs.unacked, hs.rows⟩, fun x hx => hx.mono fun d => le_refl _⟩
  case clock =>
    intro s now _ hs
    exact ⟨⟨hs.ready, hs.unacked, hs.rows⟩, fun x hx => hx.mono fun d => le_refl _⟩
  case crash =>
    intro s party stage h
    exact ⟨h.message, by simp, by simp [Stage.tx?]⟩
  case requeue =>
    intro s d hd hs
    refine ⟨⟨fun m hm => ?_, fun u hu => hs.unacked u (List.mem_of_mem_filter hu), hs.rows⟩,
      fun x hx => hx.mono fun d => le_refl _⟩
    rcases List.mem_append.mp hm with hm | hm
    · exact hs.ready m hm
    · rw [List.mem_singleton.mp hm]
      exact hs.unacked d hd

section

variable {s : Sys} {text : String → Option Int}

theorem Sys.EvenCounts.retriesCounted (hs : s.EvenCounts) (hnone : ∀ d, s.republished d = 0) :
    s.retriesCounted text := by
  have hrows : ∀ d row, s.db.deliveries.get? d = some row →
      row.response.field? "retry_count" = none := by
    intro d row hrow
    by_contra hsome
    obtain ⟨j, hj⟩ := Option.ne_none_iff_exists'.mp hsome
    have hpos := (hs.rows d row j hrow hj).1
    rw [hnone d] at hpos
    exact hpos.false
  constructor
  · intro d row hrow
    rw [DeliveryRow.retryCount, hrows d row hrow, hnone d]
    rfl
  · have hcounts : (s.db.deliveries.rows.filterMap fun r =>
        r.2.response.field? "retry_count") = [] := by
      rw [List.filterMap_eq_nil_iff]
      intro r hr
      exact hrows r.1 r.2 (Table.get?_eq_some.mpr hr)
    have hretries : s.published.countP Publication.retries = 0 := by
      rw [List.countP_eq_zero]
      intro p hp hretries
      have hone : 0 < s.republished p.job.deliveryID :=
        List.countP_pos_iff.mpr ⟨p, hp, by simp [hretries]⟩
      rw [hnone] at hone
      exact hone.false
    rw [hretries, Db.notificationsRetried, hcounts]
    rfl

theorem Sys.EvenCounts.retryCount_ne (hs : s.EvenCounts) {d : Nat} {row : DeliveryRow}
    (hrow : s.db.deliveries.get? d = some row) (hodd : s.republished d % 2 = 1) :
    row.retryCount ≠ .num (s.republished d) := by
  intro hcount
  have heven : ∃ n : Nat, row.retryCount = .num (2 * n : Nat) := by
    cases hj : row.response.field? "retry_count" with
    | none => exact ⟨0, by simp [DeliveryRow.retryCount, hj]⟩
    | some j =>
        obtain ⟨-, n, rfl⟩ := hs.rows d row j hrow hj
        exact ⟨n, by simp [DeliveryRow.retryCount, hj]⟩
  obtain ⟨n, hn⟩ := heven
  have hnum : ((s.republished d : Nat) : Rat) = ((2 * n : Nat) : Rat) :=
    Json.num.inj (hcount.symm.trans hn)
  have hnat : s.republished d = 2 * n := by exact_mod_cast hnum
  omega

end

/-- In every run, whatever fails and in whatever order the workers and the loops take their steps:
as long as the retry loop has republished nothing, the counters count the republications in every
state; once it has republished a job for the first time, or any odd number of times, the row of
the delivery says otherwise. -/
theorem retryCounts_until_retried {cfg : Config} {text : String → Option Int} {w₀ w : World}
    {es : List Event} (hfresh : w₀.Fresh) (hrun : w₀.RunOf cfg PlainAnswers es w) :
    ((∀ d, w.sys.republished d = 0) → w.sys.retriesCounted text) ∧
      ∀ d row, w.sys.db.deliveries.get? d = some row → w.sys.republished d % 2 = 1 →
        ¬w.sys.retriesCounted text := by
  have hplaced : w₀.sys.Placed := by
    constructor <;> simp [hfresh.ready, hfresh.unacked, hfresh.calls]
  have hfirst : w₀.sys.EvenCounts := by
    constructor <;> simp [hfresh.ready, hfresh.unacked, hfresh.deliveries]
  obtain ⟨ms, -, -, hs, -⟩ := (((placed_inductive cfg).mono fun _ _ _ => trivial).and
    (evenCounts_inductive cfg)).reachable hfresh hrun
      ⟨⟨hplaced, by simp⟩, hfirst, by simp⟩
  refine ⟨hs.retriesCounted, fun d row hrow hodd hcounted => ?_⟩
  exact hs.retryCount_ne hrow hodd (hcounted.1 d row hrow)

/-- A delivery that has failed once and waits for its retry has no counter yet. -/
theorem retryCounts_before_retry : ∃ es w,
    sampleWorld.RunOf (sampleConfig 3) PlainAnswers es w ∧ w.sys.tries 1 = 1 ∧
      w.sys.retriesCounted (fun _ => none) := by
  obtain ⟨w, hrun, hw⟩ := World.exists_run (sampleConfig 3) PlainAnswers sampleWorld
    (List.flatten [[.request 1 "t1" (sampleRequest ["email"] ⟨"", ""⟩ "")], steps 0 10,
      [.deliver 0], steps 1 2, [failure 1], steps 1 4])
    (fun w => w.sys.tries 1 == 1 && w.sys.published.countP Publication.retries == 0)
    (by decide +kernel)
  rw [Bool.and_eq_true, beq_iff_eq, beq_iff_eq] at hw
  have hnone : ∀ d, w.sys.republished d = 0 := by
    intro d
    rw [Sys.republished, List.countP_eq_zero]
    intro p hp
    simp [List.countP_eq_zero.mp hw.2 p hp]
  exact ⟨_, w, hrun, hw.1, (retryCounts_until_retried sampleWorld_fresh hrun).1 hnone⟩

/-- The first try fails, the retry loop hands the job out again, and nothing else fails. Nobody
is at work, and the row counts two retries where there has been one. -/
theorem retry_counted_twice : ¬∀ (text : String → Option Int) (w₀ w : World) (es : List Event),
    w₀.Fresh → w₀.RunOf (sampleConfig 3)
      (fun w l => Clean (sampleConfig 3) w l ∧ PlainAnswers w l) es w →
    w.sys.broker.unacked = [] → w.sys.retriesCounted text := by
  intro hclaim
  obtain ⟨w, hrun, hw⟩ := World.exists_run (sampleConfig 3)
    (fun w l => Clean (sampleConfig 3) w l ∧ PlainAnswers w l) sampleWorld
    (List.flatten [[.request 1 "t1" (sampleRequest ["email"] ⟨"", ""⟩ "")], steps 0 10,
      [.deliver 0], steps 1 2, [failure 1], steps 1 4, [.deliver 0], steps 2 3])
    (fun w => w.sys.broker.unacked.isEmpty && w.sys.republished 1 == 1 &&
      (w.sys.db.deliveries.get? 1).any fun row =>
        Json.toInt (row.response.field? "retry_count") == 2) (by decide +kernel)
  rw [Bool.and_eq_true, Bool.and_eq_true, List.isEmpty_iff, beq_iff_eq] at hw
  obtain ⟨⟨hrest, hone⟩, hrow⟩ := hw
  cases hget : w.sys.db.deliveries.get? 1 with
  | none => simp [hget] at hrow
  | some row =>
      have htwo : Json.toInt (row.response.field? "retry_count") = 2 := by
        simpa [hget] using hrow
      have hcount := (hclaim (fun _ => none) _ w _ sampleWorld_fresh hrun hrest).1 1 row hget
      rw [DeliveryRow.retryCount, hone] at hcount
      cases hj : row.response.field? "retry_count" with
      | none => simp [hj, Json.toInt] at htwo
      | some j =>
          obtain rfl : j = .num (1 : Nat) := by simpa [hj] using hcount
          simp [hj, Json.toInt] at htwo

end NotificationPlatform

import NotificationPlatform.Tokens

/-!
# Sending again after a success

A worker records a success in two statements after the provider has answered. When one of them
fails, the worker treats the delivery as failed and the retry loop hands it out again. While both
succeed, or the job has no try left, no delivery is sent again after a success.
-/

namespace NotificationPlatform

open Lib

def Stmt.recordsSuccess : Stmt → Bool
  | .storeResult _ .sent _ _ | .insertAttempt _ _ .sent _ => true
  | _ => false

/-- The retry loop would move the job to the dead queue after one more failure. -/
def Party.lastTry (cfg : Config) : Party → Bool
  | .consumer ⟨_, _, some job⟩ => decide (cfg.maxDeliveryTries ≤ job.attempt + 1)
  | _ => false

/-- No consumer crashes, no message is handed out twice, and a success of the provider is
recorded unless the job has no try left. -/
def Recorded (cfg : Config) (w : World) : World.Label → Prop
  | .call party c o => c.stmt.recordsSuccess = true →
      w.sys.succeeds cfg party c o = true ∨ party.lastTry cfg = true
  | l => Steady w l

theorem Recorded.steady {cfg : Config} {w : World} {l : World.Label} (h : Recorded cfg w l) :
    Steady w l := by
  cases l with
  | call _ _ _ => trivial
  | _ => exact h

def Message.exhausted (cfg : Config) (m : Message) : Prop :=
  m.queue = .dead ∨ m.queue = .retry ∧ ∀ job, m.body = some job → cfg.maxDeliveryTries ≤ job.attempt

def Harmless (cfg : Config) : Party × Stage → Prop
  | (.consumer _, .consumer (.called r)) | (.consumer _, .consumer (.stored r)) => r.isOk = true
  | (.consumer u, .consumer .failed) => Party.lastTry cfg (.consumer u) = true
  | (.consumer u, .consumer .received) => u.message.exhausted cfg
  | _ => False

/-- After a success of the provider the token of the delivery leads to no further call. -/
structure SentOnce (cfg : Config) (s : Sys) (ms : Members) : Prop where
  pairwise : s.calls.Pairwise fun a b => a.ok = true → a.message.deliveryID ≠ b.message.deliveryID
  known : ∀ a ∈ s.calls, a.message.deliveryID < s.db.nextId
  queues : ∀ a ∈ s.calls, a.ok = true → ∀ m ∈ s.broker.ready,
    m.carries a.message.deliveryID = true → m.exhausted cfg
  parties : ∀ a ∈ s.calls, a.ok = true → ∀ m ∈ ms,
    holds a.message.deliveryID m = true → Harmless cfg m

theorem lastTry_of_body {cfg : Config} {u : Delivery} {job : Job}
    (h : u.message.body = some job) :
    Party.lastTry cfg (.consumer u) = true ↔ cfg.maxDeliveryTries ≤ job.attempt + 1 := by
  obtain ⟨tag, q, body⟩ := u
  obtain rfl : body = some job := h
  simp [Party.lastTry]

theorem Message.exhausted.not_channel {cfg : Config} {m : Message} (h : m.exhausted cfg) :
    m.queue.isChannel = false := by
  rcases h with h | ⟨h, -⟩ <;> rw [h] <;> rfl

section

variable {cfg : Config} {w : World} {before after : Members} {party : Party}
  {stage stage' : Stage} {c : Call} {o : Outcome} {success : Bool} {s' : Sys} {d : Nat}

private theorem Effect.harmless (heffect : Effect cfg w.sys party stage c success stage' s')
    (hok : Recorded cfg w (.call party c o)) (hsuccess : w.sys.succeeds cfg party c o = success)
    (hd : d < w.sys.db.nextId)
    (h : holds d (party, stage) = true → Harmless cfg (party, stage))
    (hholds : holds d (party, stage') = true) : Harmless cfg (party, stage') := by
  cases heffect with
  | getControl _ hqueue _ =>
      have hchannel := (h (by simpa [Phase.live] using hholds)).not_channel
      simp [hqueue] at hchannel
  | getControlError _ hqueue =>
      have hchannel := (h (by simpa [Phase.live] using hholds)).not_channel
      simp [hqueue] at hchannel
  | write _ hwrites _ =>
      cases hwrites with
      | result r => exact h (by simpa [Phase.live] using hholds)
      | retryCount => simp at hholds
      | dead _ => simp [Phase.live] at hholds
      | blocked => simp [Phase.live] at hholds
      | _ => exact (h (by simpa [Phase.live] using hholds)).elim
  | writeError _ hwrites =>
      cases hwrites with
      | result r =>
          have hr : r.isOk = true := h (by simpa [Phase.live] using hholds)
          cases r with
          | error e => simp [Except.isOk, Except.toBool] at hr
          | ok r => exact (hok rfl).resolve_left (by simp [hsuccess])
      | retryCount => simp at hholds
      | dead _ => simp [Phase.live] at hholds
      | _ => exact (h (by simpa [Phase.live] using hholds)).elim
  | providerSend _ _ => exact (h (by simpa [Phase.live] using hholds)).elim
  | @insertAttempt _ _ result _ _ _ =>
      cases result with
      | ok r => simp [Phase.live, Except.isOk, Except.toBool] at hholds
      | error e =>
          have hr := h (by simpa [Phase.live, Except.isOk, Except.toBool] using hholds)
          simp [Harmless, Except.isOk, Except.toBool] at hr
  | @insertAttemptError _ _ result _ =>
      have hr := h (by simpa [Phase.live] using hholds)
      cases result with
      | error e => simp [Harmless, Except.isOk, Except.toBool] at hr
      | ok r => exact (hok rfl).resolve_left (by simp [hsuccess])
  | insertTxDelivery => exact absurd (beq_iff_eq.mp hholds) hd.ne'
  | insertDelivery _ => exact absurd (beq_iff_eq.mp hholds) hd.ne'
  | sendEnsureControl _ => exact (h hholds).elim
  | routeEnsureControl _ => exact (h hholds).elim
  | _ => simp [holds, Phase.live] at hholds

private theorem Effect.ready_exhausted
    (heffect : Effect cfg w.sys party stage c success stage' s')
    (h : holds d (party, stage) = true → Harmless cfg (party, stage)) {m : Message}
    (hm : m ∈ s'.broker.ready) (hcarries : m.carries d = true) :
    m ∈ w.sys.broker.ready ∨ m.exhausted cfg := by
  refine (heffect.ready_cases hm).imp id ?_
  rintro (⟨u, job, phase, q, job', rfl, rfl, hbody, hrep, rfl, -⟩ |
    ⟨u, phase, rfl, rfl, hphase, rfl⟩ |
    ⟨q, job, hparty, -, -, hholds, rfl⟩)
  · obtain ⟨hlive, hid⟩ := hrep.live
    have hharmless := h (by simpa [carries_of_body hbody, hlive, hid] using hcarries)
    cases hrep with
    | retry =>
        refine .inr ⟨rfl, ?_⟩
        rintro _ ⟨⟩
        exact_mod_cast (lastTry_of_body hbody).mp hharmless
    | dead _ _ => exact .inl rfl
    | again hqueue htries =>
        rcases hharmless with hdead | ⟨-, hattempt⟩
        · simp [hqueue] at hdead
        · exact absurd (hattempt job hbody) htries
  · rcases hphase with rfl | rfl
    · exact (h (by simpa [Phase.live] using hcarries)).elim
    · exact (h (by simpa [Phase.live] using hcarries)).elim
  · obtain rfl : job.deliveryID = d := by simpa using hcarries
    have hharmless := h hholds
    cases party with
    | consumer u => exact absurd rfl (hparty u)
    | request _ _ => exact hharmless.elim
    | pass _ => exact hharmless.elim

private theorem sentOnce_call (hok : Recorded cfg w (.call party c o))
    (hsuccess : w.sys.succeeds cfg party c o = success)
    (heffect : Effect cfg w.sys party stage c success stage' s')
    (hK : Tidy w.sys (before ++ (party, stage) :: after))
    (h : SentOnce cfg w.sys (before ++ (party, stage) :: after)) :
    SentOnce cfg s' (before ++ (party, stage') :: after) := by
  have hnext := heffect.nextId_le
  have hself : ∀ a ∈ w.sys.calls, a.ok = true →
      holds a.message.deliveryID (party, stage) = true → Harmless cfg (party, stage) :=
    fun a ha haok => h.parties a ha haok _ (by simp)
  have hothers : ∀ a ∈ w.sys.calls, a.ok = true → ∀ m ∈ before ++ after,
      holds a.message.deliveryID m = true → Harmless cfg m := by
    intro a ha haok m hm
    refine h.parties a ha haok m ?_
    simp only [List.mem_append, List.mem_cons] at hm ⊢
    tauto
  have hmem : ∀ m, m ∈ before ++ (party, stage') :: after →
      m = (party, stage') ∨ m ∈ before ++ after := by
    intro m hm
    simp only [List.mem_append, List.mem_cons] at hm ⊢
    tauto
  rcases heffect.calls_cases with hcalls | ⟨u, job, result, hbody, rfl, rfl, rfl, rfl⟩
  · constructor
    · rw [hcalls]
      exact h.pairwise
    · rw [hcalls]
      exact fun a ha => (h.known a ha).trans_le hnext
    · rw [hcalls]
      intro a ha haok m hm hcarries
      rcases heffect.ready_exhausted (hself a ha haok) hm hcarries with hm | hex
      · exact h.queues a ha haok m hm hcarries
      · exact hex
    · rw [hcalls]
      intro a ha haok m hm hholds
      rcases hmem m hm with rfl | hm
      · exact heffect.harmless hok hsuccess (h.known a ha) (hself a ha haok) hholds
      · exact hothers a ha haok m hm hholds
  · -- the caller holds the token, so nothing else is left of its delivery
    have hown : holds job.deliveryID (.consumer u, .consumer .sending) = true := by
      simp [carries_of_body hbody, Phase.live]
    have hne : ∀ a ∈ w.sys.calls, a.ok = true → a.message.deliveryID ≠ job.deliveryID := by
      intro a ha haok hid
      exact (hself a ha haok (by rw [hid]; exact hown)).elim
    obtain ⟨hready, hrest⟩ := hK.token.sole hown
    constructor
    · refine List.pairwise_append.mpr ⟨h.pairwise, by simp, ?_⟩
      intro a ha b hb haok
      obtain rfl := List.mem_singleton.mp hb
      exact hne a ha haok
    · intro a ha
      rcases List.mem_append.mp ha with ha | ha
      · exact h.known a ha
      · obtain rfl := List.mem_singleton.mp ha
        exact hK.token.lt_nextId hown
    · intro a ha haok m hm hc
      rcases List.mem_append.mp ha with ha | ha
      · exact h.queues a ha haok m hm hc
      · obtain rfl := List.mem_singleton.mp ha
        have hcarries : m.carries job.deliveryID = true := hc
        simp [hready m hm] at hcarries
    · intro a ha haok m hm hholds
      rcases List.mem_append.mp ha with ha | ha
      · rcases hmem m hm with rfl | hm
        · have hid : job.deliveryID = a.message.deliveryID := by
            simpa [carries_of_body hbody, Phase.live] using hholds
          exact absurd hid.symm (hne a ha haok)
        · exact hothers a ha haok m hm hholds
      · obtain rfl := List.mem_singleton.mp ha
        rcases hmem m hm with rfl | hm
        · exact haok
        · have hother : holds job.deliveryID m = true := hholds
          simp [hrest m hm] at hother

end

theorem sentOnce_inductive (cfg : Config) :
    Inductive cfg (Recorded cfg) Tidy (SentOnce cfg) where
  call := fun _ hok hsuccess heffect hK h => sentOnce_call hok hsuccess heffect hK h
  request := by
    intro w ms t req _ _ _ h
    refine ⟨h.pairwise, h.known, h.queues, fun a ha haok m hm hholds => ?_⟩
    rcases List.mem_append.mp hm with hm | hm
    · exact h.parties a ha haok m hm hholds
    · obtain rfl := List.mem_singleton.mp hm
      simp [holds] at hholds
  tick := by
    intro w ms _ _ _ h
    refine ⟨h.pairwise, h.known, h.queues, fun a ha haok m hm hholds => ?_⟩
    rcases List.mem_append.mp hm with hm | hm
    · exact h.parties a ha haok m hm hholds
    · obtain rfl := List.mem_singleton.mp hm
      simp [holds] at hholds
  deliver := by
    intro w ms i m _ _ hm _ h
    refine ⟨h.pairwise, h.known, ?_, ?_⟩
    · intro a ha haok m' hm' hcarries
      exact h.queues a ha haok m' (List.mem_of_mem_eraseIdx hm') hcarries
    · intro a ha haok x hx hholds
      rcases List.mem_append.mp hx with hx | hx
      · exact h.parties a ha haok x hx hholds
      · obtain rfl := List.mem_singleton.mp hx
        exact h.queues a ha haok m (List.mem_of_getElem? hm) (by simpa [Phase.live] using hholds)
  admin := by
    intro w ms a _ _ _ h
    refine ⟨h.pairwise, ?_, h.queues, h.parties⟩
    cases a <;> exact h.known
  clock := by
    intro w ms now _ _ _ _ h
    exact ⟨h.pairwise, h.known, h.queues, h.parties⟩
  crash := by
    intro w before after party stage _ _ _ h
    refine ⟨h.pairwise, h.known, h.queues, fun a ha haok m hm hholds => ?_⟩
    simp only [List.mem_append, List.mem_cons] at hm
    rcases hm with hm | rfl | hm
    · exact h.parties a ha haok m (by simp [hm]) hholds
    · simp [holds] at hholds
    · exact h.parties a ha haok m (by simp [hm]) hholds
  requeue := by
    intro w ms d _ hok
    exact hok.elim

/-- In every run in which each success of the provider is recorded, or the job had no try left,
no provider is called for a delivery again after it has succeeded for it. -/
theorem no_resend_after_success {cfg : Config} {w₀ w : World} {es : List Event}
    (hfresh : w₀.Fresh) (hrun : w₀.RunOf cfg (Recorded cfg) es w) :
    w.sys.calls.Pairwise fun a b =>
      a.ok = true → a.message.deliveryID ≠ b.message.deliveryID := by
  have hfirst : SentOnce cfg w₀.sys [] := by
    constructor <;> simp [hfresh.calls]
  obtain ⟨ms, -, -, h⟩ := (((tidy_inductive cfg).mono fun _ _ h => Recorded.steady h).and
    (sentOnce_inductive cfg)).reachable hfresh hrun ⟨tidy_fresh hfresh, hfirst⟩
  exact h.pairwise

instance (cfg : Config) (w : World) : (l : World.Label) → Decidable (Recorded cfg w l)
  | .call party c o => inferInstanceAs (Decidable (c.stmt.recordsSuccess = true →
      w.sys.succeeds cfg party c o = true ∨ party.lastTry cfg = true))
  | .crash (.consumer _) | .requeue => inferInstanceAs (Decidable False)
  | .crash (.request _ _) | .crash (.pass _) | .deliver _ | .request _ _ | .tick | .admin _
  | .clock | .none => inferInstanceAs (Decidable True)

/-- A first failure and a success after the retry, both recorded. -/
theorem no_resend_after_retry : ∃ es w, sampleWorld.RunOf (sampleConfig 3)
    (Recorded (sampleConfig 3)) es w ∧ w.sys.calls.map ProviderCall.ok = [false, true] ∧
    w.sys.calls.Pairwise fun a b =>
      a.ok = true → a.message.deliveryID ≠ b.message.deliveryID := by
  obtain ⟨w, hrun, hw⟩ := World.exists_run (sampleConfig 3) (Recorded (sampleConfig 3))
    sampleWorld (List.flatten [[.request 1 "t1" (sampleRequest ["email"] ⟨"", ""⟩ "")],
      steps 0 10, [.deliver 0], steps 1 2, [failure 1], steps 1 4, [.deliver 0], steps 2 3,
      [.deliver 0], steps 3 6])
    (fun w => w.sys.calls.map ProviderCall.ok == [false, true]) (by decide +kernel)
  exact ⟨_, w, hrun, by simpa using hw, no_resend_after_success sampleWorld_fresh hrun⟩

/-- The job is consumed before its transaction commits: the row of the attempt has no delivery
to refer to, and the worker takes the error for a failed delivery. No statement fails otherwise,
and the provider has succeeded twice for one delivery. -/
theorem resent_before_commit : ¬∀ (w₀ w : World) (es : List Event), w₀.Fresh →
    w₀.RunOf (sampleConfig 3) Steady es w →
    w.sys.calls.Pairwise fun a b =>
      a.ok = true → a.message.deliveryID ≠ b.message.deliveryID := by
  intro hclaim
  obtain ⟨w, hrun, hw⟩ := World.exists_run (sampleConfig 3) Steady sampleWorld
    (List.flatten [[.request 1 "t1" (sampleRequest ["email"] ⟨"", ""⟩ "")], steps 0 9,
      [.deliver 0], steps 1 7, [.deliver 0], steps 2 3, steps 0 1, [.deliver 0], steps 3 3])
    (fun w => w.sys.calls.map (fun a => (a.ok, a.message.deliveryID)) == [(true, 1), (true, 1)])
    (by decide +kernel)
  have hpairwise : (w.sys.calls.map fun a => (a.ok, a.message.deliveryID)).Pairwise
      fun a b => a.1 = true → a.2 ≠ b.2 :=
    List.pairwise_map.mpr (hclaim _ w _ sampleWorld_fresh hrun)
  rw [beq_iff_eq.mp hw] at hpairwise
  simp at hpairwise

end NotificationPlatform

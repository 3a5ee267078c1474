import NotificationPlatform.Conservation

/-!
# Stopping a queue

A worker that meets a job while the control of its tenant and channel is stopped marks the
delivery blocked and acknowledges the message: the job is gone, and lifting the stop does not
bring it back. As long as no worker meets a job of a stopped queue, a stop strands no delivery.
-/

namespace NotificationPlatform

open Lib

/-- Delivery `d` is carried by a job: in a queue, with a consumer, or just being published. -/
def World.hasJob (w : World) (d : Nat) : Prop :=
  0 < w.sys.waiting d ∨ w.handling d ∨ w.creating d

/-- A provider has been called for delivery `d` after the first `k` calls of a run. -/
def Sys.attemptedSince (s : Sys) (k d : Nat) : Prop :=
  ∃ c ∈ s.calls.drop k, c.message.deliveryID = d

instance (s : Sys) (k d : Nat) : Decidable (s.attemptedSince k d) :=
  List.decidableBEx (fun c : ProviderCall => c.message.deliveryID = d) (s.calls.drop k)

def World.meetsStopped (w : World) : World.Label → Bool
  | .call (.consumer _) ⟨_, .getControl t channel⟩ _ =>
      (w.sys.db.findControl t channel).any fun control => control.status == .stopped
  | _ => false

/-- A worker is about to find the control of delivery `d`, of the tenant and the channel,
stopped. -/
def World.meets (w : World) (t channel : String) (d : Nat) (l : World.Label) : Prop :=
  w.meetsStopped l = true ∧ ∃ u job site o, l = .call (.consumer u) ⟨site, .getControl t channel⟩ o ∧
    u.message.body = some job ∧ job.deliveryID = d

/-- No worker meets a job while its control is stopped. -/
def Unstopped (w : World) (l : World.Label) : Prop := w.meetsStopped l = false

instance (w : World) (l : World.Label) : Decidable (Unstopped w l) :=
  inferInstanceAs (Decidable (w.meetsStopped l = false))

def World.Label.deadLetters? : World.Label → Option Nat
  | .call _ ⟨_, .markDead d⟩ _ => some d
  | _ => Option.none

/-- A delivery is dead-lettered only after a provider has been called for it since call `k`. -/
def DeadAfterTry (k : Nat) (w : World) (l : World.Label) : Prop :=
  ∀ d ∈ l.deadLetters?, w.sys.attemptedSince k d

instance (k : Nat) (w : World) (l : World.Label) : Decidable (DeadAfterTry k w l) :=
  inferInstanceAs (Decidable (∀ d ∈ l.deadLetters?, w.sys.attemptedSince k d))

/-- No delivery of the tenant and the channel is left without a job and without an attempt: not
one that a worker met while the control was stopped, nor one that was waiting when the stop
began. The events lead from `w₁`, where the stop begins, to `w`. -/
structure World.Reversible (cfg : Config) (w₁ : World) (es : List Event) (w : World)
    (t channel : String) : Prop where
  met : ∀ before e after x d, es = before ++ e :: after →
    w₁.RunOf cfg (fun _ _ => True) before x → x.meets t channel d (x.label e) →
    w.hasJob d ∨ w.sys.attemptedSince x.sys.calls.length d
  pending : ∀ d row, w₁.sys.db.deliveries.get? d = some row → row.tenantID = t →
    row.channel = channel → row.status = .queued ∨ row.status = .failed →
    w.hasJob d ∨ w.sys.attemptedSince w₁.sys.calls.length d

/-! ## Without a stop in the way -/

def NoneStopped (_ : Sys) (ms : Members) : Prop := ∀ m ∈ ms, m.2 ≠ .consumer (.checked .stopped)

/-- Delivery `d` has not ended, and nobody has an answer of a provider for it in hand, unless a
provider has been called since. -/
def Untouched (k d : Nat) (s : Sys) (ms : Members) : Prop :=
  k ≤ s.calls.length ∧ (s.attemptedSince k d ∨
    (∃ row, s.db.deliveries.get? d = some row ∧ row.status.final = false) ∧
    ∀ m ∈ ms, ∀ u r, m = (.consumer u, .consumer (.called r)) → u.message.carries d = false)

section

variable {cfg : Config} {w : World} {s s' : Sys} {before after : Members} {party : Party}
  {stage stage' : Stage} {c : Call} {o : Outcome} {success : Bool} {k d : Nat}

theorem Db.getControl_status {cfg : Config} {db db' : Db} {t channel : String} {control : Control}
    (h : db.getControl cfg t channel = .ok (control, db')) :
    db.findControl t channel = some control ∨ control.status = .active := by
  unfold Db.getControl at h
  split at h
  · next found hfound =>
      cases h
      exact .inl hfound
  · unfold Db.ensureControl at h
    split at h
    · simp at h
    · split at h
      · next found hfound =>
          cases h
          exact .inl hfound
      · dsimp only at h
        split at h
        · simp at h
        · cases h
          exact .inr rfl

private theorem Effect.not_stopped (h : Effect cfg w.sys party stage c success stage' s')
    (hok : Unstopped w (.call party c o)) (hstage : stage ≠ .consumer (.checked .stopped)) :
    stage' ≠ .consumer (.checked .stopped) := by
  cases h with
  | @getControl _ _ control _ _ _ hget =>
      intro hstopped
      have hstatus : control.status = .stopped := by simpa using hstopped
      rcases Db.getControl_status hget with hfound | hactive
      · have hmeets : (w.sys.db.findControl _ _).any
            (fun control => control.status == .stopped) = false := hok
        simp [hfound, hstatus] at hmeets
      · simp [hactive] at hstatus
  | write _ hwrites _ => cases hwrites <;> simp
  | writeError _ hwrites => cases hwrites <;> simp
  | insertAttempt _ _ => split <;> simp
  | _ => simp

private theorem attemptedSince_mono (h : Effect cfg s party stage c success stage' s')
    (hd : s.attemptedSince k d) : s'.attemptedSince k d := by
  obtain ⟨x, hx, hid⟩ := hd
  refine ⟨x, ?_, hid⟩
  rcases h.calls_cases with hsame | ⟨_, _, _, -, -, -, -, rfl⟩
  · rwa [hsame]
  · rw [List.drop_append]
    exact List.mem_append_left _ hx

private theorem Writes.pending {u : Delivery} {job : Job} {now : Nat} {phase onOk onError : Phase}
    {f : DeliveryRow → Option DeliveryRow} {row row' : DeliveryRow}
    (h : Writes cfg u job now phase c f onOk onError) (hf : f row = some row')
    (hrow : row.status.final = false) (hcalled : ∀ r, phase ≠ .called r)
    (hstopped : phase ≠ .checked .stopped) (hdead : c.stmt ≠ .markDead job.deliveryID) :
    row'.status.final = false := by
  cases h with
  | paused =>
      obtain ⟨response, -, rfl⟩ := Option.map_eq_some_iff.mp hf
      rfl
  | blocked => exact absurd rfl hstopped
  | sending =>
      obtain rfl := Option.some.inj hf
      rfl
  | result r => exact absurd rfl (hcalled r)
  | retryCount =>
      obtain ⟨response, -, rfl⟩ := Option.map_eq_some_iff.mp hf
      exact hrow
  | dead _ => exact absurd rfl hdead

private theorem untouched_call (heffect : Effect cfg w.sys party stage c success stage' s')
    (hdead : DeadAfterTry k w (.call party c o))
    (hstopped : NoneStopped w.sys (before ++ (party, stage) :: after))
    (h : Untouched k d w.sys (before ++ (party, stage) :: after)) :
    Untouched k d s' (before ++ (party, stage') :: after) := by
  obtain ⟨hk, h⟩ := h
  have hk' : k ≤ s'.calls.length := by
    rcases heffect.calls_cases with hsame | ⟨_, _, _, -, -, -, -, rfl⟩
    · rwa [hsame]
    · simp only [List.length_append]
      omega
  refine ⟨hk', ?_⟩
  by_cases hattempted : s'.attemptedSince k d
  · exact .inl hattempted
  have hold : ¬w.sys.attemptedSince k d := fun hd => hattempted (attemptedSince_mono heffect hd)
  obtain ⟨⟨row, hrow, hfinal⟩, hcalled⟩ := h.resolve_left hold
  refine .inr ⟨?_, ?_⟩
  · rcases heffect.row_cases hrow with hsame |
      ⟨u, job, phase, f, onOk, onError, row', rfl, hbody, hid, rfl, -, hwrites, hf, hrow'⟩
    · exact ⟨row, hsame, hfinal⟩
    · refine ⟨row', hrow', hwrites.pending hf hfinal ?_ ?_ ?_⟩
      · rintro r rfl
        have hcarries := hcalled (.consumer u, .consumer (.called r)) (by simp) u r rfl
        simp [carries_of_body hbody, hid] at hcarries
      · rintro rfl
        exact hstopped (.consumer u, .consumer (.checked .stopped)) (by simp) rfl
      · intro hstmt
        obtain ⟨site, stmt⟩ := c
        obtain rfl : stmt = .markDead job.deliveryID := hstmt
        exact hold (hdead d (by simp [World.Label.deadLetters?, hid]))
  · intro m hm u r heq
    simp only [List.mem_append, List.mem_cons] at hm
    rcases hm with hm | rfl | hm
    · exact hcalled m (by simp [hm]) u r heq
    · -- the caller has an answer in hand only by having called the provider
      obtain ⟨v, job, hparty, hbody, rfl⟩ := heffect.called_cases (congrArg Prod.snd heq)
      obtain rfl : u = v := by simpa [hparty] using (congrArg Prod.fst heq).symm
      rw [carries_of_body hbody]
      by_contra hcarries
      have hid : job.deliveryID = d := by simpa using hcarries
      refine hattempted ⟨⟨Worker.providerMessage job, r.isOk, party⟩, ?_, hid⟩
      rw [List.drop_append_of_le_length hk]
      exact List.mem_append_right _ (List.mem_singleton.mpr rfl)
    · exact hcalled m (by simp [hm]) u r heq

end

theorem noneStopped_inductive (cfg : Config) : Inductive cfg Unstopped Anything NoneStopped := by
  apply Inductive.everyMember
  case call => exact fun hok heffect h => heffect.not_stopped hok h
  case request => simp
  case tick => simp
  case deliver => simp
  case crash => simp

/-- The events between the begin of a stop and a later state. -/
def Reversing (cfg : Config) (k : Nat) (w : World) (l : World.Label) : Prop :=
  (Clean cfg w l ∧ Unstopped w l) ∧ DeadAfterTry k w l

instance (cfg : Config) (k : Nat) (w : World) (l : World.Label) :
    Decidable (Reversing cfg k w l) :=
  inferInstanceAs (Decidable ((Clean cfg w l ∧ Unstopped w l) ∧ DeadAfterTry k w l))

theorem untouched_inductive (cfg : Config) (k d : Nat) :
    Inductive cfg (Reversing cfg k) NoneStopped (Untouched k d) where
  call := fun _ hok _ heffect hK h => untouched_call heffect hok.2 hK h
  request := by
    intro w ms t req _ _ _ h
    refine ⟨h.1, h.2.imp id fun h => ⟨h.1, fun m hm => ?_⟩⟩
    rcases List.mem_append.mp hm with hm | hm
    · exact h.2 m hm
    · rw [List.mem_singleton.mp hm]
      simp
  tick := by
    intro w ms _ _ _ h
    refine ⟨h.1, h.2.imp id fun h => ⟨h.1, fun m hm => ?_⟩⟩
    rcases List.mem_append.mp hm with hm | hm
    · exact h.2 m hm
    · rw [List.mem_singleton.mp hm]
      simp
  deliver := by
    intro w ms i m _ _ _ _ h
    refine ⟨h.1, h.2.imp id fun h => ⟨h.1, fun x hx => ?_⟩⟩
    rcases List.mem_append.mp hx with hx | hx
    · exact h.2 x hx
    · rw [List.mem_singleton.mp hx]
      simp
  admin := by
    intro w ms a _ _ _ h
    cases a <;> exact h
  clock := fun _ _ _ _ h => h
  crash := by
    intro w before after party stage _ hok
    exact hok.1.1.elim
  requeue := by
    intro w ms d _ hok
    exact hok.1.1.elim

private theorem untouched_of_waiting {s : Sys} {ms : Members} {d : Nat} {row : DeliveryRow}
    (hC : AllConserved s ms) (hrow : s.db.deliveries.get? d = some row)
    (hstatus : row.status = .queued ∨ row.status = .failed) :
    Untouched s.calls.length d s ms := by
  have hfinal : row.status.final = false := by
    rcases hstatus with h | h <;> simp [h, DeliveryStatus.final]
  refine ⟨le_refl _, .inr ⟨⟨row, hrow, hfinal⟩, ?_⟩⟩
  rintro m hm u r rfl
  by_contra hcarries
  obtain ⟨st, at?, hst, hfits⟩ := (hC d).fits _ hm (by simpa using hcarries) rfl
  have hsending : row.status = .sending := by
    have hsame : row.status = st := by
      simpa [Db.stamp?, hrow, DeliveryRow.stamp] using congrArg (Option.map Prod.fst) hst
    exact hsame.trans hfits
  rcases hstatus with h | h <;> simp [h] at hsending

private theorem hasJob_of_pending {cfg : Config} {w : World} {ms : Members} {d : Nat}
    {row : DeliveryRow} (hal : Aligned cfg ms w.threads) (hK : Tidy w.sys ms)
    (hC : AllConserved w.sys ms) (hrow : w.sys.db.deliveries.get? d = some row)
    (hfinal : row.status.final = false) : w.hasJob d := by
  by_contra hnone
  simp only [World.hasJob, not_or] at hnone
  obtain ⟨hwaiting, hhandling, hcreating⟩ := hnone
  have hholders := no_holder hK hC hrow hhandling fun _ _ _ _ _ _ _ hmem => by
    obtain ⟨th, hth, -, hkeeps⟩ := exists_of_mem_forall₂ hal hmem
    exact hcreating ⟨th, hth, creates_of_adding hkeeps⟩
  have hended : row.status.final = true :=
    (hC d).spent row.status row.deliveredAt.isSome
      (by rw [Db.stamp?, hrow, Option.map_some, DeliveryRow.stamp]) (by omega) hholders
  simp [hfinal] at hended

/-- In every clean run in which no worker meets a job while its control is stopped, a stop can be
lifted: from any point on, a waiting delivery keeps a job until a provider is called for it or it
is dead-lettered for earlier attempts. -/
theorem stop_reversible {cfg : Config} {w₀ w₁ w : World} {es₁ es : List Event}
    (hfresh : w₀.Fresh) (hbefore : w₀.RunOf cfg (fun w l => Clean cfg w l ∧ Unstopped w l) es₁ w₁)
    (hrun : w₁.RunOf cfg (Reversing cfg w₁.sys.calls.length) es w) (t channel : String) :
    World.Reversible cfg w₁ es w t channel := by
  constructor
  · intro before e after x d hes hx hmeets
    obtain ⟨y, -, hbefore, hok, -⟩ := Run.at_event hrun hes
    obtain rfl : x = y := Run.unique hx hbefore
    have hnone : x.meetsStopped (x.label e) = false := hok.1.2
    simp [hmeets.1] at hnone
  · intro d row hrow _ _ hstatus
    have hbase : Inductive cfg (fun w l => Clean cfg w l ∧ Unstopped w l) Anything
        (fun s ms => (Tidy s ms ∧ AllConserved s ms) ∧ NoneStopped s ms) :=
      (((tidy_inductive cfg).mono fun _ _ h => h.1.steady).and
        ((conserved_inductive cfg).mono fun _ _ h => h.1)).and
        (((noneStopped_inductive cfg).mono fun _ _ h => h.2).given fun _ _ _ => trivial)
    obtain ⟨ms, hal, hI⟩ := hbase.reachable hfresh hbefore
      ⟨⟨tidy_fresh hfresh, conserved_fresh hfresh⟩, by simp [NoneStopped]⟩
    have hstart := untouched_of_waiting hI.1.2 hrow hstatus
    obtain ⟨ms', hal', ⟨⟨hK, hC⟩, -⟩, hend⟩ := ((hbase.mono fun _ _ h => h.1).and
      ((untouched_inductive cfg w₁.sys.calls.length d).given fun _ _ h => h.2)).run hrun
        ⟨ms, hal, hI, hstart⟩
    rcases hend.2 with hattempted | ⟨⟨row', hrow', hfinal⟩, -⟩
    · exact .inr hattempted
    · exact .inl (hasJob_of_pending hal' hK hC hrow' hfinal)

/-- A stop of the sample tenant's email queue, whose control is the row after the delivery, and
its end. -/
def stopEmail : Event := .admin (.controlStatus 2 .stopped)

def resumeEmail : Event := .admin (.controlStatus 2 .active)

def acceptEmail : List Event :=
  .request 1 "t1" (sampleRequest ["email"] ⟨"", ""⟩ "") :: steps 0 10

/-- A queue is stopped and resumed before a worker meets its job. -/
theorem stop_reversible_unmet : ∃ w₁ w,
    sampleWorld.RunOf (sampleConfig 3) (fun w l => Clean (sampleConfig 3) w l ∧ Unstopped w l)
      acceptEmail w₁ ∧
    w₁.RunOf (sampleConfig 3) (Reversing (sampleConfig 3) w₁.sys.calls.length)
      [stopEmail, .deliver 0, resumeEmail, .step 1 {}] w ∧
    w₁.sys.db.stamp? 1 = some (.queued, false) ∧
    World.Reversible (sampleConfig 3) w₁ [stopEmail, .deliver 0, resumeEmail, .step 1 {}] w
      "t1" "email" := by
  obtain ⟨w₁, hrun₁, hw₁⟩ := World.exists_run (sampleConfig 3)
    (fun w l => Clean (sampleConfig 3) w l ∧ Unstopped w l) sampleWorld acceptEmail
    (fun w₁ => w₁.sys.db.stamp? 1 == some (.queued, false) &&
      (execute (World.step (sampleConfig 3)) (fun w e => decide
        (Reversing (sampleConfig 3) w₁.sys.calls.length w (w.label e))) w₁
        [stopEmail, .deliver 0, resumeEmail, .step 1 {}]).any fun _ => true) (by decide +kernel)
  simp only [Bool.and_eq_true, beq_iff_eq] at hw₁
  obtain ⟨w, hrun, -⟩ := World.exists_run (sampleConfig 3)
    (Reversing (sampleConfig 3) w₁.sys.calls.length) w₁ _ (fun _ => true) hw₁.2
  exact ⟨w₁, w, hrun₁, hrun, hw₁.1, stop_reversible sampleWorld_fresh hrun₁ hrun "t1" "email"⟩

/-- A worker meets a job while its queue is stopped; after the queue is resumed the delivery is
left without a job, and no provider has been called for it. -/
theorem stop_strands_delivery : ¬∀ (w₀ w₁ w : World) (es₁ es₂ es₃ : List Event)
    (control : Control), w₀.Fresh → w₀.RunOf (sampleConfig 3) (Clean (sampleConfig 3)) es₁ w₁ →
    control ∈ w₁.sys.db.controls →
    w₁.RunOf (sampleConfig 3) (Clean (sampleConfig 3))
      (.admin (.controlStatus control.id .stopped) :: es₂ ++
        .admin (.controlStatus control.id .active) :: es₃) w →
    World.Reversible (sampleConfig 3) w₁
      (.admin (.controlStatus control.id .stopped) :: es₂ ++
        .admin (.controlStatus control.id .active) :: es₃) w control.tenantID control.channel := by
  intro hclaim
  obtain ⟨w₁, hrun₁, hw₁⟩ := World.exists_run (sampleConfig 3) (Clean (sampleConfig 3)) sampleWorld
    acceptEmail
    (fun w₁ => (w₁.sys.db.controls.any fun control =>
        control.id == 2 && control.tenantID == "t1" && control.channel == "email") &&
      ((w₁.sys.db.deliveries.get? 1).any fun row =>
        row.tenantID == "t1" && row.channel == "email" && row.status == .queued) &&
      (execute (World.step (sampleConfig 3)) (fun w e => decide
        (Clean (sampleConfig 3) w (w.label e))) w₁
        (stopEmail :: ([.deliver 0] ++ steps 1 3) ++ [resumeEmail])).any fun w =>
          w.sys.broker.ready.isEmpty && w.sys.broker.unacked.isEmpty && w.sys.calls.isEmpty &&
            w.threads.all fun th => th.prog.next?.isNone) (by decide +kernel)
  simp only [Bool.and_eq_true] at hw₁
  obtain ⟨⟨hcontrol, hrow⟩, hstop⟩ := hw₁
  obtain ⟨control, hmem, hfields⟩ := List.any_eq_true.mp hcontrol
  simp only [Bool.and_eq_true, beq_iff_eq] at hfields
  obtain ⟨⟨hid, htenant⟩, hchannel⟩ := hfields
  obtain ⟨row, hget, hpending⟩ := (Option.any_eq_true _ _).mp hrow
  simp only [Bool.and_eq_true, beq_iff_eq] at hpending
  obtain ⟨⟨hrowTenant, hrowChannel⟩, hqueued⟩ := hpending
  obtain ⟨w, hrun, hw⟩ := World.exists_run (sampleConfig 3) (Clean (sampleConfig 3)) w₁ _ _ hstop
  simp only [Bool.and_eq_true, List.isEmpty_iff, List.all_eq_true, Option.isNone_iff_eq_none] at hw
  obtain ⟨⟨⟨hready, hunacked⟩, hcalls⟩, hthreads⟩ := hw
  have hreversible := hclaim sampleWorld w₁ w _ ([.deliver 0] ++ steps 1 3) [] control
    sampleWorld_fresh hrun₁ hmem (by rw [hid]; exact hrun)
  rcases hreversible.pending 1 row hget (by rw [htenant, hrowTenant])
    (by rw [hchannel, hrowChannel]) (.inl hqueued) with (hwaiting | ⟨u, hu, -⟩ | hcreating) | hcalled
  · simp [Sys.waiting, hready] at hwaiting
  · simp [hunacked] at hu
  · obtain ⟨th, hth, ⟨_, _, _, _, hprog, -⟩ | ⟨_, _, _, _, hprog, -⟩⟩ := hcreating
    · simpa [hprog, Prog.next?] using hthreads th hth
    · simpa [hprog, Prog.next?] using hthreads th hth
  · simp [Sys.attemptedSince, hcalls] at hcalled

end NotificationPlatform

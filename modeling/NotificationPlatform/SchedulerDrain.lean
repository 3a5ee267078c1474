import NotificationPlatform.Routing

/-!
# The backlog of the scheduler

`RunScheduler` calls `RouteDueScheduled` at every tick, one pass after the other, and a pass takes
the hundred jobs that are due first. A job that is due is reached once the jobs that are due no
later are gone, a hundred in a pass, however many there are.
-/

namespace NotificationPlatform

open Lib

/-- The jobs but `jobID` that are due by `dueAt` and have been routed. -/
def Sys.routedBefore (s : Sys) (jobID dueAt : Nat) : Nat :=
  s.db.scheduledJobs.rows.countP fun r =>
    decide (r.1 ≠ jobID ∧ r.2.dueAt ≤ dueAt ∧ r.2.status = .queued)

def Thread.passing (th : Thread) : Bool :=
  match th.party, th.prog with
  | .pass _, .call _ _ => true
  | _, _ => false

def Thread.donePass (n : Nat) (th : Thread) : Bool :=
  match th.party, th.prog with
  | .pass id, .ret _ => decide (n ≤ id)
  | _, _ => false

def World.passesDone (w : World) (n : Nat) : Nat := w.threads.countP (Thread.donePass n)

/-- One scheduler process, which takes its ticks one after the other: no pass of it is cut short by
a failed call or a crash. -/
def OneScheduler (cfg : Config) (w : World) : World.Label → Prop
  | .tick => ∀ th ∈ w.threads, th.passing = false
  | .call (.pass id) c o => w.sys.succeeds cfg (.pass id) c o = true
  | .crash (.pass _) => False
  | _ => True

instance (cfg : Config) (w : World) : (l : World.Label) → Decidable (OneScheduler cfg w l)
  | .tick => inferInstanceAs (Decidable (∀ _ ∈ _, _))
  | .call (.pass _) _ _ => inferInstanceAs (Decidable (_ = _))
  | .crash (.pass _) => inferInstanceAs (Decidable False)
  | .call (.request _ _) _ _ | .call (.consumer _) _ _ | .crash (.request _ _)
  | .crash (.consumer _) | .deliver _ | .request _ _ | .admin _ | .clock | .requeue | .none =>
      inferInstanceAs (Decidable True)

private theorem take_of_pairwise {α : Type} {r : α → α → Prop} {xs : List α} (h : xs.Pairwise r)
    {x : α} (hx : x ∈ xs) (n : Nat) :
    x ∈ xs.take n ∨ (xs.take n).length = n ∧ ∀ y ∈ xs.take n, r y x := by
  rw [← List.take_append_drop n xs] at h hx
  rcases List.mem_append.mp hx with hx | hx
  · exact .inl hx
  · have hlength := List.length_pos_of_mem hx
    rw [List.length_drop] at hlength
    refine .inr ⟨by rw [List.length_take]; omega, fun y hy => ?_⟩
    exact (List.pairwise_append.mp h).2.2 y hy x hx

theorem Db.dueRows_cases {db : Db} {entry : Nat × ScheduledJob} {row : DueRow}
    (hentry : entry ∈ db.scheduledJobs.rows) (hrow : db.dueRow? entry = some row) :
    row ∈ db.dueRows ∨ db.dueRows.length = 100 ∧ ∀ row' ∈ db.dueRows, row'.dueAt ≤ row.dueAt := by
  have hsorted := List.pairwise_insertionSort (fun a b : DueRow => a.dueAt ≤ b.dueAt)
    (db.scheduledJobs.rows.filterMap db.dueRow?)
  refine take_of_pairwise hsorted ?_ 100
  rw [List.mem_insertionSort]
  exact List.mem_filterMap.mpr ⟨entry, hentry, hrow⟩

theorem Db.dueRows_nodup (db : Db) : (db.dueRows.map DueRow.jobID).Nodup := by
  have hkeys : ∀ entries : List (Nat × ScheduledJob),
      ((entries.filterMap db.dueRow?).map DueRow.jobID).Sublist (entries.map Prod.fst) := by
    intro entries
    induction entries with
    | nil => exact .slnil
    | cons entry entries ih =>
        rw [List.filterMap_cons]
        cases hdue : db.dueRow? entry with
        | none => exact ih.cons _
        | some row =>
            obtain ⟨-, -, n, -, rfl⟩ := Db.dueRow?_eq_some hdue
            exact ih.cons_cons _
  refine List.Nodup.sublist ((List.take_sublist 100 _).map _) ?_
  have hperm := (List.perm_insertionSort (fun a b : DueRow => a.dueAt ≤ b.dueAt)
    (db.scheduledJobs.rows.filterMap db.dueRow?)).map DueRow.jobID
  exact hperm.nodup_iff.mpr (db.scheduledJobs.nodup.sublist (hkeys _))

def PassSince (n : Nat) : Party × Stage → Prop
  | (.pass id, _) => n ≤ id
  | _ => False

def passAtWork : Party × Stage → Bool
  | (.pass _, stage) => !stage.ended
  | _ => false

/-- How many of the hundred jobs that a pass took have been routed, if it is a pass from `n` on and
`jobID` is not among those to come. -/
def passCredit (n jobID : Nat) : Party × Stage → Nat
  | (.pass _, .passing) => 0
  | (.pass id, stage) =>
      if n ≤ id ∧ ∀ row ∈ stage.toDo, row.jobID ≠ jobID then 100 - stage.toDo.length else 0
  | _ => 0

def Sys.waits (s : Sys) (jobID : Nat) : Prop :=
  ∃ job, s.db.scheduledJobs.get? jobID = some job ∧ job.status = .pending

/-- The rows are those of different pending jobs that are due by `dueAt`. -/
structure Sys.Batch (s : Sys) (dueAt : Nat) (rows : List DueRow) : Prop where
  distinct : (rows.map DueRow.jobID).Nodup
  pending : ∀ row ∈ rows, ∃ job, s.db.scheduledJobs.get? row.jobID = some job ∧
    job.status = .pending ∧ job.dueAt ≤ dueAt

/-- While `jobID` waits, the passes from `n` on route jobs that are due no later, a hundred each,
and no one else marks jobs meanwhile. -/
structure Draining (n jobID dueAt routed₀ : Nat) (s : Sys) (ms : Members) : Prop where
  due : (∃ job, s.db.scheduledJobs.get? jobID = some job ∧ job.dueAt = dueAt) ∧ dueAt ≤ s.db.now
  alone : (∃ m ∈ ms, PassSince n m) → ms.countP passAtWork ≤ 1
  batch : s.waits jobID → ∀ m ∈ ms, PassSince n m → (∀ row ∈ m.2.toDo, row.jobID ≠ jobID) →
    s.Batch dueAt m.2.toDo
  routed : s.waits jobID →
    routed₀ + (ms.map (passCredit n jobID)).sum ≤ s.routedBefore jobID dueAt

structure Sys.Filed (s s' : Sys) : Prop where
  now : s.db.now ≤ s'.db.now
  jobs : ∃ extra, s'.db.scheduledJobs.rows = s.db.scheduledJobs.rows ++ extra ∧
    ∀ r ∈ extra, r.2.status = .pending

theorem Sys.Filed.of_eq {s s' : Sys} (hnow : s.db.now ≤ s'.db.now)
    (hjobs : s'.db.scheduledJobs = s.db.scheduledJobs) : s.Filed s' :=
  ⟨hnow, [], by simp [hjobs], by simp⟩

section

variable {n jobID dueAt routed₀ : Nat} {s s' : Sys} {ms ms' : Members} {rows : List DueRow}

theorem Sys.Filed.get? (h : s.Filed s') {k : Nat} {job : ScheduledJob}
    (hjob : s.db.scheduledJobs.get? k = some job) : s'.db.scheduledJobs.get? k = some job := by
  obtain ⟨extra, hrows, -⟩ := h.jobs
  rw [Table.get?_eq_some, hrows]
  exact List.mem_append_left _ (Table.get?_eq_some.mp hjob)

theorem Sys.Filed.waits (h : s.Filed s') {job : ScheduledJob}
    (hjob : s.db.scheduledJobs.get? jobID = some job) (hwaits : s'.waits jobID) :
    s.waits jobID := by
  obtain ⟨job', hjob', hpending⟩ := hwaits
  rw [h.get? hjob] at hjob'
  obtain rfl := Option.some.inj hjob'
  exact ⟨job, hjob, hpending⟩

theorem Sys.Filed.routedBefore (h : s.Filed s') (jobID dueAt : Nat) :
    s'.routedBefore jobID dueAt = s.routedBefore jobID dueAt := by
  obtain ⟨extra, hrows, hpending⟩ := h.jobs
  rw [Sys.routedBefore, hrows, List.countP_append, Sys.routedBefore]
  refine Nat.add_eq_left.mpr (List.countP_eq_zero.mpr fun r hr => ?_)
  simp [hpending r hr]

theorem Sys.Batch.files (h : s.Batch dueAt rows) (hfiles : s.Filed s') : s'.Batch dueAt rows :=
  ⟨h.distinct, fun row hrow =>
    let ⟨job, hjob, hpending, hdue⟩ := h.pending row hrow
    ⟨job, hfiles.get? hjob, hpending, hdue⟩⟩

theorem Sys.batch_nil (s : Sys) (dueAt : Nat) : s.Batch dueAt [] := ⟨List.nodup_nil, by simp⟩

theorem Draining.files (h : Draining n jobID dueAt routed₀ s ms) (hfiles : s.Filed s')
    (halone : (∃ m ∈ ms', PassSince n m) → ms'.countP passAtWork ≤ 1)
    (hms : ∀ m ∈ ms', PassSince n m →
      m.2.toDo = [] ∨ ∃ m₀ ∈ ms, PassSince n m₀ ∧ m₀.2.toDo = m.2.toDo)
    (hcredit : (ms'.map (passCredit n jobID)).sum = (ms.map (passCredit n jobID)).sum) :
    Draining n jobID dueAt routed₀ s' ms' := by
  obtain ⟨⟨job, hjob, hdueAt⟩, hdue⟩ := h.due
  constructor
  · exact ⟨⟨job, hfiles.get? hjob, hdueAt⟩, hdue.trans hfiles.now⟩
  · exact halone
  · intro hwaits m hm hsince hspares
    rcases hms m hm hsince with hnil | ⟨m₀, hm₀, hsince₀, hsame⟩
    · rw [hnil]
      exact s'.batch_nil dueAt
    · rw [← hsame] at hspares ⊢
      exact (h.batch (hfiles.waits hjob hwaits) m₀ hm₀ hsince₀ hspares).files hfiles
  · intro hwaits
    rw [hcredit, hfiles.routedBefore]
    exact h.routed (hfiles.waits hjob hwaits)

theorem Draining.same (h : Draining n jobID dueAt routed₀ s ms) (hfiles : s.Filed s') :
    Draining n jobID dueAt routed₀ s' ms :=
  h.files hfiles h.alone (fun m hm hsince => .inr ⟨m, hm, hsince, rfl⟩) rfl

variable {cfg : Config} {before after : Members} {party : Party} {stage stage' : Stage} {c : Call}
  {success : Bool}

theorem Effect.files_of_other (h : Effect cfg s party stage c success stage' s')
    (hparty : ∀ id, party ≠ .pass id) (howned : OwnedOnce s (before ++ (party, stage) :: after))
    (hfiling : Filing s (before ++ (party, stage) :: after)) : s.Filed s' := by
  rcases h.agrees_cases with ⟨_, _, _, _, hdb⟩ | ⟨t, req, tx, -, hstage, -, rfl⟩ |
    ⟨id, _, _, _, rfl, -, -, -, -⟩
  · exact .of_eq (by rw [hdb]) (by rw [hdb])
  · have htx : stage.tx? = some tx := by
      rcases hstage with ⟨_, rfl⟩ | rfl <;> rfl
    have hfiles := Stage.files_tx (hfiling.files (party, stage) (by simp)) htx
    exact ⟨le_refl _, tx.job.toList, (howned.commit_rows htx).2.2, fun r hr =>
      (hfiles.job r (by simpa using hr)).2.1⟩
  · exact absurd rfl (hparty id)

theorem Effect.pass_cases {id : Nat} (h : Effect cfg s (.pass id) stage c true stage' s')
    (n jobID : Nat) :
    (stage = .passing ∧ stage' = .between s.db.dueRows ∧ s'.db = s.db) ∨
    (∃ row done rest, stage = .routing row done [] rest ∧ stage' = .between rest ∧
      s'.db = s.db.markRouted row.jobID) ∨
    (stage.ended = false ∧ passCredit n jobID (.pass id, stage') =
      passCredit n jobID (.pass id, stage) ∧ stage'.toDo = stage.toDo ∧ s.Filed s') := by
  cases h with
  | selectDue => exact .inl ⟨rfl, rfl, rfl⟩
  | markRouted => exact .inr (.inl ⟨_, _, _, rfl, rfl, rfl⟩)
  | routeEnsureControl hensure =>
      obtain ⟨controls, next, rfl, -⟩ := Db.ensureControl_cases hensure
      exact .inr (.inr ⟨rfl, rfl, rfl, .of_eq (le_refl _) rfl⟩)
  | _ => exact .inr (.inr ⟨rfl, rfl, rfl, .of_eq (le_refl _) rfl⟩)

private theorem sum_credit (n jobID : Nat) (before after : Members) (m m' : Party × Stage) :
    ((before ++ m' :: after).map (passCredit n jobID)).sum + passCredit n jobID m =
      ((before ++ m :: after).map (passCredit n jobID)).sum + passCredit n jobID m' := by
  simp only [List.map_append, List.map_cons, List.sum_append, List.sum_cons]
  omega

private theorem since_replace (h : ∃ m ∈ before ++ (party, stage') :: after, PassSince n m) :
    ∃ m ∈ before ++ (party, stage) :: after, PassSince n m := by
  obtain ⟨m, hm, hsince⟩ := h
  simp only [List.mem_append, List.mem_cons] at hm
  rcases hm with hm | rfl | hm
  · exact ⟨m, by simp [hm], hsince⟩
  · exact ⟨(party, stage), by simp, by cases party <;> exact hsince⟩
  · exact ⟨m, by simp [hm], hsince⟩

private theorem Draining.alone_replace
    (h : Draining n jobID dueAt routed₀ s (before ++ (party, stage) :: after))
    (hwork : passAtWork (party, stage') = true → passAtWork (party, stage) = true)
    (hsince : ∃ m ∈ before ++ (party, stage') :: after, PassSince n m) :
    (before ++ (party, stage') :: after).countP passAtWork ≤ 1 := by
  have hone := h.alone (since_replace hsince)
  simp only [List.countP_append, List.countP_cons] at hone ⊢
  split
  · next hnow =>
      rw [if_pos (hwork hnow)] at hone
      exact hone
  · omega

theorem Stage.toDo_of_ended {stage : Stage} (h : stage.ended = true) : stage.toDo = [] := by
  cases stage with
  | between rows =>
      cases rows with
      | nil => rfl
      | cons _ _ => simp [Stage.ended] at h
  | routing _ _ _ _ => simp [Stage.ended] at h
  | adding _ _ _ _ _ _ _ => simp [Stage.ended] at h
  | _ => rfl

private theorem Draining.others_idle
    (h : Draining n jobID dueAt routed₀ s (before ++ (party, stage) :: after))
    (hwork : passAtWork (party, stage) = true) {m : Party × Stage} (hm : m ∈ before ++ after)
    (hsince : PassSince n m) : m.2.toDo = [] := by
  have hone := h.alone ⟨m, by simp only [List.mem_append, List.mem_cons] at hm ⊢; tauto, hsince⟩
  have hnone : (before ++ after).countP passAtWork = 0 := by
    simp only [List.countP_append, List.countP_cons, hwork, if_true] at hone ⊢
    omega
  have hidle := List.countP_eq_zero.mp hnone m hm
  obtain ⟨party, stage⟩ := m
  cases party with
  | pass id =>
      exact Stage.toDo_of_ended (by simpa [passAtWork] using hidle)
  | _ => exact absurd hsince id

private theorem batch_of_due (hfiling : Filing s ms) {job : ScheduledJob}
    (hjob : s.db.scheduledJobs.get? jobID = some job) (hpending : job.status = .pending)
    (hdue : job.dueAt ≤ s.db.now) (hspares : ∀ row ∈ s.db.dueRows, row.jobID ≠ jobID) :
    s.Batch job.dueAt s.db.dueRows ∧ s.db.dueRows.length = 100 := by
  have hmem := Table.get?_eq_some.mp hjob
  obtain ⟨notification, hget⟩ := hfiling.notified _ hmem
  have hrow : s.db.dueRow? (jobID, job) = some ⟨jobID, job.tenantID, job.notificationID,
      notification.channels, notification.target, notification.data, job.dueAt⟩ := by
    simp only at hget
    simp [Db.dueRow?, hpending, hdue, hget]
  rcases Db.dueRows_cases hmem hrow with hmine | ⟨hlength, hearlier⟩
  · exact absurd rfl (hspares _ hmine)
  · refine ⟨⟨s.db.dueRows_nodup, fun row hrow => ?_⟩, hlength⟩
    obtain ⟨entry, hentry, hdueRow⟩ := Db.mem_dueRows hrow
    have hle := hearlier row hrow
    obtain ⟨hst, -, _, -, rfl⟩ := Db.dueRow?_eq_some hdueRow
    exact ⟨entry.2, Table.get?_eq_some.mpr hentry, hst, hle⟩

private theorem routedBefore_mark_le (jobID dueAt : Nat) {k : Nat}
    (hdb : s'.db = s.db.markRouted k) :
    s.routedBefore jobID dueAt ≤ s'.routedBefore jobID dueAt := by
  rw [Sys.routedBefore, Sys.routedBefore, hdb]
  show _ ≤ List.countP _ (s.db.scheduledJobs.rows.map _)
  rw [List.countP_map]
  refine List.countP_mono_left fun r _ hr => ?_
  have hr := of_decide_eq_true hr
  refine decide_eq_true ⟨hr.1, ?_, ?_⟩
  · dsimp only
    split
    · exact hr.2.1
    · exact hr.2.1
  · dsimp only
    split
    · rfl
    · exact hr.2.2

private theorem routedBefore_mark {k : Nat} {job : ScheduledJob} (hdb : s'.db = s.db.markRouted k)
    (hjob : s.db.scheduledJobs.get? k = some job) (hpending : job.status = .pending)
    (hdue : job.dueAt ≤ dueAt) (hne : k ≠ jobID) :
    s'.routedBefore jobID dueAt = s.routedBefore jobID dueAt + 1 := by
  have hcount := Table.countP_modify hjob (fun job => { job with status := .queued })
    fun r => decide (r.1 ≠ jobID ∧ r.2.dueAt ≤ dueAt ∧ r.2.status = .queued)
  simp only [hpending, hdue, hne, ne_eq, not_false_eq_true, reduceCtorEq, and_false, and_true,
    decide_false, decide_true, Bool.false_eq_true, if_false, if_true, Nat.add_zero] at hcount
  rw [Sys.routedBefore, hdb]
  exact hcount

private theorem draining_select {id : Nat}
    (h : Draining n jobID dueAt routed₀ s (before ++ (.pass id, .passing) :: after))
    (hfiling : Filing s (before ++ (.pass id, .passing) :: after)) (hdb : s'.db = s.db) :
    Draining n jobID dueAt routed₀ s' (before ++ (.pass id, .between s.db.dueRows) :: after) := by
  have hfiles : s.Filed s' := .of_eq (by rw [hdb]) (by rw [hdb])
  obtain ⟨⟨job, hjob, hdueAt⟩, hdue⟩ := h.due
  have hselected : s'.waits jobID → (∀ row ∈ s.db.dueRows, row.jobID ≠ jobID) →
      s.Batch dueAt s.db.dueRows ∧ s.db.dueRows.length = 100 := by
    intro hwaits hspares
    obtain ⟨job', hjob', hpending⟩ := hfiles.waits hjob hwaits
    obtain rfl := Option.some.inj (hjob.symm.trans hjob')
    rw [← hdueAt] at hdue ⊢
    exact batch_of_due hfiling hjob hpending hdue hspares
  constructor
  · exact ⟨⟨job, hfiles.get? hjob, hdueAt⟩, hdue.trans hfiles.now⟩
  · exact h.alone_replace fun _ => rfl
  · intro hwaits m hm hsince hspares
    simp only [List.mem_append, List.mem_cons] at hm
    rcases hm with hm | rfl | hm
    · exact (h.batch (hfiles.waits hjob hwaits) m (by simp [hm]) hsince hspares).files hfiles
    · exact (hselected hwaits hspares).1.files hfiles
    · exact (h.batch (hfiles.waits hjob hwaits) m (by simp [hm]) hsince hspares).files hfiles
  · intro hwaits
    have hrouted := h.routed (hfiles.waits hjob hwaits)
    have hsum := sum_credit n jobID before after (.pass id, .passing)
      (.pass id, .between s.db.dueRows)
    have hnone : passCredit n jobID (.pass id, .between s.db.dueRows) = 0 := by
      show (if n ≤ id ∧ ∀ row ∈ s.db.dueRows, row.jobID ≠ jobID then
        100 - s.db.dueRows.length else 0) = 0
      by_cases hspares : n ≤ id ∧ ∀ row ∈ s.db.dueRows, row.jobID ≠ jobID
      · rw [if_pos hspares, (hselected hwaits hspares.2).2]
      · exact if_neg hspares
    rw [hfiles.routedBefore]
    rw [hnone, show passCredit n jobID (.pass id, .passing) = 0 from rfl] at hsum
    omega

private theorem draining_mark {id : Nat} {row : DueRow} {done : List String} {rest : List DueRow}
    (h : Draining n jobID dueAt routed₀ s
      (before ++ (.pass id, .routing row done [] rest) :: after))
    (hdb : s'.db = s.db.markRouted row.jobID) :
    Draining n jobID dueAt routed₀ s' (before ++ (.pass id, .between rest) :: after) := by
  obtain ⟨⟨job, hjob, hdueAt⟩, hdue⟩ := h.due
  have hget : ∀ k, k ≠ row.jobID →
      s'.db.scheduledJobs.get? k = s.db.scheduledJobs.get? k := by
    intro k hk
    rw [hdb, Db.markRouted_scheduledJobs, Table.get?_modify_ne _ _ hk]
  have hself : s'.db.scheduledJobs.get? row.jobID =
      (s.db.scheduledJobs.get? row.jobID).map fun job => { job with status := .queued } := by
    rw [hdb, Db.markRouted_scheduledJobs, Table.get?_modify_self]
  -- a job that still waits is not the marked one
  have hwaiting : s'.waits jobID → jobID ≠ row.jobID ∧ s.waits jobID := by
    rintro ⟨job', hjob', hpending⟩
    have hne : jobID ≠ row.jobID := by
      intro heq
      rw [heq, hself] at hjob'
      obtain ⟨_, -, rfl⟩ := Option.map_eq_some_iff.mp hjob'
      simp at hpending
    exact ⟨hne, job', (hget _ hne).symm.trans hjob', hpending⟩
  have hbatch : s'.waits jobID → n ≤ id → (∀ row' ∈ rest, row'.jobID ≠ jobID) →
      s.Batch dueAt (row :: rest) := by
    intro hwaits hsince hspares
    refine h.batch (hwaiting hwaits).2 (.pass id, .routing row done [] rest) (by simp) hsince ?_
    exact List.forall_mem_cons.mpr ⟨(hwaiting hwaits).1.symm, hspares⟩
  constructor
  · refine ⟨?_, by rw [hdb]; exact hdue⟩
    by_cases hk : jobID = row.jobID
    · rw [hk] at hjob ⊢
      exact ⟨{ job with status := .queued }, by rw [hself, hjob]; rfl, hdueAt⟩
    · exact ⟨job, (hget _ hk).trans hjob, hdueAt⟩
  · exact h.alone_replace fun _ => rfl
  · intro hwaits m hm hsince hspares
    have hothers : m ∈ before ++ after → s'.Batch dueAt m.2.toDo := by
      intro hm
      rw [h.others_idle rfl hm hsince]
      exact s'.batch_nil dueAt
    simp only [List.mem_append, List.mem_cons] at hm
    rcases hm with hm | rfl | hm
    · exact hothers (by simp [hm])
    · obtain ⟨hnodup, hpending⟩ := hbatch hwaits hsince hspares
      obtain ⟨hfirst, hnodup⟩ := List.nodup_cons.mp hnodup
      refine ⟨hnodup, fun row' hrow' => ?_⟩
      rw [hget row'.jobID fun heq => hfirst (heq ▸ List.mem_map_of_mem hrow')]
      exact hpending row' (List.mem_cons_of_mem _ hrow')
    · exact hothers (by simp [hm])
  · intro hwaits
    have hrouted := h.routed (hwaiting hwaits).2
    have hsum := sum_credit n jobID before after
      (.pass id, .routing row done [] rest) (.pass id, .between rest)
    have hnow : passCredit n jobID (.pass id, .between rest) =
      if n ≤ id ∧ ∀ row' ∈ rest, row'.jobID ≠ jobID then 100 - rest.length else 0 := rfl
    by_cases hmine : n ≤ id ∧ ∀ row' ∈ rest, row'.jobID ≠ jobID
    · obtain ⟨job', hjob', hpending, hdue'⟩ :=
        (hbatch hwaits hmine.1 hmine.2).pending row (by simp)
      rw [routedBefore_mark hdb hjob' hpending hdue' (hwaiting hwaits).1.symm]
      have hbefore : passCredit n jobID (.pass id, .routing row done [] rest) =
          100 - (rest.length + 1) :=
        if_pos ⟨hmine.1, List.forall_mem_cons.mpr ⟨(hwaiting hwaits).1.symm, hmine.2⟩⟩
      rw [hnow, if_pos hmine, hbefore] at hsum
      omega
    · have hle := routedBefore_mark_le jobID dueAt hdb
      rw [hnow, if_neg hmine] at hsum
      omega

private theorem other_party (n jobID : Nat) (hparty : ∀ id, party ≠ .pass id) (stage : Stage) :
    passCredit n jobID (party, stage) = 0 ∧ passAtWork (party, stage) = false ∧
      ¬PassSince n (party, stage) := by
  cases party with
  | pass id => exact absurd rfl (hparty id)
  | _ => exact ⟨rfl, rfl, not_false⟩

private theorem Draining.other
    (h : Draining n jobID dueAt routed₀ s (before ++ (party, stage) :: after))
    (hparty : ∀ id, party ≠ .pass id) (hfiles : s.Filed s') (stage' : Stage) :
    Draining n jobID dueAt routed₀ s' (before ++ (party, stage') :: after) := by
  obtain ⟨hcredit, -, -⟩ := other_party n jobID hparty stage
  obtain ⟨hcredit', hidle, hnone⟩ := other_party n jobID hparty stage'
  refine h.files hfiles (h.alone_replace fun hwork => by simp [hidle] at hwork) ?_ ?_
  · intro m hm hsince
    simp only [List.mem_append, List.mem_cons] at hm
    rcases hm with hm | rfl | hm
    · exact .inr ⟨m, by simp [hm], hsince, rfl⟩
    · exact absurd hsince hnone
    · exact .inr ⟨m, by simp [hm], hsince, rfl⟩
  · have hsum := sum_credit n jobID before after (party, stage) (party, stage')
    omega

private theorem Draining.spawn (h : Draining n jobID dueAt routed₀ s ms)
    (hparty : ∀ id, party ≠ .pass id) (hfiles : s.Filed s') :
    Draining n jobID dueAt routed₀ s' (ms ++ [(party, stage)]) := by
  obtain ⟨hcredit, hidle, hnone⟩ := other_party n jobID hparty stage
  have hold : ∀ m ∈ ms ++ [(party, stage)], PassSince n m → m ∈ ms := by
    intro m hm hsince
    rcases List.mem_append.mp hm with hm | hm
    · exact hm
    · rw [List.mem_singleton.mp hm] at hsince
      exact absurd hsince hnone
  refine h.files hfiles ?_ (fun m hm hsince => .inr ⟨m, hold m hm hsince, hsince, rfl⟩) ?_
  · rintro ⟨m, hm, hsince⟩
    simpa [hidle] using h.alone ⟨m, hold m hm hsince, hsince⟩
  · simp [hcredit]

private theorem draining_pass {id : Nat}
    (hfiling : Filing s (before ++ (.pass id, stage) :: after))
    (heffect : Effect cfg s (.pass id) stage c true stage' s')
    (h : Draining n jobID dueAt routed₀ s (before ++ (.pass id, stage) :: after)) :
    Draining n jobID dueAt routed₀ s' (before ++ (.pass id, stage') :: after) := by
  rcases heffect.pass_cases n jobID with ⟨rfl, rfl, hdb⟩ | ⟨row, done, rest, rfl, rfl, hdb⟩ |
    ⟨hended, hcredit, htoDo, hfiles⟩
  · exact draining_select h hfiling hdb
  · exact draining_mark h hdb
  · refine h.files hfiles (h.alone_replace fun _ => by simp [passAtWork, hended]) ?_ ?_
    · intro m hm hsince
      simp only [List.mem_append, List.mem_cons] at hm
      rcases hm with hm | rfl | hm
      · exact .inr ⟨m, by simp [hm], hsince, rfl⟩
      · exact .inr ⟨(.pass id, stage), by simp, hsince, htoDo.symm⟩
      · exact .inr ⟨m, by simp [hm], hsince, rfl⟩
    · have hsum := sum_credit n jobID before after (.pass id, stage) (.pass id, stage')
      omega

end

private theorem passAtWork_of_done {cfg : Config} {m : Party × Stage} {th : Thread}
    (h : m.1 = th.party ∧ Keeps cfg m.1 m.2 th.prog) (hth : th.passing = false) :
    passAtWork m = false := by
  obtain ⟨party, stage⟩ := m
  obtain ⟨party', prog⟩ := th
  obtain ⟨rfl, hkeeps⟩ := h
  cases party with
  | pass id =>
      cases prog with
      | ret a =>
          have hended : stage.ended = true := hkeeps
          simp [passAtWork, hended]
      | call c k => simp [Thread.passing] at hth
  | _ => rfl

theorem draining_inductive (cfg : Config) (n jobID dueAt routed₀ : Nat) :
    Inductive cfg (OneScheduler cfg) (fun s ms => (Traced s ms ∧ OwnedOnce s ms) ∧ Filing s ms)
      (Draining n jobID dueAt routed₀) where
  call := by
    intro w before after party stage stage' c o success s' _ hok hsuccess heffect hK h
    cases party with
    | pass id =>
        obtain rfl : true = success := hok.symm.trans hsuccess
        exact draining_pass hK.2 heffect h
    | _ => exact h.other nofun (heffect.files_of_other nofun hK.1.2 hK.2) stage'
  request := by
    intro w ms t req _ _ _ h
    exact h.spawn nofun (.of_eq (le_refl _) rfl)
  tick := by
    intro w ms hal hok _ h
    refine h.files (.of_eq (le_refl _) rfl) (fun _ => ?_) ?_ (by simp [passCredit])
    · -- the passes before it have come to their end
      have hdone : ms.countP passAtWork = 0 := by
        refine List.countP_eq_zero.mpr fun m hm => ?_
        obtain ⟨th, hth, hkeeps⟩ := exists_of_mem_forall₂ hal hm
        simp [passAtWork_of_done hkeeps (hok th hth)]
      rw [List.countP_append, hdone]
      simp [passAtWork, Stage.ended]
    · intro m hm hsince
      rcases List.mem_append.mp hm with hm | hm
      · exact .inr ⟨m, hm, hsince, rfl⟩
      · exact .inl (by rw [List.mem_singleton.mp hm]; rfl)
  deliver := by
    intro w ms i m _ _ _ _ h
    exact h.spawn nofun (.of_eq (le_refl _) rfl)
  admin := by
    intro w ms a _ _ _ h
    cases a <;> exact h.same (.of_eq (le_refl _) rfl)
  clock := by
    intro w ms now _ _ hle _ h
    exact h.same (.of_eq hle rfl)
  crash := by
    intro w before after party stage _ hok _ h
    cases party with
    | pass id => exact absurd hok not_false
    | _ => exact h.other nofun (.of_eq (le_refl _) rfl) .over
  requeue := by
    intro w ms d _ _ _ _ h
    exact h.same (.of_eq (le_refl _) rfl)

def PassesNumbered (ms : Members) : Prop := ∀ m ∈ ms, ∀ id, m.1 = .pass id → id < ms.length

private theorem PassesNumbered.replace {before after : Members} {party : Party}
    {stage : Stage} (h : PassesNumbered (before ++ (party, stage) :: after)) (stage' : Stage) :
    PassesNumbered (before ++ (party, stage') :: after) := by
  intro m hm id hid
  have hlt : id < (before ++ (party, stage) :: after).length := by
    simp only [List.mem_append, List.mem_cons] at hm
    rcases hm with hm | rfl | hm
    · exact h m (by simp [hm]) id hid
    · exact h (party, stage) (by simp) id hid
    · exact h m (by simp [hm]) id hid
  simpa using hlt

private theorem PassesNumbered.spawn {ms : Members} (h : PassesNumbered ms) {party : Party}
    (hparty : ∀ id, party = .pass id → id ≤ ms.length) (stage : Stage) :
    PassesNumbered (ms ++ [(party, stage)]) := by
  intro m hm id hid
  rw [List.length_append, List.length_singleton]
  rcases List.mem_append.mp hm with hm | hm
  · exact Nat.lt_succ_of_lt (h m hm id hid)
  · rw [List.mem_singleton.mp hm] at hid
    exact Nat.lt_succ_of_le (hparty id hid)

theorem passesNumbered_inductive (cfg : Config) :
    Inductive cfg (fun _ _ => True) Anything (fun _ ms => PassesNumbered ms) where
  call := fun _ _ _ _ _ h => h.replace _
  request := fun _ _ _ h => h.spawn (fun _ hid => by cases hid) _
  tick := by
    intro w ms hal _ _ h
    refine h.spawn ?_ _
    rintro id ⟨⟩
    exact hal.length_eq.ge
  deliver := fun _ _ _ _ h => h.spawn (fun _ hid => by cases hid) _
  admin := fun _ _ _ h => h
  clock := fun _ _ _ _ h => h
  crash := fun _ _ _ h => h.replace _
  requeue := fun _ _ _ _ h => h

private theorem passCredit_of_not_since {n : Nat} {m : Party × Stage} (h : ¬PassSince n m)
    (jobID : Nat) : passCredit n jobID m = 0 := by
  obtain ⟨party, stage⟩ := m
  cases party with
  | pass id =>
      cases stage with
      | passing => rfl
      | _ => exact if_neg fun hsince => h hsince.1
  | _ => rfl

private theorem passCredit_of_ended {n id : Nat} {stage : Stage} (hsince : n ≤ id)
    (hended : stage.ended = true) (jobID : Nat) : passCredit n jobID (.pass id, stage) = 100 := by
  have hnil := Stage.toDo_of_ended hended
  have hspares : n ≤ id ∧ ∀ row ∈ stage.toDo, row.jobID ≠ jobID := ⟨hsince, by simp [hnil]⟩
  cases stage with
  | passing => simp [Stage.ended] at hended
  | _ => exact (if_pos hspares).trans (by rw [hnil]; rfl)

private theorem passesDone_le {cfg : Config} {w : World} {ms : Members}
    (hal : Aligned cfg ms w.threads) (n jobID : Nat) :
    100 * w.passesDone n ≤ (ms.map (passCredit n jobID)).sum := by
  unfold World.passesDone
  generalize w.threads = threads at hal ⊢
  induction hal with
  | nil => simp
  | @cons m th ms threads hm _ ih =>
      obtain ⟨party, stage⟩ := m
      obtain ⟨party', prog⟩ := th
      obtain ⟨rfl, hkeeps⟩ := hm
      rw [List.countP_cons, List.map_cons, List.sum_cons]
      by_cases hdone : Thread.donePass n ⟨party, prog⟩ = true
      · rw [if_pos hdone]
        cases party with
        | pass id =>
            cases prog with
            | ret a =>
                rw [passCredit_of_ended (of_decide_eq_true hdone) hkeeps]
                omega
            | call c k => simp [Thread.donePass] at hdone
        | _ => simp [Thread.donePass] at hdone
      · rw [if_neg hdone]
        omega

/-- **The backlog drains in order.** In every run from a state with a due job on, with one
scheduler process whose passes are not cut short, the job has been routed, or every pass that
began and ended since has routed a hundred jobs that are due no later. -/
theorem due_job_routed {cfg : Config} {w₀ w w' : World} {es es' : List Event}
    (hfresh : w₀.Fresh) (hrun : w₀.RunOf cfg (fun _ _ => True) es w) {jobID : Nat}
    {job : ScheduledJob} (hjob : w.sys.db.scheduledJobs.get? jobID = some job)
    (hdue : job.dueAt ≤ w.sys.db.now) (hrun' : w.RunOf cfg (OneScheduler cfg) es' w') :
    ∃ job', w'.sys.db.scheduledJobs.get? jobID = some job' ∧ job'.dueAt = job.dueAt ∧
      (job'.status = .queued ∨
        w.sys.routedBefore jobID job.dueAt + 100 * w'.passesDone w.threads.length ≤
          w'.sys.routedBefore jobID job.dueAt) := by
  have hK : Inductive cfg (fun _ _ => True) Anything
      (fun s ms => (Traced s ms ∧ OwnedOnce s ms) ∧ Filing s ms) :=
    ((traced_inductive cfg).and ((ownedOnce_inductive cfg).given fun _ _ _ => trivial)).and
      (filing_inductive cfg)
  obtain ⟨ms, hal, hknown, hnumbered⟩ := (hK.and
    ((passesNumbered_inductive cfg).given fun _ _ _ => trivial)).reachable hfresh hrun
      ⟨⟨⟨traced_fresh hfresh, ownedOnce_fresh hfresh⟩, filing_fresh hfresh⟩,
        by simp [PassesNumbered]⟩
  have hnone : ∀ m ∈ ms, ¬PassSince w.threads.length m := by
    rintro ⟨party, stage⟩ hm hsince
    cases party with
    | pass id =>
        have hlt := hnumbered _ hm id rfl
        rw [hal.length_eq] at hlt
        exact absurd hsince (Nat.not_le.mpr hlt)
    | _ => exact hsince
  have hcredit : (ms.map (passCredit w.threads.length jobID)).sum = 0 := by
    refine List.sum_eq_zero_iff_forall_eq_nat.mpr fun x hx => ?_
    obtain ⟨m, hm, rfl⟩ := List.mem_map.mp hx
    exact passCredit_of_not_since (hnone m hm) jobID
  have hstart : Draining w.threads.length jobID job.dueAt (w.sys.routedBefore jobID job.dueAt)
      w.sys ms := by
    refine ⟨⟨⟨job, hjob, rfl⟩, hdue⟩, ?_, ?_, fun _ => by rw [hcredit]; exact le_refl _⟩
    · rintro ⟨m, hm, hsince⟩
      exact absurd hsince (hnone m hm)
    · intro _ m hm hsince
      exact absurd hsince (hnone m hm)
  have hall := (hK.mono fun _ _ _ => trivial).and (draining_inductive cfg w.threads.length jobID
    job.dueAt (w.sys.routedBefore jobID job.dueAt))
  obtain ⟨ms', hal', -, hdraining⟩ := hall.run hrun' ⟨ms, hal, hknown, hstart⟩
  obtain ⟨⟨job', hjob', hdueAt⟩, -⟩ := hdraining.due
  refine ⟨job', hjob', hdueAt, ?_⟩
  cases hst : job'.status with
  | queued => exact .inl rfl
  | pending =>
      have hdone := passesDone_le hal' w.threads.length jobID
      have hrouted := hdraining.routed ⟨job', hjob', hst⟩
      exact .inr (by omega)

def sampleBacklog : List Event :=
  .request 1 "t1" (sampleRequest ["email"] ⟨"scheduled", "2026-06-28T10:00:00Z"⟩ "") ::
    steps 0 8 ++ [.clock 10]

def samplePass : List Event := .tick :: steps 1 6

/-- One pass ends and routes no other job, so it has routed this one. -/
theorem due_job_routed_first : ∃ w w' job job',
    sampleWorld.RunOf (sampleConfig 3) (fun _ _ => True) sampleBacklog w ∧
    w.sys.db.scheduledJobs.get? 1 = some job ∧ job.status = .pending ∧
    w.RunOf (sampleConfig 3) (OneScheduler (sampleConfig 3)) samplePass w' ∧
    w'.sys.db.scheduledJobs.get? 1 = some job' ∧ job'.status = .queued := by
  obtain ⟨w, hrun, hw⟩ := World.exists_run (sampleConfig 3) (fun _ _ => True) sampleWorld
    sampleBacklog (fun w => (w.sys.db.scheduledJobs.get? 1).any fun (job : ScheduledJob) =>
      decide (job.status = .pending ∧ job.dueAt ≤ w.sys.db.now) &&
        (execute (World.step (sampleConfig 3))
          (fun w e => decide (OneScheduler (sampleConfig 3) w (w.label e))) w samplePass).any
            fun (w' : World) => decide (w'.sys.routedBefore 1 job.dueAt <
              w.sys.routedBefore 1 job.dueAt + 100 * w'.passesDone w.threads.length))
    (by decide +kernel)
  obtain ⟨job, hjob, hchecked⟩ := (Option.any_eq_true _ _).mp hw
  obtain ⟨hdue, hpass⟩ := Bool.and_eq_true_iff.mp hchecked
  obtain ⟨hpending, hdue⟩ := of_decide_eq_true hdue
  obtain ⟨w', hrun', hw'⟩ := World.exists_run (sampleConfig 3) (OneScheduler (sampleConfig 3)) w
    samplePass _ hpass
  obtain ⟨job', hjob', -, hqueued | hle⟩ :=
    due_job_routed sampleWorld_fresh hrun hjob hdue hrun'
  · exact ⟨w, w', job, job', hrun, hjob, hpending, hrun', hjob', hqueued⟩
  · exact absurd hle (Nat.not_le.mpr (of_decide_eq_true hw'))

end NotificationPlatform

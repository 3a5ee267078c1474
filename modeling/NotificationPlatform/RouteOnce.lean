import NotificationPlatform.Routing

/-!
# Routing a scheduled job once

A pass reads the due jobs and then inserts, publishes and marks in separate statements. Jobs are
routed once if no pass reads a job that another pass still has on its list, and if a pass that
has begun with the deliveries of a job gets to its mark.
-/

namespace NotificationPlatform

open Lib

def Stage.current? : Stage → Option Nat
  | .routing row _ _ _ | .adding row _ _ _ _ _ _ => some row.notificationID
  | _ => none

/-- The deliveries and the jobs of the current notification are those of the channels done. -/
def Stage.accounts (s : Sys) : Stage → Prop
  | .routing row done todo _ =>
      s.db.rowsOf row.notificationID = s.jobsOf row.notificationID ∧
        (s.jobsOf row.notificationID).map Prod.snd = done ∧ done ++ todo = row.channelList
  | .adding row new done channel todo _ _ =>
      s.db.rowsOf row.notificationID = s.jobsOf row.notificationID ++ [(new, channel)] ∧
        (s.jobsOf row.notificationID).map Prod.snd = done ∧
        done ++ channel :: todo = row.channelList
  | _ => True

structure DueRow.PendingIn (db : Db) (row : DueRow) : Prop where
  job : ∃ job, (row.jobID, job) ∈ db.scheduledJobs.rows ∧ job.status = .pending ∧
    job.notificationID = row.notificationID
  channels : ∃ notification, db.notifications.get? row.notificationID = some notification ∧
    notification.channelList = row.channelList

/-- Every channel of notification `n` has one delivery and one published job. -/
def Sys.RoutedOnce (s : Sys) (n : Nat) : Prop :=
  ∃ notification, s.db.notifications.get? n = some notification ∧ s.db.rowsOf n = s.jobsOf n ∧
    (s.jobsOf n).map Prod.snd = notification.channelList

/-- Pending jobs are untouched but for those a pass is at, and routed jobs are complete. -/
structure Routed (s : Sys) (ms : Members) : Prop where
  distinct : ((ms.flatMap fun m => m.2.toDo).map DueRow.notificationID).Nodup
  selected : ∀ m ∈ ms, ∀ row ∈ m.2.toDo, ∃ id db, m.1 = .pass id ∧ (id, db) ∈ s.selected ∧
    row ∈ db.dueRows
  pending : ∀ m ∈ ms, ∀ row ∈ m.2.toDo, row.PendingIn s.db
  accounts : ∀ m ∈ ms, m.2.accounts s
  clean : ∀ r ∈ s.db.scheduledJobs.rows, r.2.status = .pending →
    (∀ m ∈ ms, m.2.current? ≠ some r.2.notificationID) →
    s.db.rowsOf r.2.notificationID = [] ∧ s.jobsOf r.2.notificationID = []
  complete : ∀ r ∈ s.db.scheduledJobs.rows, r.2.status = .queued →
    s.RoutedOnce r.2.notificationID

/-- A call after which the deliveries of a job are begun and not all published, or the job is not
marked. -/
def Site.midJob : Site → Bool
  | .route .insertDelivery _ i => 0 < i
  | .route .ensureControl _ _ | .route .publish _ _ | .route .mark _ _ => true
  | _ => false

def World.passing (w : World) (id : Nat) : Bool :=
  w.threads.any fun th =>
    match th.party, th.prog with
    | .pass i, .call _ _ => i == id
    | _, _ => false

def World.dueUnread (w : World) : Bool :=
  w.sys.selected.all fun e => !w.passing e.1 ||
    w.sys.db.dueRows.all fun row => e.2.dueRows.all fun row' => row.jobID != row'.jobID

/-- Passes read no job that another one has still to mark, and get from the first delivery of a
job to its mark. -/
def RoutesApart (cfg : Config) (w : World) : World.Label → Prop
  | .call party c o =>
      (c.site.midJob = true → w.sys.succeeds cfg party c o = true) ∧
        (c.site = .select → w.sys.succeeds cfg party c o = true → w.dueUnread = true)
  | .crash (.pass _) => False
  | _ => True

instance (cfg : Config) (w : World) : (l : World.Label) → Decidable (RoutesApart cfg w l)
  | .call _ _ _ => inferInstanceAs (Decidable (_ ∧ _))
  | .crash (.pass _) => inferInstanceAs (Decidable False)
  | .crash (.request _ _) | .crash (.consumer _) | .deliver _ | .request _ _ | .tick | .admin _
  | .clock | .requeue | .none => inferInstanceAs (Decidable True)

theorem Stage.mem_toDo_of_current? {stage : Stage} {n : Nat} (h : stage.current? = some n) :
    ∃ row ∈ stage.toDo, row.notificationID = n := by
  cases stage with
  | routing row done todo rest => exact ⟨row, by simp [Stage.toDo], Option.some.inj h⟩
  | adding row new done channel todo rest ensured =>
      exact ⟨row, by simp [Stage.toDo], Option.some.inj h⟩
  | _ => simp [Stage.current?] at h

section

variable {s s' : Sys} {before after : Members} {party : Party} {stage stage' : Stage}

private theorem Routed.toDo_ne (h : Routed s (before ++ (party, stage) :: after))
    {m : Party × Stage} (hm : m ∈ before ++ after) {row row' : DueRow} (hrow : row ∈ m.2.toDo)
    (hrow' : row' ∈ stage.toDo) : row.notificationID ≠ row'.notificationID := by
  have hnd := h.distinct
  have hperm : (before ++ (party, stage) :: after).Perm ((party, stage) :: (before ++ after)) :=
    List.perm_middle
  have hnd' := ((hperm.flatMap_right fun m => m.2.toDo).map DueRow.notificationID).nodup_iff.mp hnd
  rw [List.flatMap_cons, List.map_append, List.nodup_append] at hnd'
  intro heq
  refine hnd'.2.2 row'.notificationID (List.mem_map.mpr ⟨row', hrow', rfl⟩) row.notificationID
    (List.mem_map.mpr ⟨row, List.mem_flatMap.mpr ⟨m, hm, hrow⟩, rfl⟩) heq.symm

private theorem job_unique {ms : Members} (hfiling : Filing s ms) {r r' : Nat × ScheduledJob}
    (hr : r ∈ s.db.scheduledJobs.rows) (hr' : r' ∈ s.db.scheduledJobs.rows)
    (h : r.2.notificationID = r'.2.notificationID) : r = r' :=
  List.inj_on_of_nodup_map hfiling.jobs hr hr' h

private theorem accounts_congr {stage : Stage}
    (h : ∀ n, stage.current? = some n → s'.db.rowsOf n = s.db.rowsOf n ∧ s'.jobsOf n = s.jobsOf n)
    (haccounts : stage.accounts s) : stage.accounts s' := by
  cases stage with
  | routing row done todo rest =>
      obtain ⟨hrows, hjobs⟩ := h row.notificationID rfl
      rw [Stage.accounts, hrows, hjobs]
      exact haccounts
  | adding row new done channel todo rest ensured =>
      obtain ⟨hrows, hjobs⟩ := h row.notificationID rfl
      rw [Stage.accounts, hrows, hjobs]
      exact haccounts
  | _ => trivial

private theorem routed_step (hfiling : Filing s (before ++ (party, stage) :: after))
    (h : Routed s (before ++ (party, stage) :: after)) (extra : List (Nat × ScheduledJob))
    (hjobs : s'.db.scheduledJobs.rows = s.db.scheduledJobs.rows ++ extra)
    (hextra : ∀ r ∈ extra, r.2.status = .pending ∧ s'.db.rowsOf r.2.notificationID = [] ∧
      s'.jobsOf r.2.notificationID = [])
    (hnotifications : ∀ n row, s.db.notifications.get? n = some row →
      s'.db.notifications.get? n = some row)
    (hselected : s'.selected = s.selected) (htoDo : stage'.toDo.Sublist stage.toDo)
    (hledger : ∀ r ∈ s.db.scheduledJobs.rows, stage.current? ≠ some r.2.notificationID →
      s'.db.rowsOf r.2.notificationID = s.db.rowsOf r.2.notificationID ∧
        s'.jobsOf r.2.notificationID = s.jobsOf r.2.notificationID)
    (haccounts : stage'.accounts s')
    (hclean : ∀ n, stage.current? = some n → stage'.current? ≠ some n →
      s'.db.rowsOf n = [] ∧ s'.jobsOf n = []) :
    Routed s' (before ++ (party, stage') :: after) := by
  have hself : (party, stage) ∈ before ++ (party, stage) :: after := by simp
  have hmem : ∀ m ∈ before ++ after, m ∈ before ++ (party, stage) :: after := by
    intro m hm
    simp only [List.mem_append, List.mem_cons] at hm ⊢
    tauto
  have hrows : ∀ m ∈ before ++ (party, stage') :: after, ∀ row ∈ m.2.toDo,
      ∃ m₀ ∈ before ++ (party, stage) :: after, m₀.1 = m.1 ∧ row ∈ m₀.2.toDo := by
    intro m hm row hrow
    simp only [List.mem_append, List.mem_cons] at hm
    rcases hm with hm | rfl | hm
    · exact ⟨m, by simp [hm], rfl, hrow⟩
    · exact ⟨(party, stage), hself, rfl, htoDo.subset hrow⟩
    · exact ⟨m, by simp [hm], rfl, hrow⟩
  constructor
  · refine h.distinct.sublist (List.Sublist.map _ ?_)
    simp only [List.flatMap_append, List.flatMap_cons]
    exact (List.Sublist.refl _).append (htoDo.append (List.Sublist.refl _))
  · intro m hm row hrow
    obtain ⟨m₀, hm₀, hparty, hrow₀⟩ := hrows m hm row hrow
    rw [hselected, ← hparty]
    exact h.selected m₀ hm₀ row hrow₀
  · intro m hm row hrow
    obtain ⟨m₀, hm₀, -, hrow₀⟩ := hrows m hm row hrow
    obtain ⟨⟨job, hjob, hst⟩, notification, hget, hchannels⟩ := h.pending m₀ hm₀ row hrow₀
    exact ⟨⟨job, by rw [hjobs]; exact List.mem_append_left _ hjob, hst⟩, notification,
      hnotifications _ _ hget, hchannels⟩
  · have hother : ∀ m ∈ before ++ after, m.2.accounts s' := by
      intro m hm
      refine accounts_congr (fun n hn => ?_) (h.accounts m (hmem m hm))
      obtain ⟨row, hrow, rfl⟩ := Stage.mem_toDo_of_current? hn
      obtain ⟨⟨job, hjob, -, hid⟩, -⟩ := h.pending m (hmem m hm) row hrow
      have hne : stage.current? ≠ some row.notificationID := by
        intro hcurrent
        obtain ⟨row', hrow', heq⟩ := Stage.mem_toDo_of_current? hcurrent
        exact h.toDo_ne hm hrow hrow' heq.symm
      have hl := hledger _ hjob (by rw [hid]; exact hne)
      rw [hid] at hl
      exact hl
    intro m hm
    simp only [List.mem_append, List.mem_cons] at hm
    rcases hm with hm | rfl | hm
    · exact hother m (by simp [hm])
    · exact haccounts
    · exact hother m (by simp [hm])
  · intro r hr hpending hcurrent
    rw [hjobs] at hr
    rcases List.mem_append.mp hr with hr | hr
    · by_cases hmine : stage.current? = some r.2.notificationID
      · exact hclean _ hmine (hcurrent (party, stage') (by simp))
      · obtain ⟨hrowsOf, hjobsOf⟩ := hledger r hr hmine
        rw [hrowsOf, hjobsOf]
        refine h.clean r hr hpending fun m hm => ?_
        simp only [List.mem_append, List.mem_cons] at hm
        rcases hm with hm | rfl | hm
        · exact hcurrent m (by simp [hm])
        · exact hmine
        · exact hcurrent m (by simp [hm])
    · exact (hextra r hr).2
  · intro r hr hqueued
    rw [hjobs] at hr
    rcases List.mem_append.mp hr with hr | hr
    · have hne : stage.current? ≠ some r.2.notificationID := by
        intro hcurrent
        obtain ⟨row, hrow, heq⟩ := Stage.mem_toDo_of_current? hcurrent
        obtain ⟨⟨job, hjob, hst, hid⟩, -⟩ := h.pending _ hself row hrow
        have hsame := job_unique hfiling hr hjob (by rw [← heq, ← hid])
        rw [hsame] at hqueued
        simp [hst] at hqueued
      obtain ⟨hrowsOf, hjobsOf⟩ := hledger r hr hne
      obtain ⟨notification, hget, hcomplete⟩ := h.complete r hr hqueued
      refine ⟨notification, hnotifications _ _ hget, ?_⟩
      rw [hrowsOf, hjobsOf]
      exact hcomplete
    · simp [(hextra r hr).1] at hqueued

variable {cfg : Config} {c : Call} {success : Bool}

private theorem Effect.ledger (heffect : Effect cfg s party stage c success stage' s')
    (htraced : Traced s (before ++ (party, stage) :: after))
    (howned : OwnedOnce s (before ++ (party, stage) :: after))
    (hfiling : Filing s (before ++ (party, stage) :: after)) {r : Nat × ScheduledJob}
    (hr : r ∈ s.db.scheduledJobs.rows) (hne : stage.current? ≠ some r.2.notificationID) :
    s'.db.rowsOf r.2.notificationID = s.db.rowsOf r.2.notificationID ∧
      s'.jobsOf r.2.notificationID = s.jobsOf r.2.notificationID := by
  obtain ⟨notification, hcommitted⟩ := hfiling.notified r hr
  have hopen : ∀ tx, stage.tx? = some tx → tx.notification.1 ≠ r.2.notificationID := by
    intro tx htx heq
    have hnone := howned.notification_get? (m := (party, stage)) (by simp) htx
    rw [heq, hcommitted] at hnone
    simp at hnone
  constructor
  · rcases heffect.rowsOf_cases howned with hsame | ⟨tx, htx, -, -, hrows⟩ |
      ⟨row, done, channel, todo, rest, rfl, -, hrows, -⟩
    · exact hsame _
    · have hnil : tx.rowsOf r.2.notificationID = [] := by
        rw [Tx.rowsOf, List.filterMap_eq_nil_iff]
        intro p hp
        have hfiles := Stage.files_tx (hfiling.files (party, stage) (by simp)) htx
        rw [if_neg]
        rw [hfiles.deliveries p hp]
        exact hopen tx htx
      rw [hrows, hnil, List.append_nil]
    · have hother : row.notificationID ≠ r.2.notificationID := by
        intro heq
        exact hne (congrArg some heq)
      rw [hrows, if_neg hother, List.append_nil]
  · rcases heffect.jobsOf_cases with hsame | ⟨n, id, tx, channel, todo, rfl, -, -, hjobs⟩ |
      ⟨row, new, done, channel, todo, rest, rfl, -, -, hjobs⟩
    · exact hsame _
    · have hn : tx.notification.1 = n :=
        htraced.numbered (party, .creating n id tx channel todo true) (by simp)
      rw [hjobs, if_neg (hn ▸ hopen tx rfl), List.append_nil]
    · have hother : row.notificationID ≠ r.2.notificationID := by
        intro heq
        exact hne (congrArg some heq)
      rw [hjobs, if_neg hother, List.append_nil]

private theorem Routed.untouched {row : DueRow} {rest : List DueRow}
    (h : Routed s (before ++ (party, .between (row :: rest)) :: after)) :
    s.db.rowsOf row.notificationID = [] ∧ s.jobsOf row.notificationID = [] := by
  have hrow : row ∈ Stage.toDo (.between (row :: rest)) := by simp [Stage.toDo]
  obtain ⟨⟨job, hjob, hpending, hid⟩, -⟩ := h.pending (party, .between (row :: rest)) (by simp) row hrow
  rw [← hid]
  refine h.clean _ hjob hpending fun m hm hcurrent => ?_
  obtain ⟨row', hrow', hsame⟩ := Stage.mem_toDo_of_current? hcurrent
  simp only [List.mem_append, List.mem_cons] at hm
  rcases hm with hm | rfl | hm
  · exact h.toDo_ne (by simp [hm]) hrow' hrow (hsame.trans hid)
  · simp [Stage.current?] at hcurrent
  · exact h.toDo_ne (by simp [hm]) hrow' hrow (hsame.trans hid)

private theorem Routed.accounts_call (h : Routed s (before ++ (party, stage) :: after))
    (howned : OwnedOnce s (before ++ (party, stage) :: after))
    (heffect : Effect cfg s party stage c success stage' s') : stage'.accounts s' := by
  have hself := h.accounts (party, stage) (by simp)
  cases heffect with
  | scanDue =>
      obtain ⟨hrows, hjobs⟩ := h.untouched
      exact ⟨hrows.trans hjobs.symm, by simp [hjobs], rfl⟩
  | insertDelivery hnew =>
      obtain ⟨hrows, hdone, htodo⟩ := hself
      refine ⟨?_, hdone, htodo⟩
      show Db.rowsOf (s.db.insertDelivery _) _ = s.jobsOf _ ++ _
      rw [Db.rowsOf_insertDelivery howned.get?_nextId, hnew, hrows]
      simp [Db.newDelivery]
  | routeEnsureControl hensure =>
      obtain ⟨controls, next, rfl, -⟩ := Db.ensureControl_cases hensure
      exact hself
  | routePublish hjob =>
      obtain ⟨hrows, hdone, htodo⟩ := hself
      refine ⟨?_, ?_, by simpa using htodo⟩
      · rw [Sys.jobsOf_add]
        simpa [hjob, Notifications.newJob, Party.isConsumer] using hrows
      · rw [Sys.jobsOf_add]
        simp [hjob, Notifications.newJob, Party.isConsumer, hdone]
  | _ => trivial

private theorem Routed.clean_giveUp (h : Routed s (before ++ (party, stage) :: after))
    {f : Reply c → Stage} (hallowed : Allowed cfg party stage c f) (hmid : c.site.midJob = false)
    {n : Nat} (hcurrent : stage.current? = some n) : s.db.rowsOf n = [] ∧ s.jobsOf n = [] := by
  have hself := h.accounts (party, stage) (by simp)
  cases hallowed with
  | @insertDelivery id row done todo channel rest =>
      obtain ⟨hrows, hdone, -⟩ := hself
      obtain rfl : row.notificationID = n := Option.some.inj hcurrent
      have hnone : done = [] := by simpa [Site.midJob] using hmid
      have hjobs : s.jobsOf row.notificationID = [] := by simpa [hnone] using hdone
      exact ⟨hrows.trans hjobs, hjobs⟩
  | routeEnsureControl => simp [Site.midJob] at hmid
  | routePublish => simp [Site.midJob] at hmid
  | markRouted => simp [Site.midJob] at hmid
  | commit hstage => rcases hstage with ⟨_, rfl⟩ | rfl <;> simp [Stage.current?] at hcurrent
  | _ => simp [Stage.current?] at hcurrent

private theorem Effect.route_cases (h : Effect cfg s party stage c success stage' s') :
    (∃ id, party = .pass id ∧ stage = .passing ∧ stage' = .between s.db.dueRows ∧
      c.site = .select ∧ success = true ∧ s' = { s with selected := s.selected ++ [(id, s.db)] }) ∨
    (∃ row done rest, stage = .routing row done [] rest ∧ stage' = .between rest ∧
      s' = { s with db := s.db.markRouted row.jobID }) ∨
    (s'.selected = s.selected ∧ stage'.toDo.Sublist stage.toDo ∧
      (∀ n, stage.current? = some n → stage'.current? = some n ∨
        success = false ∧ s' = s ∧ ∃ f, Allowed cfg party stage c f) ∧
      (s'.db.scheduledJobs = s.db.scheduledJobs ∨
        ∃ tx, stage.tx? = some tx ∧ s' = { s with db := s.db.commit tx })) := by
  cases h with
  | selectDue => exact .inl ⟨_, rfl, rfl, rfl, rfl, rfl, rfl⟩
  | markRouted => exact .inr (.inl ⟨_, _, _, rfl, rfl, rfl⟩)
  | getControl _ _ hget =>
      obtain ⟨controls, next, rfl, -⟩ := Db.getControl_cases hget
      exact .inr (.inr ⟨rfl, .slnil, by simp [Stage.current?], .inl rfl⟩)
  | write _ _ hdb =>
      rcases Db.updateDelivery_cases hdb with ⟨-, rfl⟩ | ⟨_, _, -, -, rfl⟩ <;>
        exact .inr (.inr ⟨rfl, .slnil, by simp [Stage.current?], .inl rfl⟩)
  | insertAttempt _ hdb =>
      obtain ⟨-, attempts, rfl⟩ := Db.insertAttempt_cases hdb
      exact .inr (.inr ⟨rfl, .slnil, by simp [Stage.current?], .inl rfl⟩)
  | requeue _ =>
      split <;> exact .inr (.inr ⟨rfl, .slnil, by simp [Stage.current?], .inl rfl⟩)
  | sendEnsureControl hensure =>
      obtain ⟨controls, next, rfl, -⟩ := Db.ensureControl_cases hensure
      exact .inr (.inr ⟨rfl, .slnil, by simp [Stage.current?], .inl rfl⟩)
  | routeEnsureControl hensure =>
      obtain ⟨controls, next, rfl, -⟩ := Db.ensureControl_cases hensure
      exact .inr (.inr ⟨rfl, .refl _, fun n hn => .inl hn, .inl rfl⟩)
  | commit hstage =>
      refine .inr (.inr ⟨rfl, by simp [Stage.toDo], fun n hn => ?_, .inr ⟨_, ?_, rfl⟩⟩)
      · rcases hstage with ⟨_, rfl⟩ | rfl <;> simp [Stage.current?] at hn
      · rcases hstage with ⟨_, rfl⟩ | rfl <;> rfl
  | scanDue => exact .inr (.inr ⟨rfl, .refl _, by simp [Stage.current?], .inl rfl⟩)
  | insertDelivery _ => exact .inr (.inr ⟨rfl, .refl _, fun n hn => .inl hn, .inl rfl⟩)
  | routePublish _ => exact .inr (.inr ⟨rfl, .refl _, fun n hn => .inl hn, .inl rfl⟩)
  | giveUp hallowed _ =>
      exact .inr (.inr ⟨rfl, by simp [Stage.toDo], fun n hn => .inr ⟨rfl, rfl, _, hallowed⟩, .inl rfl⟩)
  | _ => exact .inr (.inr ⟨rfl, by simp [Stage.toDo], by simp [Stage.current?], .inl rfl⟩)

private theorem routed_between
    (hK : Traced s (before ++ (party, stage) :: after) ∧
      OwnedOnce s (before ++ (party, stage) :: after))
    (hfiling : Filing s (before ++ (party, stage) :: after))
    (h : Routed s (before ++ (party, stage) :: after))
    (heffect : Effect cfg s party stage c success stage' s')
    (hmid : c.site.midJob = true → success = true) (hselected : s'.selected = s.selected)
    (htoDo : stage'.toDo.Sublist stage.toDo)
    (hcurrent : ∀ n, stage.current? = some n → stage'.current? = some n ∨
      success = false ∧ s' = s ∧ ∃ f, Allowed cfg party stage c f)
    (hjobs : s'.db.scheduledJobs = s.db.scheduledJobs ∨
      ∃ tx, stage.tx? = some tx ∧ s' = { s with db := s.db.commit tx }) :
    Routed s' (before ++ (party, stage') :: after) := by
  obtain ⟨htraced, howned⟩ := hK
  have hfiled : ∃ extra, s'.db.scheduledJobs.rows = s.db.scheduledJobs.rows ++ extra ∧
      ∀ r ∈ extra, r.2.status = .pending ∧ s'.db.rowsOf r.2.notificationID = [] ∧
        s'.jobsOf r.2.notificationID = [] := by
    rcases hjobs with hsame | ⟨tx, htx, rfl⟩
    · exact ⟨[], by simp [hsame], by simp⟩
    · refine ⟨tx.job.toList, (howned.commit_rows htx).2.2, fun r hr => ?_⟩
      have hfiles := Stage.files_tx (hfiling.files (party, stage) (by simp)) htx
      obtain ⟨hn, hpending, hnone⟩ := hfiles.job r (by simpa using hr)
      refine ⟨hpending, ?_, ?_⟩
      · have hold : s.db.rowsOf tx.notification.1 = [] := by
          by_contra hrows
          obtain ⟨row, hrow⟩ := hfiling.delivered _ hrows
          have hopen := howned.notification_get? (m := (party, stage)) (by simp) htx
          rw [hrow] at hopen
          simp at hopen
        simp only [Db.rowsOf] at hold ⊢
        rw [(howned.commit_rows htx).2.1, List.filterMap_append, hnone, hn, hold]
        rfl
      · rw [hn]
        exact hfiles.unpublished hnone
  obtain ⟨extra, hrows, hextra⟩ := hfiled
  refine routed_step hfiling h extra hrows hextra (fun n row => heffect.notifications_mono)
    hselected htoDo (fun r hr hne => heffect.ledger htraced howned hfiling hr hne)
    (h.accounts_call howned heffect) ?_
  intro n hn hleft
  rcases hcurrent n hn with hstays | ⟨hfailed, rfl, f, hallowed⟩
  · exact absurd hstays hleft
  · refine h.clean_giveUp hallowed ?_ hn
    by_contra hsite
    have hsuccess := hmid (by simpa using hsite)
    simp [hfailed] at hsuccess

private theorem routed_mark {row : DueRow} {done : List String} {rest : List DueRow}
    (hfiling : Filing s (before ++ (party, .routing row done [] rest) :: after))
    (h : Routed s (before ++ (party, .routing row done [] rest) :: after)) :
    Routed { s with db := s.db.markRouted row.jobID }
      (before ++ (party, .between rest) :: after) := by
  have hself : (party, Stage.routing row done [] rest) ∈
      before ++ (party, .routing row done [] rest) :: after := by simp
  have hrow : row ∈ Stage.toDo (.routing row done [] rest) := by simp [Stage.toDo]
  obtain ⟨⟨job, hjob, hpending, hid⟩, notification, hnotification, hchannels⟩ :=
    h.pending _ hself row hrow
  have hdistinct : ((before ++ (party, .between rest) :: after).flatMap fun m =>
      m.2.toDo).Sublist
        ((before ++ (party, .routing row done [] rest) :: after).flatMap fun m => m.2.toDo) := by
    simp only [List.flatMap_append, List.flatMap_cons]
    exact (List.Sublist.refl _).append ((List.sublist_cons_self row rest).append (.refl _))
  have hold : ∀ m ∈ before ++ (party, .between rest) :: after, ∀ row' ∈ m.2.toDo,
      (∃ m₀ ∈ before ++ (party, .routing row done [] rest) :: after, m₀.1 = m.1 ∧
        row' ∈ m₀.2.toDo) ∧ row'.notificationID ≠ row.notificationID := by
    intro m hm row' hrow'
    simp only [List.mem_append, List.mem_cons] at hm
    rcases hm with hm | rfl | hm
    · exact ⟨⟨m, by simp [hm], rfl, hrow'⟩, h.toDo_ne (by simp [hm]) hrow' hrow⟩
    · refine ⟨⟨_, hself, rfl, List.mem_cons_of_mem _ hrow'⟩, ?_⟩
      have hmine : ((Stage.toDo (.routing row done [] rest)).map DueRow.notificationID).Nodup := by
        refine h.distinct.sublist (List.Sublist.map _ ?_)
        simp only [List.flatMap_append, List.flatMap_cons]
        exact (List.sublist_append_left _ _).trans (List.sublist_append_right _ _)
      intro heq
      exact (List.nodup_cons.mp hmine).1 (heq ▸ List.mem_map_of_mem hrow')
    · exact ⟨⟨m, by simp [hm], rfl, hrow'⟩, h.toDo_ne (by simp [hm]) hrow' hrow⟩
  have hunmarked : ∀ r ∈ (s.db.markRouted row.jobID).scheduledJobs.rows,
      ∃ old, (r.1, old) ∈ s.db.scheduledJobs.rows ∧ old.notificationID = r.2.notificationID ∧
        (r.1 = row.jobID ∧ r.2.status = .queued ∨ r.1 ≠ row.jobID ∧ r.2 = old) := by
    intro r hr
    obtain ⟨old, hmem, hnew⟩ := Table.mem_rows_modify hr
    by_cases hkey : r.1 = row.jobID
    · rw [if_pos hkey] at hnew
      exact ⟨old, hmem, by rw [hnew], .inl ⟨hkey, by rw [hnew]⟩⟩
    · rw [if_neg hkey] at hnew
      exact ⟨old, hmem, by rw [hnew], .inr ⟨hkey, hnew⟩⟩
  constructor
  · exact h.distinct.sublist (hdistinct.map _)
  · intro m hm row' hrow'
    obtain ⟨⟨m₀, hm₀, hparty, hrow₀⟩, -⟩ := hold m hm row' hrow'
    rw [← hparty]
    exact h.selected m₀ hm₀ row' hrow₀
  · intro m hm row' hrow'
    obtain ⟨⟨m₀, hm₀, -, hrow₀⟩, hne⟩ := hold m hm row' hrow'
    obtain ⟨⟨job', hjob', hst, hid'⟩, hrest⟩ := h.pending m₀ hm₀ row' hrow₀
    refine ⟨⟨job', ?_, hst, hid'⟩, hrest⟩
    have hkey : row'.jobID ≠ row.jobID := by
      intro heq
      have hget := Table.get?_eq_some.mpr hjob'
      rw [heq, Table.get?_eq_some.mpr hjob] at hget
      rw [Option.some.inj hget] at hid
      exact hne (hid'.symm.trans hid)
    apply Table.get?_eq_some.mp
    rw [Db.markRouted_scheduledJobs, Table.get?_modify_ne _ _ hkey]
    exact Table.get?_eq_some.mpr hjob'
  · intro m hm
    simp only [List.mem_append, List.mem_cons] at hm
    rcases hm with hm | rfl | hm
    · exact accounts_congr (fun _ _ => ⟨rfl, rfl⟩) (h.accounts m (by simp [hm]))
    · trivial
    · exact accounts_congr (fun _ _ => ⟨rfl, rfl⟩) (h.accounts m (by simp [hm]))
  · intro r hr hst hcurrent
    obtain ⟨old, hmem, hsame, ⟨-, hqueued⟩ | ⟨hkey, hnew⟩⟩ := hunmarked r hr
    · simp [hqueued] at hst
    · have hclean := h.clean (r.1, old) hmem (hnew ▸ hst) fun m hm => by
        simp only [List.mem_append, List.mem_cons] at hm
        rcases hm with hm | rfl | hm
        · exact hsame ▸ hcurrent m (by simp [hm])
        · intro heq
          have hn : row.notificationID = old.notificationID := Option.some.inj heq
          have hentry := job_unique hfiling hjob hmem (hid.trans hn)
          exact hkey (congrArg Prod.fst hentry).symm
        · exact hsame ▸ hcurrent m (by simp [hm])
      rw [← hsame]
      exact hclean
  · intro r hr hst
    obtain ⟨old, hmem, hsame, ⟨hkey, -⟩ | ⟨-, hnew⟩⟩ := hunmarked r hr
    · have hget := Table.get?_eq_some.mpr hmem
      rw [hkey, Table.get?_eq_some.mpr hjob] at hget
      have hn : r.2.notificationID = row.notificationID := by
        rw [← hsame, ← Option.some.inj hget, hid]
      obtain ⟨hrows, hdone, htodo⟩ := h.accounts _ hself
      rw [hn]
      refine ⟨notification, hnotification, hrows, ?_⟩
      rw [hchannels, ← htodo, List.append_nil]
      exact hdone
    · rw [← hsame]
      exact h.complete (r.1, old) hmem (hnew ▸ hst)

private theorem pendingIn_of_due {db : Db} {row : DueRow} (h : row ∈ db.dueRows) :
    row.PendingIn db := by
  obtain ⟨⟨id, job⟩, hjob, hdue⟩ := Db.mem_dueRows h
  obtain ⟨hpending, -, notification, hget, rfl⟩ := Db.dueRow?_eq_some hdue
  exact ⟨⟨job, hjob, hpending, rfl⟩, notification, hget, rfl⟩

private theorem dueRows_nodup {ms : Members} (hfiling : Filing s ms) :
    (s.db.dueRows.map DueRow.notificationID).Nodup := by
  have hsublist : ∀ entries : List (Nat × ScheduledJob),
      ((entries.filterMap s.db.dueRow?).map DueRow.notificationID).Sublist
        (entries.map fun r => r.2.notificationID) := by
    intro entries
    induction entries with
    | nil => exact .slnil
    | cons entry entries ih =>
        rw [List.filterMap_cons]
        cases hdue : s.db.dueRow? entry with
        | none => exact ih.cons _
        | some row =>
            simp only [List.map_cons, (Db.dueRow?_notification hdue).1]
            exact ih.cons_cons _
  refine List.Nodup.sublist ((List.take_sublist 100 _).map _) ?_
  have hperm := (List.perm_insertionSort (fun a b : DueRow => a.dueAt ≤ b.dueAt)
    (s.db.scheduledJobs.rows.filterMap s.db.dueRow?)).map DueRow.notificationID
  exact hperm.nodup_iff.mpr (hfiling.jobs.sublist (hsublist _))

private theorem routed_select {id : Nat}
    (hfiling : Filing s (before ++ (.pass id, .passing) :: after))
    (h : Routed s (before ++ (.pass id, .passing) :: after))
    (hunread : ∀ m ∈ before ++ after, ∀ row' ∈ m.2.toDo, ∀ row ∈ s.db.dueRows,
      row.jobID ≠ row'.jobID) :
    Routed { s with selected := s.selected ++ [(id, s.db)] }
      (before ++ (.pass id, .between s.db.dueRows) :: after) := by
  have hmem : ∀ m ∈ before ++ after, m ∈ before ++ (.pass id, .passing) :: after := by
    intro m hm
    simp only [List.mem_append, List.mem_cons] at hm ⊢
    tauto
  have hsplit : ∀ m ∈ before ++ (.pass id, .between s.db.dueRows) :: after,
      m ∈ before ++ after ∨ m = (.pass id, .between s.db.dueRows) := by
    intro m hm
    simp only [List.mem_append, List.mem_cons] at hm ⊢
    tauto
  constructor
  · have hperm : (before ++ (Party.pass id, Stage.between s.db.dueRows) :: after).Perm
        ((.pass id, .between s.db.dueRows) :: (before ++ after)) := List.perm_middle
    have hothers : (((before ++ after).flatMap fun m => m.2.toDo).map
        DueRow.notificationID).Nodup := by
      refine h.distinct.sublist (List.Sublist.map _ ?_)
      simp only [List.flatMap_append, List.flatMap_cons, Stage.toDo, List.nil_append]
      exact .refl _
    refine ((hperm.flatMap_right fun m => m.2.toDo).map DueRow.notificationID).nodup_iff.mpr ?_
    rw [List.flatMap_cons, List.map_append, List.nodup_append]
    refine ⟨dueRows_nodup hfiling, hothers, fun n hn n' hn' heq => ?_⟩
    obtain ⟨row, hrow, rfl⟩ := List.mem_map.mp hn
    obtain ⟨row', hrow', rfl⟩ := List.mem_map.mp hn'
    obtain ⟨m, hm, hrow'⟩ := List.mem_flatMap.mp hrow'
    obtain ⟨⟨job, hjob, -, hid⟩, -⟩ := pendingIn_of_due hrow
    obtain ⟨⟨job', hjob', -, hid'⟩, -⟩ := h.pending m (hmem m hm) row' hrow'
    have hentry := job_unique hfiling hjob hjob' (by rw [hid, hid', heq])
    exact hunread m hm row' hrow' row hrow (congrArg Prod.fst hentry)
  · intro m hm row hrow
    rcases hsplit m hm with hm | rfl
    · obtain ⟨id', db, hparty, hselected, hdue⟩ := h.selected m (hmem m hm) row hrow
      exact ⟨id', db, hparty, List.mem_append_left _ hselected, hdue⟩
    · exact ⟨id, s.db, rfl, by simp, hrow⟩
  · intro m hm row hrow
    rcases hsplit m hm with hm | rfl
    · exact h.pending m (hmem m hm) row hrow
    · exact pendingIn_of_due hrow
  · intro m hm
    rcases hsplit m hm with hm | rfl
    · exact accounts_congr (fun _ _ => ⟨rfl, rfl⟩) (h.accounts m (hmem m hm))
    · trivial
  · intro r hr hpending hcurrent
    refine h.clean r hr hpending fun m hm => ?_
    simp only [List.mem_append, List.mem_cons] at hm
    rcases hm with hm | rfl | hm
    · exact hcurrent m (by simp [hm])
    · simp [Stage.current?]
    · exact hcurrent m (by simp [hm])
  · exact h.complete

end

private theorem passing_of_toDo {cfg : Config} {w : World} {ms : Members}
    (hal : Aligned cfg ms w.threads) {m : Party × Stage} (hm : m ∈ ms) {id : Nat}
    (hparty : m.1 = .pass id) {row : DueRow} (hrow : row ∈ m.2.toDo) : w.passing id = true := by
  obtain ⟨before, after, rfl⟩ := List.append_of_mem hm
  obtain ⟨_, th, _, hthreads, -, ⟨hsame, hkeeps⟩, -⟩ := exists_split_of_forall₂_append hal
  rw [World.passing, List.any_eq_true]
  refine ⟨th, by simp [hthreads], ?_⟩
  rw [← hsame, hparty]
  cases hprog : th.prog with
  | call c k => simp
  | ret a =>
      rw [hprog] at hkeeps
      have hended : m.2.ended = true := hkeeps
      obtain ⟨party, stage⟩ := m
      cases stage with
      | between rows =>
          cases rows with
          | nil => simp [Stage.toDo] at hrow
          | cons _ _ => simp [Stage.ended] at hended
      | routing _ _ _ _ => simp [Stage.ended] at hended
      | adding _ _ _ _ _ _ _ => simp [Stage.ended] at hended
      | _ => simp [Stage.toDo] at hrow

private theorem routed_same {s s' : Sys} {ms ms' : Members} (h : Routed s ms)
    (hjobs : s'.db.scheduledJobs = s.db.scheduledJobs)
    (hnotifications : s'.db.notifications = s.db.notifications)
    (hdeliveries : s'.db.deliveries = s.db.deliveries) (hpublished : s'.published = s.published)
    (hselected : s'.selected = s.selected)
    (htoDo : (ms'.flatMap fun m => m.2.toDo) = ms.flatMap fun m => m.2.toDo)
    (hms' : ∀ m ∈ ms', m ∈ ms ∨ m.2.toDo = [])
    (hms : ∀ m ∈ ms, m ∈ ms' ∨ m.2.toDo = []) : Routed s' ms' := by
  have hrowsOf : ∀ n, s'.db.rowsOf n = s.db.rowsOf n := by
    intro n
    rw [Db.rowsOf, hdeliveries, Db.rowsOf]
  have hjobsOf : ∀ n, s'.jobsOf n = s.jobsOf n := by
    intro n
    rw [Sys.jobsOf, hpublished, Sys.jobsOf]
  have hidle : ∀ {m : Party × Stage}, m.2.toDo = [] → m.2.current? = none := by
    intro m hm
    by_contra hcurrent
    obtain ⟨n, hn⟩ := Option.ne_none_iff_exists'.mp hcurrent
    obtain ⟨row, hrow, -⟩ := Stage.mem_toDo_of_current? hn
    simp [hm] at hrow
  constructor
  · rw [htoDo]
    exact h.distinct
  · intro m hm row hrow
    rcases hms' m hm with hold | hnil
    · rw [hselected]
      exact h.selected m hold row hrow
    · simp [hnil] at hrow
  · intro m hm row hrow
    rcases hms' m hm with hold | hnil
    · obtain ⟨hjob, hchannels⟩ := h.pending m hold row hrow
      exact ⟨by rwa [hjobs], by rwa [hnotifications]⟩
    · simp [hnil] at hrow
  · intro m hm
    rcases hms' m hm with hold | hnil
    · exact accounts_congr (fun n _ => ⟨hrowsOf n, hjobsOf n⟩) (h.accounts m hold)
    · obtain ⟨party, stage⟩ := m
      cases stage with
      | routing _ _ _ _ => simp [Stage.toDo] at hnil
      | adding _ _ _ _ _ _ _ => simp [Stage.toDo] at hnil
      | _ => trivial
  · intro r hr hpending hcurrent
    rw [hrowsOf, hjobsOf]
    refine h.clean r (hjobs ▸ hr) hpending fun m hm => ?_
    rcases hms m hm with hnew | hnil
    · exact hcurrent m hnew
    · simp [hidle hnil]
  · intro r hr hqueued
    obtain ⟨notification, hget, hcomplete⟩ := h.complete r (hjobs ▸ hr) hqueued
    refine ⟨notification, by rw [hnotifications]; exact hget, ?_⟩
    rw [hrowsOf, hjobsOf]
    exact hcomplete

theorem routed_inductive (cfg : Config) : Inductive cfg (RoutesApart cfg)
    (fun s ms => (Traced s ms ∧ OwnedOnce s ms) ∧ Filing s ms) Routed where
  call := by
    intro w before after party stage stage' c o success s' hal hok hsuccess heffect hK h
    obtain ⟨hK, hfiling⟩ := hK
    obtain ⟨hmid, hselect⟩ := hok
    rw [hsuccess] at hmid hselect
    rcases heffect.route_cases with ⟨id, rfl, rfl, rfl, hsite, hdone, rfl⟩ |
      ⟨row, done, rest, rfl, rfl, rfl⟩ | ⟨hselected, htoDo, hcurrent, hjobs⟩
    · refine routed_select hfiling h fun m hm row' hrow' row hrow => ?_
      have hm' : m ∈ before ++ (Party.pass id, Stage.passing) :: after := by
        simp only [List.mem_append, List.mem_cons] at hm ⊢
        tauto
      obtain ⟨id', db, hparty, hmem, hdue⟩ := h.selected m hm' row' hrow'
      have hpassing := passing_of_toDo hal hm' hparty hrow'
      have hunread := List.all_eq_true.mp (hselect hsite hdone) (id', db) hmem
      simp only [hpassing, Bool.not_true, Bool.false_or] at hunread
      have hne := List.all_eq_true.mp (List.all_eq_true.mp hunread row hrow) row' hdue
      exact bne_iff_ne.mp hne
    · exact routed_mark hfiling h
    · exact routed_between hK hfiling h heffect hmid hselected htoDo hcurrent hjobs
  request := by
    intro w ms t req _ _ _ h
    refine routed_same h rfl rfl rfl rfl rfl (by simp [Stage.toDo]) ?_ fun m hm => .inl (by simp [hm])
    intro m hm
    refine (List.mem_append.mp hm).imp id fun hm => ?_
    rw [List.mem_singleton.mp hm]
    rfl
  tick := by
    intro w ms _ _ _ h
    refine routed_same h rfl rfl rfl rfl rfl (by simp [Stage.toDo]) ?_ fun m hm => .inl (by simp [hm])
    intro m hm
    refine (List.mem_append.mp hm).imp id fun hm => ?_
    rw [List.mem_singleton.mp hm]
    rfl
  deliver := by
    intro w ms i m _ _ _ _ h
    refine routed_same h rfl rfl rfl rfl rfl (by simp [Stage.toDo]) ?_ fun x hx => .inl (by simp [hx])
    intro x hx
    refine (List.mem_append.mp hx).imp id fun hx => ?_
    rw [List.mem_singleton.mp hx]
    rfl
  admin := by
    intro w ms a _ _ _ h
    cases a <;> exact routed_same h rfl rfl rfl rfl rfl rfl (fun m hm => .inl hm) fun m hm => .inl hm
  clock := by
    intro w ms now _ _ _ _ h
    exact routed_same h rfl rfl rfl rfl rfl rfl (fun m hm => .inl hm) fun m hm => .inl hm
  crash := by
    intro w before after party stage _ hok _ h
    -- a pass does not crash, and no one else has jobs on a list
    have hnil : stage.toDo = [] := by
      by_contra hne
      obtain ⟨row, hrow⟩ := List.exists_mem_of_ne_nil _ hne
      obtain ⟨id, db, hparty, -⟩ := h.selected (party, stage) (by simp) row hrow
      rw [show party = .pass id from hparty] at hok
      exact hok
    have hover : Stage.over.toDo = [] := rfl
    refine routed_same h rfl rfl rfl rfl rfl (by simp [hnil, hover]) ?_ ?_
    · intro m hm
      simp only [List.mem_append, List.mem_cons] at hm
      rcases hm with hm | rfl | hm
      · exact .inl (by simp [hm])
      · exact .inr rfl
      · exact .inl (by simp [hm])
    · intro m hm
      simp only [List.mem_append, List.mem_cons] at hm
      rcases hm with hm | rfl | hm
      · exact .inl (by simp [hm])
      · exact .inr hnil
      · exact .inl (by simp [hm])
  requeue := by
    intro w ms d _ _ _ _ h
    exact routed_same h rfl rfl rfl rfl rfl rfl (fun m hm => .inl hm) fun m hm => .inl hm

/-- A scheduled job that is marked queued has one delivery and one published job for each channel
of its notification, in every run in which passes do not overlap on a job and none fails between
the first delivery of a job and its mark. -/
theorem scheduled_jobs_routed_once {cfg : Config} {w₀ w : World} {es : List Event}
    (hfresh : w₀.Fresh) (hrun : w₀.RunOf cfg (RoutesApart cfg) es w) {jobID : Nat}
    {job : ScheduledJob} (hjob : w.sys.db.scheduledJobs.get? jobID = some job)
    (hqueued : job.status = .queued) : w.sys.RoutedOnce job.notificationID := by
  have hK := (traced_inductive cfg).and ((ownedOnce_inductive cfg).given fun _ _ _ => trivial)
  have hfiling : Inductive cfg (RoutesApart cfg) Anything
      (fun s ms => (Traced s ms ∧ OwnedOnce s ms) ∧ Filing s ms) :=
    (hK.and (filing_inductive cfg)).mono fun _ _ _ => trivial
  have hall := hfiling.and (routed_inductive cfg)
  have hstart : Routed w₀.sys [] := by
    constructor <;> simp [hfresh.scheduledJobs]
  obtain ⟨ms, -, -, hrouted⟩ := hall.reachable hfresh hrun
    ⟨⟨⟨traced_fresh hfresh, ownedOnce_fresh hfresh⟩, filing_fresh hfresh⟩, hstart⟩
  exact hrouted.complete (jobID, job) (Table.get?_eq_some.mp hjob) hqueued

/-- A request for two channels, a pass of which the first insertion fails, and a pass that
routes the job. -/
theorem routed_once_after_failure : ∃ w job,
    sampleWorld.RunOf (sampleConfig 3) (RoutesApart (sampleConfig 3))
      (List.flatten [[.request 1 "t1" (sampleRequest ["email", "sms"]
        ⟨"scheduled", "2026-06-28T10:00:00Z"⟩ "")], steps 0 11, [.clock 10, .tick], steps 1 2,
        [failure 1], [.tick], steps 2 9]) w ∧
    w.sys.db.scheduledJobs.get? 1 = some job ∧ job.status = .queued ∧
      w.sys.RoutedOnce job.notificationID := by
  obtain ⟨w, hrun, hw⟩ := World.exists_run (sampleConfig 3) (RoutesApart (sampleConfig 3))
    sampleWorld (List.flatten [[.request 1 "t1" (sampleRequest ["email", "sms"]
      ⟨"scheduled", "2026-06-28T10:00:00Z"⟩ "")], steps 0 11, [.clock 10, .tick], steps 1 2,
      [failure 1], [.tick], steps 2 9])
    (fun w => (w.sys.db.scheduledJobs.get? 1).any fun job => job.status == .queued)
    (by decide +kernel)
  obtain ⟨job, hjob, hqueued⟩ := (Option.any_eq_true _ _).mp hw
  exact ⟨w, job, hrun, hjob, beq_iff_eq.mp hqueued,
    scheduled_jobs_routed_once sampleWorld_fresh hrun hjob (beq_iff_eq.mp hqueued)⟩

def FailuresOnly (_ : World) : World.Label → Prop
  | .crash _ | .requeue => False
  | _ => True

instance (w : World) : (l : World.Label) → Decidable (FailuresOnly w l)
  | .crash _ | .requeue => inferInstanceAs (Decidable False)
  | .call _ _ _ | .deliver _ | .request _ _ | .tick | .admin _ | .clock | .none =>
      inferInstanceAs (Decidable True)

/-- The mark of a job fails, and the next pass routes the job again. -/
theorem routed_twice_after_failed_mark : ¬∀ (cfg : Config) (w₀ w : World) (es : List Event),
    w₀.Fresh → w₀.RunOf cfg FailuresOnly es w → ∀ (jobID : Nat) (job : ScheduledJob),
    w.sys.db.scheduledJobs.get? jobID = some job → job.status = .queued →
      w.sys.RoutedOnce job.notificationID := by
  intro hclaim
  obtain ⟨w, hrun, hw⟩ := World.exists_run (sampleConfig 3) FailuresOnly sampleWorld
    (List.flatten [[.request 1 "t1" (sampleRequest ["email"]
      ⟨"scheduled", "2026-06-28T10:00:00Z"⟩ "")], steps 0 8, [.clock 10, .tick], steps 1 5,
      [failure 1], [.tick], steps 2 6])
    (fun w => (w.sys.db.scheduledJobs.get? 1).any fun job => job.status == .queued &&
      (w.sys.db.notifications.get? job.notificationID).any fun notification =>
        (w.sys.jobsOf job.notificationID).length != notification.channelList.length)
    (by decide +kernel)
  obtain ⟨job, hjob, hqueued⟩ := (Option.any_eq_true _ _).mp hw
  obtain ⟨hqueued, hlength⟩ := Bool.and_eq_true_iff.mp hqueued
  obtain ⟨notification, hget, -, hchannels⟩ := hclaim (sampleConfig 3) sampleWorld w _
    sampleWorld_fresh hrun 1 job hjob (beq_iff_eq.mp hqueued)
  rw [hget, Option.any_some, ← hchannels] at hlength
  simp at hlength

end NotificationPlatform

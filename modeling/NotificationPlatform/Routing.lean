import NotificationPlatform.Submission

/-!
# The deliveries of a scheduled job

A scheduled job has a notification of its own, and until a pass routes it there is neither a
delivery nor a published job of that notification.
-/

namespace NotificationPlatform

open Lib

def Party.isConsumer : Party → Bool
  | .consumer _ => true
  | _ => false

def Db.rowsOf (db : Db) (n : Nat) : List (Nat × String) :=
  db.deliveries.rows.filterMap fun r =>
    if r.2.notificationID = n then some (r.1, r.2.channel) else none

/-- The jobs first published for notification `n`: their deliveries and channels. -/
def Sys.jobsOf (s : Sys) (n : Nat) : List (Nat × String) :=
  s.published.filterMap fun p =>
    if p.party.isConsumer = false ∧ p.job.notificationID = n then
      some (p.job.deliveryID, p.job.channel) else none

structure Tx.Files (s : Sys) (tx : Tx) : Prop where
  deliveries : ∀ p ∈ tx.deliveries, p.2.notificationID = tx.notification.1
  job : ∀ e ∈ tx.job, e.2.notificationID = tx.notification.1 ∧ e.2.status = .pending ∧
    tx.deliveries = []
  unpublished : tx.deliveries = [] → s.jobsOf tx.notification.1 = []

def Stage.files (s : Sys) : Stage → Prop
  | .open _ tx _ => tx.Files s ∧ tx.job = none
  | .creating _ _ tx _ _ _ => tx.Files s ∧ tx.job = none ∧ tx.deliveries ≠ []
  | .filed tx => tx.Files s
  | _ => True

def Stage.toDo : Stage → List DueRow
  | .between rows => rows
  | .routing row _ _ rest => row :: rest
  | .adding row _ _ _ _ rest _ => row :: rest
  | _ => []

/-- Scheduled jobs and deliveries belong to committed notifications, no two jobs to one. -/
structure Filing (s : Sys) (ms : Members) : Prop where
  jobs : (s.db.scheduledJobs.rows.map fun r => r.2.notificationID).Nodup
  notified : ∀ r ∈ s.db.scheduledJobs.rows,
    ∃ row, s.db.notifications.get? r.2.notificationID = some row
  delivered : ∀ n, s.db.rowsOf n ≠ [] → ∃ row, s.db.notifications.get? n = some row
  due : ∀ m ∈ ms, ∀ row ∈ m.2.toDo,
    ∃ notification, s.db.notifications.get? row.notificationID = some notification
  files : ∀ m ∈ ms, m.2.files s

section

variable {cfg : Config} {s s' : Sys} {before after : Members} {party : Party}
  {stage stage' : Stage} {c : Call} {success : Bool} {n : Nat}

theorem Sys.jobsOf_add (party : Party) (q : Queue) (job : Job) (n : Nat) :
    (s.addPublication party q job).jobsOf n = s.jobsOf n ++
      if party.isConsumer = false ∧ job.notificationID = n then
        [(job.deliveryID, job.channel)] else [] := by
  simp only [Sys.jobsOf, Sys.addPublication_published, List.filterMap_append]
  by_cases h : party.isConsumer = false ∧ job.notificationID = n <;> simp [h]

theorem Db.rowsOf_insertDelivery {db : Db} (hnext : db.deliveries.get? db.nextId = none)
    (row : DeliveryRow) (n : Nat) :
    (db.insertDelivery row).rowsOf n =
      db.rowsOf n ++ if row.notificationID = n then [(db.nextId, row.channel)] else [] := by
  simp only [Db.rowsOf, Db.insertDelivery_deliveries, Table.rows_insert hnext,
    List.filterMap_append]
  by_cases h : row.notificationID = n <;> simp [h]

theorem Effect.jobsOf_cases (h : Effect cfg s party stage c success stage' s') :
    (∀ n, s'.jobsOf n = s.jobsOf n) ∨
    (∃ m id tx channel todo, stage = .creating m id tx channel todo true ∧
      stage' = .open m tx todo ∧ s'.db = s.db ∧
      ∀ n, s'.jobsOf n = s.jobsOf n ++ if m = n then [(id, channel)] else []) ∨
    ∃ row new done channel todo rest, stage = .adding row new done channel todo rest true ∧
      stage' = .routing row (done ++ [channel]) todo rest ∧ s'.db = s.db ∧
      ∀ n, s'.jobsOf n = s.jobsOf n ++
        if row.notificationID = n then [(new, channel)] else [] := by
  cases h with
  | requeue _ => exact .inl fun n => by split <;> rfl
  | republish _ _ => exact .inl fun n => by simp [Sys.jobsOf_add, Party.isConsumer]
  | sendPublish hjob =>
      refine .inr (.inl ⟨_, _, _, _, _, rfl, rfl, rfl, fun n => ?_⟩)
      simp [Sys.jobsOf_add, Party.isConsumer, hjob, Notifications.newJob]
  | routePublish hjob =>
      refine .inr (.inr ⟨_, _, _, _, _, _, rfl, rfl, rfl, fun n => ?_⟩)
      simp [Sys.jobsOf_add, Party.isConsumer, hjob, Notifications.newJob]
  | _ => exact .inl fun n => rfl

private theorem Writes.owner {d : Delivery} {job : Job} {now : Nat} {phase onOk onError : Phase}
    {c : Call} {f : DeliveryRow → Option DeliveryRow} {row row' : DeliveryRow}
    (h : Writes cfg d job now phase c f onOk onError) (hf : f row = some row') :
    row'.notificationID = row.notificationID ∧ row'.channel = row.channel := by
  cases h with
  | sending =>
      obtain rfl := Option.some.inj hf
      exact ⟨rfl, rfl⟩
  | result r =>
      obtain rfl := Option.some.inj hf
      exact ⟨rfl, rfl⟩
  | _ =>
      obtain ⟨response, -, rfl⟩ := Option.map_eq_some_iff.mp hf
      exact ⟨rfl, rfl⟩

def Tx.rowsOf (tx : Tx) (n : Nat) : List (Nat × String) :=
  tx.deliveries.filterMap fun r =>
    if r.2.notificationID = n then some (r.1, r.2.channel) else none

theorem Effect.rowsOf_cases (h : Effect cfg s party stage c success stage' s')
    (howned : OwnedOnce s (before ++ (party, stage) :: after)) :
    (∀ n, s'.db.rowsOf n = s.db.rowsOf n) ∨
    (∃ tx, stage.tx? = some tx ∧ stage' = .over ∧ s' = { s with db := s.db.commit tx } ∧
      ∀ n, s'.db.rowsOf n = s.db.rowsOf n ++ tx.rowsOf n) ∨
    ∃ row done channel todo rest, stage = .routing row done (channel :: todo) rest ∧
      stage' = .adding row s.db.nextId done channel todo rest false ∧
      (∀ n, s'.db.rowsOf n = s.db.rowsOf n ++
        if row.notificationID = n then [(s.db.nextId, channel)] else []) ∧
      ∀ n, s'.jobsOf n = s.jobsOf n := by
  cases h with
  | getControl _ _ hget =>
      obtain ⟨controls, next, rfl, -⟩ := Db.getControl_cases hget
      exact .inl fun n => rfl
  | write _ hwrites hdb =>
      refine .inl fun n => ?_
      rcases Db.updateDelivery_cases hdb with ⟨-, rfl⟩ | ⟨row, row', hrow, hf, rfl⟩
      · rfl
      · refine Table.filterMap_modify fun r hr => ?_
        obtain rfl : row = r := by simpa [hrow] using hr
        simp [hwrites.owner hf]
  | insertAttempt _ hdb =>
      obtain ⟨-, attempts, rfl⟩ := Db.insertAttempt_cases hdb
      exact .inl fun n => rfl
  | requeue _ => exact .inl fun n => by split <;> rfl
  | sendEnsureControl hensure =>
      obtain ⟨controls, next, rfl, -⟩ := Db.ensureControl_cases hensure
      exact .inl fun n => rfl
  | routeEnsureControl hensure =>
      obtain ⟨controls, next, rfl, -⟩ := Db.ensureControl_cases hensure
      exact .inl fun n => rfl
  | @commit _ _ tx _ hstage =>
      have htx : stage.tx? = some tx := by
        rcases hstage with ⟨n, rfl⟩ | rfl <;> rfl
      refine .inr (.inl ⟨tx, htx, rfl, rfl, fun n => ?_⟩)
      simp only [Db.rowsOf, (howned.commit_rows htx).2.1, List.filterMap_append, Tx.rowsOf]
  | insertDelivery hnew =>
      refine .inr (.inr ⟨_, _, _, _, _, rfl, rfl, fun n => ?_, fun n => rfl⟩)
      rw [hnew]
      exact Db.rowsOf_insertDelivery howned.get?_nextId _ n
  | _ => exact .inl fun n => rfl

theorem Effect.toDo_cases (h : Effect cfg s party stage c success stage' s') {row : DueRow}
    (hrow : row ∈ stage'.toDo) : row ∈ stage.toDo ∨ stage = .passing ∧ row ∈ s.db.dueRows := by
  cases h with
  | selectDue => exact .inr ⟨rfl, hrow⟩
  | scanDue => exact .inl hrow
  | insertDelivery _ => exact .inl hrow
  | routeEnsureControl _ => exact .inl hrow
  | routePublish _ => exact .inl hrow
  | markRouted => exact .inl (List.mem_cons_of_mem _ hrow)
  | _ => simp [Stage.toDo] at hrow

theorem Effect.job_cases (h : Effect cfg s party stage c success stage' s')
    (howned : OwnedOnce s (before ++ (party, stage) :: after)) {r : Nat × ScheduledJob}
    (hr : r ∈ s'.db.scheduledJobs.rows) :
    (∃ old ∈ s.db.scheduledJobs.rows, r.2.tenantID = old.2.tenantID ∧
      r.2.notificationID = old.2.notificationID ∧ r.2.dueAt = old.2.dueAt) ∨
    ∃ tx, stage.tx? = some tx ∧ r ∈ tx.job := by
  rcases h.agrees_cases with ⟨_, _, _, _, hdb⟩ | ⟨t, req, tx, -, hstage, -, rfl⟩ |
    ⟨_, row, _, _, -, -, -, -, rfl⟩
  · rw [hdb] at hr
    exact .inl ⟨r, hr, rfl, rfl, rfl⟩
  · have htx : stage.tx? = some tx := by
      rcases hstage with ⟨_, rfl⟩ | rfl <;> rfl
    have hr' : r ∈ s.db.scheduledJobs.rows ++ tx.job.toList := by
      rw [← (howned.commit_rows htx).2.2]
      exact hr
    rcases List.mem_append.mp hr' with hr | hr
    · exact .inl ⟨r, hr, rfl, rfl, rfl⟩
    · exact .inr ⟨tx, htx, by simpa using hr⟩
  · obtain ⟨job, hjob, heq⟩ := Table.mem_rows_modify hr
    refine .inl ⟨_, hjob, ?_⟩
    rw [heq]
    split <;> exact ⟨rfl, rfl, rfl⟩

private theorem files_congr {stage : Stage}
    (hjobs : ∀ tx, stage.tx? = some tx → s'.jobsOf tx.notification.1 = s.jobsOf tx.notification.1)
    (h : stage.files s) : stage.files s' := by
  have htx : ∀ tx, stage.tx? = some tx → tx.Files s → tx.Files s' := fun tx htx hf =>
    ⟨hf.deliveries, hf.job, fun hnil => (hjobs tx htx).trans (hf.unpublished hnil)⟩
  cases stage with
  | «open» n tx todo => exact ⟨htx tx rfl h.1, h.2⟩
  | creating n id tx channel todo ensured => exact ⟨htx tx rfl h.1, h.2⟩
  | filed tx => exact htx tx rfl h
  | _ => trivial

theorem Stage.files_tx {stage : Stage} (h : stage.files s) {tx : Tx} (htx : stage.tx? = some tx) :
    tx.Files s := by
  cases stage with
  | «open» n tx₀ todo =>
      obtain rfl := Option.some.inj htx
      exact h.1
  | creating n id tx₀ channel todo ensured =>
      obtain rfl := Option.some.inj htx
      exact h.1
  | filed tx₀ =>
      obtain rfl := Option.some.inj htx
      exact h
  | _ => simp [Stage.tx?] at htx

private theorem Effect.files (heffect : Effect cfg s party stage c success stage' s')
    (hnumbered : stage.numbered) (hnext : s.jobsOf s.db.nextId = []) (h : stage.files s) :
    stage'.files s' := by
  cases heffect with
  | insertNotification _ =>
      exact ⟨⟨by simp, by simp, fun _ => hnext⟩, rfl⟩
  | insertScheduledJob hempty =>
      obtain ⟨⟨-, -, hunpublished⟩, -⟩ := h
      have hn : Prod.fst _ = _ := hnumbered
      refine ⟨by simp [hempty], ?_, fun _ => hunpublished hempty⟩
      simp [hn, hempty]
  | insertTxDelivery =>
      obtain ⟨⟨hdeliveries, -, -⟩, hjob⟩ := h
      have hn : Prod.fst _ = _ := hnumbered
      refine ⟨⟨?_, by simp [hjob], by simp⟩, hjob, by simp⟩
      intro p hp
      rcases List.mem_append.mp hp with hp | hp
      · exact hdeliveries p hp
      · obtain rfl := List.mem_singleton.mp hp
        exact hn.symm
  | sendEnsureControl hensure =>
      exact ⟨⟨h.1.deliveries, h.1.job, h.1.unpublished⟩, h.2⟩
  | sendPublish _ =>
      obtain ⟨⟨hdeliveries, hjob, -⟩, hnone, hne⟩ := h
      exact ⟨⟨hdeliveries, hjob, fun hnil => absurd hnil hne⟩, hnone⟩
  | _ => trivial

private theorem jobsOf_eq_nil (h : ∀ p ∈ s.published, p.job.notificationID ≠ n) :
    s.jobsOf n = [] := by
  rw [Sys.jobsOf, List.filterMap_eq_nil_iff]
  intro p hp
  simp [h p hp]

private theorem jobsOf_nextId {ms : Members} (h : Traced s ms) : s.jobsOf s.db.nextId = [] := by
  refine jobsOf_eq_nil fun p hp hn => ?_
  obtain ⟨a, ha, hid⟩ := List.mem_map.mp (h.published p hp)
  have hlt := h.lt a ha
  omega

private theorem Effect.jobsOf_other (heffect : Effect cfg s party stage c success stage' s')
    (htraced : Traced s (before ++ (party, stage) :: after))
    (howned : OwnedOnce s (before ++ (party, stage) :: after))
    (h : Filing s (before ++ (party, stage) :: after)) {m : Party × Stage}
    (hm : m ∈ before ++ after) {tx : Tx} (htx : m.2.tx? = some tx) :
    s'.jobsOf tx.notification.1 = s.jobsOf tx.notification.1 := by
  have hmem : m ∈ before ++ (party, stage) :: after := by
    simp only [List.mem_append, List.mem_cons] at hm ⊢
    tauto
  rcases heffect.jobsOf_cases with hsame | ⟨n, id, tx₀, channel, todo, rfl, -, -, hjobs⟩ |
    ⟨row, new, done, channel, todo, rest, rfl, -, -, hjobs⟩
  · exact hsame _
  · have hn : tx₀.notification.1 = n :=
      htraced.numbered (party, .creating n id tx₀ channel todo true) (by simp)
    have hne : n ≠ tx.notification.1 := by
      rw [← hn]
      exact (howned.notification_ne rfl hm htx).symm
    simp [hjobs, hne]
  · have hne : row.notificationID ≠ tx.notification.1 := by
      intro heq
      obtain ⟨notification, hget⟩ := h.due (party, .adding row new done channel todo rest true)
        (by simp) row (by simp [Stage.toDo])
      rw [heq, howned.notification_get? hmem htx] at hget
      simp at hget
    simp [hjobs, hne]

private theorem filing_call (heffect : Effect cfg s party stage c success stage' s')
    (hK : Traced s (before ++ (party, stage) :: after) ∧
      OwnedOnce s (before ++ (party, stage) :: after))
    (h : Filing s (before ++ (party, stage) :: after)) :
    Filing s' (before ++ (party, stage') :: after) := by
  obtain ⟨htraced, howned⟩ := hK
  have hself := h.files (party, stage) (by simp)
  have hmono : ∀ {n}, (∃ row, s.db.notifications.get? n = some row) →
      ∃ row, s'.db.notifications.get? n = some row := by
    rintro n ⟨row, hrow⟩
    exact ⟨row, heffect.notifications_mono hrow⟩
  have hdue : ∀ row ∈ stage'.toDo,
      ∃ notification, s.db.notifications.get? row.notificationID = some notification := by
    intro row hrow
    rcases heffect.toDo_cases hrow with hrow | ⟨-, hrow⟩
    · exact h.due (party, stage) (by simp) row hrow
    · obtain ⟨entry, -, hentry⟩ := Db.mem_dueRows hrow
      exact (Db.dueRow?_notification hentry).2
  have hcommitted : ∀ tx, stage.tx? = some tx →
      ∃ row, (s.db.commit tx).notifications.get? tx.notification.1 = some row := fun tx htx =>
    ⟨_, Table.get?_insert_self (howned.notification_get? (m := (party, stage)) (by simp) htx) _⟩
  constructor
  · rcases heffect.agrees_cases with ⟨_, _, _, _, hdb⟩ | ⟨t, req, tx, -, hstage, -, rfl⟩ |
      ⟨_, row, _, _, -, -, -, -, rfl⟩
    · rw [hdb]
      exact h.jobs
    · have htx : stage.tx? = some tx := by
        rcases hstage with ⟨_, rfl⟩ | rfl <;> rfl
      have hfiles := Stage.files_tx hself htx
      rw [(howned.commit_rows htx).2.2, List.map_append, List.nodup_append]
      refine ⟨h.jobs, by cases tx.job <;> simp, ?_⟩
      intro n hn n' hn' heq
      obtain ⟨r, hr, rfl⟩ := List.mem_map.mp hn
      obtain ⟨e, he, rfl⟩ := List.mem_map.mp hn'
      obtain ⟨notification, hget⟩ := h.notified r hr
      have hnone := howned.notification_get? (m := (party, stage)) (by simp) htx
      rw [heq, (hfiles.job e (by simpa using he)).1, hnone] at hget
      simp at hget
    · have hsame := Table.map_modify (t := s.db.scheduledJobs) (k := row.jobID)
        (f := fun job => { job with status := .queued }) (g := fun r => r.2.notificationID)
        (fun _ _ => rfl)
      exact (congrArg List.Nodup hsame).mpr h.jobs
  · intro r hr
    rcases heffect.agrees_cases with ⟨_, _, _, _, hdb⟩ | ⟨t, req, tx, -, hstage, -, rfl⟩ |
      ⟨_, row, _, _, -, -, -, -, rfl⟩
    · rw [hdb] at hr
      exact hmono (h.notified r hr)
    · have htx : stage.tx? = some tx := by
        rcases hstage with ⟨_, rfl⟩ | rfl <;> rfl
      have hr' : r ∈ s.db.scheduledJobs.rows ++ tx.job.toList := by
        rw [← (howned.commit_rows htx).2.2]
        exact hr
      rcases List.mem_append.mp hr' with hr | hr
      · exact hmono (h.notified r hr)
      · rw [((Stage.files_tx hself htx).job r (by simpa using hr)).1]
        exact hcommitted tx htx
    · obtain ⟨job, hjob, heq⟩ := Table.mem_rows_modify hr
      have hn : r.2.notificationID = job.notificationID := by
        rw [heq]
        split <;> rfl
      rw [hn]
      exact h.notified (r.1, job) hjob
  · intro n hn
    rcases heffect.rowsOf_cases howned with hsame | ⟨tx, htx, -, rfl, hrows⟩ |
      ⟨row, done, channel, todo, rest, rfl, -, hrows, -⟩
    · exact hmono (h.delivered n (by rwa [hsame] at hn))
    · rw [hrows] at hn
      by_cases hold : s.db.rowsOf n = []
      · have hmem : tx.rowsOf n ≠ [] := by simpa [hold] using hn
        obtain ⟨x, hx⟩ := List.exists_mem_of_ne_nil _ hmem
        obtain ⟨p, hp, hpn⟩ := List.mem_filterMap.mp hx
        have hpid : p.2.notificationID = n := by
          by_contra hne
          simp [hne] at hpn
        rw [← hpid, (Stage.files_tx hself htx).deliveries p hp]
        exact hcommitted tx htx
      · exact hmono (h.delivered n hold)
    · rw [hrows] at hn
      by_cases hold : s.db.rowsOf n = []
      · have hid : row.notificationID = n := by
          by_contra hne
          simp [hold, hne] at hn
        rw [← hid]
        exact hmono (h.due (party, .routing row done (channel :: todo) rest) (by simp) row
          (by simp [Stage.toDo]))
      · exact hmono (h.delivered n hold)
  · intro m hm row hrow
    simp only [List.mem_append, List.mem_cons] at hm
    rcases hm with hm | rfl | hm
    · exact hmono (h.due m (by simp [hm]) row hrow)
    · exact hmono (hdue row hrow)
    · exact hmono (h.due m (by simp [hm]) row hrow)
  · intro m hm
    simp only [List.mem_append, List.mem_cons] at hm
    rcases hm with hm | rfl | hm
    · exact files_congr (fun tx htx => heffect.jobsOf_other htraced howned h (by simp [hm]) htx)
        (h.files m (by simp [hm]))
    · exact heffect.files (htraced.numbered (party, stage) (by simp)) (jobsOf_nextId htraced) hself
    · exact files_congr (fun tx htx => heffect.jobsOf_other htraced howned h (by simp [hm]) htx)
        (h.files m (by simp [hm]))

end

private theorem filing_members {s : Sys} {ms ms' : Members} (h : Filing s ms)
    (hms : ∀ m ∈ ms', m ∈ ms ∨ m.2.toDo = [] ∧ m.2.files s) : Filing s ms' where
  jobs := h.jobs
  notified := h.notified
  delivered := h.delivered
  due := by
    intro m hm row hrow
    rcases hms m hm with hold | ⟨hnil, -⟩
    · exact h.due m hold row hrow
    · simp [hnil] at hrow
  files := by
    intro m hm
    rcases hms m hm with hold | ⟨-, hfiles⟩
    · exact h.files m hold
    · exact hfiles

private theorem filing_sys {s s' : Sys} {ms : Members} (h : Filing s ms)
    (hjobs : s'.db.scheduledJobs = s.db.scheduledJobs)
    (hnotifications : s'.db.notifications = s.db.notifications)
    (hdeliveries : s'.db.deliveries = s.db.deliveries) (hpublished : s'.published = s.published) :
    Filing s' ms where
  jobs := by rw [hjobs]; exact h.jobs
  notified := by rw [hjobs, hnotifications]; exact h.notified
  delivered := by simpa only [Db.rowsOf, hdeliveries, hnotifications] using h.delivered
  due := by rw [hnotifications]; exact h.due
  files := by
    intro m hm
    refine files_congr (fun tx _ => ?_) (h.files m hm)
    rw [Sys.jobsOf, hpublished, Sys.jobsOf]

theorem filing_inductive (cfg : Config) : Inductive cfg (fun _ _ => True)
    (fun s ms => Traced s ms ∧ OwnedOnce s ms) Filing where
  call := fun _ _ _ heffect hK h => filing_call heffect hK h
  request := by
    intro w ms t req _ _ _ h
    refine filing_members h fun m hm => (List.mem_append.mp hm).imp id fun hm => ?_
    obtain rfl := List.mem_singleton.mp hm
    exact ⟨rfl, trivial⟩
  tick := by
    intro w ms _ _ _ h
    refine filing_members h fun m hm => (List.mem_append.mp hm).imp id fun hm => ?_
    obtain rfl := List.mem_singleton.mp hm
    exact ⟨rfl, trivial⟩
  deliver := by
    intro w ms i m _ _ _ _ h
    refine filing_members (filing_sys h rfl rfl rfl rfl) fun x hx => (List.mem_append.mp hx).imp id fun hx => ?_
    obtain rfl := List.mem_singleton.mp hx
    exact ⟨rfl, trivial⟩
  admin := by
    intro w ms a _ _ _ h
    cases a <;> exact filing_sys h rfl rfl rfl rfl
  clock := by
    intro w ms now _ _ _ _ h
    exact filing_sys h rfl rfl rfl rfl
  crash := by
    intro w before after party stage _ _ _ h
    refine filing_members h fun m hm => ?_
    simp only [List.mem_append, List.mem_cons] at hm
    rcases hm with hm | rfl | hm
    · exact .inl (by simp [hm])
    · exact .inr ⟨rfl, trivial⟩
    · exact .inl (by simp [hm])
  requeue := by
    intro w ms d _ _ _ _ h
    exact filing_sys h rfl rfl rfl rfl

theorem filing_fresh {w : World} (h : w.Fresh) : Filing w.sys [] := by
  constructor <;> simp [h.scheduledJobs, Db.rowsOf, h.deliveries]

end NotificationPlatform

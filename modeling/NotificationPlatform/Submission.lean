import NotificationPlatform.Ownership

/-!
# Where notifications come from

Whatever is committed, published or worked on belongs to a notification that a `Send` inserted,
and every notification has one `Send`. This holds in every run, whatever fails or crashes.
-/

namespace NotificationPlatform

open Lib

def Sys.uses (s : Sys) (n : Nat) : Prop :=
  (∃ row, s.db.notifications.get? n = some row) ∨ ∃ p ∈ s.published, p.job.notificationID = n

def Notification.channelList (row : Notification) : List String :=
  Json.toStrings (some row.channels)

def refs : Party × Stage → List Nat
  | (.consumer d, _) => d.message.body.toList.map Job.notificationID
  | (_, .between rows) => rows.map DueRow.notificationID
  | (_, .routing row _ _ rest) => row.notificationID :: rest.map DueRow.notificationID
  | (_, .adding row _ _ _ _ rest _) => row.notificationID :: rest.map DueRow.notificationID
  | _ => []

def Stage.numbered : Stage → Prop
  | .open n tx _ | .creating n _ tx _ _ _ => tx.notification.1 = n
  | _ => True

def submittedBy (row : Notification) : Party → Prop
  | .request t req => row.tenantID = t ∧ row.idempotencyKey = nullIfEmpty req.idempotencyKey
  | _ => False

/-- Every notification that is committed, open, published or worked on was inserted by a `Send`
of its own. -/
structure Traced (s : Sys) (ms : Members) : Prop where
  ids : (s.inserted.map Prod.fst).Nodup
  lt : ∀ a ∈ s.inserted, a.1 < s.db.nextId
  committed : ∀ n row, s.db.notifications.get? n = some row → (n, row) ∈ s.inserted
  published : ∀ p ∈ s.published, p.job.notificationID ∈ s.inserted.map Prod.fst
  opened : ∀ m ∈ ms, ∀ tx, m.2.tx? = some tx →
    tx.notification ∈ s.inserted ∧ submittedBy tx.notification.2 m.1
  numbered : ∀ m ∈ ms, m.2.numbered
  refs : ∀ m ∈ ms, ∀ n ∈ refs m, s.uses n
  ready : ∀ m ∈ s.broker.ready, ∀ job, m.body = some job → s.uses job.notificationID
  unacked : ∀ d ∈ s.broker.unacked, ∀ job, d.message.body = some job →
    s.uses job.notificationID

section

variable {cfg : Config} {s s' : Sys} {before after : Members} {party : Party}
  {stage stage' : Stage} {c : Call} {success : Bool} {n : Nat}

theorem Effect.notifications_cases (h : Effect cfg s party stage c success stage' s')
    {row : Notification} (hrow : s'.db.notifications.get? n = some row) :
    s.db.notifications.get? n = some row ∨
      ∃ tx, stage.tx? = some tx ∧ tx.notification = (n, row) := by
  rcases h.agrees_cases with ⟨_, _, _, _, hdb⟩ | ⟨t, req, tx, -, hstage, -, rfl⟩ |
    ⟨_, _, _, _, -, -, -, -, rfl⟩
  · exact .inl (by rwa [hdb] at hrow)
  · have hadd : (s.db.notifications.insertAll [tx.notification]).get? n = some row := hrow
    rcases Table.get?_insertAll_cases hadd with hrow | hmem
    · exact .inl hrow
    · refine .inr ⟨tx, ?_, (List.mem_singleton.mp hmem).symm⟩
      rcases hstage with ⟨_, rfl⟩ | rfl <;> rfl
  · exact .inl hrow

theorem Effect.notifications_mono (h : Effect cfg s party stage c success stage' s')
    {row : Notification} (hrow : s.db.notifications.get? n = some row) :
    s'.db.notifications.get? n = some row := by
  rcases h.agrees_cases with ⟨_, _, _, _, hdb⟩ | ⟨t, req, tx, -, hstage, -, rfl⟩ |
    ⟨_, _, _, _, -, -, -, -, rfl⟩
  · rwa [hdb]
  · exact Table.get?_insert_of_some hrow
  · exact hrow

theorem Effect.published_mono (h : Effect cfg s party stage c success stage' s')
    {p : Publication} (hp : p ∈ s.published) : p ∈ s'.published := by
  cases h with
  | requeue _ => split <;> exact hp
  | republish _ _ => exact List.mem_append_left _ hp
  | sendPublish _ => exact List.mem_append_left _ hp
  | routePublish _ => exact List.mem_append_left _ hp
  | _ => exact hp

theorem Effect.uses_mono (h : Effect cfg s party stage c success stage' s') (hn : s.uses n) :
    s'.uses n := by
  rcases hn with ⟨row, hrow⟩ | ⟨p, hp, hid⟩
  · exact .inl ⟨row, h.notifications_mono hrow⟩
  · exact .inr ⟨p, h.published_mono hp, hid⟩

theorem Effect.publication_cases (h : Effect cfg s party stage c success stage' s')
    (hnumbered : stage.numbered) {p : Publication} (hp : p ∈ s'.published) :
    p ∈ s.published ∨ p.job.notificationID ∈ refs (party, stage) ∨
      ∃ tx, stage.tx? = some tx ∧ tx.notification.1 = p.job.notificationID := by
  cases h with
  | requeue _ => split at hp <;> exact .inl hp
  | republish hbody hrep =>
      simp only [Sys.addPublication_published, List.mem_append, List.mem_singleton] at hp
      refine hp.imp id ?_
      rintro rfl
      refine .inl ?_
      cases hrep <;> simp [refs, hbody]
  | sendPublish hjob =>
      simp only [Sys.addPublication_published, List.mem_append, List.mem_singleton] at hp
      refine hp.imp id ?_
      rintro rfl
      exact .inr ⟨_, rfl, by rw [hjob]; exact hnumbered⟩
  | routePublish hjob =>
      simp only [Sys.addPublication_published, List.mem_append, List.mem_singleton] at hp
      refine hp.imp id ?_
      rintro rfl
      exact .inl (by simp [refs, hjob, Notifications.newJob])
  | _ => exact .inl hp

theorem Effect.ready_used (h : Effect cfg s party stage c success stage' s') {m : Message}
    (hm : m ∈ s'.broker.ready) {job : Job} (hbody : m.body = some job) :
    m ∈ s.broker.ready ∨ (∃ p ∈ s'.published, p.job = job) ∨
      job.notificationID ∈ refs (party, stage) := by
  cases h with
  | requeue _ =>
      split at hm
      · simp only [Sys.requeue_broker_ready, List.mem_append, List.mem_singleton] at hm
        refine hm.imp id ?_
        rintro rfl
        exact .inr (by simp [refs, hbody])
      · exact .inl hm
  | republish _ _ =>
      simp only [Sys.addPublication_broker_ready, List.mem_append, List.mem_singleton] at hm
      refine hm.imp id ?_
      rintro rfl
      exact .inl ⟨_, List.mem_append_right _ (List.mem_singleton.mpr rfl), Option.some.inj hbody⟩
  | sendPublish _ =>
      simp only [Sys.addPublication_broker_ready, List.mem_append, List.mem_singleton] at hm
      refine hm.imp id ?_
      rintro rfl
      exact .inl ⟨_, List.mem_append_right _ (List.mem_singleton.mpr rfl), Option.some.inj hbody⟩
  | routePublish _ =>
      simp only [Sys.addPublication_broker_ready, List.mem_append, List.mem_singleton] at hm
      refine hm.imp id ?_
      rintro rfl
      exact .inl ⟨_, List.mem_append_right _ (List.mem_singleton.mpr rfl), Option.some.inj hbody⟩
  | _ => exact .inl hm

theorem Effect.unacked_subset (h : Effect cfg s party stage c success stage' s') {d : Delivery}
    (hd : d ∈ s'.broker.unacked) : d ∈ s.broker.unacked := by
  cases h with
  | requeue _ => split at hd <;> exact List.mem_of_mem_filter hd
  | settle _ => exact List.mem_of_mem_filter hd
  | _ => exact hd

theorem Db.mem_dueRows {db : Db} {row : DueRow} (h : row ∈ db.dueRows) :
    ∃ entry ∈ db.scheduledJobs.rows, db.dueRow? entry = some row := by
  have hsorted := List.mem_of_mem_take h
  rw [List.mem_insertionSort] at hsorted
  exact List.mem_filterMap.mp hsorted

theorem Db.dueRow?_eq_some {db : Db} {entry : Nat × ScheduledJob} {row : DueRow}
    (h : db.dueRow? entry = some row) :
    entry.2.status = .pending ∧ entry.2.dueAt ≤ db.now ∧ ∃ n,
      db.notifications.get? entry.2.notificationID = some n ∧
      row = ⟨entry.1, entry.2.tenantID, entry.2.notificationID, n.channels, n.target, n.data,
        entry.2.dueAt⟩ := by
  unfold Db.dueRow? at h
  split at h
  · next hdue =>
      obtain ⟨n, hget, rfl⟩ := Option.map_eq_some_iff.mp h
      exact ⟨hdue.1, hdue.2, n, hget, rfl⟩
  · simp at h

theorem Db.dueRow?_notification {db : Db} {entry : Nat × ScheduledJob} {row : DueRow}
    (h : db.dueRow? entry = some row) :
    row.notificationID = entry.2.notificationID ∧
      ∃ notification, db.notifications.get? row.notificationID = some notification := by
  obtain ⟨-, -, notification, hget, rfl⟩ := Db.dueRow?_eq_some h
  exact ⟨rfl, notification, hget⟩

theorem Effect.refs_cases (h : Effect cfg s party stage c success stage' s')
    (hn : n ∈ refs (party, stage')) :
    n ∈ refs (party, stage) ∨ ∃ row ∈ s.db.dueRows, row.notificationID = n := by
  cases h with
  | selectDue => exact .inr (List.mem_map.mp hn)
  | giveUp _ hparty =>
      cases party with
      | consumer d => exact absurd rfl (hparty d)
      | _ => simp [refs] at hn
  | scanDue => exact .inl hn
  | insertDelivery _ => exact .inl hn
  | routeEnsureControl _ => exact .inl hn
  | routePublish _ => exact .inl hn
  | markRouted => exact .inl (List.mem_cons_of_mem _ hn)
  | commit _ => simp [refs] at hn
  | _ => exact .inl hn

theorem Effect.tx_cases (h : Effect cfg s party stage c success stage' s') :
    (s'.inserted = s.inserted ∧ ∀ tx', stage'.tx? = some tx' →
      ∃ tx, stage.tx? = some tx ∧ tx.notification = tx'.notification) ∨
    ∃ t req publicID scheduledAt status row, party = .request t req ∧ stage = .begun ∧
      row = Notifications.newNotification t publicID req.withDefaultSchedule scheduledAt status ∧
      c = ⟨.send .insertNotification 0, .insertNotification row⟩ ∧
      stage' = .open s.db.nextId ⟨(s.db.nextId, row), [], none⟩ req.channels ∧
      s' = { s.fresh with inserted := s.inserted ++ [(s.db.nextId, row)] } := by
  cases h with
  | insertNotification hrow =>
      exact .inr ⟨_, _, _, _, _, _, rfl, rfl, hrow, rfl, rfl, rfl⟩
  | requeue _ =>
      refine .inl ⟨by split <;> rfl, fun tx' htx => ?_⟩
      simp [Stage.tx?] at htx
  | insertScheduledJob _ =>
      refine .inl ⟨rfl, fun tx' htx => ⟨_, rfl, ?_⟩⟩
      obtain rfl := Option.some.inj htx
      rfl
  | insertTxDelivery =>
      refine .inl ⟨rfl, fun tx' htx => ⟨_, rfl, ?_⟩⟩
      obtain rfl := Option.some.inj htx
      rfl
  | sendEnsureControl _ => exact .inl ⟨rfl, fun tx' htx => ⟨tx', htx, rfl⟩⟩
  | sendPublish _ => exact .inl ⟨rfl, fun tx' htx => ⟨tx', htx, rfl⟩⟩
  | _ => exact .inl ⟨rfl, fun tx' htx => by simp [Stage.tx?] at htx⟩

theorem Effect.inserted_mono (h : Effect cfg s party stage c success stage' s')
    {a : Nat × Notification} (ha : a ∈ s.inserted) : a ∈ s'.inserted := by
  rcases h.tx_cases with ⟨hsame, -⟩ | ⟨_, _, _, _, _, _, -, -, -, -, -, rfl⟩
  · rwa [hsame]
  · exact List.mem_append_left _ ha

theorem Effect.numbered (h : Effect cfg s party stage c success stage' s')
    (hstage : stage.numbered) : stage'.numbered := by
  cases h with
  | insertNotification _ => exact rfl
  | insertTxDelivery => exact hstage
  | sendEnsureControl _ => exact hstage
  | sendPublish _ => exact hstage
  | _ => exact trivial

end

private theorem uses_of_traced {s : Sys} {ms : Members} (h : Traced s ms) {n : Nat}
    (hn : s.uses n) : n ∈ s.inserted.map Prod.fst := by
  rcases hn with ⟨row, hrow⟩ | ⟨p, hp, rfl⟩
  · exact List.mem_map.mpr ⟨_, h.committed n row hrow, rfl⟩
  · exact h.published p hp

private theorem traced_call {cfg : Config} {s s' : Sys} {before after : Members} {party : Party}
    {stage stage' : Stage} {c : Call} {success : Bool}
    (heffect : Effect cfg s party stage c success stage' s')
    (h : Traced s (before ++ (party, stage) :: after)) :
    Traced s' (before ++ (party, stage') :: after) := by
  have hnumbered := h.numbered (party, stage) (by simp)
  have hrefs := h.refs (party, stage) (by simp)
  have hopen := h.opened (party, stage) (by simp)
  have hinserted : ∀ a ∈ s.inserted, a ∈ s'.inserted := fun a ha => heffect.inserted_mono ha
  have hids : ∀ {n}, n ∈ s.inserted.map Prod.fst → n ∈ s'.inserted.map Prod.fst := by
    intro n hn
    obtain ⟨a, ha, rfl⟩ := List.mem_map.mp hn
    exact List.mem_map.mpr ⟨a, hinserted a ha, rfl⟩
  constructor
  · rcases heffect.tx_cases with ⟨hsame, -⟩ | ⟨_, _, _, _, _, row, -, -, -, -, -, rfl⟩
    · rw [hsame]
      exact h.ids
    · simpa [List.nodup_append] using
        ⟨h.ids, fun a b hab hid => (h.lt (a, b) hab).ne (by simpa using hid)⟩
  · intro a ha
    rcases heffect.tx_cases with ⟨hsame, -⟩ | ⟨_, _, _, _, _, row, -, -, -, -, -, rfl⟩
    · rw [hsame] at ha
      exact (h.lt a ha).trans_le heffect.nextId_le
    · rcases List.mem_append.mp ha with ha | ha
      · exact Nat.lt_succ_of_lt (h.lt a ha)
      · obtain rfl := List.mem_singleton.mp ha
        exact Nat.lt_succ_self _
  · intro n row hrow
    rcases heffect.notifications_cases hrow with hrow | ⟨tx, htx, heq⟩
    · exact hinserted _ (h.committed n row hrow)
    · rw [← heq]
      exact hinserted _ (hopen tx htx).1
  · intro p hp
    rcases heffect.publication_cases hnumbered hp with hp | hn | ⟨tx, htx, heq⟩
    · exact hids (h.published p hp)
    · exact hids (uses_of_traced h (hrefs _ hn))
    · exact hids (List.mem_map.mpr ⟨_, (hopen tx htx).1, heq⟩)
  · intro m hm tx htx
    rw [List.mem_append, List.mem_cons] at hm
    rcases hm with hm | rfl | hm
    · obtain ⟨hmem, hby⟩ := h.opened m (by simp [hm]) tx htx
      exact ⟨hinserted _ hmem, hby⟩
    · rcases heffect.tx_cases with ⟨hsame, hold⟩ | ⟨t, req, _, _, _, row, rfl, -, rfl, -, rfl, rfl⟩
      · obtain ⟨tx₀, htx₀, heq⟩ := hold tx htx
        obtain ⟨hmem, hby⟩ := hopen tx₀ htx₀
        rw [← heq]
        exact ⟨hinserted _ hmem, hby⟩
      · obtain rfl := Option.some.inj htx
        refine ⟨List.mem_append_right _ (List.mem_singleton.mpr rfl), rfl, ?_⟩
        simp [Notifications.newNotification, Request.withDefaultSchedule_idempotencyKey]
    · obtain ⟨hmem, hby⟩ := h.opened m (by simp [hm]) tx htx
      exact ⟨hinserted _ hmem, hby⟩
  · intro m hm
    rw [List.mem_append, List.mem_cons] at hm
    rcases hm with hm | rfl | hm
    · exact h.numbered m (by simp [hm])
    · exact heffect.numbered hnumbered
    · exact h.numbered m (by simp [hm])
  · intro m hm n hn
    rw [List.mem_append, List.mem_cons] at hm
    rcases hm with hm | rfl | hm
    · exact heffect.uses_mono (h.refs m (by simp [hm]) n hn)
    · refine heffect.uses_mono ?_
      rcases heffect.refs_cases hn with hold | ⟨row, hrow, rfl⟩
      · exact hrefs n hold
      · obtain ⟨entry, -, hdue⟩ := Db.mem_dueRows hrow
        exact .inl (Db.dueRow?_notification hdue).2
    · exact heffect.uses_mono (h.refs m (by simp [hm]) n hn)
  · intro m hm job hbody
    rcases heffect.ready_used hm hbody with hm | ⟨p, hp, rfl⟩ | hn
    · exact heffect.uses_mono (h.ready m hm job hbody)
    · exact .inr ⟨p, hp, rfl⟩
    · exact heffect.uses_mono (hrefs _ hn)
  · intro d hd job hbody
    exact heffect.uses_mono (h.unacked d (heffect.unacked_subset hd) job hbody)

private theorem traced_members {s : Sys} {ms ms' : Members} (h : Traced s ms)
    (hms : ∀ m ∈ ms', m ∈ ms ∨ m.2.tx? = none ∧ m.2.numbered ∧ ∀ n ∈ refs m, s.uses n) :
    Traced s ms' where
  ids := h.ids
  lt := h.lt
  committed := h.committed
  published := h.published
  opened := by
    intro m hm tx htx
    rcases hms m hm with hold | ⟨hnone, -, -⟩
    · exact h.opened m hold tx htx
    · simp [hnone] at htx
  numbered := by
    intro m hm
    rcases hms m hm with hold | ⟨-, hnumbered, -⟩
    · exact h.numbered m hold
    · exact hnumbered
  refs := by
    intro m hm
    rcases hms m hm with hold | ⟨-, -, hrefs⟩
    · exact h.refs m hold
    · exact hrefs
  ready := h.ready
  unacked := h.unacked

theorem traced_inductive (cfg : Config) :
    Inductive cfg (fun _ _ => True) Anything Traced where
  call := fun _ _ _ heffect _ h => traced_call heffect h
  request := by
    intro w ms t req _ _ _ h
    refine traced_members h fun m hm => (List.mem_append.mp hm).imp id fun hm => ?_
    obtain rfl := List.mem_singleton.mp hm
    exact ⟨rfl, trivial, by simp [refs]⟩
  tick := by
    intro w ms _ _ _ h
    refine traced_members h fun m hm => (List.mem_append.mp hm).imp id fun hm => ?_
    obtain rfl := List.mem_singleton.mp hm
    exact ⟨rfl, trivial, by simp [refs]⟩
  deliver := by
    intro w ms i m _ _ hm _ h
    have hmem := List.mem_of_getElem? hm
    have hsys : Traced (w.sys.deliver i ⟨w.sys.broker.nextTag, m⟩) ms := by
      refine ⟨h.ids, h.lt, h.committed, h.published, h.opened, h.numbered, h.refs,
        fun x hx => h.ready x (List.mem_of_mem_eraseIdx hx), fun d hd => ?_⟩
      rcases List.mem_append.mp hd with hd | hd
      · exact h.unacked d hd
      · obtain rfl := List.mem_singleton.mp hd
        exact h.ready m hmem
    refine traced_members hsys fun x hx => (List.mem_append.mp hx).imp id fun hx => ?_
    obtain rfl := List.mem_singleton.mp hx
    refine ⟨rfl, trivial, fun n hn => ?_⟩
    obtain ⟨job, hjob, rfl⟩ := List.mem_map.mp hn
    exact h.ready m hmem job (by simpa using hjob)
  admin := by
    intro w ms a _ _ _ h
    cases a <;> exact ⟨h.ids, h.lt, h.committed, h.published, h.opened, h.numbered, h.refs,
      h.ready, h.unacked⟩
  clock := by
    intro w ms now _ _ _ _ h
    exact ⟨h.ids, h.lt, h.committed, h.published, h.opened, h.numbered, h.refs, h.ready,
      h.unacked⟩
  crash := by
    intro w before after party stage _ _ _ h
    refine traced_members h fun m hm => ?_
    simp only [List.mem_append, List.mem_cons] at hm
    rcases hm with hm | rfl | hm
    · exact .inl (by simp [hm])
    · refine .inr ⟨rfl, trivial, fun n hn => h.refs (party, stage) (by simp) n ?_⟩
      cases party with
      | consumer d => exact hn
      | _ => simp [refs] at hn
    · exact .inl (by simp [hm])
  requeue := by
    intro w ms d _ _ hd _ h
    refine ⟨h.ids, h.lt, h.committed, h.published, h.opened, h.numbered, h.refs, fun m hm => ?_,
      fun u hu => h.unacked u (List.mem_of_mem_filter hu)⟩
    rcases List.mem_append.mp hm with hm | hm
    · exact h.ready m hm
    · obtain rfl := List.mem_singleton.mp hm
      exact h.unacked d hd

theorem traced_fresh {w : World} (h : w.Fresh) : Traced w.sys [] := by
  constructor <;> simp [h.inserted, h.notifications, h.published, h.ready, h.unacked]

end NotificationPlatform

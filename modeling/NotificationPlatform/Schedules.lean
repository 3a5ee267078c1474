import NotificationPlatform.Routing

/-!
# Deliveries wait for their time

A notification that is scheduled for a time has neither a delivery row nor a job before that
time: `Send` only files a scheduled job for it, and a pass selects the job when it is due. This
holds in every run, whatever fails or crashes.
-/

namespace NotificationPlatform

open Lib

def Sys.Due (s : Sys) (n : Nat) : Prop :=
  ∃ row, (n, row) ∈ s.inserted ∧ ∀ time ∈ row.scheduledAt, time ≤ s.db.now

def Sys.Timed (s : Sys) (job : ScheduledJob) : Prop :=
  ∃ row, (job.notificationID, row) ∈ s.inserted ∧ row.scheduledAt = some job.dueAt

/-- Only notifications that are due have deliveries and jobs, and their times are those that
their requests ask for. -/
structure Sys.OnTime (cfg : Config) (s : Sys) : Prop where
  asked : ∀ a ∈ s.inserted, ∃ status,
    scheduleState cfg (Request.ofJson a.2.data).schedule = .ok (a.2.scheduledAt, status)
  published : ∀ p ∈ s.published, s.Due p.job.notificationID
  rows : ∀ n, s.db.rowsOf n ≠ [] → s.Due n
  jobs : ∀ r ∈ s.db.scheduledJobs.rows, s.Timed r.2
  ready : ∀ m ∈ s.broker.ready, ∀ job, m.body = some job → s.Due job.notificationID
  unacked : ∀ d ∈ s.broker.unacked, ∀ job, d.message.body = some job → s.Due job.notificationID

/-- A party works on notifications that are due, and creates deliveries of them alone. -/
structure OnTime (s : Sys) (m : Party × Stage) : Prop where
  refs : ∀ n ∈ refs m, s.Due n
  creating : ∀ n id tx channel todo ensured, m.2 = .creating n id tx channel todo ensured → s.Due n
  deliveries : ∀ tx, m.2.tx? = some tx → ∀ p ∈ tx.deliveries, s.Due p.2.notificationID
  job : ∀ tx, m.2.tx? = some tx → ∀ e ∈ tx.job, s.Timed e.2

section

variable {cfg : Config} {s s' : Sys} {before after : Members} {party : Party}
  {stage stage' : Stage} {c : Call} {success : Bool} {n : Nat}

private theorem due_mono (hinserted : ∀ a ∈ s.inserted, a ∈ s'.inserted)
    (hnow : s.db.now ≤ s'.db.now) (h : s.Due n) : s'.Due n := by
  obtain ⟨row, hrow, htime⟩ := h
  exact ⟨row, hinserted _ hrow, fun time ht => (htime time ht).trans hnow⟩

private theorem timed_mono {job : ScheduledJob} (hinserted : ∀ a ∈ s.inserted, a ∈ s'.inserted)
    (h : s.Timed job) : s'.Timed job := by
  obtain ⟨row, hrow, htime⟩ := h
  exact ⟨row, hinserted _ hrow, htime⟩

private theorem onTime_mono {m : Party × Stage} (hinserted : ∀ a ∈ s.inserted, a ∈ s'.inserted)
    (hnow : s.db.now ≤ s'.db.now) (h : OnTime s m) : OnTime s' m where
  refs := fun n hn => due_mono hinserted hnow (h.refs n hn)
  creating := fun n id tx channel todo ensured hm =>
    due_mono hinserted hnow (h.creating n id tx channel todo ensured hm)
  deliveries := fun tx htx p hp => due_mono hinserted hnow (h.deliveries tx htx p hp)
  job := fun tx htx e he => timed_mono hinserted (h.job tx htx e he)

private theorem onTime_idle {m : Party × Stage} (hrefs : ∀ n ∈ refs m, s.Due n)
    (htx : m.2.tx? = none) : OnTime s m where
  refs := hrefs
  creating := by
    intro n id tx channel todo ensured hm
    rw [hm] at htx
    simp [Stage.tx?] at htx
  deliveries := by simp [htx]
  job := by simp [htx]

theorem Effect.now_eq (h : Effect cfg s party stage c success stage' s') :
    s'.db.now = s.db.now := by
  rcases h.agrees_cases with ⟨_, _, _, _, hdb⟩ | ⟨_, _, tx, -, -, -, rfl⟩ |
    ⟨_, _, _, _, -, -, -, -, rfl⟩
  · rw [hdb]
  · rfl
  · rfl

private theorem Effect.inserted_cases (h : Effect cfg s party stage c success stage' s')
    {a : Nat × Notification} (ha : a ∈ s'.inserted) :
    a ∈ s.inserted ∨ ∃ status,
      scheduleState cfg (Request.ofJson a.2.data).schedule = .ok (a.2.scheduledAt, status) := by
  cases h with
  | @insertNotification _ _ req _ status _ hrow hstate =>
      rcases List.mem_append.mp ha with ha | ha
      · exact .inl ha
      · rw [List.mem_singleton.mp ha, hrow]
        refine .inr ⟨status, ?_⟩
        show scheduleState cfg (Request.ofJson req.withDefaultSchedule.toJson).schedule = _
        rw [Request.ofJson_toJson]
        exact hstate
  | requeue _ => split at ha <;> exact .inl ha
  | _ => exact .inl ha

private theorem Effect.published_due (h : Effect cfg s party stage c success stage' s')
    (hself : OnTime s (party, stage)) {p : Publication} (hp : p ∈ s'.published) :
    p ∈ s.published ∨ s.Due p.job.notificationID := by
  cases h with
  | requeue _ => split at hp <;> exact .inl hp
  | republish hbody hrep =>
      simp only [Sys.addPublication_published, List.mem_append, List.mem_singleton] at hp
      refine hp.imp id fun hp => ?_
      rw [hp]
      apply hself.refs
      cases hrep <;> simp [refs, hbody]
  | sendPublish hjob =>
      simp only [Sys.addPublication_published, List.mem_append, List.mem_singleton] at hp
      refine hp.imp id fun hp => ?_
      rw [hp, hjob]
      exact hself.creating _ _ _ _ _ _ rfl
  | routePublish hjob =>
      simp only [Sys.addPublication_published, List.mem_append, List.mem_singleton] at hp
      refine hp.imp id fun hp => ?_
      rw [hp, hjob]
      exact hself.refs _ (by simp [refs, Notifications.newJob])
  | _ => exact .inl hp

private theorem due_of_dueRow (hs : s.OnTime cfg) {row : DueRow} (hrow : row ∈ s.db.dueRows) :
    s.Due row.notificationID := by
  obtain ⟨entry, hentry, hdue⟩ := Db.mem_dueRows hrow
  obtain ⟨-, hpast, -, -, rfl⟩ := Db.dueRow?_eq_some hdue
  obtain ⟨nrow, hinserted, htime⟩ := hs.jobs entry hentry
  refine ⟨nrow, hinserted, fun time ht => ?_⟩
  obtain rfl : entry.2.dueAt = time := by simpa [htime] using ht
  exact hpast

private theorem Effect.party_of_routing {row : DueRow} {done todo : List String}
    {rest : List DueRow} (h : Effect cfg s party (.routing row done todo rest) c success stage' s') :
    ∃ id, party = .pass id := by
  cases h with
  | insertDelivery _ => exact ⟨_, rfl⟩
  | markRouted => exact ⟨_, rfl⟩
  | commit hstage => simp at hstage
  | giveUp hallowed _ => cases hallowed <;> first
    | exact ⟨_, rfl⟩
    | simp_all

private theorem Effect.sysOnTime (h : Effect cfg s party stage c success stage' s')
    (hK : Traced s (before ++ (party, stage) :: after) ∧
      OwnedOnce s (before ++ (party, stage) :: after))
    (hself : NotificationPlatform.OnTime s (party, stage)) (hs : s.OnTime cfg) :
    s'.OnTime cfg := by
  have hinserted : ∀ a ∈ s.inserted, a ∈ s'.inserted := fun a ha => h.inserted_mono ha
  have hnow : s.db.now ≤ s'.db.now := h.now_eq.ge
  constructor
  · intro a ha
    rcases h.inserted_cases ha with hold | hnew
    · exact hs.asked a hold
    · exact hnew
  · intro p hp
    rcases h.published_due hself hp with hold | hdue
    · exact due_mono hinserted hnow (hs.published p hold)
    · exact due_mono hinserted hnow hdue
  · intro n hn
    refine due_mono hinserted hnow ?_
    rcases h.rowsOf_cases hK.2 with hsame | ⟨tx, htx, -, rfl, hrows⟩ |
      ⟨row, done, channel, todo, rest, rfl, -, hrows, -⟩
    · exact hs.rows n (by rwa [hsame] at hn)
    · rw [hrows] at hn
      by_cases hold : s.db.rowsOf n = []
      · have hne : tx.rowsOf n ≠ [] := by simpa [hold] using hn
        obtain ⟨x, hx⟩ := List.exists_mem_of_ne_nil _ hne
        obtain ⟨p, hp, hpn⟩ := List.mem_filterMap.mp hx
        have hid : p.2.notificationID = n := by
          by_contra hne
          simp [hne] at hpn
        rw [← hid]
        exact hself.deliveries tx htx p hp
      · exact hs.rows n hold
    · rw [hrows] at hn
      by_cases hold : s.db.rowsOf n = []
      · have hid : row.notificationID = n := by
          by_contra hne
          simp [hold, hne] at hn
        obtain ⟨id, rfl⟩ := h.party_of_routing
        rw [← hid]
        exact hself.refs _ (by simp [refs])
      · exact hs.rows n hold
  · intro r hr
    refine timed_mono hinserted ?_
    rcases h.job_cases hK.2 hr with ⟨old, hold, -, hn, hdue⟩ | ⟨tx, htx, hmem⟩
    · obtain ⟨row, hrow, htime⟩ := hs.jobs old hold
      exact ⟨row, by rwa [hn], by rwa [hdue]⟩
    · exact hself.job tx htx r hmem
  · intro m hm job hbody
    refine due_mono hinserted hnow ?_
    rcases h.ready_used hm hbody with hold | ⟨p, hp, rfl⟩ | href
    · exact hs.ready m hold job hbody
    · rcases h.published_due hself hp with hold | hdue
      · exact hs.published p hold
      · exact hdue
    · exact hself.refs _ href
  · intro d hd job hbody
    exact due_mono hinserted hnow (hs.unacked d (h.unacked_subset hd) job hbody)

private theorem Effect.onTime (h : Effect cfg s party stage c success stage' s')
    (htraced : Traced s (before ++ (party, stage) :: after))
    (hself : NotificationPlatform.OnTime s (party, stage)) (hs : s.OnTime cfg) :
    NotificationPlatform.OnTime s (party, stage') := by
  have hopened := htraced.opened (party, stage) (by simp)
  have hnumbered := htraced.numbered (party, stage) (by simp)
  -- a notification without a time is due
  have hinstant : ∀ {tx : Tx}, stage.tx? = some tx → tx.notification.2.scheduledAt = none →
      s.Due tx.notification.1 := fun htx hnone =>
    ⟨_, (hopened _ htx).1, by simp [hnone]⟩
  constructor
  · intro n hn
    rcases h.refs_cases hn with hold | ⟨row, hrow, rfl⟩
    · exact hself.refs n hold
    · exact due_of_dueRow hs hrow
  · intro n id tx channel todo ensured heq
    have hstage : stage' = .creating n id tx channel todo ensured := heq
    cases h with
    | insertTxDelivery hnone =>
        obtain ⟨rfl, -⟩ : _ = n ∧ _ := by simpa using hstage
        have hn : Prod.fst _ = _ := hnumbered
        rw [← hn]
        exact hinstant rfl hnone
    | sendEnsureControl _ =>
        obtain ⟨rfl, -⟩ : _ = n ∧ _ := by simpa using hstage
        exact hself.creating _ _ _ _ _ _ rfl
    | insertAttempt _ _ => simp at hstage
    | _ => simp at hstage
  · intro tx htx p hp
    cases h with
    | insertNotification _ _ =>
        obtain rfl := Option.some.inj htx
        simp at hp
    | insertScheduledJob _ _ =>
        obtain rfl := Option.some.inj htx
        exact hself.deliveries _ rfl p hp
    | insertTxDelivery hnone =>
        obtain rfl := Option.some.inj htx
        rcases List.mem_append.mp hp with hp | hp
        · exact hself.deliveries _ rfl p hp
        · have hn : Prod.fst _ = _ := hnumbered
          rw [List.mem_singleton.mp hp]
          show s.Due _
          rw [← hn]
          exact hinstant rfl hnone
    | sendEnsureControl _ => exact hself.deliveries tx htx p hp
    | sendPublish _ => exact hself.deliveries tx htx p hp
    | _ => simp [Stage.tx?] at htx
  · intro tx htx e he
    cases h with
    | insertNotification _ _ =>
        obtain rfl := Option.some.inj htx
        simp at he
    | insertScheduledJob _ hdue =>
        obtain rfl := Option.some.inj htx
        obtain rfl := Option.mem_some_iff.mp he
        have hn : Prod.fst _ = _ := hnumbered
        refine ⟨_, ?_, hdue⟩
        rw [← hn]
        exact (hopened _ rfl).1
    | insertTxDelivery _ =>
        obtain rfl := Option.some.inj htx
        exact hself.job _ rfl e he
    | sendEnsureControl _ => exact hself.job tx htx e he
    | sendPublish _ => exact hself.job tx htx e he
    | _ => simp [Stage.tx?] at htx

end

theorem onTime_inductive (cfg : Config) : Inductive cfg (fun _ _ => True)
    (fun s ms => Traced s ms ∧ OwnedOnce s ms)
    (fun s ms => s.OnTime cfg ∧ ∀ m ∈ ms, OnTime s m) := by
  apply Inductive.each
  case call =>
    intro w before after party stage stage' c o success s' _ _ heffect hK hs hms
    have hself := hms (party, stage) (by simp)
    have hmono : ∀ {m}, OnTime w.sys m → OnTime s' m := fun h =>
      onTime_mono (fun a ha => heffect.inserted_mono ha) heffect.now_eq.ge h
    refine ⟨heffect.sysOnTime hK hself hs, hmono (heffect.onTime hK.1 hself hs),
      fun m hm => hmono (hms m ?_)⟩
    simp only [List.mem_append, List.mem_cons] at hm ⊢
    tauto
  case request => exact fun _ => onTime_idle (by simp [refs]) rfl
  case tick => exact fun {_} => onTime_idle (by simp [refs]) rfl
  case deliver =>
    intro s i m hm hs
    have hready := hs.ready m (List.mem_of_getElem? hm)
    refine ⟨⟨hs.asked, hs.published, hs.rows, hs.jobs,
      fun x hx => hs.ready x (List.mem_of_mem_eraseIdx hx), fun d hd => ?_⟩, ?_,
      fun x hx => onTime_mono (s := s) (fun _ ha => ha) (le_refl s.db.now) hx⟩
    · rcases List.mem_append.mp hd with hd | hd
      · exact hs.unacked d hd
      · rw [List.mem_singleton.mp hd]
        exact hready
    · refine onTime_idle (fun n hn => ?_) rfl
      obtain ⟨job, hjob, rfl⟩ := List.mem_map.mp hn
      exact hready job (by simpa using hjob)
  case admin =>
    intro s a hs
    cases a <;> exact ⟨⟨hs.asked, hs.published, hs.rows, hs.jobs, hs.ready, hs.unacked⟩,
      fun x hx => onTime_mono (s := s) (fun _ ha => ha) (le_refl s.db.now) hx⟩
  case clock =>
    intro s now hle hs
    have hdue : ∀ {n}, s.Due n → Sys.Due { s with db := { s.db with now := now } } n := fun h =>
      due_mono (s := s) (fun _ ha => ha) hle h
    exact ⟨⟨hs.asked, fun p hp => hdue (hs.published p hp), fun n hn => hdue (hs.rows n hn),
      hs.jobs, fun m hm job hbody => hdue (hs.ready m hm job hbody),
      fun d hd job hbody => hdue (hs.unacked d hd job hbody)⟩,
      fun x hx => onTime_mono (s := s) (fun _ ha => ha) hle hx⟩
  case crash =>
    intro s party stage h
    refine onTime_idle (fun n hn => h.refs n ?_) rfl
    cases party with
    | consumer d => exact hn
    | _ => simp [refs] at hn
  case requeue =>
    intro s d hd hs
    refine ⟨⟨hs.asked, hs.published, hs.rows, hs.jobs, fun m hm => ?_,
      fun u hu => hs.unacked u (List.mem_of_mem_filter hu)⟩,
      fun x hx => onTime_mono (s := s) (fun _ ha => ha) (le_refl s.db.now) hx⟩
    rcases List.mem_append.mp hm with hm | hm
    · exact hs.ready m hm
    · rw [List.mem_singleton.mp hm]
      exact hs.unacked d hd

def Request.sendsAt? (cfg : Config) (req : Request) : Option Nat :=
  if equalFold req.schedule.type "scheduled" then cfg.parseRFC3339 req.schedule.sendAt else none

theorem Request.scheduleState_of_sendsAt? {cfg : Config} {req : Request} {time : Nat}
    (h : req.sendsAt? cfg = some time) :
    scheduleState cfg req.withDefaultSchedule.schedule = .ok (some time, .scheduled) := by
  unfold Request.sendsAt? at h
  split at h
  · next hscheduled =>
      have hne : req.schedule.type ≠ "" := by
        intro hempty
        rw [hempty] at hscheduled
        simp [equalFold] at hscheduled
      simp [Request.withDefaultSchedule, hne, scheduleState, hscheduled, h]
  · simp at h

/-- Nothing of notification `n` is on its way: no delivery, and no job was ever published. -/
structure Sys.Unsent (s : Sys) (n : Nat) : Prop where
  rows : s.db.rowsOf n = []
  published : ∀ p ∈ s.published, p.job.notificationID ≠ n
  ready : ∀ m ∈ s.broker.ready, ∀ job, m.body = some job → job.notificationID ≠ n
  unacked : ∀ d ∈ s.broker.unacked, ∀ job, d.message.body = some job → job.notificationID ≠ n

theorem unsent_before_time {cfg : Config} {w₀ w : World} {es : List Event} (hfresh : w₀.Fresh)
    (hrun : w₀.RunOf cfg (fun _ _ => True) es w) {t publicID : String} {req : Request}
    {scheduledAt : Option Nat} {status : NotificationStatus} {n time : Nat}
    (hrow : w.sys.db.notifications.get? n = some (Notifications.newNotification t publicID
      req.withDefaultSchedule scheduledAt status))
    (htime : req.sendsAt? cfg = some time) (hnow : w.sys.db.now < time) : w.sys.Unsent n := by
  have hK := (traced_inductive cfg).and ((ownedOnce_inductive cfg).given fun _ _ _ => trivial)
  obtain ⟨ms, -, ⟨htraced, -⟩, hs, -⟩ := (hK.and (onTime_inductive cfg)).reachable hfresh hrun
    ⟨⟨traced_fresh hfresh, ownedOnce_fresh hfresh⟩,
      ⟨by simp [hfresh.inserted], by simp [hfresh.published],
        by simp [Db.rowsOf, hfresh.deliveries], by simp [hfresh.scheduledJobs],
        by simp [hfresh.ready], by simp [hfresh.unacked]⟩, by simp⟩
  have hinserted := htraced.committed n _ hrow
  have hscheduled : scheduledAt = some time := by
    obtain ⟨status', hstate⟩ := hs.asked _ hinserted
    have hasked := Request.scheduleState_of_sendsAt? htime
    have hdecoded : (Request.ofJson (Notifications.newNotification t publicID
        req.withDefaultSchedule scheduledAt status).data).schedule =
          req.withDefaultSchedule.schedule := by
      simp [Notifications.newNotification, Request.ofJson_toJson]
    rw [hdecoded, hasked] at hstate
    have hpair : (some time, NotificationStatus.scheduled) = (scheduledAt, status') :=
      Except.ok.inj hstate
    exact (congrArg Prod.fst hpair).symm
  have hlate : ¬w.sys.Due n := by
    rintro ⟨row, hmem, hdue⟩
    have hsame := List.inj_on_of_nodup_map htraced.ids hmem hinserted rfl
    obtain rfl := congrArg Prod.snd hsame
    have hle := hdue time (by simp [Notifications.newNotification, hscheduled])
    omega
  constructor
  · by_contra hne
    exact hlate (hs.rows n hne)
  · rintro p hp rfl
    exact hlate (hs.published p hp)
  · rintro m hm job hbody rfl
    exact hlate (hs.ready m hm job hbody)
  · rintro d hd job hbody rfl
    exact hlate (hs.unacked d hd job hbody)

end NotificationPlatform

import NotificationPlatform.Routing

/-!
# The gates of scheduled jobs

`Send` checks the gates of a scheduled request when it is submitted, `RouteDueScheduled` checks
none. What a pass publishes has passed the gates of the state in which the pass begins, as long as
administrators close no gate of a channel for which a scheduled job is pending or a request is in
progress.
-/

namespace NotificationPlatform

open Lib

def gatesOf (channel : String) : List GateFact := [.active, .feature channel, .valid channel]

def GatesOpen (t : String) (db : Db) (channel : String) : Prop :=
  ∀ x ∈ gatesOf channel, x.Holds t db

def GateFact.isOpen (t : String) (db : Db) : GateFact → Bool
  | .active => match db.tenantStatus t with
    | .ok .active => true
    | _ => false
  | .feature c => match db.featureEnabled t ("channel." ++ c) with
    | .ok true => true
    | _ => false
  | .valid c => match db.channelConfig t c with
    | .ok config => (Notifications.checkConfig config "one_way").isOk
    | .error _ => false

theorem GateFact.isOpen_iff {t : String} {db : Db} {x : GateFact} :
    x.isOpen t db = true ↔ x.Holds t db := by
  cases x with
  | active =>
      simp only [isOpen, Holds]
      cases db.tenantStatus t with
      | error e => simp
      | ok status => cases status <;> simp
  | feature c =>
      simp only [isOpen, Holds]
      cases db.featureEnabled t ("channel." ++ c) with
      | error e => simp
      | ok enabled => cases enabled <;> simp
  | valid c =>
      simp only [isOpen, Holds]
      cases db.channelConfig t c with
      | error e => simp
      | ok config =>
          cases hcheck : Notifications.checkConfig config "one_way" <;>
            simp [hcheck, Except.isOk, Except.toBool]

def Db.pendingChannels (db : Db) : List (String × String) :=
  db.scheduledJobs.rows.flatMap fun r =>
    if r.2.status = .pending then
      match db.notifications.get? r.2.notificationID with
      | some notification => notification.channelList.map fun c => (r.2.tenantID, c)
      | none => []
    else []

def Thread.asks (th : Thread) : List (String × String) :=
  match th.party, th.prog with
  | .request t req, .call _ _ => req.channels.map fun c => (t, c)
  | _, _ => []

/-- An administrator closes no gate of a channel for which a scheduled job is pending or a request
is in progress. -/
def KeepsGates (w : World) : World.Label → Prop
  | .admin a => ∀ e ∈ w.sys.db.pendingChannels ++ w.threads.flatMap Thread.asks,
      ∀ x ∈ gatesOf e.2, x.isOpen e.1 w.sys.db = true → x.isOpen e.1 (w.sys.db.admin a) = true
  | _ => True

instance (w : World) : (l : World.Label) → Decidable (KeepsGates w l)
  | .admin _ => inferInstanceAs (Decidable (∀ _ ∈ _, _))
  | .call _ _ _ | .crash _ | .deliver _ | .request _ _ | .tick | .clock | .requeue | .none =>
      inferInstanceAs (Decidable True)

def Stage.stores : Stage → Bool
  | .begun | .open _ _ _ | .creating _ _ _ _ _ _ | .filed _ => true
  | _ => false

/-- What a request has found out still holds, and what it stores is its own. -/
structure RequestGated (db : Db) (t : String) (req : Request) (stage : Stage) : Prop where
  facts : ∀ facts, stage = .gates facts → ∀ channel ∈ req.channels, ∀ x ∈ gatesOf channel,
    x ∈ facts → x.Holds t db
  passed : stage.stores = true → ∀ channel ∈ req.channels, GatesOpen t db channel
  tx : ∀ tx, stage.tx? = some tx → tx.notification.2.channelList = req.channels ∧
    ∀ e ∈ tx.job, e.2.tenantID = t

def Stage.onList : Stage → Prop
  | .routing row _ todo _ => ∀ channel ∈ todo, channel ∈ row.channelList
  | .adding row _ _ channel todo _ _ => ∀ c ∈ channel :: todo, c ∈ row.channelList
  | _ => True

structure PassGated (selected : List (Nat × Db)) (id : Nat) (stage : Stage) : Prop where
  rows : ∀ row ∈ stage.toDo, ∃ db, (id, db) ∈ selected ∧
    ∀ channel ∈ row.channelList, GatesOpen row.tenantID db channel
  onList : stage.onList

def gated (s : Sys) : Party × Stage → Prop
  | (.request t req, stage) => RequestGated s.db t req stage
  | (.pass id, stage) => PassGated s.selected id stage
  | (.consumer _, _) => True

/-- Every job that is pending may be sent, and every job that a pass published could be when the
pass began. -/
structure Gated (s : Sys) (ms : Members) : Prop where
  jobs : ∀ e ∈ s.db.pendingChannels, GatesOpen e.1 s.db e.2
  published : ∀ p ∈ s.published, ∀ id, p.party = .pass id →
    ∃ db, (id, db) ∈ s.selected ∧ GatesOpen p.job.tenantID db p.job.channel
  members : ∀ m ∈ ms, gated s m

theorem Db.mem_pendingChannels {db : Db} {e : String × String} :
    e ∈ db.pendingChannels ↔ ∃ r ∈ db.scheduledJobs.rows, r.2.status = .pending ∧
      ∃ notification, db.notifications.get? r.2.notificationID = some notification ∧
        r.2.tenantID = e.1 ∧ e.2 ∈ notification.channelList := by
  rw [pendingChannels, List.mem_flatMap]
  apply exists_congr
  intro r
  apply and_congr_right
  intro _
  by_cases hpending : r.2.status = .pending
  · cases hget : db.notifications.get? r.2.notificationID with
    | none => simp [hpending]
    | some notification =>
        simp only [hpending, if_true, List.mem_map, true_and, Option.some.injEq,
          exists_eq_left']
        constructor
        · rintro ⟨c, hc, rfl⟩
          exact ⟨rfl, hc⟩
        · rintro ⟨ht, hc⟩
          exact ⟨e.2, hc, by rw [ht]⟩
  · simp [hpending]

section

variable {cfg : Config} {s s' : Sys} {before after : Members} {party : Party}
  {stage stage' : Stage} {c : Call} {success : Bool}

theorem Effect.gate_iff (h : Effect cfg s party stage c success stage' s') (t : String)
    (x : GateFact) : x.Holds t s'.db ↔ x.Holds t s.db := by
  rcases h.agrees_cases with ⟨_, _, _, _, hdb⟩ | ⟨_, _, _, -, -, -, rfl⟩ |
    ⟨_, _, _, _, -, -, -, -, rfl⟩
  · rw [hdb]
    cases x <;> rfl
  · cases x <;> rfl
  · cases x <;> rfl

private theorem Effect.gatesOpen (h : Effect cfg s party stage c success stage' s') (t : String)
    (channel : String) : GatesOpen t s'.db channel ↔ GatesOpen t s.db channel := by
  apply forall₂_congr
  intro x _
  exact h.gate_iff t x

private theorem Effect.selected_mono (h : Effect cfg s party stage c success stage' s')
    {e : Nat × Db} (he : e ∈ s.selected) : e ∈ s'.selected := by
  cases h with
  | selectDue => exact List.mem_append_left _ he
  | requeue _ => split <;> exact he
  | _ => exact he

theorem RequestGated.mono {db db' : Db} {t : String} {req : Request}
    (hholds : ∀ x, GateFact.Holds t db x → x.Holds t db') (h : RequestGated db t req stage) :
    RequestGated db' t req stage where
  facts facts hstage channel hc x hx hmem :=
    hholds x (h.facts facts hstage channel hc x hx hmem)
  passed hstores channel hc x hx := hholds x (h.passed hstores channel hc x hx)
  tx := h.tx

private theorem gated_mono (hholds : ∀ t x, GateFact.Holds t s.db x → x.Holds t s'.db)
    (hselected : ∀ e ∈ s.selected, e ∈ s'.selected) {m : Party × Stage} (h : gated s m) :
    gated s' m := by
  obtain ⟨party, stage⟩ := m
  cases party with
  | request t req => exact RequestGated.mono (hholds t) h
  | pass id =>
      refine ⟨fun row hrow => ?_, h.onList⟩
      obtain ⟨db, hmem, hopen⟩ := h.rows row hrow
      exact ⟨db, hselected _ hmem, hopen⟩
  | consumer d => trivial

private theorem Effect.passPublished_cases (h : Effect cfg s party stage c success stage' s')
    {p : Publication} (hp : p ∈ s'.published) :
    p ∈ s.published ∨ (∀ id, p.party ≠ .pass id) ∨
    ∃ id row new done channel todo rest, party = .pass id ∧ p.party = .pass id ∧
      stage = .adding row new done channel todo rest true ∧ p.job.tenantID = row.tenantID ∧
      p.job.channel = channel := by
  cases h with
  | requeue _ =>
      left
      split at hp <;> exact hp
  | republish _ _ =>
      rcases List.mem_append.mp hp with hp | hp
      · exact .inl hp
      · rw [List.mem_singleton.mp hp]
        exact .inr (.inl (by simp))
  | sendPublish _ =>
      rcases List.mem_append.mp hp with hp | hp
      · exact .inl hp
      · rw [List.mem_singleton.mp hp]
        exact .inr (.inl (by simp))
  | routePublish hjob =>
      rcases List.mem_append.mp hp with hp | hp
      · exact .inl hp
      · rw [List.mem_singleton.mp hp]
        exact .inr (.inr ⟨_, _, _, _, _, _, _, rfl, rfl, rfl, by rw [hjob]; rfl, by rw [hjob]; rfl⟩)
  | _ => exact .inl hp

private theorem Effect.pending_cases (heffect : Effect cfg s party stage c success stage' s')
    (howned : OwnedOnce s (before ++ (party, stage) :: after))
    (hfiling : Filing s (before ++ (party, stage) :: after)) {e : String × String}
    (he : e ∈ s'.db.pendingChannels) :
    e ∈ s.db.pendingChannels ∨ ∃ t req tx, party = .request t req ∧ stage.tx? = some tx ∧
      stage.stores = true ∧ (∃ j ∈ tx.job, j.2.tenantID = e.1) ∧ e.2 ∈ tx.notification.2.channelList := by
  rcases heffect.agrees_cases with ⟨_, _, _, _, hdb⟩ | ⟨t, req, tx, hparty, hstage, -, rfl⟩ |
    ⟨_, row, _, _, -, -, -, -, rfl⟩
  · left
    rw [hdb] at he
    exact he
  · have htx : stage.tx? = some tx ∧ stage.stores = true := by
      rcases hstage with ⟨_, rfl⟩ | rfl <;> exact ⟨rfl, rfl⟩
    have hnone := howned.notification_get? (m := (party, stage)) (by simp) htx.1
    obtain ⟨r, hr, hpending, notification, hget, ht, hc⟩ := Db.mem_pendingChannels.mp he
    rw [(howned.commit_rows htx.1).2.2] at hr
    rcases List.mem_append.mp hr with hr | hr
    · left
      obtain ⟨old, hold⟩ := hfiling.notified r hr
      have hsame : (s.db.commit tx).notifications.get? r.2.notificationID = some old :=
        Table.get?_insert_of_some hold
      rw [hsame] at hget
      obtain rfl := Option.some.inj hget
      exact Db.mem_pendingChannels.mpr ⟨r, hr, hpending, old, hold, ht, hc⟩
    · right
      have hr' : r ∈ tx.job := by simpa using hr
      have hn := ((Stage.files_tx (hfiling.files (party, stage) (by simp)) htx.1).job r hr').1
      have hnew : (s.db.commit tx).notifications.get? tx.notification.1 = some tx.notification.2 :=
        Table.get?_insert_self hnone _
      rw [hn, hnew] at hget
      obtain rfl := Option.some.inj hget
      exact ⟨t, req, tx, hparty, htx.1, htx.2, ⟨r, hr', ht⟩, hc⟩
  · left
    obtain ⟨r, hr, hpending, notification, hget, ht, hc⟩ := Db.mem_pendingChannels.mp he
    obtain ⟨old, hmem, hnew⟩ := Table.mem_rows_modify hr
    by_cases hkey : r.1 = row.jobID
    · rw [hnew, if_pos hkey] at hpending
      simp at hpending
    · rw [if_neg hkey] at hnew
      rw [hnew] at hpending hget ht
      exact Db.mem_pendingChannels.mpr ⟨(r.1, old), hmem, hpending, notification, hget, ht, hc⟩

private theorem gatesOpen_of_due (hjobs : ∀ e ∈ s.db.pendingChannels, GatesOpen e.1 s.db e.2)
    {row : DueRow} (hrow : row ∈ s.db.dueRows) :
    ∀ channel ∈ row.channelList, GatesOpen row.tenantID s.db channel := by
  intro channel hc
  obtain ⟨entry, hentry, hdue⟩ := Db.mem_dueRows hrow
  obtain ⟨hpending, -, notification, hget, rfl⟩ := Db.dueRow?_eq_some hdue
  exact hjobs (entry.2.tenantID, channel)
    (Db.mem_pendingChannels.mpr ⟨entry, hentry, hpending, notification, hget, rfl, hc⟩)

private theorem requestGated_over (db : Db) (t : String) (req : Request) :
    RequestGated db t req .over := by
  constructor
  · simp
  · simp [Stage.stores]
  · simp [Stage.tx?]

theorem RequestGated.call {t : String} {req : Request}
    (heffect : Effect cfg s (.request t req) stage c success stage' s')
    (h : RequestGated s.db t req stage) : RequestGated s'.db t req stage' := by
  have hopen := fun channel => (heffect.gatesOpen t channel).mpr
  cases heffect with
  | gate hfacts =>
      refine ⟨fun facts hstage channel hc x hx hmem => ?_, by simp [Stage.stores],
        by simp [Stage.tx?]⟩
      obtain rfl := Stage.gates.inj hstage
      rcases hfacts x hmem with hold | hholds
      · exact h.facts _ rfl channel hc x hx hold
      · exact hholds
  | gateClosed => exact requestGated_over _ _ _
  | begin hgates =>
      refine ⟨by simp, fun _ channel hc x hx => ?_, by simp [Stage.tx?]⟩
      refine h.facts _ rfl channel hc x hx ?_
      simp only [gatesOf, List.mem_cons, List.not_mem_nil, or_false] at hx
      rcases hx with rfl | rfl | rfl
      · exact hgates.1
      · exact (hgates.2 channel hc).1
      · exact (hgates.2 channel hc).2
  | insertNotification hrow _ =>
      refine ⟨by simp, fun _ => h.passed rfl, fun tx htx => ?_⟩
      obtain rfl := Option.some.inj htx
      refine ⟨?_, by simp⟩
      simp [hrow, Notification.channelList, Notifications.newNotification,
        Json.toStrings_ofStrings, Request.withDefaultSchedule_channels]
  | insertScheduledJob _ _ =>
      refine ⟨by simp, fun _ => h.passed rfl, fun tx htx => ?_⟩
      obtain rfl := Option.some.inj htx
      exact ⟨(h.tx _ rfl).1, by simp⟩
  | @insertTxDelivery t channel req n i tx₀ target todo _ =>
      refine ⟨by simp, fun _ => h.passed rfl, fun tx htx => ?_⟩
      obtain rfl := Option.some.inj htx
      exact h.tx tx₀ rfl
  | sendEnsureControl hensure =>
      refine ⟨by simp, fun _ channel hc => hopen _ (h.passed rfl channel hc), fun tx htx => ?_⟩
      exact h.tx tx htx
  | sendPublish _ => exact ⟨by simp, fun _ => h.passed rfl, fun tx htx => h.tx tx htx⟩
  | commit _ => exact requestGated_over _ _ _
  | giveUp _ hparty => exact requestGated_over _ _ _

private theorem Effect.gated_self (heffect : Effect cfg s party stage c success stage' s')
    (hjobs : ∀ e ∈ s.db.pendingChannels, GatesOpen e.1 s.db e.2) (h : gated s (party, stage)) :
    gated s' (party, stage') := by
  cases party with
  | request t req => exact RequestGated.call heffect h
  | consumer d => trivial
  | pass id =>
      cases heffect with
      | selectDue =>
          exact ⟨fun row hrow => ⟨s.db, by simp, gatesOpen_of_due hjobs hrow⟩, trivial⟩
      | scanDue => exact ⟨h.rows, fun channel hc => hc⟩
      | insertDelivery _ => exact ⟨h.rows, h.onList⟩
      | routeEnsureControl _ => exact ⟨h.rows, h.onList⟩
      | routePublish _ =>
          exact ⟨h.rows, fun channel hc => h.onList channel (List.mem_cons_of_mem _ hc)⟩
      | markRouted => exact ⟨fun row hrow => h.rows row (List.mem_cons_of_mem _ hrow), trivial⟩
      | giveUp _ _ => exact ⟨by simp [Stage.toDo], trivial⟩

private theorem gated_call (heffect : Effect cfg s party stage c success stage' s')
    (howned : OwnedOnce s (before ++ (party, stage) :: after))
    (hfiling : Filing s (before ++ (party, stage) :: after))
    (h : Gated s (before ++ (party, stage) :: after)) :
    Gated s' (before ++ (party, stage') :: after) := by
  have hself := h.members (party, stage) (by simp)
  constructor
  · intro e he
    rw [heffect.gatesOpen]
    rcases heffect.pending_cases howned hfiling he with hold |
      ⟨t, req, tx, rfl, htx, hstores, ⟨j, hj, ht⟩, hc⟩
    · exact h.jobs e hold
    · obtain ⟨hchannels, hjob⟩ := hself.tx tx htx
      rw [← ht, hjob j hj]
      exact hself.passed hstores e.2 (hchannels ▸ hc)
  · intro p hp id hid
    rcases heffect.passPublished_cases hp with hold | hother |
      ⟨id', row, new, done, channel, todo, rest, rfl, hparty, rfl, ht, hchannel⟩
    · obtain ⟨db, hmem, hopen⟩ := h.published p hold id hid
      exact ⟨db, heffect.selected_mono hmem, hopen⟩
    · exact absurd hid (hother id)
    · obtain rfl : id' = id := Party.pass.inj (hparty.symm.trans hid)
      obtain ⟨db, hmem, hopen⟩ := hself.rows row (by simp [Stage.toDo])
      refine ⟨db, heffect.selected_mono hmem, ?_⟩
      rw [ht, hchannel]
      exact hopen channel (hself.onList channel (by simp))
  · have hother : ∀ m, gated s m → gated s' m := fun m hm =>
      gated_mono (fun t x hx => (heffect.gate_iff t x).mpr hx) (fun e he => heffect.selected_mono he) hm
    intro m hm
    simp only [List.mem_append, List.mem_cons] at hm
    rcases hm with hm | rfl | hm
    · exact hother m (h.members m (by simp [hm]))
    · exact heffect.gated_self h.jobs hself
    · exact hother m (h.members m (by simp [hm]))

end

private theorem gated_same {s s' : Sys} {ms ms' : Members} (h : Gated s ms)
    (hholds : ∀ t x, GateFact.Holds t s'.db x ↔ x.Holds t s.db)
    (hjobs : s'.db.pendingChannels = s.db.pendingChannels) (hpublished : s'.published = s.published)
    (hselected : s'.selected = s.selected) (hms' : ∀ m ∈ ms', m ∈ ms ∨ gated s' m) :
    Gated s' ms' := by
  constructor
  · intro e he x hx
    rw [hholds]
    exact h.jobs e (hjobs ▸ he) x hx
  · intro p hp id hid
    rw [hselected]
    exact h.published p (hpublished ▸ hp) id hid
  · intro m hm
    rcases hms' m hm with hold | hnew
    · exact gated_mono (fun t x hx => (hholds t x).mpr hx) (fun e he => hselected ▸ he)
        (h.members m hold)
    · exact hnew

private theorem gated_idle (s : Sys) {party : Party} {stage : Stage}
    (hstage : stage = .gates [] ∨ stage = .passing ∨ stage = .over) : gated s (party, stage) := by
  cases party with
  | request t req =>
      constructor
      · intro facts hfacts
        rcases hstage with rfl | rfl | rfl
        · obtain rfl := Stage.gates.inj hfacts
          simp
        · simp at hfacts
        · simp at hfacts
      · rcases hstage with rfl | rfl | rfl <;> simp [Stage.stores]
      · rcases hstage with rfl | rfl | rfl <;> simp [Stage.tx?]
  | pass id => rcases hstage with rfl | rfl | rfl <;> exact ⟨by simp [Stage.toDo], trivial⟩
  | consumer d => trivial

def NoAdmin (_ : World) : World.Label → Prop
  | .admin _ => False
  | _ => True

theorem gated_inductive (cfg : Config) : Inductive cfg NoAdmin
    (fun s ms => (Traced s ms ∧ OwnedOnce s ms) ∧ Filing s ms) Gated where
  call := fun _ _ _ heffect hK h => gated_call heffect hK.1.2 hK.2 h
  request := by
    intro w ms t req _ _ _ h
    refine gated_same h (fun _ _ => .rfl) rfl rfl rfl fun m hm => (List.mem_append.mp hm).imp id fun hm => ?_
    rw [List.mem_singleton.mp hm]
    exact gated_idle _ (.inl rfl)
  tick := by
    intro w ms _ _ _ h
    refine gated_same h (fun _ _ => .rfl) rfl rfl rfl fun m hm => (List.mem_append.mp hm).imp id fun hm => ?_
    rw [List.mem_singleton.mp hm]
    exact gated_idle _ (.inr (.inl rfl))
  deliver := by
    intro w ms i m _ _ _ _ h
    refine gated_same h (fun _ _ => .rfl) rfl rfl rfl fun x hx => (List.mem_append.mp hx).imp id fun hx => ?_
    rw [List.mem_singleton.mp hx]
    trivial
  admin := fun _ hok => hok.elim
  clock := by
    intro w ms now _ _ _ _ h
    exact gated_same h (fun t x => by cases x <;> rfl) rfl rfl rfl fun m hm => .inl hm
  crash := by
    intro w before after party stage _ _ _ h
    refine gated_same h (fun _ _ => .rfl) rfl rfl rfl fun m hm => ?_
    simp only [List.mem_append, List.mem_cons] at hm
    rcases hm with hm | rfl | hm
    · exact .inl (by simp [hm])
    · exact .inr (gated_idle _ (.inr (.inr rfl)))
    · exact .inl (by simp [hm])
  requeue := by
    intro w ms d _ _ _ _ h
    exact gated_same h (fun _ _ => .rfl) rfl rfl rfl fun m hm => .inl hm

private theorem gated_admin {cfg : Config} {w : World} {ms : Members} {a : AdminAction}
    (hal : Retired cfg ms w.threads) (hok : KeepsGates w (.admin a)) (h : Gated w.sys ms) :
    Gated { w.sys with db := w.sys.db.admin a } ms := by
  have hkept : ∀ e ∈ w.sys.db.pendingChannels ++ w.threads.flatMap Thread.asks,
      ∀ x ∈ gatesOf e.2, x.Holds e.1 w.sys.db → x.Holds e.1 (w.sys.db.admin a) := by
    intro e he x hx hopen
    exact GateFact.isOpen_iff.mp (hok e he x hx (GateFact.isOpen_iff.mpr hopen))
  have hpending : (w.sys.db.admin a).pendingChannels = w.sys.db.pendingChannels := by
    cases a <;> rfl
  constructor
  · intro e he x hx
    rw [hpending] at he
    exact hkept e (List.mem_append_left _ he) x hx (h.jobs e he x hx)
  · exact h.published
  · intro m hm
    have hold := h.members m hm
    obtain ⟨before, after, rfl⟩ := List.append_of_mem hm
    obtain ⟨_, th, _, hthreads, -, ⟨⟨hparty, -⟩, hended⟩, -⟩ := exists_split_of_forall₂_append hal
    obtain ⟨party, stage⟩ := m
    cases party with
    | pass id => exact hold
    | consumer d => trivial
    | request t req =>
        have hasks : stage ≠ .over → ∀ channel ∈ req.channels,
            (t, channel) ∈ w.sys.db.pendingChannels ++ w.threads.flatMap Thread.asks := by
          intro hrunning channel hc
          apply List.mem_append_right
          rw [List.mem_flatMap]
          refine ⟨th, by simp [hthreads], ?_⟩
          cases hprog : th.prog with
          | ret r => exact absurd (hended ⟨r, hprog⟩) hrunning
          | call c k =>
              rw [Thread.asks, hprog, ← hparty]
              exact List.mem_map_of_mem hc
        constructor
        · intro facts hstage channel hc x hx hmem
          have hrunning : stage ≠ .over := by simp [show stage = .gates facts from hstage]
          exact hkept _ (hasks hrunning channel hc) x hx (hold.facts facts hstage channel hc x hx hmem)
        · intro hstores channel hc x hx
          have hrunning : stage ≠ .over := by
            rintro rfl
            simp [Stage.stores] at hstores
          exact hkept _ (hasks hrunning channel hc) x hx (hold.passed hstores channel hc x hx)
        · exact hold.tx

private theorem label_noAdmin (w : World) {e : Event} (h : ∀ a, e ≠ .admin a) :
    NoAdmin w (w.label e) := by
  cases e with
  | admin a => exact absurd rfl (h a)
  | deliver i =>
      simp only [World.label]
      split <;> trivial
  | step i o =>
      simp only [World.label]
      split <;> trivial
  | crash i =>
      simp only [World.label]
      split <;> trivial
  | _ => trivial

private theorem gated_step {cfg : Config} {w w' : World} {e : Event}
    (hw : Described cfg
      (fun s ms => ((Traced s ms ∧ OwnedOnce s ms) ∧ Filing s ms) ∧ Gated s ms) w)
    (hok : KeepsGates w (w.label e)) (hstep : w.step cfg e = some w') :
    Described cfg
      (fun s ms => ((Traced s ms ∧ OwnedOnce s ms) ∧ Filing s ms) ∧ Gated s ms) w' := by
  have htwo := (traced_inductive cfg).and ((ownedOnce_inductive cfg).given fun _ _ _ => trivial)
  have hK := htwo.and (filing_inductive cfg)
  have hall : Inductive cfg NoAdmin Anything
      (fun s ms => ((Traced s ms ∧ OwnedOnce s ms) ∧ Filing s ms) ∧ Gated s ms) :=
    (hK.mono fun _ _ _ => trivial).and (gated_inductive cfg)
  cases e with
  | admin a =>
      obtain ⟨ms, hal, hKnown, hgated⟩ := hall.retire (fun _ _ => trivial) hw
      obtain rfl := Option.some.inj hstep
      exact ⟨ms, hal.aligned, hK.admin hal.aligned trivial trivial hKnown,
        gated_admin hal hok hgated⟩
  | _ => exact hall.step hw (label_noAdmin w (by simp)) hstep

/-- Every job that a pass publishes is for a tenant and a channel whose gates were all open when
the pass read its jobs, in every run in which administrators close no gate of a channel for which
a scheduled job is pending or a request is in progress. -/
theorem gates_open_when_routed {cfg : Config} {w₀ w : World} {es : List Event} (hfresh : w₀.Fresh)
    (hrun : w₀.RunOf cfg KeepsGates es w) {p : Publication} (hp : p ∈ w.sys.published) {id : Nat}
    (hid : p.party = .pass id) :
    ∃ db, (id, db) ∈ w.sys.selected ∧ db.tenantStatus p.job.tenantID = .ok .active ∧
      db.featureEnabled p.job.tenantID ("channel." ++ p.job.channel) = .ok true ∧
      ∃ config, db.channelConfig p.job.tenantID p.job.channel = .ok config ∧
        Notifications.checkConfig config "one_way" = .ok () := by
  have hempty : w₀.sys.db.pendingChannels = [] := by
    simp [Db.pendingChannels, hfresh.scheduledJobs]
  have hstart : Described cfg
      (fun s ms => ((Traced s ms ∧ OwnedOnce s ms) ∧ Filing s ms) ∧ Gated s ms) w₀ := by
    refine ⟨[], by rw [hfresh.threads]; exact .nil,
      ⟨⟨traced_fresh hfresh, ownedOnce_fresh hfresh⟩, filing_fresh hfresh⟩, ?_⟩
    exact ⟨by simp [hempty], by simp [hfresh.published], by simp⟩
  obtain ⟨ms, -, -, hgated⟩ :=
    Run.invariant hrun (fun _ _ _ hw hok hstep => gated_step hw hok hstep) hstart
  obtain ⟨db, hselected, hopen⟩ := hgated.published p hp id hid
  exact ⟨db, hselected, hopen .active (by simp [gatesOf]), hopen (.feature _) (by simp [gatesOf]),
    hopen (.valid _) (by simp [gatesOf])⟩

def passPublished (w : World) : Option (Queue × Job) :=
  match w.sys.published with
  | [⟨.pass 1, queue, job⟩] => some (queue, job)
  | _ => none

private theorem published_of_passPublished {w : World} {queue : Queue} {job : Job}
    (h : passPublished w = some (queue, job)) : w.sys.published = [⟨.pass 1, queue, job⟩] := by
  unfold passPublished at h
  split at h
  · next queue' job' hpublished =>
      obtain ⟨rfl, rfl⟩ := Prod.mk.inj (Option.some.inj h)
      exact hpublished
  · simp at h

/-- A request is scheduled for email, then an administrator takes another channel away, and a
pass publishes the job. -/
theorem gates_open_after_unrelated_change : ∃ w p,
    sampleWorld.RunOf (sampleConfig 3) KeepsGates
      (List.flatten [[.request 1 "t1" (sampleRequest ["email"]
        ⟨"scheduled", "2026-06-28T10:00:00Z"⟩ "")], steps 0 8,
        [.admin (.feature ⟨"t1", "channel.sms", false⟩), .clock 10, .tick], steps 1 5]) w ∧
    w.sys.published = [p] ∧ p.party = .pass 1 ∧ ∃ db, (1, db) ∈ w.sys.selected ∧
      db.featureEnabled p.job.tenantID ("channel." ++ p.job.channel) = .ok true := by
  obtain ⟨w, hrun, hw⟩ := World.exists_run (sampleConfig 3) KeepsGates sampleWorld
    (List.flatten [[.request 1 "t1" (sampleRequest ["email"]
      ⟨"scheduled", "2026-06-28T10:00:00Z"⟩ "")], steps 0 8,
      [.admin (.feature ⟨"t1", "channel.sms", false⟩), .clock 10, .tick], steps 1 5])
    (fun w => (passPublished w).isSome) (by decide +kernel)
  obtain ⟨⟨queue, job⟩, hjob⟩ := Option.isSome_iff_exists.mp hw
  have hpublished := published_of_passPublished hjob
  have hmem : ⟨.pass 1, queue, job⟩ ∈ w.sys.published := by
    rw [hpublished]
    exact List.mem_singleton_self _
  obtain ⟨db, hselected, -, hfeature, -⟩ :=
    gates_open_when_routed sampleWorld_fresh hrun hmem rfl
  exact ⟨w, _, hrun, hpublished, rfl, db, hselected, hfeature⟩

/-- The channel of a pending job is taken away, and the job is published all the same. -/
theorem routed_through_closed_gate : ¬∀ (cfg : Config) (w₀ w : World) (es : List Event),
    w₀.Fresh → w₀.RunOf cfg (fun _ _ => True) es w → ∀ p ∈ w.sys.published, ∀ id : Nat,
    p.party = .pass id →
    ∃ db, (id, db) ∈ w.sys.selected ∧ db.tenantStatus p.job.tenantID = .ok .active ∧
      db.featureEnabled p.job.tenantID ("channel." ++ p.job.channel) = .ok true ∧
      ∃ config, db.channelConfig p.job.tenantID p.job.channel = .ok config ∧
        Notifications.checkConfig config "one_way" = .ok () := by
  intro hclaim
  obtain ⟨w, hrun, hw⟩ := World.exists_run (sampleConfig 3) (fun _ _ => True) sampleWorld
    (List.flatten [[.request 1 "t1" (sampleRequest ["email"]
      ⟨"scheduled", "2026-06-28T10:00:00Z"⟩ "")], steps 0 8,
      [.admin (.feature ⟨"t1", "channel.email", false⟩), .clock 10, .tick], steps 1 5])
    (fun w => (passPublished w).any (fun e => e.2.tenantID == "t1" && e.2.channel == "email") &&
      w.sys.selected.all fun e => !(GateFact.feature "email").isOpen "t1" e.2)
    (by decide +kernel)
  obtain ⟨hany, hclosed⟩ := Bool.and_eq_true_iff.mp hw
  obtain ⟨⟨queue, job⟩, hjob, haddress⟩ := Option.any_eq_true _ _ |>.mp hany
  obtain ⟨ht, hc⟩ := Bool.and_eq_true_iff.mp haddress
  have hmem : ⟨.pass 1, queue, job⟩ ∈ w.sys.published := by
    rw [published_of_passPublished hjob]
    exact List.mem_singleton_self _
  obtain ⟨db, hselected, -, hfeature, -⟩ :=
    hclaim (sampleConfig 3) sampleWorld w _ sampleWorld_fresh hrun _ hmem 1 rfl
  have hshut := List.all_eq_true.mp hclosed (1, db) hselected
  rw [beq_iff_eq.mp ht, beq_iff_eq.mp hc] at hfeature
  have hopen : (GateFact.feature "email").isOpen "t1" db = true :=
    GateFact.isOpen_iff.mpr hfeature
  simp [hopen] at hshut

end NotificationPlatform

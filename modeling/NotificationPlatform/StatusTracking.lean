import NotificationPlatform.Conservation
import NotificationPlatform.Routing

/-!
# The status of a notification

The dashboard counts the notifications whose status is `queued`. `Send` writes the status and no
statement updates it, so it is right for as long as no call finishes the last pending job of a
scheduled notification or the last open delivery of a queued one.
-/

namespace NotificationPlatform

open Lib

def Db.pendingJobs (db : Db) (n : Nat) : List Nat :=
  db.scheduledJobs.rows.filterMap fun r =>
    if r.2.notificationID = n ∧ r.2.status = .pending then some r.1 else none

def Db.openDeliveries (db : Db) (n : Nat) : List Nat :=
  db.deliveries.rows.filterMap fun r =>
    if r.2.notificationID = n ∧ r.2.status.final = false then some r.1 else none

structure Db.Tracked (db : Db) : Prop where
  scheduled : ∀ r ∈ db.notifications.rows, r.2.status = .scheduled → db.pendingJobs r.1 ≠ []
  queued : ∀ r ∈ db.notifications.rows, r.2.status = .queued → db.openDeliveries r.1 ≠ []

def Stmt.routed : Stmt → Option Nat
  | .markRouted jobID => some jobID
  | _ => none

def Stmt.finished : Stmt → Option Nat
  | .markBlocked id | .markDead id => some id
  | .storeResult id status _ _ => if status.final then some id else none
  | _ => none

def NotLast (gone : Option Nat) (xs : List Nat) : Prop :=
  ∀ x ∈ gone, x ∈ xs → ∃ y ∈ xs, y ≠ x

instance (gone : Option Nat) (xs : List Nat) : Decidable (NotLast gone xs) :=
  inferInstanceAs (Decidable (∀ x ∈ gone, x ∈ xs → ∃ y ∈ xs, y ≠ x))

/-- A statement leaves every notification something of what its status says it waits for. -/
def Stmt.Spares (db : Db) (stmt : Stmt) : Prop :=
  ∀ r ∈ db.notifications.rows,
    (r.2.status = .scheduled → NotLast stmt.routed (db.pendingJobs r.1)) ∧
      (r.2.status = .queued → NotLast stmt.finished (db.openDeliveries r.1))

instance (db : Db) (stmt : Stmt) : Decidable (stmt.Spares db) :=
  inferInstanceAs (Decidable (∀ r ∈ db.notifications.rows,
    (r.2.status = .scheduled → NotLast stmt.routed (db.pendingJobs r.1)) ∧
      (r.2.status = .queued → NotLast stmt.finished (db.openDeliveries r.1))))

/-- No call that succeeds finishes the last thing a notification waits for. -/
def Sparing (cfg : Config) (w : World) : World.Label → Prop
  | .call party c o => w.sys.succeeds cfg party c o = true → c.stmt.Spares w.sys.db
  | _ => True

instance (cfg : Config) (w : World) : (l : World.Label) → Decidable (Sparing cfg w l)
  | .call party c o => inferInstanceAs
      (Decidable (w.sys.succeeds cfg party c o = true → c.stmt.Spares w.sys.db))
  | .request _ _ | .tick | .deliver _ | .admin _ | .clock | .crash _ | .requeue | .none =>
      inferInstanceAs (Decidable True)

theorem Db.mem_pendingJobs {db : Db} {n j : Nat} : j ∈ db.pendingJobs n ↔
    ∃ job, db.scheduledJobs.get? j = some job ∧ job.notificationID = n ∧ job.status = .pending := by
  simp only [Db.pendingJobs, List.mem_filterMap, Option.ite_none_right_eq_some, Option.some.injEq]
  constructor
  · rintro ⟨⟨k, job⟩, hmem, ⟨hn, hpending⟩, rfl⟩
    exact ⟨job, Table.get?_eq_some.mpr hmem, hn, hpending⟩
  · rintro ⟨job, hjob, hn, hpending⟩
    exact ⟨(j, job), Table.get?_eq_some.mp hjob, ⟨hn, hpending⟩, rfl⟩

theorem Db.mem_openDeliveries {db : Db} {n d : Nat} : d ∈ db.openDeliveries n ↔
    ∃ row, db.deliveries.get? d = some row ∧ row.notificationID = n ∧
      row.status.final = false := by
  simp only [Db.openDeliveries, List.mem_filterMap, Option.ite_none_right_eq_some,
    Option.some.injEq]
  constructor
  · rintro ⟨⟨k, row⟩, hmem, ⟨hn, hopen⟩, rfl⟩
    exact ⟨row, Table.get?_eq_some.mpr hmem, hn, hopen⟩
  · rintro ⟨row, hrow, hn, hopen⟩
    exact ⟨(d, row), Table.get?_eq_some.mp hrow, ⟨hn, hopen⟩, rfl⟩

private theorem ne_nil_of_notLast {gone : Option Nat} {xs ys : List Nat} (hne : xs ≠ [])
    (hkept : ∀ x ∈ xs, x ∈ ys ∨ gone = some x) (hlast : NotLast gone xs) : ys ≠ [] := by
  obtain ⟨x, hx⟩ := List.exists_mem_of_ne_nil xs hne
  rcases hkept x hx with hy | hgone
  · exact List.ne_nil_of_mem hy
  · obtain ⟨y, hy, hyx⟩ := hlast x hgone hx
    rcases hkept y hy with hleft | hgone'
    · exact List.ne_nil_of_mem hleft
    · exact absurd (Option.some.inj (hgone'.symm.trans hgone)) hyx

private theorem notLast_of_ne_nil {gone : Option Nat} {xs ys : List Nat} (hne : ys ≠ [])
    (hkept : ∀ y ∈ ys, y ∈ xs ∧ gone ≠ some y) : NotLast gone xs := by
  intro x hx _
  obtain ⟨y, hy⟩ := List.exists_mem_of_ne_nil ys hne
  obtain ⟨hold, hgone⟩ := hkept y hy
  refine ⟨y, hold, ?_⟩
  rintro rfl
  exact hgone hx

section

variable {cfg : Config} {s s' : Sys} {before after : Members} {party : Party}
  {stage stage' : Stage} {c : Call} {success : Bool} {n : Nat}

theorem Effect.db_of_failed (h : Effect cfg s party stage c false stage' s') : s'.db = s.db := by
  generalize hfalse : false = success at h
  cases h with
  | providerSend _ _ => rfl
  | getControlError _ _ => rfl
  | writeError _ _ => rfl
  | insertAttemptError _ => rfl
  | republishError _ _ => rfl
  | settleError _ _ => rfl
  | gate _ => rfl
  | gateClosed => rfl
  | giveUp _ _ => rfl
  | _ => simp at hfalse

private theorem Writes.finished {d : Delivery} {job : Job} {now : Nat}
    {phase onOk onError : Phase} {f : DeliveryRow → Option DeliveryRow} {row row' : DeliveryRow}
    (h : Writes cfg d job now phase c f onOk onError) (hf : f row = some row')
    (hopen : row.status.final = false) :
    row'.notificationID = row.notificationID ∧
      (row'.status.final = false ∨ c.stmt.finished = some job.deliveryID) := by
  cases h with
  | sending =>
      obtain rfl := Option.some.inj hf
      exact ⟨rfl, .inl rfl⟩
  | result r =>
      obtain rfl := Option.some.inj hf
      refine ⟨rfl, ?_⟩
      cases hfinal : (Worker.resultStatus r).final with
      | false => exact .inl rfl
      | true => exact .inr (by simp [Stmt.finished, hfinal])
  | paused =>
      obtain ⟨response, -, rfl⟩ := Option.map_eq_some_iff.mp hf
      exact ⟨rfl, .inl rfl⟩
  | retryCount =>
      obtain ⟨response, -, rfl⟩ := Option.map_eq_some_iff.mp hf
      exact ⟨rfl, .inl hopen⟩
  | _ =>
      obtain ⟨response, -, rfl⟩ := Option.map_eq_some_iff.mp hf
      exact ⟨rfl, .inr rfl⟩

theorem Effect.openDeliveries_kept (h : Effect cfg s party stage c success stage' s') {d : Nat}
    (hd : d ∈ s.db.openDeliveries n) :
    d ∈ s'.db.openDeliveries n ∨ c.stmt.finished = some d := by
  obtain ⟨row, hrow, hn, hopen⟩ := Db.mem_openDeliveries.mp hd
  rcases h.row_cases hrow with hsame | ⟨u, job, phase, f, _, _, row', -, -, rfl, -, -, hwrites,
    hf, hrow'⟩
  · exact .inl (Db.mem_openDeliveries.mpr ⟨row, hsame, hn, hopen⟩)
  · obtain ⟨hsameID, hfinal⟩ := hwrites.finished hf hopen
    refine hfinal.imp (fun hstill => ?_) id
    exact Db.mem_openDeliveries.mpr ⟨row', hrow', hsameID.trans hn, hstill⟩

theorem Effect.pendingJobs_kept (h : Effect cfg s party stage c success stage' s') {j : Nat}
    (hj : j ∈ s.db.pendingJobs n) :
    j ∈ s'.db.pendingJobs n ∨ c.stmt.routed = some j := by
  obtain ⟨job, hjob, hn, hpending⟩ := Db.mem_pendingJobs.mp hj
  rcases h.agrees_cases with ⟨_, _, _, _, hdb⟩ | ⟨t, req, tx, -, -, -, rfl⟩ |
    ⟨_, row, _, _, -, -, -, rfl, rfl⟩
  · refine .inl (Db.mem_pendingJobs.mpr ⟨job, ?_, hn, hpending⟩)
    rwa [hdb]
  · exact .inl (Db.mem_pendingJobs.mpr ⟨job, Table.get?_insertAll_of_some hjob, hn, hpending⟩)
  · by_cases hid : j = row.jobID
    · exact .inr (by rw [hid]; rfl)
    · refine .inl (Db.mem_pendingJobs.mpr ⟨job, ?_, hn, hpending⟩)
      rw [Db.markRouted_scheduledJobs, Table.get?_modify_ne _ _ hid]
      exact hjob

theorem Effect.notification_rows (h : Effect cfg s party stage c success stage' s')
    (howned : OwnedOnce s (before ++ (party, stage) :: after)) {r : Nat × Notification}
    (hr : r ∈ s'.db.notifications.rows) :
    r ∈ s.db.notifications.rows ∨
    ∃ tx, ((∃ m, stage = .open m tx []) ∨ stage = .filed tx) ∧ r = tx.notification ∧
      s'.db = s.db.commit tx := by
  rcases h.agrees_cases with ⟨_, _, _, _, hdb⟩ | ⟨t, req, tx, -, hstage, -, rfl⟩ |
    ⟨_, _, _, _, -, -, -, -, rfl⟩
  · rw [hdb] at hr
    exact .inl hr
  · have htx : stage.tx? = some tx := by
      rcases hstage with ⟨_, rfl⟩ | rfl <;> rfl
    have hrows : r ∈ s.db.notifications.rows ++ [tx.notification] := by
      rw [← (howned.commit_rows htx).1]
      exact hr
    rcases List.mem_append.mp hrows with hold | hnew
    · exact .inl hold
    · exact .inr ⟨tx, hstage, List.mem_singleton.mp hnew, rfl⟩
  · exact .inl hr

/-- The status of a transaction's notification says which way its `Send` goes. -/
structure Tx.Promises (tx : Tx) : Prop where
  instant : tx.notification.2.scheduledAt = none → tx.notification.2.status = .queued
  later : ∀ dueAt, tx.notification.2.scheduledAt = some dueAt →
    tx.notification.2.status = .scheduled ∧ tx.deliveries = []
  waiting : ∀ p ∈ tx.deliveries, p.2.status = .queued

/-- A transaction cannot be committed before it holds what its notification waits for. -/
def Stage.Promises : Stage → Prop
  | .open _ tx todo => tx.Promises ∧ (todo = [] → tx.deliveries ≠ [])
  | .creating _ _ tx _ _ _ => tx.Promises ∧ tx.deliveries ≠ []
  | .filed tx => tx.notification.2.status = .scheduled ∧ tx.job ≠ none
  | _ => True

private theorem newNotification_promises {t publicID : String} {req : Request}
    {scheduledAt : Option Nat} {status : NotificationStatus} {schedule : Schedule} {id : Nat}
    (hstate : scheduleState cfg schedule = .ok (scheduledAt, status)) :
    Tx.Promises ⟨(id, Notifications.newNotification t publicID req scheduledAt status), [],
      none⟩ := by
  unfold scheduleState at hstate
  split at hstate
  · split at hstate
    · simp at hstate
    · obtain ⟨rfl, rfl⟩ : some _ = scheduledAt ∧ _ = status := by simpa using hstate
      exact ⟨by simp [Notifications.newNotification], fun _ _ => ⟨rfl, rfl⟩, by simp⟩
  · obtain ⟨rfl, rfl⟩ : none = scheduledAt ∧ _ = status := by simpa using hstate
    exact ⟨fun _ => rfl, by simp [Notifications.newNotification], by simp⟩

private theorem Effect.promises (h : Effect cfg s party stage c success stage' s')
    (hnamed : ∀ t req, party = .request t req → req.channels ≠ []) (hstage : stage.Promises) :
    stage'.Promises := by
  cases h with
  | insertNotification hrow hstate =>
      rw [hrow]
      exact ⟨newNotification_promises hstate, fun hnil => absurd hnil (hnamed _ _ rfl)⟩
  | insertScheduledJob _ hdue => exact ⟨(hstage.1.later _ hdue).1, by simp⟩
  | insertTxDelivery hinstant =>
      refine ⟨⟨hstage.1.instant, fun dueAt hdue => ?_, fun p hp => ?_⟩, by simp⟩
      · simp [hinstant] at hdue
      · rcases List.mem_append.mp hp with hp | hp
        · exact hstage.1.waiting p hp
        · rw [List.mem_singleton.mp hp]
          rfl
  | sendEnsureControl _ => exact hstage
  | sendPublish _ => exact ⟨hstage.1, fun _ => hstage.2⟩
  | _ => trivial

private theorem committed_tracked {tx : Tx}
    (howned : OwnedOnce s (before ++ (party, stage) :: after))
    (hfiles : stage.files s) (hpromises : stage.Promises)
    (hstage : (∃ m, stage = .open m tx []) ∨ stage = .filed tx) :
    (tx.notification.2.status = .scheduled →
      (s.db.commit tx).pendingJobs tx.notification.1 ≠ []) ∧
    (tx.notification.2.status = .queued →
      (s.db.commit tx).openDeliveries tx.notification.1 ≠ []) := by
  have htx : stage.tx? = some tx := by
    rcases hstage with ⟨_, rfl⟩ | rfl <;> rfl
  have hfiled := Stage.files_tx hfiles htx
  obtain ⟨-, hdeliveries, hjobs⟩ := howned.commit_rows htx
  rcases hstage with ⟨m, rfl⟩ | rfl
  · obtain ⟨hpromise, hne⟩ := hpromises
    have hsome := hne rfl
    have hqueued : tx.notification.2.status = .queued := by
      cases hat : tx.notification.2.scheduledAt with
      | none => exact hpromise.instant hat
      | some dueAt => exact absurd (hpromise.later dueAt hat).2 hsome
    refine ⟨fun hscheduled => by simp [hqueued] at hscheduled, fun _ => ?_⟩
    obtain ⟨p, hp⟩ := List.exists_mem_of_ne_nil _ hsome
    have hmem : p ∈ (s.db.commit tx).deliveries.rows := by
      rw [hdeliveries]
      exact List.mem_append_right _ hp
    refine List.ne_nil_of_mem (Db.mem_openDeliveries.mpr ⟨p.2, Table.get?_eq_some.mpr hmem,
      hfiled.deliveries p hp, ?_⟩)
    rw [hpromise.waiting p hp]
    rfl
  · obtain ⟨hscheduled, hjob⟩ := hpromises
    refine ⟨fun _ => ?_, fun hqueued => by simp [hscheduled] at hqueued⟩
    obtain ⟨e, he⟩ := Option.ne_none_iff_exists'.mp hjob
    obtain ⟨hn, hpending, -⟩ := hfiled.job e he
    have hmem : e ∈ (s.db.commit tx).scheduledJobs.rows := by
      rw [hjobs]
      exact List.mem_append_right _ (by simp [he])
    exact List.ne_nil_of_mem (Db.mem_pendingJobs.mpr ⟨e.2, Table.get?_eq_some.mpr hmem, hn,
      hpending⟩)

private theorem Effect.tracked (h : Effect cfg s party stage c success stage' s')
    (howned : OwnedOnce s (before ++ (party, stage) :: after)) (hfiles : stage.files s)
    (hpromises : stage.Promises) (hspares : success = true → c.stmt.Spares s.db)
    (htracked : s.db.Tracked) : s'.db.Tracked := by
  cases success with
  | false => rwa [h.db_of_failed]
  | true =>
      constructor
      · intro r hr hscheduled
        rcases h.notification_rows howned hr with hold | ⟨tx, hstage, rfl, hdb⟩
        · apply ne_nil_of_notLast (htracked.scheduled r hold hscheduled)
          · exact fun j hj => h.pendingJobs_kept hj
          · exact (hspares rfl r hold).1 hscheduled
        · rw [hdb]
          exact (committed_tracked howned hfiles hpromises hstage).1 hscheduled
      · intro r hr hqueued
        rcases h.notification_rows howned hr with hold | ⟨tx, hstage, rfl, hdb⟩
        · apply ne_nil_of_notLast (htracked.queued r hold hqueued)
          · exact fun d hd => h.openDeliveries_kept hd
          · exact (hspares rfl r hold).2 hqueued
        · rw [hdb]
          exact (committed_tracked howned hfiles hpromises hstage).2 hqueued

end

def World.Named (w : World) : Prop :=
  ∀ th ∈ w.threads, ∀ t req, th.party = .request t req → req.channels = [] → th.prog = .ret ()

private theorem send_unnamed (cfg : Config) (unixNano : Nat) (t : String) {req : Request}
    (h : req.channels = []) : forget (Notifications.send cfg unixNano t req) = .ret () := by
  unfold Notifications.send
  by_cases ht : t = ""
  · rw [if_pos ht]
    rfl
  · rw [if_neg ht, if_pos h]
    rfl

theorem World.Named.step {cfg : Config} {w w' : World} {e : Event} (h : w.Named)
    (hstep : w.step cfg e = some w') : w'.Named := by
  -- a thread that goes on had not ended before
  have hset : ∀ {i : Nat} {th : Thread} {prog : Code Unit} {x : Thread},
      x ∈ w.threads.set i ⟨th.party, prog⟩ → w.threads[i]? = some th →
      (prog = .ret () ∨ th.prog ≠ .ret ()) → ∀ t req, x.party = .request t req →
        req.channels = [] → x.prog = .ret () := by
    intro i th prog x hx hth hprog t req hparty hnil
    rcases List.mem_or_eq_of_mem_set hx with hold | rfl
    · exact h x hold t req hparty hnil
    · refine hprog.elim id fun hcall => absurd ?_ hcall
      exact h th (List.mem_of_getElem? hth) t req hparty hnil
  intro x hx t req hparty hnil
  cases e with
  | request unixNano t' req' =>
      cases hstep
      rcases List.mem_append.mp hx with hold | hnew
      · exact h x hold t req hparty hnil
      · rw [List.mem_singleton.mp hnew] at hparty ⊢
        obtain ⟨rfl, rfl⟩ : t' = t ∧ req' = req := by simpa using hparty
        exact send_unnamed cfg unixNano t' hnil
  | tick =>
      cases hstep
      rcases List.mem_append.mp hx with hold | hnew
      · exact h x hold t req hparty hnil
      · rw [List.mem_singleton.mp hnew] at hparty
        simp at hparty
  | deliver i =>
      simp only [World.step] at hstep
      split at hstep
      · simp at hstep
      · obtain ⟨p, -, rfl⟩ := Option.map_eq_some_iff.mp hstep
        rcases List.mem_append.mp hx with hold | hnew
        · exact h x hold t req hparty hnil
        · rw [List.mem_singleton.mp hnew] at hparty
          simp at hparty
  | step i o =>
      simp only [World.step] at hstep
      split at hstep
      · simp at hstep
      · next th hth =>
          obtain ⟨party, prog⟩ := th
          cases prog with
          | ret _ => simp at hstep
          | call c k =>
              obtain rfl := Option.some.inj hstep
              exact hset hx hth (.inr (by simp)) t req hparty hnil
  | crash i =>
      simp only [World.step] at hstep
      split at hstep
      · simp at hstep
      · next th hth =>
          obtain rfl := Option.some.inj hstep
          exact hset hx hth (.inl rfl) t req hparty hnil
  | requeue i =>
      simp only [World.step] at hstep
      split at hstep
      · simp at hstep
      · obtain rfl := Option.some.inj hstep
        exact h x hx t req hparty hnil
  | _ =>
      cases hstep
      exact h x hx t req hparty hnil

/-- The calls of a `Send` that has channels, sparing what other notifications wait for. -/
private def SparingNamed (cfg : Config) (w : World) (l : World.Label) : Prop :=
  Sparing cfg w l ∧ ∀ t req c o, l = .call (.request t req) c o → req.channels ≠ []

private theorem World.Named.channels {w : World} {e : Event} (h : w.Named) {t : String}
    {req : Request} {c : Call} {o : Outcome} (hl : w.label e = .call (.request t req) c o) :
    req.channels ≠ [] := by
  intro hnil
  cases e with
  | step i o' =>
      simp only [World.label] at hl
      split at hl
      · next party c' k hth =>
          obtain ⟨rfl, -⟩ : party = .request t req ∧ _ := by simpa using hl
          have hret := h _ (List.mem_of_getElem? hth) t req rfl hnil
          simp at hret
      · simp at hl
  | deliver i =>
      simp only [World.label] at hl
      split at hl <;> simp at hl
  | crash i =>
      simp only [World.label] at hl
      split at hl <;> simp at hl
  | _ => simp [World.label] at hl

private def Tracking (s : Sys) (ms : Members) : Prop := s.db.Tracked ∧ ∀ m ∈ ms, m.2.Promises

private theorem tracking_inductive (cfg : Config) : Inductive cfg (SparingNamed cfg)
    (fun s ms => (Traced s ms ∧ OwnedOnce s ms) ∧ Filing s ms) Tracking := by
  apply Inductive.each (P := fun s => s.db.Tracked) (Q := fun _ m => m.2.Promises)
  case call =>
    intro w before after party stage stage' c o success s' hok hsuccess heffect hK hP hQ
    have hstage := hQ (party, stage) (by simp)
    have hnamed : ∀ t req, party = .request t req → req.channels ≠ [] := by
      rintro t req rfl
      exact hok.2 t req c o rfl
    refine ⟨?_, heffect.promises hnamed hstage, fun m hm => hQ m ?_⟩
    · exact heffect.tracked hK.1.2 (hK.2.files (party, stage) (by simp)) hstage
        (fun htrue => hok.1 (hsuccess.trans htrue)) hP
    · simp only [List.mem_append, List.mem_cons] at hm ⊢
      tauto
  case request => exact fun _ => trivial
  case tick => exact trivial
  case deliver => exact fun _ h => ⟨⟨h.scheduled, h.queued⟩, trivial, fun _ hx => hx⟩
  case admin =>
    intro s a h
    refine ⟨?_, fun _ hx => hx⟩
    cases a <;> exact ⟨h.scheduled, h.queued⟩
  case clock => exact fun _ h => ⟨⟨h.scheduled, h.queued⟩, fun _ hx => hx⟩
  case crash => exact fun _ => trivial
  case requeue => exact fun _ h => ⟨⟨h.scheduled, h.queued⟩, fun _ hx => hx⟩

private theorem performed {cfg : Config} {party : Party} {c : Call} {o : Outcome} {s : Sys}
    (h : s.succeeds cfg party c o = true) :
    ∃ r, s.perform cfg party o c.stmt = .ok (r, (s.exec cfg party c o).2) := by
  unfold Sys.succeeds at h
  unfold Sys.exec at h ⊢
  cases hfail : o.fail with
  | true => simp [hfail, Except.isOk, Except.toBool] at h
  | false =>
      cases hp : s.perform cfg party o c.stmt with
      | error e => simp [hfail, hp, Except.isOk, Except.toBool] at h
      | ok p => exact ⟨p.1, by simp⟩

private theorem routed_exec {cfg : Config} {party : Party} {c : Call} {o : Outcome} {s : Sys}
    {j : Nat} (hsucc : s.succeeds cfg party c o = true) (hj : c.stmt.routed = some j) :
    (s.exec cfg party c o).2.db = s.db.markRouted j := by
  obtain ⟨r, hperform⟩ := performed hsucc
  generalize (s.exec cfg party c o).2 = s' at hperform
  obtain ⟨site, stmt⟩ := c
  cases stmt with
  | markRouted jobID =>
      obtain rfl := Option.some.inj hj
      obtain ⟨-, rfl⟩ := Prod.mk.inj (Except.ok.inj hperform)
      rfl
  | _ => simp [Stmt.routed] at hj

private theorem withDb_ok {s s' : Sys} {x : Except Err Db} {u : Unit}
    (h : s.withDb x = .ok (u, s')) : x = .ok s'.db := by
  cases x with
  | error e => simp [Sys.withDb, Except.map] at h
  | ok db =>
      obtain ⟨-, rfl⟩ := Prod.mk.inj (Except.ok.inj h)
      rfl

private theorem finished_exec {cfg : Config} {party : Party} {c : Call} {o : Outcome} {s : Sys}
    {d : Nat} (hsucc : s.succeeds cfg party c o = true) (hd : c.stmt.finished = some d) :
    ∃ f, s.db.updateDelivery d f = .ok (s.exec cfg party c o).2.db ∧
      ∀ row row', f row = some row' → row'.status.final = true := by
  obtain ⟨r, hperform⟩ := performed hsucc
  generalize (s.exec cfg party c o).2 = s' at hperform
  obtain ⟨site, stmt⟩ := c
  cases stmt with
  | markBlocked id =>
      obtain rfl := Option.some.inj hd
      refine ⟨_, withDb_ok hperform, fun row row' hf => ?_⟩
      obtain ⟨response, -, rfl⟩ := Option.map_eq_some_iff.mp hf
      rfl
  | markDead id =>
      obtain rfl := Option.some.inj hd
      refine ⟨_, withDb_ok hperform, fun row row' hf => ?_⟩
      obtain ⟨response, -, rfl⟩ := Option.map_eq_some_iff.mp hf
      rfl
  | storeResult id status providerMessageID response =>
      obtain ⟨hfinal, rfl⟩ : status.final = true ∧ id = d := by simpa [Stmt.finished] using hd
      refine ⟨_, withDb_ok hperform, fun row row' hf => ?_⟩
      obtain rfl := Option.some.inj hf
      exact hfinal
  | _ => simp [Stmt.finished] at hd

private theorem spares_of_tracked {cfg : Config} {party : Party} {c : Call} {o : Outcome} {s : Sys}
    (hsucc : s.succeeds cfg party c o = true) (h : (s.exec cfg party c o).2.db.Tracked) :
    c.stmt.Spares s.db := by
  intro r hr
  constructor
  · intro hscheduled j hj
    have hdb := routed_exec hsucc hj
    rw [hdb] at h
    refine notLast_of_ne_nil (h.scheduled r hr hscheduled) (fun y hy => ?_) j hj
    obtain ⟨job, hjob, hn, hpending⟩ := Db.mem_pendingJobs.mp hy
    rw [Db.markRouted_scheduledJobs, Table.get?_modify] at hjob
    split at hjob
    · obtain ⟨old, -, rfl⟩ := Option.map_eq_some_iff.mp hjob
      simp at hpending
    · next hne =>
        refine ⟨Db.mem_pendingJobs.mpr ⟨job, hjob, hn, hpending⟩, fun hy' => hne ?_⟩
        exact Option.some.inj (hy'.symm.trans hj)
  · intro hqueued d hd
    obtain ⟨f, hdb, hfinal⟩ := finished_exec hsucc hd
    intro hopen
    obtain ⟨row, hrow, hn, hnot⟩ := Db.mem_openDeliveries.mp hopen
    rcases Db.updateDelivery_cases hdb with ⟨hnone, -⟩ | ⟨old, new, hold, hf, hdb'⟩
    · simp [hnone] at hrow
    · rw [hdb'] at h
      refine notLast_of_ne_nil (h.queued r hr hqueued) (fun y hy => ?_) d hd hopen
      obtain ⟨row', hrow', hn', hnot'⟩ := Db.mem_openDeliveries.mp hy
      rw [Table.get?_modify] at hrow'
      split at hrow'
      · obtain ⟨old', -, rfl⟩ := Option.map_eq_some_iff.mp hrow'
        simp [hfinal old new hf] at hnot'
      · next hne =>
          refine ⟨Db.mem_openDeliveries.mpr ⟨row', hrow', hn', hnot'⟩, fun hy' => hne ?_⟩
          exact Option.some.inj (hy'.symm.trans hd)

private theorem sparing_of_tracked {cfg : Config} {w w' : World} {e : Event}
    (hstep : w.step cfg e = some w') (h : w'.sys.db.Tracked) : Sparing cfg w (w.label e) := by
  cases e with
  | step i o =>
      simp only [World.step] at hstep
      split at hstep
      · simp at hstep
      · next th hth =>
          obtain ⟨party, prog⟩ := th
          cases prog with
          | ret _ => simp at hstep
          | call c k =>
              obtain rfl := Option.some.inj hstep
              have hlabel : w.label (.step i o) = .call party c o := by simp [World.label, hth]
              rw [hlabel]
              exact fun hsucc => spares_of_tracked hsucc h
  | deliver i =>
      simp only [World.label]
      split <;> trivial
  | crash i =>
      simp only [World.label]
      split <;> trivial
  | _ => trivial

/-- **The status of a notification.** In a run, whatever fails or crashes, every notification
waits for what its status says in every state exactly when no call that succeeds finishes the
last thing that its notification waits for. -/
theorem status_tracked_iff {cfg : Config} {w w' : World} {es : List Event} (hfresh : w.Fresh) :
    (w.RunOf cfg (fun u _ => u.sys.db.Tracked) es w' ∧ w'.sys.db.Tracked) ↔
      w.RunOf cfg (Sparing cfg) es w' := by
  constructor
  · rintro ⟨hrun, hlast⟩
    exact Run.of_states hrun hlast fun u e u' _ hu' hstep => sparing_of_tracked hstep hu'
  · intro hrun
    have hK := (traced_inductive cfg).and ((ownedOnce_inductive cfg).given fun _ _ _ => trivial)
    have hfiling : Inductive cfg (SparingNamed cfg) Anything
        (fun s ms => (Traced s ms ∧ OwnedOnce s ms) ∧ Filing s ms) :=
      (hK.and (filing_inductive cfg)).mono fun _ _ _ => trivial
    have hall := hfiling.and (tracking_inductive cfg)
    -- the guard that knows the channels comes from the threads of each state
    have hnamed : w.RunOf cfg (SparingNamed cfg) es w' := by
      apply Run.mono_of_invariant (I := World.Named) hrun
      · simp [World.Named, hfresh.threads]
      · exact fun u e u' hu _ hstep => hu.step hstep
      · exact fun u e hu hok => ⟨hok, fun t req c o hl => hu.channels hl⟩
    have hstart : Described cfg
        (fun s ms => ((Traced s ms ∧ OwnedOnce s ms) ∧ Filing s ms) ∧ Tracking s ms) w := by
      refine ⟨[], by rw [hfresh.threads]; exact .nil, ⟨⟨traced_fresh hfresh,
        ownedOnce_fresh hfresh⟩, filing_fresh hfresh⟩, ⟨?_, ?_⟩, by simp⟩
      · simp [hfresh.notifications]
      · simp [hfresh.notifications]
    have htracked : ∀ {u}, Described cfg
        (fun s ms => ((Traced s ms ∧ OwnedOnce s ms) ∧ Filing s ms) ∧ Tracking s ms) u →
          u.sys.db.Tracked := by
      rintro u ⟨ms, -, -, h, -⟩
      exact h
    refine ⟨?_, htracked (hall.run hnamed hstart)⟩
    exact Run.mono_of_invariant hnamed hstart (fun u e u' hu hok hstep => hall.step hu hok hstep)
      fun u e hu _ => htracked hu

/-- A request for two channels is sent, and one of its two jobs is consumed. -/
theorem status_tracked_sent : ∃ es w, sampleWorld.RunOf (sampleConfig 3)
    (Sparing (sampleConfig 3)) es w ∧ w.sys.db.stamp? 1 = some (.sent, true) ∧
      w.sys.db.Tracked := by
  obtain ⟨w, hrun, hw⟩ := World.exists_run (sampleConfig 3) (Sparing (sampleConfig 3)) sampleWorld
    (List.flatten [[.request 1 "t1" (sampleRequest ["email", "sms"] ⟨"", ""⟩ "")], steps 0 16,
      [.deliver 0], steps 1 6]) (fun w => w.sys.db.stamp? 1 == some (.sent, true)) (by decide +kernel)
  exact ⟨_, w, hrun, by simpa using hw, ((status_tracked_iff sampleWorld_fresh).mpr hrun).2⟩

/-- The one delivery of a request is sent and nothing is left to do: its notification still
counts as queued. -/
theorem status_stays_queued : ¬∀ (cfg : Config) (w₀ w : World) (es : List Event), w₀.Fresh →
    w₀.RunOf cfg (Clean cfg) es w → (∀ th ∈ w.threads, th.prog.next? = none) →
      w.sys.db.Tracked := by
  intro hclaim
  obtain ⟨w, hrun, hw⟩ := World.exists_run (sampleConfig 3) (Clean (sampleConfig 3)) sampleWorld
    (List.flatten [[.request 1 "t1" (sampleRequest ["email"] ⟨"", ""⟩ "")], steps 0 10,
      [.deliver 0], steps 1 6])
    (fun w => (w.threads.all fun th => th.prog.next?.isNone) &&
      w.sys.db.notifications.rows.any fun r =>
        r.2.status == .queued && (w.sys.db.openDeliveries r.1).isEmpty) (by decide +kernel)
  obtain ⟨hidle, hleft⟩ := Bool.and_eq_true_iff.mp hw
  obtain ⟨r, hr, hrow⟩ := List.any_eq_true.mp hleft
  obtain ⟨hqueued, hempty⟩ := Bool.and_eq_true_iff.mp hrow
  have htracked := hclaim (sampleConfig 3) sampleWorld w _ sampleWorld_fresh hrun
    fun th hth => by simpa using List.all_eq_true.mp hidle th hth
  exact htracked.queued r hr (beq_iff_eq.mp hqueued) (List.isEmpty_iff.mp hempty)

end NotificationPlatform

import NotificationPlatform.Solo

/-!
# All or nothing

The rows of a `Send` are written in one transaction, but its jobs are published one by one before
the commit. What an error leaves behind is decided by whether the first job has been published.
-/

namespace NotificationPlatform

open Lib

/-- `Send` alone, under a plan of which of its calls fail. -/
def sendAlone (cfg : Config) (unixNano : Nat) (t : String) (req : Request) (plan : Site → Outcome)
    (s : Sys) : Except Err Accepted × Sys :=
  alone cfg (.request t req) (fun c => plan c.site) (Notifications.send cfg unixNano t req) s

/-- The tables that a `Send` writes have the same rows. -/
structure SameRows (s s' : Sys) : Prop where
  notifications : s'.db.notifications = s.db.notifications
  deliveries : s'.db.deliveries = s.db.deliveries
  scheduledJobs : s'.db.scheduledJobs = s.db.scheduledJobs

/-- If `Send` returns an error, it has left no row and no job behind. -/
def AllOrNothing (cfg : Config) (unixNano : Nat) (t : String) (req : Request)
    (plan : Site → Outcome) (s : Sys) : Prop :=
  ∀ e s', sendAlone cfg unixNano t req plan s = (.error e, s') →
    SameRows s s' ∧ s'.broker.ready = s.broker.ready

/-! ## When the statements of `Send` succeed -/

section

variable (cfg : Config) (plan : Site → Outcome) (t : String)

def activeOpen (db : Db) : Bool :=
  !(plan (.send .ensureActive 0)).fail &&
    match db.tenantStatus t with
    | .ok status => status == .active
    | .error _ => false

def gateOpen (db : Db) (i : Nat) (channel : String) : Bool :=
  !(plan (.send .feature i)).fail &&
    (match db.featureEnabled t ("channel." ++ channel) with
      | .ok enabled => enabled
      | .error _ => false) &&
    !(plan (.send .validate i)).fail &&
    (match db.channelConfig t channel with
      | .ok config => (Notifications.checkConfig config "one_way").isOk
      | .error _ => false) &&
    !(plan (.send .allow i)).fail && (plan (.send .allow i)).allowed

def gatesOpen (db : Db) : Nat → List String → Bool
  | _, [] => true
  | i, channel :: rest => gateOpen plan t db i channel && gatesOpen db (i + 1) rest

/-- The database after the delivery of iteration `i` has been created and its job published. -/
def served (db : Db) (i : Nat) (channel : String) : Option Db :=
  if (plan (.send .insertDelivery i)).fail || (plan (.send .ensureControl i)).fail ||
      (plan (.send .publish i)).fail then none
  else
    match { db with nextId := db.nextId + 1 }.ensureControl cfg t channel with
    | .ok (_, db') => some db'
    | .error _ => none

def allServed (db : Db) : Nat → List String → Bool
  | _, [] => true
  | i, channel :: rest =>
      match served cfg plan t db i channel with
      | some db' => allServed db' (i + 1) rest
      | none => false

end

theorem exec_read {cfg : Config} {party : Party} {s : Sys} {stmt : Stmt}
    {r : Except Err (Result stmt)} {o : Outcome} (site : Site)
    (hfailed : s.failed party stmt = s) (hperform : s.perform cfg party o stmt = r.map (·, s)) :
    s.exec cfg party ⟨site, stmt⟩ o = (bif o.fail then .error .driver else r, s) := by
  cases hfail : o.fail with
  | true => simp [Sys.exec, hfail, hfailed]
  | false => cases r <;> simp [Sys.exec, hfail, hperform, Except.map]

section

variable (cfg : Config) (party : Party) (plan : Site → Outcome) (t : String) (s : Sys)

theorem ensureActive_alone :
    ∃ r, alone cfg party (fun c => plan c.site) (Notifications.ensureActive t) s = (r, s) ∧
      (r = .ok () ↔ activeOpen plan t s.db = true) := by
  rw [Notifications.ensureActive, alone_bind, alone_call, exec_read _ rfl rfl]
  cases hfail : (plan (.send .ensureActive 0)).fail with
  | true => exact ⟨_, rfl, by simp [activeOpen, hfail]⟩
  | false =>
      cases hstatus : s.db.tenantStatus t with
      | error e => exact ⟨_, rfl, by simp [activeOpen, hstatus]⟩
      | ok status => cases status <;> exact ⟨_, rfl, by simp [activeOpen, hfail, hstatus]⟩

private theorem checkChannel_alone (i : Nat) (channel : String) :
    ∃ r, alone cfg party (fun c => plan c.site) (Notifications.checkChannel t i channel) s =
      (r, s) ∧ (r = .ok () ↔ gateOpen plan t s.db i channel = true) := by
  simp only [Notifications.checkChannel, gateOpen]
  rw [alone_bind, alone_attempt, exec_read _ rfl rfl]
  cases hfail : (plan (.send .feature i)).fail with
  | true => exact ⟨_, rfl, by simp⟩
  | false =>
  cases hfeature : s.db.featureEnabled t ("channel." ++ channel) with
  | error e => exact ⟨_, rfl, by simp⟩
  | ok enabled =>
  cases enabled with
  | false => exact ⟨_, rfl, by simp⟩
  | true =>
  dsimp only [cond]
  rw [alone_bind, alone_attempt, exec_read _ rfl rfl]
  cases hvalidate : (plan (.send .validate i)).fail with
  | true => exact ⟨_, rfl, by simp⟩
  | false =>
  cases hconfig : s.db.channelConfig t channel with
  | error e => exact ⟨_, rfl, by simp⟩
  | ok config =>
  dsimp only [cond]
  cases hcheck : Notifications.checkConfig config "one_way" with
  | error e => exact ⟨_, rfl, by simp [Except.isOk, Except.toBool]⟩
  | ok _ =>
  dsimp only
  rw [alone_bind, alone_attempt, exec_read (r := .ok _) _ rfl rfl]
  cases hallow : (plan (.send .allow i)).fail with
  | true => exact ⟨_, rfl, by simp⟩
  | false =>
  cases hallowed : (plan (.send .allow i)).allowed with
  | false => exact ⟨_, rfl, by simp⟩
  | true => exact ⟨_, rfl, by simp [Except.isOk, Except.toBool]⟩

theorem checkChannels_alone (i : Nat) (channels : List String) :
    ∃ r, alone cfg party (fun c => plan c.site) (Notifications.checkChannels t i channels) s =
      (r, s) ∧ (r = .ok () ↔ gatesOpen plan t s.db i channels = true) := by
  induction channels generalizing i with
  | nil => exact ⟨_, rfl, by simp [gatesOpen]⟩
  | cons channel rest ih =>
      obtain ⟨r, hchannel, hr⟩ := checkChannel_alone cfg party plan t s i channel
      obtain ⟨r', hrest, hr'⟩ := ih (i + 1)
      rw [Notifications.checkChannels, gatesOpen, Bool.and_eq_true]
      cases r with
      | error e =>
          have hclosed : gateOpen plan t s.db i channel = false := by simpa using hr
          exact ⟨.error e, alone_bind_error hchannel, by simp [hclosed]⟩
      | ok _ => exact ⟨r', (alone_bind_ok hchannel).trans hrest, by rw [hr', ← hr]; simp⟩

private theorem sendChannels_step (n : Nat) (target : Json) (payload : JsonMap) (i : Nat)
    (channel : String) (rest : List String) (tx : Tx) :
    (∃ db' s' tx' m, served cfg plan t s.db i channel = some db' ∧
      alone cfg party (fun c => plan c.site)
        (Notifications.sendChannels t n target payload i (channel :: rest) tx) s =
      alone cfg party (fun c => plan c.site)
        (Notifications.sendChannels t n target payload (i + 1) rest tx') s' ∧
      SameRows s s' ∧ s'.db = db' ∧ s'.broker.ready = s.broker.ready ++ [m]) ∨
    ∃ e s', served cfg plan t s.db i channel = none ∧
      alone cfg party (fun c => plan c.site)
        (Notifications.sendChannels t n target payload i (channel :: rest) tx) s = (.error e, s') ∧
      SameRows s s' ∧ s'.broker.ready = s.broker.ready := by
  rw [Notifications.sendChannels, served]
  cases hinsert : (plan (.send .insertDelivery i)).fail with
  | true =>
      exact .inr ⟨_, s, by simp, alone_bind_error (alone_call_fail hinsert), ⟨rfl, rfl, rfl⟩, rfl⟩
  | false =>
  rw [alone_bind_ok (alone_call_ok hinsert rfl)]
  cases hensure : (plan (.send .ensureControl i)).fail with
  | true =>
      exact .inr ⟨_, s.fresh, by simp, alone_bind_error (alone_call_fail hensure),
        ⟨rfl, rfl, rfl⟩, rfl⟩
  | false =>
  have hperform : ∀ o, s.fresh.perform cfg party o (.ensureControl t channel) =
      (s.fresh.db.ensureControl cfg t channel).map fun r => (r.1, { s.fresh with db := r.2 }) :=
    fun _ => rfl
  have hdb : s.fresh.db = { s.db with nextId := s.db.nextId + 1 } := rfl
  rw [← hdb]
  cases hcontrol : s.fresh.db.ensureControl cfg t channel with
  | error e =>
      refine .inr ⟨e, s.fresh, by simp, alone_bind_error (alone_call_error hensure ?_),
        ⟨rfl, rfl, rfl⟩, rfl⟩
      rw [hperform, hcontrol]
      rfl
  | ok p =>
  obtain ⟨control, db'⟩ := p
  have hok : ∀ o, s.fresh.perform cfg party o (.ensureControl t channel) =
      .ok (control, { s.fresh with db := db' }) := by
    intro o
    rw [hperform, hcontrol]
    rfl
  have hsame : SameRows s { s.fresh with db := db' } := by
    obtain ⟨controls, next, rfl, -⟩ := Db.ensureControl_cases hcontrol
    exact ⟨rfl, rfl, rfl⟩
  rw [alone_bind_ok (alone_call_ok hensure (hok _))]
  cases hpublish : (plan (.send .publish i)).fail with
  | true =>
      exact .inr ⟨_, { s.fresh with db := db' }, by simp,
        alone_bind_error (alone_call_fail hpublish), hsame, rfl⟩
  | false =>
      refine .inl ⟨db', _, _, _, by simp, alone_bind_ok (alone_call_ok hpublish rfl),
        ⟨hsame.1, hsame.2, hsame.3⟩, rfl, rfl⟩

theorem sendChannels_alone (n : Nat) (target : Json) (payload : JsonMap) (i : Nat)
    (channels : List String) (tx : Tx) :
    ∃ r s' ms, alone cfg party (fun c => plan c.site)
        (Notifications.sendChannels t n target payload i channels tx) s = (r, s') ∧
      SameRows s s' ∧ s'.broker.ready = s.broker.ready ++ ms ∧
      (r.isOk = allServed cfg plan t s.db i channels) ∧
      (ms ≠ [] ↔ ∃ channel rest db', channels = channel :: rest ∧
        served cfg plan t s.db i channel = some db') := by
  induction channels generalizing i tx s with
  | nil => exact ⟨_, s, [], rfl, ⟨rfl, rfl, rfl⟩, by simp, rfl, by simp⟩
  | cons channel rest ih =>
      rcases sendChannels_step cfg party plan t s n target payload i channel rest tx with
        ⟨db', s₁, tx', m, hserved, hnext, hsame, rfl, hready⟩ | ⟨e, s', hserved, heq, hsame, hready⟩
      · obtain ⟨r, s', ms, heq, hsame', hready', hok, -⟩ := ih s₁ (i + 1) tx'
        refine ⟨r, s', m :: ms, hnext.trans heq, ⟨hsame'.1.trans hsame.1, hsame'.2.trans hsame.2,
          hsame'.3.trans hsame.3⟩, by rw [hready', hready]; simp, ?_, ?_⟩
        · rw [hok, allServed, hserved]
        · simp [hserved]
      · refine ⟨_, s', [], heq, hsame, by simp [hready], ?_, by simp [hserved]⟩
        rw [allServed, hserved]
        rfl

/-- The jobs of a `Send` are left behind by an error: the first one has been published, and a
statement for a later channel or the commit fails. -/
def Halfway (db : Db) (channels : List String) : Prop :=
  (plan (.send .begin 0)).fail = false ∧ (plan (.send .insertNotification 0)).fail = false ∧
    (∃ channel rest db', channels = channel :: rest ∧
      served cfg plan t { db with nextId := db.nextId + 1 } 0 channel = some db') ∧
    (allServed cfg plan t { db with nextId := db.nextId + 1 } 0 channels = false ∨
      (plan (.send .commit 0)).fail = true)

/-- What an error of the code leaves behind: no rows, and jobs exactly if `jobs` holds. -/
private def Leaves {α : Type} (s : Sys) (jobs : Prop) (x : Except Err α × Sys) : Prop :=
  (x.1.isOk = false → SameRows s x.2) ∧
    (x.1.isOk = false ∧ x.2.broker.ready ≠ s.broker.ready ↔ jobs)

private theorem leaves_error {α : Type} {s s' : Sys} {jobs : Prop} {e : Err} (hsame : SameRows s s')
    (hready : s'.broker.ready = s.broker.ready) (hjobs : ¬jobs) :
    Leaves s jobs ((.error e, s') : Except Err α × Sys) :=
  ⟨fun _ => hsame, by simp [hready, hjobs]⟩

theorem commit_alone (tx : Tx) :
    alone cfg party (fun c => plan c.site) (call (.send .commit 0) (.commit tx)) s =
      bif (plan (.send .commit 0)).fail then (.error .driver, s)
      else (.ok (), { s with db := s.db.commit tx }) := by
  cases hcommit : (plan (.send .commit 0)).fail with
  | true => exact alone_call_fail hcommit
  | false => exact alone_call_ok hcommit rfl

theorem fileJob_alone (n dueAt : Nat) (tx : Tx) :
    alone cfg party (fun c => plan c.site) (Notifications.fileJob t n dueAt tx) s =
      bif (plan (.send .insertScheduledJob 0)).fail then (.error .driver, s)
      else (.ok { tx with job := some (s.db.nextId, ⟨t, n, dueAt, .pending⟩) }, s.fresh) := by
  rw [Notifications.fileJob]
  cases hjob : (plan (.send .insertScheduledJob 0)).fail with
  | true => exact alone_bind_error (alone_call_fail hjob)
  | false => exact alone_bind_ok (alone_call_ok hjob rfl)

private theorem store_alone (publicID : String) (req : Request) (scheduledAt : Option Nat)
    (status : NotificationStatus) :
    Leaves s (scheduledAt = none ∧ Halfway cfg plan t s.db req.channels)
      (alone cfg party (fun c => plan c.site)
        (Notifications.store t publicID req scheduledAt status) s) := by
  rw [Notifications.store]
  cases hbegin : (plan (.send .begin 0)).fail with
  | true =>
      rw [alone_bind_error (alone_call_fail hbegin)]
      exact leaves_error ⟨rfl, rfl, rfl⟩ rfl (by simp [Halfway, hbegin])
  | false =>
  rw [alone_bind_ok (alone_call_ok hbegin rfl)]
  cases hinsert : (plan (.send .insertNotification 0)).fail with
  | true =>
      rw [alone_bind_error (alone_call_fail hinsert)]
      exact leaves_error ⟨rfl, rfl, rfl⟩ rfl (by simp [Halfway, hinsert])
  | false =>
  rw [alone_bind_ok (alone_call_ok hinsert rfl)]
  cases scheduledAt with
  | some dueAt =>
      dsimp only
      rw [alone_bind, fileJob_alone]
      cases hjob : (plan (.send .insertScheduledJob 0)).fail with
      | true => exact leaves_error ⟨rfl, rfl, rfl⟩ rfl (by simp)
      | false =>
          dsimp only [cond]
          rw [commit_alone]
          cases hcommit : (plan (.send .commit 0)).fail with
          | true => exact leaves_error ⟨rfl, rfl, rfl⟩ rfl (by simp)
          | false => simp [Leaves, Except.isOk, Except.toBool]
  | none =>
      dsimp only
      obtain ⟨r, s', ms, heq, hsame, hready, hok, hms⟩ := sendChannels_alone cfg party plan t
        { s.fresh with inserted := s.inserted ++
          [(s.db.nextId, Notifications.newNotification t publicID req none status)] }
        s.db.nextId req.target.toJson (jobPayload req.data req.target.recipient) 0 req.channels
        ⟨(s.db.nextId, Notifications.newNotification t publicID req none status), [], none⟩
      have hrows : SameRows s s' := ⟨hsame.1, hsame.2, hsame.3⟩
      have hjobs : s'.broker.ready ≠ s.broker.ready ↔ ∃ channel rest db',
          req.channels = channel :: rest ∧
          served cfg plan t { s.db with nextId := s.db.nextId + 1 } 0 channel = some db' := by
        have hnil : s'.broker.ready = s.broker.ready ↔ ms = [] := by
          rw [hready]
          simp
        exact (not_congr hnil).trans hms
      cases r with
      | error e =>
          rw [alone_bind_error heq]
          have hfalse : allServed cfg plan t { s.db with nextId := s.db.nextId + 1 } 0
            req.channels = false := hok.symm
          exact ⟨fun _ => hrows, by simp [Halfway, hbegin, hinsert, hjobs, hfalse, Except.isOk,
            Except.toBool]⟩
      | ok tx =>
          have htrue : allServed cfg plan t { s.db with nextId := s.db.nextId + 1 } 0
            req.channels = true := hok.symm
          rw [alone_bind_ok heq, commit_alone]
          cases hcommit : (plan (.send .commit 0)).fail with
          | true =>
              exact ⟨fun _ => hrows, by simp [Halfway, hbegin, hinsert, hjobs, hcommit,
                Except.isOk, Except.toBool]⟩
          | false =>
              simp [Leaves, Halfway, htrue, hcommit, Except.isOk, Except.toBool]

end

/-- The request is accepted for sending at once, and an error then leaves jobs behind. -/
def LeavesJobs (cfg : Config) (t : String) (req : Request) (plan : Site → Outcome) (s : Sys) :
    Prop :=
  t ≠ "" ∧ activeOpen plan t s.db = true ∧ gatesOpen plan t s.db 0 req.channels = true ∧
    equalFold req.schedule.type "scheduled" = false ∧ Halfway cfg plan t s.db req.channels

theorem scheduled_default (req : Request) :
    equalFold req.withDefaultSchedule.schedule.type "scheduled" =
      equalFold req.schedule.type "scheduled" := by
  unfold Request.withDefaultSchedule
  split
  · next h =>
      rw [h]
      exact (by decide : equalFold "instant" "scheduled" = equalFold "" "scheduled")
  · rfl

theorem scheduleState_iff {cfg : Config} {schedule : Schedule} {scheduledAt : Option Nat}
    {status : NotificationStatus} (h : scheduleState cfg schedule = .ok (scheduledAt, status)) :
    scheduledAt = none ↔ equalFold schedule.type "scheduled" = false := by
  unfold scheduleState at h
  split at h
  · next hfold =>
      split at h
      · simp at h
      · obtain ⟨rfl, -⟩ : some _ = scheduledAt ∧ _ := by simpa using h
        simp [hfold]
  · next hfold =>
      obtain ⟨rfl, -⟩ : none = scheduledAt ∧ _ := by simpa using h
      simpa using hfold

private theorem leaves_return {α β : Type} {cfg : Config} {party : Party} {plan : Call → Outcome}
    {s : Sys} {jobs : Prop} {p : Go α} {b : β} (h : Leaves s jobs (alone cfg party plan p s)) :
    Leaves s jobs (alone cfg party plan (p >>= fun _ => pure b) s) := by
  rw [alone_bind]
  cases hp : alone cfg party plan p s with
  | mk r s' =>
      rw [hp] at h
      cases r <;> exact h

private theorem send_leaves (cfg : Config) (unixNano : Nat) (t : String) (req : Request)
    (plan : Site → Outcome) (s : Sys) :
    Leaves s (LeavesJobs cfg t req plan s) (sendAlone cfg unixNano t req plan s) := by
  rw [sendAlone, Notifications.send]
  by_cases ht : t = ""
  · rw [if_pos ht]
    exact leaves_error ⟨rfl, rfl, rfl⟩ rfl (by simp [LeavesJobs, ht])
  rw [if_neg ht]
  by_cases hchannels : req.channels = []
  · rw [if_pos hchannels]
    exact leaves_error ⟨rfl, rfl, rfl⟩ rfl (by simp [LeavesJobs, Halfway, hchannels])
  rw [if_neg hchannels]
  dsimp only
  obtain ⟨r, hactive, hr⟩ := ensureActive_alone cfg (.request t req) plan t s
  cases r with
  | error e =>
      rw [alone_bind_error hactive]
      exact leaves_error ⟨rfl, rfl, rfl⟩ rfl fun h => by simpa using hr.mpr h.2.1
  | ok _ =>
  rw [alone_bind_ok hactive]
  obtain ⟨r', hgates, hr'⟩ := checkChannels_alone cfg (.request t req) plan t s 0
    req.withDefaultSchedule.channels
  rw [Request.withDefaultSchedule_channels] at hgates hr' ⊢
  cases r' with
  | error e =>
      rw [alone_bind_error hgates]
      exact leaves_error ⟨rfl, rfl, rfl⟩ rfl fun h => by simpa using hr'.mpr h.2.2.1
  | ok _ =>
  rw [alone_bind_ok hgates]
  cases hstate : scheduleState cfg req.withDefaultSchedule.schedule with
  | error e =>
      refine leaves_error ⟨rfl, rfl, rfl⟩ rfl fun h => ?_
      have hinstant := h.2.2.2.1
      rw [← scheduled_default] at hinstant
      simp [scheduleState, hinstant] at hstate
  | ok p =>
      obtain ⟨scheduledAt, status⟩ := p
      have hstore := store_alone cfg (.request t req) plan t s ("ntf_" ++ toString unixNano)
        req.withDefaultSchedule scheduledAt status
      have hiff : (scheduledAt = none ∧ Halfway cfg plan t s.db req.withDefaultSchedule.channels) ↔
          LeavesJobs cfg t req plan s := by
        rw [scheduleState_iff hstate, scheduled_default, Request.withDefaultSchedule_channels]
        simp [LeavesJobs, ht, hr.mp rfl, hr'.mp rfl]
      rw [hiff] at hstore
      exact leaves_return hstore

/-- `Send` is all or nothing unless it publishes the job of the first channel of an instant
request and a statement for a later channel, or the commit, fails after that. -/
theorem send_all_or_nothing_iff (cfg : Config) (unixNano : Nat) (t : String) (req : Request)
    (plan : Site → Outcome) (s : Sys) :
    AllOrNothing cfg unixNano t req plan s ↔ ¬LeavesJobs cfg t req plan s := by
  obtain ⟨hrows, hjobs⟩ := send_leaves cfg unixNano t req plan s
  rw [← hjobs]
  constructor
  · rintro hclaim ⟨herror, hready⟩
    cases hsend : sendAlone cfg unixNano t req plan s with
    | mk r s' =>
        rw [hsend] at herror hready
        cases r with
        | ok _ => simp [Except.isOk, Except.toBool] at herror
        | error e => exact hready (hclaim e s' hsend).2
  · intro hnot e s' hsend
    rw [hsend] at hrows hnot
    exact ⟨hrows rfl, by simpa [Except.isOk, Except.toBool] using hnot⟩

/-- Two channels, and the publication for the second one fails: `Send` returns an error and rolls
back, but the job of the first channel stays in its queue. -/
theorem job_of_rolled_back_send : ¬AllOrNothing (sampleConfig 3) 1 "t1"
    (sampleRequest ["email", "sms"] ⟨"", ""⟩ "")
    (fun site => { fail := decide (site = .send .publish 1) }) sampleWorld.sys := by
  intro hclaim
  have hcheck : (sendAlone (sampleConfig 3) 1 "t1" (sampleRequest ["email", "sms"] ⟨"", ""⟩ "")
      (fun site => { fail := decide (site = .send .publish 1) }) sampleWorld.sys).1.isOk = false ∧
    (sendAlone (sampleConfig 3) 1 "t1" (sampleRequest ["email", "sms"] ⟨"", ""⟩ "")
      (fun site => { fail := decide (site = .send .publish 1) })
      sampleWorld.sys).2.broker.ready.length = 1 := by decide +kernel
  cases hsend : sendAlone (sampleConfig 3) 1 "t1" (sampleRequest ["email", "sms"] ⟨"", ""⟩ "")
      (fun site => { fail := decide (site = .send .publish 1) }) sampleWorld.sys with
  | mk r s' =>
      rw [hsend] at hcheck
      cases r with
      | ok _ => simp [Except.isOk, Except.toBool] at hcheck
      | error e =>
          have hlength := hcheck.2
          rw [(hclaim e s' hsend).2] at hlength
          simp [sampleWorld] at hlength

end NotificationPlatform

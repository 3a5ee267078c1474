import Mathlib.Data.List.Sort
import Mathlib.Tactic.Simps.Basic
import NotificationPlatform.Lib.Table
import NotificationPlatform.Request

/-!
# The database

The tables the notification pipeline reads and writes, and the effect of its SQL statements.
A row inserted inside a transaction is part of a table only after the commit: until then the
transaction itself (`Tx`) carries it, and dropping the transaction is its rollback.
-/

namespace NotificationPlatform

open Lib

inductive TenantStatus where
  | active
  | disabled
  | suspended
  deriving DecidableEq, Repr

structure Tenant where
  id : String
  slug : String
  status : TenantStatus

structure TenantFeature where
  tenantID : String
  featureKey : String
  enabled : Bool

structure TenantChannel where
  tenantID : String
  channel : String
  enabled : Bool
  direction : String

structure PlatformChannel where
  channel : String
  enabled : Bool

structure ProviderConfig where
  tenantID : String
  channel : String
  provider : String
  isDefault : Bool
  status : String

structure PlatformProvider where
  provider : String
  enabled : Bool

/-- `channels.Config`, as the query of `ValidateSend` fills it. -/
structure ChannelConfig where
  enabled : Bool
  direction : String
  provider : String

structure Notification where
  tenantID : String
  publicID : String
  eventKey : String
  templateKey : String
  targetType : String
  target : Json
  data : Json
  channels : Json
  priority : Int
  scheduleType : String
  scheduledAt : Option Nat
  status : NotificationStatus
  idempotencyKey : Option String

inductive DeliveryStatus where
  | queued
  | sending
  | sent
  | failed
  | blocked
  | dead
  deriving DecidableEq, Repr

/-- The statuses no statement of the pipeline is meant to leave again. -/
def DeliveryStatus.final : DeliveryStatus → Bool
  | .sent | .blocked | .dead => true
  | .queued | .sending | .failed => false

structure DeliveryRow where
  tenantID : String
  notificationID : Nat
  channel : String
  recipient : Json
  status : DeliveryStatus
  deliveredAt : Option Nat
  providerMessageID : Option String
  response : Json

inductive JobStatus where
  | pending
  | queued
  deriving DecidableEq, Repr

structure ScheduledJob where
  tenantID : String
  notificationID : Nat
  dueAt : Nat
  status : JobStatus

structure Attempt where
  tenantID : String
  deliveryID : Nat
  attemptNo : Nat
  status : DeliveryStatus
  response : Json

/-- The rows a `Send` transaction has inserted so far. -/
structure Tx where
  notification : Nat × Notification
  deliveries : List (Nat × DeliveryRow)
  job : Option (Nat × ScheduledJob)

/-- A row of the query of `RouteDueScheduled`. -/
structure DueRow where
  jobID : Nat
  tenantID : String
  notificationID : Nat
  channels : Json
  target : Json
  data : Json
  dueAt : Nat

structure Db where
  tenants : List Tenant
  features : List TenantFeature
  channels : List TenantChannel
  platformChannels : List PlatformChannel
  providerConfigs : List ProviderConfig
  platformProviders : List PlatformProvider
  controls : List Control
  notifications : Table Notification
  deliveries : Table DeliveryRow
  scheduledJobs : Table ScheduledJob
  attempts : List Attempt
  nextId : Nat
  now : Nat

namespace Db

def tenantStatus (db : Db) (tenantID : String) : Except Err TenantStatus :=
  match db.tenants.find? (fun t => t.id == tenantID) with
  | none => .error .noRows
  | some tenant => .ok tenant.status

def featureEnabled (db : Db) (tenantID key : String) : Except Err Bool :=
  match db.features.find? (fun f => f.tenantID == tenantID && f.featureKey == key) with
  | none => .error .noRows
  | some feature => .ok feature.enabled

/-- `COALESCE(pp.provider, '')` of the two left joins. -/
def defaultProvider (db : Db) (tenantID channel : String) : String :=
  match db.providerConfigs.find? (fun c => c.tenantID == tenantID && c.channel == channel &&
      c.isDefault && c.status == "active") with
  | none => ""
  | some config =>
      if db.platformProviders.any (fun p => p.provider == config.provider && p.enabled)
      then config.provider else ""

def channelConfig (db : Db) (tenantID channel : String) : Except Err ChannelConfig :=
  match db.channels.find? (fun c => c.tenantID == tenantID && c.channel == channel) with
  | none => .error .noRows
  | some tc =>
      if db.platformChannels.any (fun p => p.channel == channel && p.enabled)
      then .ok ⟨tc.enabled, tc.direction, db.defaultProvider tenantID channel⟩
      else .error .noRows

def findControl (db : Db) (tenantID channel : String) : Option Control :=
  db.controls.find? (fun c => c.tenantID == tenantID && c.channel == channel)

/-- `queue.EnsureControl`. `ON CONFLICT (tenant_id, channel) DO NOTHING` leaves an existing
control alone; a queue name that another control already has violates its unique index. -/
def ensureControl (cfg : Config) (db : Db) (tenantID channel : String) :
    Except Err (Control × Db) :=
  match db.tenants.find? (fun t => t.id == tenantID) with
  | none => .error .noRows
  | some tenant =>
      match db.findControl tenantID channel with
      | some control => .ok (control, db)
      | none =>
          let name := nameForTenant cfg tenant.slug channel
          if db.controls.any (fun c => c.queueName == name) then .error .driver
          else
            let control : Control := ⟨db.nextId, tenantID, channel, name, .active⟩
            .ok (control, { db with
              controls := db.controls ++ [control], nextId := db.nextId + 1 })

def getControl (cfg : Config) (db : Db) (tenantID channel : String) :
    Except Err (Control × Db) :=
  match db.findControl tenantID channel with
  | some control => .ok (control, db)
  | none => db.ensureControl cfg tenantID channel

/-- A delivery row as both `INSERT` statements create it. -/
def newDelivery (tenantID : String) (notificationID : Nat) (channel : String)
    (recipient : Json) : DeliveryRow where
  tenantID := tenantID
  notificationID := notificationID
  channel := channel
  recipient := recipient
  status := .queued
  deliveredAt := none
  providerMessageID := none
  response := .obj []

@[simps] def commit (db : Db) (tx : Tx) : Db :=
  { db with
    notifications := db.notifications.insert tx.notification.1 tx.notification.2
    deliveries := db.deliveries.insertAll tx.deliveries
    scheduledJobs := db.scheduledJobs.insertAll tx.job.toList }

/-- The join of a scheduled job with its notification, when the job is pending and due. -/
def dueRow? (db : Db) (entry : Nat × ScheduledJob) : Option DueRow :=
  if entry.2.status = .pending ∧ entry.2.dueAt ≤ db.now then
    (db.notifications.get? entry.2.notificationID).map fun n =>
      ⟨entry.1, entry.2.tenantID, entry.2.notificationID, n.channels, n.target, n.data,
        entry.2.dueAt⟩
  else none

/-- The query of `RouteDueScheduled`: pending due jobs by due time, at most 100 of them. -/
def dueRows (db : Db) : List DueRow :=
  ((db.scheduledJobs.rows.filterMap db.dueRow?).insertionSort
    (fun a b => a.dueAt ≤ b.dueAt)).take 100

/-- The `INSERT INTO notification_deliveries` of `RouteDueScheduled`. -/
@[simps] def insertDelivery (db : Db) (row : DeliveryRow) : Db :=
  { db with deliveries := db.deliveries.insert db.nextId row, nextId := db.nextId + 1 }

/-- `UPDATE scheduled_jobs SET status = 'queued' WHERE id = $1` -/
@[simps] def markRouted (db : Db) (jobID : Nat) : Db :=
  { db with
    scheduledJobs := db.scheduledJobs.modify jobID (fun job => { job with status := .queued }) }

/-- `UPDATE notification_deliveries SET .. WHERE id = $1`: no row is no error, and an error in
an expression of the update fails the statement. -/
def updateDelivery (db : Db) (id : Nat) (f : DeliveryRow → Option DeliveryRow) :
    Except Err Db :=
  match db.deliveries.get? id with
  | none => .ok db
  | some row =>
      match f row with
      | none => .error .driver
      | some row' => .ok { db with deliveries := db.deliveries.modify id (fun _ => row') }

/-- Set the status and one key of `response_json`. -/
def mark (status : DeliveryStatus) (key value : String) (row : DeliveryRow) :
    Option DeliveryRow :=
  (jsonbSet row.response key (.str value)).map fun response =>
    { row with status := status, response := response }

def markSending (row : DeliveryRow) : Option DeliveryRow := some { row with status := .sending }

def storeResult (now : Nat) (status : DeliveryStatus) (providerMessageID : Option String)
    (response : Json) (row : DeliveryRow) : Option DeliveryRow :=
  some { row with
    status := status
    providerMessageID := providerMessageID
    response := response
    deliveredAt := if status = .sent then some now else none }

/-- The update of `RetryLoop`, which leaves the status alone. -/
def storeRetryCount (attempt : Nat) (row : DeliveryRow) : Option DeliveryRow :=
  (jsonbSet row.response "retry_count" (.num attempt)).map fun response =>
    { row with response := response }

/-- `INSERT INTO delivery_attempts`, with the foreign key to the delivery row. The attempt
number is the constant 1 of the statement. -/
def insertAttempt (db : Db) (tenantID : String) (id : Nat) (status : DeliveryStatus)
    (response : Json) : Except Err Db :=
  match db.deliveries.get? id with
  | none => .error .driver
  | some _ => .ok { db with attempts := db.attempts ++ [⟨tenantID, id, 1, status, response⟩] }

theorem updateDelivery_cases {db db' : Db} {id : Nat} {f : DeliveryRow → Option DeliveryRow}
    (h : db.updateDelivery id f = .ok db') :
    (db.deliveries.get? id = none ∧ db' = db) ∨
    ∃ row row', db.deliveries.get? id = some row ∧ f row = some row' ∧
      db' = { db with deliveries := db.deliveries.modify id (fun _ => row') } := by
  unfold updateDelivery at h
  split at h
  · next hnone => exact .inl ⟨hnone, by simpa [eq_comm] using h⟩
  · next row hrow =>
      split at h
      · simp at h
      · next row' hf => exact .inr ⟨row, row', hrow, hf, by simpa [eq_comm] using h⟩

theorem insertAttempt_cases {db db' : Db} {t : String} {id : Nat} {status : DeliveryStatus}
    {response : Json} (h : db.insertAttempt t id status response = .ok db') :
    (∃ row, db.deliveries.get? id = some row) ∧
      ∃ attempts, db' = { db with attempts := attempts } := by
  unfold insertAttempt at h
  split at h
  · simp at h
  · next row hrow => exact ⟨⟨row, hrow⟩, _, by simpa [eq_comm] using h⟩

theorem ensureControl_cases {cfg : Config} {db db' : Db} {t channel : String}
    {control : Control} (h : db.ensureControl cfg t channel = .ok (control, db')) :
    ∃ controls next, db' = { db with controls := controls, nextId := next } ∧
      db.nextId ≤ next := by
  unfold ensureControl at h
  split at h
  · simp at h
  · split at h
    · cases h
      exact ⟨db.controls, db.nextId, rfl, le_refl _⟩
    · dsimp only at h
      split at h
      · simp at h
      · obtain ⟨-, rfl⟩ : _ ∧ _ = db' := by simpa using h
        exact ⟨_, _, rfl, Nat.le_succ _⟩

theorem getControl_cases {cfg : Config} {db db' : Db} {t channel : String} {control : Control}
    (h : db.getControl cfg t channel = .ok (control, db')) :
    ∃ controls next, db' = { db with controls := controls, nextId := next } ∧
      db.nextId ≤ next := by
  unfold getControl at h
  split at h
  · cases h
    exact ⟨db.controls, db.nextId, rfl, le_refl _⟩
  · exact ensureControl_cases h

end Db

end NotificationPlatform

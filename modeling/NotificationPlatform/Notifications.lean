import NotificationPlatform.System

/-!
# Sending and scheduling

`notifications.Service`: `Send` checks the gates, stores the notification and either files a
scheduled job or creates and publishes one delivery per channel; `RouteDueScheduled` does the
latter for every scheduled job that has come due.
-/

namespace NotificationPlatform

open Lib

def DueRow.channelList (row : DueRow) : List String :=
  Json.toStrings (some row.channels)

/-- The payload of the jobs of a due row, rebuilt from the stored request and target. -/
def DueRow.payload (row : DueRow) : JsonMap :=
  jobPayload (Request.ofJson row.data).data (Target.ofJson row.target).recipient

namespace Notifications

def channelQueue : String → Queue
  | "email" => .email
  | "sms" => .sms
  | "fcm" => .fcm
  | "websocket" => .websocket
  | _ => .router

def ensureActive (tenantID : String) : Go Unit := do
  let status ← call (.send .ensureActive 0) (.selectTenantStatus tenantID)
  if status ≠ .active then throw (.text "tenant is not active")

/-- The checks of `ValidateSend` on the row its query returned. -/
def checkConfig (config : ChannelConfig) (direction : String) : Except Err Unit :=
  if !config.enabled then .error (.text "channel disabled")
  else if config.direction ≠ direction ∧ config.direction ≠ "two_way" then
    .error (.text "channel direction not allowed")
  else if config.provider = "" then .error (.text "provider not configured")
  else .ok ()

def checkChannel (tenantID : String) (i : Nat) (channel : String) : Go Unit := do
  let key := "channel." ++ channel
  match ← attempt (.send .feature i) (.selectFeature tenantID key) with
  | .ok true =>
    match ← attempt (.send .validate i) (.selectChannelConfig tenantID channel) with
    | .error e => throw (.wrapped channel e)
    | .ok config =>
      match checkConfig config "one_way" with
      | .error e => throw (.wrapped channel e)
      | .ok _ =>
        match ← attempt (.send .allow i) (.allow tenantID channel) with
        | .ok true => return
        | _ => throw (.text (channel ++ ": rate limit exceeded"))
  | _ => throw (.text ("feature disabled: " ++ key))

/-- The gate loop of `Send`, from iteration `i` on. -/
def checkChannels (tenantID : String) : Nat → List String → Go Unit
  | _, [] => return
  | i, channel :: rest => do
    checkChannel tenantID i channel
    checkChannels tenantID (i + 1) rest

def newJob (tenantID : String) (notificationID deliveryID : Nat) (channel queueName : String)
    (payload : JsonMap) : Job where
  notificationID := notificationID
  deliveryID := deliveryID
  tenantID := tenantID
  channel := channel
  queueName := queueName
  payload := payload
  attempt := 0

def newNotification (tenantID publicID : String) (req : Request) (scheduledAt : Option Nat)
    (status : NotificationStatus) : Notification where
  tenantID := tenantID
  publicID := publicID
  eventKey := req.event
  templateKey := req.template
  targetType := req.target.type
  target := req.target.toJson
  data := req.toJson
  channels := .ofStrings req.channels
  priority := req.priority
  scheduleType := req.schedule.type
  scheduledAt := scheduledAt
  status := status
  idempotencyKey := nullIfEmpty req.idempotencyKey

/-- The delivery loop of `Send`, from iteration `i` on. -/
def sendChannels (tenantID : String) (notificationID : Nat) (target : Json)
    (payload : JsonMap) : Nat → List String → Tx → Go Tx
  | _, [], tx => return tx
  | i, channel :: rest, tx => do
    let row := Db.newDelivery tenantID notificationID channel target
    let deliveryID ← call (.send .insertDelivery i) (.insertTxDelivery row)
    let tx := { tx with deliveries := tx.deliveries ++ [(deliveryID, row)] }
    let control ← call (.send .ensureControl i) (.ensureControl tenantID channel)
    let job := newJob tenantID notificationID deliveryID channel control.queueName payload
    call (.send .publish i) (.publish (channelQueue channel) job)
    sendChannels tenantID notificationID target payload (i + 1) rest tx

/-- The branch of `Send` for a scheduled notification. -/
def fileJob (tenantID : String) (notificationID dueAt : Nat) (tx : Tx) : Go Tx := do
  let row : ScheduledJob := ⟨tenantID, notificationID, dueAt, .pending⟩
  let jobID ← call (.send .insertScheduledJob 0) (.insertScheduledJob row)
  return { tx with job := some (jobID, row) }

/-- The transaction of `Send`; an early return rolls it back. The status is `scheduled` exactly
when there is a time to schedule for. -/
def store (tenantID publicID : String) (req : Request) (scheduledAt : Option Nat)
    (status : NotificationStatus) : Go Unit := do
  call (.send .begin 0) .begin
  let row := newNotification tenantID publicID req scheduledAt status
  let notificationID ← call (.send .insertNotification 0) (.insertNotification row)
  let tx : Tx := ⟨(notificationID, row), [], none⟩
  let payload := jobPayload req.data req.target.recipient
  let tx ← match scheduledAt with
    | some dueAt => fileJob tenantID notificationID dueAt tx
    | none => sendChannels tenantID notificationID req.target.toJson payload 0 req.channels tx
  call (.send .commit 0) (.commit tx)

/-- `Service.Send`; `unixNano` is the clock reading that the public id is made of. -/
def send (cfg : Config) (unixNano : Nat) (tenantID : String) (req : Request) :
    Go Accepted := do
  if tenantID = "" then throw (.text "tenant_id required")
  if req.channels = [] then throw (.text "at least one channel is required")
  let req := req.withDefaultSchedule
  ensureActive tenantID
  checkChannels tenantID 0 req.channels
  let publicID := "ntf_" ++ toString unixNano
  match scheduleState cfg req.schedule with
  | .error e => throw e
  | .ok (scheduledAt, status) =>
    store tenantID publicID req scheduledAt status
    return ⟨"accepted", publicID, "Notification queued"⟩

/-- The channel loop of `RouteDueScheduled` for one job, from iteration `i` on. -/
def routeChannels (row : DueRow) (payload : JsonMap) : Nat → List String → Go Unit
  | _, [] => return
  | i, channel :: rest => do
    let delivery := Db.newDelivery row.tenantID row.notificationID channel (.obj [])
    let deliveryID ← call (.route .insertDelivery row.jobID i) (.insertDelivery delivery)
    let control ← call (.route .ensureControl row.jobID i)
      (.ensureControl row.tenantID channel)
    let job := newJob row.tenantID row.notificationID deliveryID channel control.queueName payload
    call (.route .publish row.jobID i) (.publish (channelQueue channel) job)
    routeChannels row payload (i + 1) rest

def routeRows : List DueRow → Go Unit
  | [] => return
  | row :: rest => do
    call (.route .scan row.jobID 0) (.scanDue row)
    routeChannels row row.payload 0 row.channelList
    call (.route .mark row.jobID 0) (.markRouted row.jobID)
    routeRows rest

def routeDueScheduled : Go Unit := do
  let rows ← call .select .selectDue
  routeRows rows

end Notifications

end NotificationPlatform

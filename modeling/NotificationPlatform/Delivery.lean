import NotificationPlatform.System

/-!
# The channel worker

`delivery.Worker`: one iteration of its loop takes a message, consults the queue control of the
job's tenant and channel, calls the provider, records the result and settles the message.
-/

namespace NotificationPlatform

open Lib

namespace Worker

inductive Action where
  | proceed
  | paused
  | stopped
  deriving DecidableEq, Repr

def recipientFor (channel : String) (payload : JsonMap) : String :=
  let key := match channel with
    | "email" => some "email"
    | "sms" => some "phone"
    | "fcm" => some "fcm_token"
    | _ => none
  match key.bind payload.get? with
  | some (.str value) => value
  | _ => "mock-recipient"

def providerMessage (job : Job) : ProviderMessage where
  tenantID := job.tenantID
  notificationID := job.notificationID
  deliveryID := job.deliveryID
  channel := job.channel
  recipient := recipientFor job.channel job.payload
  data := job.payload

def applyQueueControl (job : Job) : Go Action := do
  let control ← call .worker (.getControl job.tenantID job.channel)
  match control.status with
  | .paused =>
    let _ ← attempt .worker (.markPaused job.deliveryID)
    return .paused
  | .stopped =>
    call .worker (.markBlocked job.deliveryID)
    return .stopped
  | .active => return .proceed

def resultStatus : Except Err ProviderResult → DeliveryStatus
  | .error _ => .failed
  | .ok _ => .sent

def resultMessageID : Except Err ProviderResult → Option String
  | .error _ => none
  | .ok result => some result.providerMessageID

def resultResponse : Except Err ProviderResult → Json
  | .error _ => .obj []
  | .ok result => result.raw

def handle (job : Job) : Go Unit := do
  let _ ← attempt .worker (.markSending job.deliveryID)
  let result ← attempt .worker (.providerSend (providerMessage job))
  call .worker (.storeResult job.deliveryID (resultStatus result) (resultMessageID result)
    (resultResponse result))
  let dbErr ← attempt .worker (.insertAttempt job.tenantID job.deliveryID (resultStatus result)
    (resultResponse result))
  match result with
  | .error e => throw e
  | .ok _ => ExceptT.mk (pure dbErr)

def run (d : Delivery) : Code Unit := do
  match d.message.body with
  | none =>
    let _ ← invoke .worker (.nack d false)
  | some job =>
    match ← (applyQueueControl job).run with
    | .error _ | .ok .paused =>
      let _ ← invoke .worker (.nack d true)
    | .ok .stopped =>
      let _ ← invoke .worker (.ack d)
    | .ok .proceed =>
      match ← (handle job).run with
      | .error _ =>
        let job := { job with attempt := job.attempt + 1 }
        let _ ← invoke .worker (.publish .retry job)
        let _ ← invoke .worker (.ack d)
      | .ok _ =>
        let _ ← invoke .worker (.ack d)

end Worker

end NotificationPlatform

import NotificationPlatform.System

/-!
# Retries and dead letters

`retry.Service`: the consumer of the retry queue puts a job back into its channel queue or
moves it to the dead queue; the consumer of the dead queue records the end of the delivery.
-/

namespace NotificationPlatform

open Lib

namespace Retry

def channelQueue : String → Queue
  | "email" => .email
  | "sms" => .sms
  | "fcm" => .fcm
  | "websocket" => .websocket
  | _ => .router

/-- One iteration of `RetryLoop`; the backoff before the republication is a pause. -/
def retryLoop (cfg : Config) (d : Delivery) : Code Unit := do
  match d.message.body with
  | none =>
    let _ ← invoke .retryLoop (.nack d false)
  | some job =>
    if cfg.maxDeliveryTries ≤ job.attempt then
      match ← invoke .retryLoop (.publish .dead job) with
      | .error _ =>
        let _ ← invoke .retryLoop (.nack d false)
      | .ok _ =>
        let _ ← invoke .retryLoop (.ack d)
    else
      let job := { job with attempt := job.attempt + 1 }
      match ← invoke .retryLoop (.publish (channelQueue job.channel) job) with
      | .error _ =>
        let _ ← invoke .retryLoop (.nack d false)
      | .ok _ =>
        let _ ← invoke .retryLoop (.storeRetryCount job.deliveryID job.attempt)
        let _ ← invoke .retryLoop (.ack d)

def retryDeadLetters (d : Delivery) : Code Unit := do
  match d.message.body with
  | none =>
    let _ ← invoke .deadLetters (.nack d false)
  | some job =>
    let _ ← invoke .deadLetters (.markDead job.deliveryID)
    let _ ← invoke .deadLetters (.ack d)

end Retry

end NotificationPlatform

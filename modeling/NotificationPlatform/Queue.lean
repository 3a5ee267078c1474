import Mathlib.Data.Rat.Cast.Defs
import NotificationPlatform.Json

/-!
# Queues, jobs and queue controls

The broker's queues, the job a message carries, and the name a tenant's queue control gets.
-/

namespace NotificationPlatform

/-- What the Go runtime and the process configuration supply: the retry limit, the rune-wise
lower-casing of `unicode.ToLower` and the RFC 3339 parser of `time.Parse`. -/
structure Config where
  maxDeliveryTries : Int
  toLower : Char → Char
  parseRFC3339 : String → Option Nat

inductive Queue where
  | router
  | scheduler
  | email
  | sms
  | fcm
  | websocket
  | retry
  | dead
  deriving DecidableEq, Repr

def Queue.name : Queue → String
  | .router => "notification.router"
  | .scheduler => "notification.scheduler"
  | .email => "notification.email"
  | .sms => "notification.sms"
  | .fcm => "notification.fcm"
  | .websocket => "notification.websocket"
  | .retry => "notification.retry"
  | .dead => "notification.dead"

/-- `queue.Job`. Row identifiers are natural numbers in place of UUID texts. -/
structure Job where
  notificationID : Nat
  deliveryID : Nat
  tenantID : String
  channel : String
  queueName : String
  payload : JsonMap
  attempt : Nat

def omitEmpty (name : String) (isZero : Bool) (value : Json) : List (String × Json) :=
  if isZero then [] else [(name, value)]

def Job.toJson (job : Job) : Json :=
  .obj ([("notification_id", .num job.notificationID), ("delivery_id", .num job.deliveryID),
      ("tenant_id", .str job.tenantID)] ++
    omitEmpty "channel" (job.channel == "") (.str job.channel) ++
    omitEmpty "queue_name" (job.queueName == "") (.str job.queueName) ++
    omitEmpty "payload" job.payload.fields.isEmpty (.obj job.payload.fields) ++
    omitEmpty "attempt" (job.attempt == 0) (.num job.attempt))

def Job.ofJson (j : Json) : Job where
  notificationID := (Json.toInt (j.field? "notification_id")).toNat
  deliveryID := (Json.toInt (j.field? "delivery_id")).toNat
  tenantID := Json.toString (j.field? "tenant_id")
  channel := Json.toString (j.field? "channel")
  queueName := Json.toString (j.field? "queue_name")
  payload := ((j.field? "payload").bind GoMap.ofJson).getD JsonMap.empty
  attempt := (Json.toInt (j.field? "attempt")).toNat

private theorem field?_append (name : String) (fields rest : List (String × Json)) :
    Json.field? name (.obj (fields ++ rest)) =
      (Json.field? name (.obj fields)).or (Json.field? name (.obj rest)) := by
  simp only [Json.field?, List.find?_append, Option.map_or]

private theorem field?_omitEmpty (name other : String) (isZero : Bool) (value : Json) :
    Json.field? other (.obj (omitEmpty name isZero value)) =
      if name = other ∧ isZero = false then some value else none := by
  cases isZero <;> by_cases h : name = other <;> simp [omitEmpty, Json.field?, h]

theorem Job.ofJson_toJson (job : Job) : Job.ofJson job.toJson = job := by
  obtain ⟨n, d, t, channel, queueName, payload, attempt⟩ := job
  have hid : ∀ i : Nat, (Json.toInt (some (.num i))).toNat = i := by
    intro i
    simp [Json.toInt]
  have htenant : Json.toString (some (.str t)) = t := rfl
  have htext : ∀ s : String, Json.toString (if s = "" then none else some (.str s)) = s := by
    intro s
    by_cases hs : s = "" <;> simp [hs, Json.toString]
  have hattempt : (Json.toInt (if attempt = 0 then none else some (.num attempt))).toNat =
      attempt := by
    by_cases h : attempt = 0 <;> simp [h, Json.toInt]
  have hpayload : ((if payload.fields = [] then none else
      some (Json.obj payload.fields)).bind GoMap.ofJson).getD JsonMap.empty = payload := by
    by_cases hp : payload.fields = []
    · simpa [hp] using JsonMap.ext hp.symm
    · simp [hp, GoMap.ofJson, JsonMap.setAll_empty]
  simp only [Job.ofJson, Job.toJson, field?_append, field?_omitEmpty]
  simp [Json.field?, hid, htenant, htext, hattempt, hpayload]

/-- A message of a queue, decoded; `none` is a body that does not decode as a job. -/
structure Message where
  queue : Queue
  body : Option Job

def Message.carries (id : Nat) (m : Message) : Bool :=
  match m.body with
  | some job => job.deliveryID == id
  | none => false

@[simp] theorem Message.carries_some (id : Nat) (q : Queue) (job : Job) :
    Message.carries id ⟨q, some job⟩ = (job.deliveryID == id) := rfl

@[simp] theorem Message.carries_none (id : Nat) (q : Queue) :
    Message.carries id ⟨q, none⟩ = false := rfl

structure Delivery where
  tag : Nat
  message : Message

inductive ControlStatus where
  | active
  | paused
  | stopped
  deriving DecidableEq, Repr

/-- A `tenant_queue_controls` row, as far as `Send`, the scheduler and the workers read it. -/
structure Control where
  id : Nat
  tenantID : String
  channel : String
  queueName : String
  status : ControlStatus

def isSlugChar (c : Char) : Bool :=
  (decide ('a' ≤ c) && decide (c ≤ 'z')) || (decide ('0' ≤ c) && decide (c ≤ '9'))

/-- `queueSlugPattern.ReplaceAllString(s, "-")`: each maximal run of other characters becomes
one dash. The flag says whether the run at the head has been written already. -/
def replaceRuns : Bool → List Char → List Char
  | _, [] => []
  | inRun, c :: cs =>
      if isSlugChar c then c :: replaceRuns false cs
      else if inRun then replaceRuns true cs
      else '-' :: replaceRuns true cs

def trimDashes (cs : List Char) : List Char :=
  ((cs.dropWhile (· == '-')).reverse.dropWhile (· == '-')).reverse

def nameForTenant (cfg : Config) (slug channel : String) : String :=
  let trimmed := trimDashes (replaceRuns false (slug.toList.map cfg.toLower))
  let slug := if trimmed = [] then "tenant" else String.ofList trimmed
  "tenant." ++ slug ++ "." ++ String.ofList (channel.toList.map cfg.toLower)

end NotificationPlatform

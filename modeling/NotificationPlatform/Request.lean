import Mathlib.Data.Rat.Cast.Defs
import NotificationPlatform.Queue

/-!
# Notification requests

The request a tenant submits, its JSON encoding, and what `Send` computes from it before it
touches the database.
-/

namespace NotificationPlatform

structure Target where
  type : String
  recipient : GoMap
  id : String

structure Schedule where
  type : String
  sendAt : String

structure Request where
  event : String
  channels : List String
  template : String
  target : Target
  data : GoMap
  priority : Int
  schedule : Schedule
  idempotencyKey : String

structure Accepted where
  status : String
  notificationID : String
  message : String
  deriving DecidableEq, Repr

/-- An error value: one that the code words itself, `pgx.ErrNoRows`, one that `time.Parse` or
a driver returns, or `fmt.Errorf("%s: %w", channel, err)`. -/
inductive Err where
  | text (message : String)
  | noRows
  | parse
  | driver
  | wrapped (channel : String) (err : Err)
  deriving DecidableEq, Repr

def Target.toJson (t : Target) : Json :=
  .obj [("type", .str t.type), ("recipient", t.recipient.toJson), ("id", .str t.id)]

def Target.ofJson (j : Json) : Target where
  type := Json.toString (j.field? "type")
  recipient := (j.field? "recipient").bind GoMap.ofJson
  id := Json.toString (j.field? "id")

def Schedule.toJson (s : Schedule) : Json :=
  .obj [("type", .str s.type), ("send_at", .str s.sendAt)]

def Schedule.ofJson (j : Json) : Schedule where
  type := Json.toString (j.field? "type")
  sendAt := Json.toString (j.field? "send_at")

def Request.toJson (r : Request) : Json :=
  .obj [("event", .str r.event), ("channels", .ofStrings r.channels),
    ("template", .str r.template), ("target", r.target.toJson), ("data", r.data.toJson),
    ("priority", .num r.priority), ("schedule", r.schedule.toJson),
    ("idempotency_key", .str r.idempotencyKey)]

def Request.ofJson (j : Json) : Request where
  event := Json.toString (j.field? "event")
  channels := Json.toStrings (j.field? "channels")
  template := Json.toString (j.field? "template")
  target := Target.ofJson ((j.field? "target").getD .null)
  data := (j.field? "data").bind GoMap.ofJson
  priority := Json.toInt (j.field? "priority")
  schedule := Schedule.ofJson ((j.field? "schedule").getD .null)
  idempotencyKey := Json.toString (j.field? "idempotency_key")

theorem Target.ofJson_toJson (t : Target) : Target.ofJson t.toJson = t := by
  simp [Target.ofJson, Target.toJson, Json.field?, Json.toString, GoMap.ofJson_toJson]

theorem Schedule.ofJson_toJson (s : Schedule) : Schedule.ofJson s.toJson = s := by
  simp [Schedule.ofJson, Schedule.toJson, Json.field?, Json.toString]

theorem Request.ofJson_toJson (r : Request) : Request.ofJson r.toJson = r := by
  simp [Request.ofJson, Request.toJson, Json.field?, Json.toString, Json.toInt,
    Json.toStrings_ofStrings, GoMap.ofJson_toJson, Target.ofJson_toJson, Schedule.ofJson_toJson]

/-- The simple case folding of a rune, as far as it can meet an ASCII letter: the long s and
the Kelvin sign fold to letters of ASCII. -/
def foldRune (c : Char) : Char :=
  if 'A' ≤ c ∧ c ≤ 'Z' then c.toLower
  else if c = 'ſ' then 's'
  else if c = '\u212a' then 'k'
  else c

def equalFold (s t : String) : Bool := s.toList.map foldRune = t.toList.map foldRune

inductive NotificationStatus where
  | queued
  | scheduled
  deriving DecidableEq, Repr

def scheduleState (cfg : Config) (s : Schedule) :
    Except Err (Option Nat × NotificationStatus) :=
  if equalFold s.type "scheduled" then
    match cfg.parseRFC3339 s.sendAt with
    | none => .error .parse
    | some t => .ok (some t, .scheduled)
  else .ok (none, .queued)

/-- `if req.Schedule.Type == "" { req.Schedule.Type = "instant" }` -/
def Request.withDefaultSchedule (r : Request) : Request :=
  if r.schedule.type = "" then { r with schedule := { r.schedule with type := "instant" } } else r

theorem Request.withDefaultSchedule_channels (req : Request) :
    req.withDefaultSchedule.channels = req.channels := by
  unfold Request.withDefaultSchedule
  split <;> rfl

theorem Request.withDefaultSchedule_data (req : Request) :
    req.withDefaultSchedule.data = req.data := by
  unfold Request.withDefaultSchedule
  split <;> rfl

theorem Request.withDefaultSchedule_target (req : Request) :
    req.withDefaultSchedule.target = req.target := by
  unfold Request.withDefaultSchedule
  split <;> rfl

theorem Request.withDefaultSchedule_idempotencyKey (req : Request) :
    req.withDefaultSchedule.idempotencyKey = req.idempotencyKey := by
  unfold Request.withDefaultSchedule
  split <;> rfl

/-- The payload of a job: the data of the request, overridden by its recipient. -/
def jobPayload (data recipient : GoMap) : JsonMap :=
  (JsonMap.empty.setAll data.fields).setAll recipient.fields

def nullIfEmpty (value : String) : Option String := if value = "" then none else some value

end NotificationPlatform

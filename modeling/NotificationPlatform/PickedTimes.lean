import Mathlib.Data.List.TakeWhile
import NotificationPlatform.Lib.Rfc3339
import NotificationPlatform.ProviderForms
import NotificationPlatform.World

/-!
# Times picked on the page that sends

`SendNotificationPage` submits what its `datetime-local` input holds, a time without a zone.
`scheduleState` reads a timestamp with one. The text of no time that can be picked is such a
timestamp, and the same text with seconds and a zone is.
-/

namespace NotificationPlatform

open Lib Lib.Calendar Lib.Rfc3339

namespace PickedTimes

inductive Seconds where
  | none
  | whole (second : Fin 60)
  | fraction (second : Fin 60) (digits : List (Fin 10))
      (hdigits : digits ≠ [] ∧ digits.length ≤ 3)

/-- A value of a `datetime-local` input: a date of the calendar and a time of the day. -/
structure LocalTime where
  date : Date
  hour : Nat
  minute : Nat
  seconds : Seconds
  hyear : 1 ≤ date.year
  hmonth : 1 ≤ date.month ∧ date.month ≤ 12
  hday : 1 ≤ date.day ∧ date.day ≤ daysIn date.month date.year
  hhour : hour < 24
  hminute : minute < 60

def fractionChars (digits : List (Fin 10)) : List Char := digits.map fun d => Nat.digitChar d.val

def Seconds.chars : Seconds → List Char
  | .none => []
  | .whole second => ':' :: twoDigits second
  | .fraction second digits _ => ':' :: twoDigits second ++ '.' :: fractionChars digits

def Seconds.shown : Seconds → Seconds
  | .none => .whole 0
  | seconds => seconds

def Seconds.second : Seconds → Nat
  | .none => 0
  | .whole second => second
  | .fraction second _ _ => second

def Seconds.nanosecond : Seconds → Nat
  | .fraction _ digits _ => nanoseconds (fractionChars digits)
  | _ => 0

namespace LocalTime

def timeChars (t : LocalTime) : List Char :=
  'T' :: (twoDigits t.hour ++ ':' :: (twoDigits t.minute ++ t.seconds.chars))

def text (t : LocalTime) : String := String.ofList (t.date.text.toList ++ t.timeChars)

def clock (t : LocalTime) : Clock :=
  ⟨t.date, t.hour, t.minute, t.seconds.second, t.seconds.nanosecond⟩

def zonedText (t : LocalTime) (zone : List Char) : String :=
  String.ofList (t.date.text.toList ++ { t with seconds := t.seconds.shown }.timeChars ++ zone)

end LocalTime

inductive RecipientMode where
  | contact
  | group
  | directEmail
  | directPhone
  | fcmToken
  | fcmTopic
  | websocketUser
  | inAppUser
  deriving DecidableEq, Repr

structure ContactOption where
  id : String
  email : String
  phone : String

/-- The state of `SendNotificationPage`, as far as `submit` reads it. -/
structure SendForm where
  event : String
  selectedChannels : List String
  templateKey : String
  mode : RecipientMode
  recipientValue : String
  contactId : String
  groupId : String
  contacts : List ContactOption
  templateValues : List (String × String)
  channelOptions : String → Json
  priority : Rat
  sendAt : String
  isPlatform : Bool
  tenantId : String

namespace SendForm

private def targetOf (type key : String) (form : SendForm) : Json :=
  .obj [("type", .str type), ("recipient", .obj [(key, .str form.recipientValue)])]

def buildTarget (form : SendForm) : Json :=
  match form.mode with
  | .contact =>
      let c := form.contacts.find? fun c => c.id == form.contactId
      .obj [("type", .str "contact"), ("id", .str form.contactId),
        ("recipient", .obj [("email", .str ((c.map ContactOption.email).getD "")),
          ("phone", .str ((c.map ContactOption.phone).getD ""))])]
  | .group => .obj [("type", .str "group"), ("id", .str form.groupId), ("recipient", .obj [])]
  | .directEmail => targetOf "direct_email" "email" form
  | .directPhone => targetOf "direct_phone" "phone" form
  | .fcmToken => targetOf "fcm_token" "fcm_token" form
  | .fcmTopic => targetOf "fcm_topic" "fcm_topic" form
  | .websocketUser => targetOf "websocket_user" "external_user_id" form
  | .inAppUser => targetOf "in_app_user" "external_user_id" form

def activeChannelOptions (form : SendForm) : List (String × Json) :=
  (["email", "sms", "fcm", "websocket", "in_app"].filter form.selectedChannels.contains).map
    fun channel => (channel, form.channelOptions channel)

def submit (form : SendForm) : Json :=
  .obj ([("event", .str form.event), ("channels", Json.ofStrings form.selectedChannels),
      ("template", .str form.templateKey), ("target", form.buildTarget),
      ("data", .obj (setField (form.templateValues.map fun v => (v.1, .str v.2)) "channel_options"
        (.obj form.activeChannelOptions))),
      ("priority", .num form.priority)] ++
    (if ProviderForms.trim form.sendAt = "" then []
      else [("schedule", .obj [("type", .str "scheduled"), ("send_at", .str form.sendAt)])]) ++
    if form.isPlatform then [("tenant_id", .str form.tenantId)] else [])

end SendForm

/-- A configuration whose timestamps are read by `time.Parse`; `ticks` gives an instant in the
unit of the database. -/
def readsTimes (cfg : Config) (ticks : Int → Nat) : Config :=
  { cfg with parseRFC3339 := fun s => (parse s).map ticks }

/-- The schedule that the page submits is accepted, and what is stored is the instant of the time
that was picked, in a browser whose clock is `offset` seconds ahead at that time. -/
def PickedTimeKept (cfg : Config) (ticks : Int → Nat) (offset : LocalTime → Int) (form : SendForm)
    (picked : LocalTime) : Prop :=
  scheduleState (readsTimes cfg ticks)
      (Request.ofJson { form with sendAt := picked.text }.submit).schedule =
    .ok (some (ticks (picked.clock.instant (offset picked))), .scheduled)

theorem isWhiteSpace_of_trim {s : String} (h : ProviderForms.trim s = "") :
    ∀ c ∈ s.toList, ProviderForms.isWhiteSpace c = true := by
  have hchars := congrArg String.toList h
  simp only [ProviderForms.trim, String.toList_ofList, String.toList_empty,
    List.reverse_eq_nil_iff, List.dropWhile_eq_nil_iff, List.mem_reverse] at hchars
  intro c hc
  by_contra hne
  have hkept : c ∈ s.toList.dropWhile ProviderForms.isWhiteSpace := by
    rw [← List.takeWhile_append_dropWhile (p := ProviderForms.isWhiteSpace) (l := s.toList)] at hc
    rcases List.mem_append.mp hc with htaken | hdropped
    · exact absurd (List.mem_takeWhile_imp htaken) hne
    · exact hdropped
  exact hne (hchars c hkept)

theorem trim_text (t : LocalTime) : ProviderForms.trim t.text ≠ "" := by
  intro h
  have hmem : 'T' ∈ t.text.toList := by
    rw [LocalTime.text, String.toList_ofList]
    exact List.mem_append_right _ List.mem_cons_self
  exact absurd (isWhiteSpace_of_trim h 'T' hmem) (by decide)

theorem schedule_submit (form : SendForm) (t : LocalTime) :
    (Request.ofJson { form with sendAt := t.text }.submit).schedule = ⟨"scheduled", t.text⟩ := by
  simp [SendForm.submit, Request.ofJson, Schedule.ofJson, Json.field?, Json.toString, trim_text]

def isTimeChar (c : Char) : Bool := c.isDigit || c == ':' || c == '.'

private theorem digitChar_isDigit {n : Nat} (h : n < 10) : (Nat.digitChar n).isDigit = true := by
  have hall : ∀ n < 10, (Nat.digitChar n).isDigit = true := by decide
  exact hall n h

theorem twoDigits_isDigit {n : Nat} (h : n < 100) : ∀ c ∈ twoDigits n, c.isDigit = true := by
  simp only [twoDigits, List.mem_cons, List.not_mem_nil, or_false, forall_eq_or_imp, forall_eq]
  exact ⟨digitChar_isDigit (by omega), digitChar_isDigit (by omega)⟩

theorem fractionChars_isDigit (digits : List (Fin 10)) :
    ∀ c ∈ fractionChars digits, c.isDigit = true := by
  intro c hc
  obtain ⟨d, -, rfl⟩ := List.mem_map.mp hc
  exact digitChar_isDigit d.isLt

private theorem isTimeChar_of_isDigit {cs : List Char} (h : ∀ c ∈ cs, c.isDigit = true) :
    cs.all isTimeChar = true :=
  List.all_eq_true.mpr fun c hc => by simp [isTimeChar, h c hc]

theorem seconds_isTimeChar (seconds : Seconds) : seconds.chars.all isTimeChar = true := by
  cases seconds with
  | none => rfl
  | whole second =>
      have htwo := isTimeChar_of_isDigit (twoDigits_isDigit (show second.val < 100 by omega))
      simpa [Seconds.chars, isTimeChar] using htwo
  | fraction second digits hdigits =>
      have htwo := isTimeChar_of_isDigit (twoDigits_isDigit (show second.val < 100 by omega))
      have hfraction := isTimeChar_of_isDigit (fractionChars_isDigit digits)
      rw [Seconds.chars, List.cons_append, List.all_cons, List.all_append, List.all_cons, htwo,
        hfraction]
      rfl

theorem timeChars_eq (t : LocalTime) : ∃ cs, t.timeChars = 'T' :: cs ∧ 5 ≤ cs.length ∧
    cs.all isTimeChar = true := by
  have hhour := isTimeChar_of_isDigit (twoDigits_isDigit (t.hhour.trans (by decide)))
  have hminute := isTimeChar_of_isDigit (twoDigits_isDigit (t.hminute.trans (by decide)))
  refine ⟨_, rfl, by simp [twoDigits], ?_⟩
  rw [List.all_append, List.all_cons, List.all_append, hhour, hminute, seconds_isTimeChar]
  rfl

theorem text_no_zone (t : LocalTime) {zone : List Char} (hzone : IsZone zone) :
    ¬zone <:+ t.text.toList := by
  intro hsuffix
  obtain ⟨cs, htime, hlength, hall⟩ := timeChars_eq t
  rw [LocalTime.text, String.toList_ofList, htime] at hsuffix
  have hshort : zone.length ≤ ('T' :: cs).length := by
    rcases hzone with rfl | ⟨sign, a, b, c, d, -, rfl⟩
    · simp
    · simpa using hlength
  have hinside : zone <:+ 'T' :: cs :=
    List.suffix_of_suffix_length_le hsuffix (List.suffix_append _ _) hshort
  have hchars : ∀ c ∈ zone, c = 'T' ∨ isTimeChar c = true := by
    intro c hc
    rcases List.mem_cons.mp (hinside.subset hc) with rfl | hmem
    · exact .inl rfl
    · exact .inr (List.all_eq_true.mp hall c hmem)
  rcases hzone with rfl | ⟨sign, a, b, c, d, hsign, rfl⟩
  · exact absurd (hchars 'Z' List.mem_cons_self) (by decide)
  · have hfirst := hchars sign List.mem_cons_self
    rcases hsign with rfl | rfl
    · exact absurd hfirst (by decide)
    · exact absurd hfirst (by decide)

theorem scheduleState_picked (cfg : Config) (ticks : Int → Nat) (form : SendForm)
    (picked : LocalTime) :
    scheduleState (readsTimes cfg ticks)
      (Request.ofJson { form with sendAt := picked.text }.submit).schedule = .error .parse := by
  have hnone : parse picked.text = none := by
    cases hparse : parse picked.text with
    | none => rfl
    | some t =>
        obtain ⟨zone, hzone, hsuffix⟩ := exists_zone_of_parse hparse
        exact absurd hsuffix (text_no_zone picked hzone)
  have htype : equalFold "scheduled" "scheduled" = true := decide_eq_true rfl
  rw [schedule_submit, scheduleState, if_pos htype]
  simp only [readsTimes, hnone, Option.map_none]

private theorem head?_zone {zone : List Char} (h : IsZone zone) :
    ∀ c ∈ zone.head?, c.isDigit = false := by
  rcases h with rfl | ⟨sign, a, b, c, d, hsign, rfl⟩
  · simp
  · rcases hsign with rfl | rfl <;> simp

theorem readShown (seconds : Seconds) {zone : List Char} (hzone : IsZone zone) : ∃ cs,
    seconds.shown.chars ++ zone = ':' :: (twoDigits seconds.second ++ cs) ∧
      readFraction cs = (seconds.nanosecond, zone) := by
  cases seconds with
  | none => exact ⟨zone, rfl, readFraction_zone hzone⟩
  | whole second => exact ⟨zone, rfl, readFraction_zone hzone⟩
  | fraction second digits hdigits =>
      have hne : fractionChars digits ≠ [] := by simpa [fractionChars] using hdigits.1
      refine ⟨'.' :: (fractionChars digits ++ zone), ?_,
        readFraction_digits hne (fractionChars_isDigit digits) (head?_zone hzone)⟩
      simp [Seconds.shown, Seconds.chars, Seconds.second]

theorem parse_zonedText (t : LocalTime) (hyear : t.date.year < 10000) {zone : List Char}
    {offset : Int} (hzone : IsZone zone) (hread : readZone zone = some (offset, [])) :
    parse (t.zonedText zone) = some (t.clock.instant offset) := by
  obtain ⟨cs, hshown, hfraction⟩ := readShown t.seconds hzone
  have hsecond : t.seconds.second < 60 := by
    cases t.seconds with
    | none => decide
    | whole second => exact second.isLt
    | fraction second digits hdigits => exact second.isLt
  have hmonth := t.hmonth
  have hday := t.hday
  have hhour := t.hhour
  have hminute := t.hminute
  have hdays : daysIn t.date.month t.date.year < 100 := by
    unfold daysIn
    split
    · split <;> decide
    · split <;> decide
  have hchars : (t.zonedText zone).toList =
      List.replicate (4 - (Nat.toDigits 10 t.date.year).length) '0' ++
        Nat.toDigits 10 t.date.year ++ ('-' :: (twoDigits t.date.month ++ '-' ::
          (twoDigits t.date.day ++ 'T' :: (twoDigits t.hour ++ ':' :: (twoDigits t.minute ++ ':' ::
            (twoDigits t.seconds.second ++ cs)))))) := by
    simp only [LocalTime.zonedText, String.toList_ofList, Date.text, LocalTime.timeChars,
      List.append_assoc, List.cons_append, hshown]
  have hclock : readClock (t.zonedText zone).toList = some (t.clock, zone) := by
    rw [hchars, readClock]
    refine Option.bind_eq_some_iff.mpr ⟨_, readYear_text hyear _, ?_⟩
    refine Option.bind_eq_some_iff.mpr ⟨_, readChar_self _ _, ?_⟩
    refine Option.bind_eq_some_iff.mpr ⟨_, readNumber_twoDigits _ (by omega) _, ?_⟩
    refine Option.bind_eq_some_iff.mpr ⟨_, readChar_self _ _, ?_⟩
    refine Option.bind_eq_some_iff.mpr ⟨_, readNumber_twoDigits _ (by omega) _, ?_⟩
    refine Option.bind_eq_some_iff.mpr ⟨_, readChar_self _ _, ?_⟩
    refine Option.bind_eq_some_iff.mpr ⟨_, readNumber_twoDigits _ (by omega) _, ?_⟩
    refine Option.bind_eq_some_iff.mpr ⟨_, readChar_self _ _, ?_⟩
    refine Option.bind_eq_some_iff.mpr ⟨_, readNumber_twoDigits _ (by omega) _, ?_⟩
    refine Option.bind_eq_some_iff.mpr ⟨_, readChar_self _ _, ?_⟩
    refine Option.bind_eq_some_iff.mpr ⟨_, readNumber_twoDigits _ (by omega) _, ?_⟩
    simp only [hfraction]
    exact if_pos ⟨hmonth.1, hmonth.2, hday.1, hday.2, hhour, hminute, hsecond⟩
  simp only [parse, hclock, hread, Option.bind_eq_bind, Option.bind_some, if_true]

/-- What the page would have to send for a picked time, when the browser's clock is ahead of
Greenwich, or behind it, by hours and minutes. -/
theorem scheduleState_zoned (cfg : Config) (ticks : Int → Nat) (picked : LocalTime)
    (hyear : picked.date.year < 10000) (west : Bool) {hours minutes : Nat} (hhours : hours ≤ 24)
    (hminutes : minutes ≤ 60) :
    scheduleState (readsTimes cfg ticks)
        ⟨"scheduled", picked.zonedText (offsetText west hours minutes)⟩ =
      .ok (some (ticks (picked.clock.instant (offsetSeconds west hours minutes))), .scheduled) := by
  have hparse := parse_zonedText picked hyear (isZone_offsetText west hours minutes)
    (readZone_offsetText west hhours hminutes)
  have htype : equalFold "scheduled" "scheduled" = true := decide_eq_true rfl
  rw [scheduleState, if_pos htype]
  simp only [readsTimes, hparse, Option.map_some]

/-- Of no time that can be picked is the schedule accepted. -/
theorem picked_time_not_kept (cfg : Config) (ticks : Int → Nat) (offset : LocalTime → Int)
    (form : SendForm) (picked : LocalTime) : ¬PickedTimeKept cfg ticks offset form picked := by
  rw [PickedTimeKept, scheduleState_picked]
  nofun

def morning : LocalTime :=
  ⟨⟨2026, 6, 28⟩, 10, 0, .none, by decide, by decide, by decide, by decide, by decide⟩

example : morning.text = "2026-06-28T10:00" := by
  rw [LocalTime.text, Date.text, String.toList_ofList]
  decide +kernel

def orderForm : SendForm where
  event := "order.confirmed"
  selectedChannels := ["email"]
  templateKey := "order_confirmation"
  mode := .directEmail
  recipientValue := "jane@example.com"
  contactId := ""
  groupId := ""
  contacts := []
  templateValues := [("customer_name", "Jane Smith")]
  channelOptions := fun _ => .obj []
  priority := 5
  sendAt := ""
  isPlatform := false
  tenantId := "t1"

theorem morning_not_kept :
    ¬PickedTimeKept (sampleConfig 3) Int.toNat (fun _ => 0) orderForm morning := by
  rw [PickedTimeKept, scheduleState_picked]
  nofun

end PickedTimes

end NotificationPlatform

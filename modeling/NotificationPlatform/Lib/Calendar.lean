import Mathlib.Data.Nat.Digits.Defs
import Mathlib.Logic.Function.Basic

/-!
# Dates

The Gregorian date of a day, counted from 1 January 1970, and its text in the layout
`2006-01-02`. Years begin in March, so that the leap day is the last day of its year.
-/

namespace Lib.Calendar

structure Date where
  year : Nat
  month : Nat
  day : Nat
  deriving DecidableEq, Repr

/-- A day of an era of 400 years: its century, its group of four years, its year in the group and
the day of the year. The last century and the last year of a group have the leap day. -/
structure EraDay where
  century : Nat
  group : Nat
  year : Nat
  day : Nat

def EraDay.ofNat (doe : Nat) : EraDay :=
  let century := min (doe / 36524) 3
  let doc := doe - century * 36524
  let year := min (doc % 1461 / 365) 3
  ⟨century, doc / 1461, year, doc % 1461 - year * 365⟩

def EraDay.yearOfEra (x : EraDay) : Nat := x.century * 100 + x.group * 4 + x.year

def monthOfYear (doy : Nat) : Nat := (5 * doy + 2) / 153

def startOfMonth (mp : Nat) : Nat := (153 * mp + 2) / 5

def ofDays (days : Nat) : Date :=
  let era := (days + 719468) / 146097
  let x := EraDay.ofNat ((days + 719468) % 146097)
  let mp := monthOfYear x.day
  { year := x.yearOfEra + era * 400 + if mp < 10 then 0 else 1
    month := if mp < 10 then mp + 3 else mp - 9
    day := x.day - startOfMonth mp + 1 }

/-- The day of a date, in the same count. A year that has ended in February is the one before. -/
def dayNumber (date : Date) : Int :=
  let year : Int := date.year - if date.month ≤ 2 then 1 else 0
  let month := if date.month ≤ 2 then date.month + 9 else date.month - 3
  365 * year + year / 4 - year / 100 + year / 400 + startOfMonth month + date.day - 1 - 719468

example : [0, 59, 789, 11016, 20000].map ofDays =
    [⟨1970, 1, 1⟩, ⟨1970, 3, 1⟩, ⟨1972, 2, 29⟩, ⟨2000, 2, 29⟩, ⟨2024, 10, 4⟩] := by decide

def twoDigits (n : Nat) : List Char := [Nat.digitChar (n / 10), Nat.digitChar (n % 10)]

def Date.text (date : Date) : String :=
  let digits := Nat.toDigits 10 date.year
  String.ofList (List.replicate (4 - digits.length) '0' ++ digits ++
    '-' :: twoDigits date.month ++ '-' :: twoDigits date.day)

example : (ofDays 20000).text = "2024-10-04" := by decide +kernel

def stamp (seconds : Nat) : String :=
  let date := ofDays (seconds / 86400)
  let digits := Nat.toDigits 10 date.year
  String.ofList (List.replicate (4 - digits.length) '0' ++ digits ++ twoDigits date.month ++
    twoDigits date.day ++ twoDigits (seconds % 86400 / 3600) ++ twoDigits (seconds % 3600 / 60) ++
    twoDigits (seconds % 60))

example : stamp 1728049445 = "20241004134405" := by decide +kernel

structure EraDay.Parts (doe : Nat) (x : EraDay) : Prop where
  century : x.century < 4
  group : x.group < 25
  year : x.year < 4
  day : x.day < 366
  sum : doe = x.century * 36524 + x.group * 1461 + x.year * 365 + x.day

theorem EraDay.parts {doe : Nat} (h : doe < 146097) : EraDay.Parts doe (EraDay.ofNat doe) := by
  constructor <;> simp only [EraDay.ofNat] <;> omega

theorem startOfMonth_le (doy : Nat) : startOfMonth (monthOfYear doy) ≤ doy := by
  unfold startOfMonth monthOfYear
  omega

theorem monthOfYear_lt {doy : Nat} (h : doy < 366) : monthOfYear doy < 12 := by
  unfold monthOfYear
  omega

theorem ofDays_bounds (days : Nat) : (ofDays days).month < 13 ∧ (ofDays days).day < 32 := by
  have hx := EraDay.parts (Nat.mod_lt (days + 719468) (show 0 < 146097 by decide))
  have hday := hx.day
  have hmonth := monthOfYear_lt hday
  simp only [ofDays]
  constructor
  · split <;> omega
  · unfold startOfMonth monthOfYear
    omega

theorem dayNumber_of_parts (era : Nat) {doe : Nat} {x : EraDay} (hx : EraDay.Parts doe x) :
    dayNumber
      { year := x.yearOfEra + era * 400 + if monthOfYear x.day < 10 then 0 else 1
        month := if monthOfYear x.day < 10 then monthOfYear x.day + 3 else monthOfYear x.day - 9
        day := x.day - startOfMonth (monthOfYear x.day) + 1 } = era * 146097 + doe - 719468 := by
  have hmonth := monthOfYear_lt hx.day
  have hstart := startOfMonth_le x.day
  have hsum := hx.sum
  have hcentury := hx.century
  have hgroup := hx.group
  have hyear := hx.year
  rcases Nat.lt_or_ge (monthOfYear x.day) 10 with hearly | hlate
  · have hlarge : ¬monthOfYear x.day + 3 ≤ 2 := by omega
    simp only [dayNumber, EraDay.yearOfEra, if_pos hearly, if_neg hlarge, Nat.add_sub_cancel]
    omega
  · have hsmall : monthOfYear x.day - 9 ≤ 2 := by omega
    have hnot : ¬monthOfYear x.day < 10 := by omega
    simp only [dayNumber, EraDay.yearOfEra, if_neg hnot, if_pos hsmall,
      Nat.sub_add_cancel (show 9 ≤ monthOfYear x.day by omega)]
    omega

theorem dayNumber_ofDays (days : Nat) : dayNumber (ofDays days) = days := by
  have hx := EraDay.parts (Nat.mod_lt (days + 719468) (show 0 < 146097 by decide))
  have hnumber := dayNumber_of_parts ((days + 719468) / 146097) hx
  have hsplit := Nat.div_add_mod' (days + 719468) 146097
  rw [ofDays, hnumber]
  omega

theorem ofDays_injective : Function.Injective ofDays := by
  intro a b h
  have hday := congrArg dayNumber h
  rw [dayNumber_ofDays, dayNumber_ofDays] at hday
  exact Int.ofNat_inj.mp hday

theorem twoDigits_injective {m n : Nat} (hm : m < 100) (hn : n < 100)
    (h : twoDigits m = twoDigits n) : m = n := by
  have hdigit : ∀ i < 10, ∀ j < 10, Nat.digitChar i = Nat.digitChar j → i = j := by decide
  obtain ⟨htens, hrest⟩ := List.cons.inj h
  have hten := hdigit (m / 10) (by omega) (n / 10) (by omega) htens
  have hone := hdigit (m % 10) (by omega) (n % 10) (by omega) (List.cons.inj hrest).1
  omega

theorem year_injective {m n : Nat}
    (h : List.replicate (4 - (Nat.toDigits 10 m).length) '0' ++ Nat.toDigits 10 m =
      List.replicate (4 - (Nat.toDigits 10 n).length) '0' ++ Nat.toDigits 10 n) : m = n := by
  have hvalue : ∀ k i : Nat,
      Nat.ofDigitChars 10 (List.replicate k '0' ++ Nat.toDigits 10 i) 0 = i := by
    intro k i
    induction k with
    | zero => simp
    | succ k ih => exact ih
  have heq := congrArg (fun cs => Nat.ofDigitChars 10 cs 0) h
  simpa only [hvalue] using heq

theorem Date.eq_of_text {x y : Date} (hx : x.month < 13 ∧ x.day < 32)
    (hy : y.month < 13 ∧ y.day < 32) (h : x.text = y.text) : x = y := by
  have hlist := congrArg String.toList h
  simp only [Date.text, String.toList_ofList] at hlist
  obtain ⟨hfront, hdays⟩ := List.append_inj' hlist (by simp [twoDigits])
  obtain ⟨hyears, hmonths⟩ := List.append_inj' hfront (by simp [twoDigits])
  have hmonth : x.month = y.month :=
    twoDigits_injective (by omega) (by omega) (List.cons.inj hmonths).2
  have hday : x.day = y.day := twoDigits_injective (by omega) (by omega) (List.cons.inj hdays).2
  have hyear : x.year = y.year := year_injective hyears
  cases x
  cases y
  simp_all

theorem text_injective : Function.Injective fun days => (ofDays days).text := by
  intro a b h
  exact ofDays_injective (Date.eq_of_text (ofDays_bounds a) (ofDays_bounds b) h)

theorem stamp_injective : Function.Injective stamp := by
  intro a b h
  have hlist := congrArg String.toList h
  simp only [stamp, String.toList_ofList] at hlist
  obtain ⟨hlist, hseconds⟩ := List.append_inj' hlist (by simp [twoDigits])
  obtain ⟨hlist, hminutes⟩ := List.append_inj' hlist (by simp [twoDigits])
  obtain ⟨hlist, hhours⟩ := List.append_inj' hlist (by simp [twoDigits])
  obtain ⟨hlist, hdays⟩ := List.append_inj' hlist (by simp [twoDigits])
  obtain ⟨hyears, hmonths⟩ := List.append_inj' hlist (by simp [twoDigits])
  have hx := ofDays_bounds (a / 86400)
  have hy := ofDays_bounds (b / 86400)
  have hsecond := twoDigits_injective (by omega) (by omega) hseconds
  have hminute := twoDigits_injective (by omega) (by omega) hminutes
  have hhour := twoDigits_injective (by omega) (by omega) hhours
  have hday := twoDigits_injective (by omega) (by omega) hdays
  have hmonth := twoDigits_injective (by omega) (by omega) hmonths
  have hdate : ofDays (a / 86400) = ofDays (b / 86400) := by
    generalize ofDays (a / 86400) = x at *
    generalize ofDays (b / 86400) = y at *
    have hyear : x.year = y.year := year_injective hyears
    cases x
    cases y
    simp_all
  have hdays := ofDays_injective hdate
  omega

theorem digit_ne_colon {c : Char} (h : c.isDigit = true) : c ≠ ':' := by
  rintro rfl
  simp at h

theorem text_noColon (days : Nat) : ':' ∉ (ofDays days).text.toList := by
  obtain ⟨hmonth, hday⟩ := ofDays_bounds days
  have htwo : ∀ n < 100, ':' ∉ twoDigits n := by decide
  intro hmem
  simp only [Date.text, String.toList_ofList, List.mem_append, List.mem_cons] at hmem
  rcases hmem with ((hzero | hyear) | hdash | hm) | hdash | hd
  · simp at hzero
  · exact digit_ne_colon (Nat.isDigit_of_mem_toDigits (by decide) (by decide) hyear) rfl
  · simp at hdash
  · exact htwo _ (by omega) hm
  · simp at hdash
  · exact htwo _ (by omega) hd

def dayName : Nat → List Char
  | 0 => ['S', 'u', 'n']
  | 1 => ['M', 'o', 'n']
  | 2 => ['T', 'u', 'e']
  | 3 => ['W', 'e', 'd']
  | 4 => ['T', 'h', 'u']
  | 5 => ['F', 'r', 'i']
  | _ => ['S', 'a', 't']

def monthName : Nat → List Char
  | 1 => ['J', 'a', 'n']
  | 2 => ['F', 'e', 'b']
  | 3 => ['M', 'a', 'r']
  | 4 => ['A', 'p', 'r']
  | 5 => ['M', 'a', 'y']
  | 6 => ['J', 'u', 'n']
  | 7 => ['J', 'u', 'l']
  | 8 => ['A', 'u', 'g']
  | 9 => ['S', 'e', 'p']
  | 10 => ['O', 'c', 't']
  | 11 => ['N', 'o', 'v']
  | _ => ['D', 'e', 'c']

/-- The text of a second in the layout `Mon, 02 Jan 2006 15:04:05 -0700`, in UTC. -/
def rfc1123z (seconds : Nat) : List Char :=
  let date := ofDays (seconds / 86400)
  let digits := Nat.toDigits 10 date.year
  dayName ((seconds / 86400 + 4) % 7) ++ [',', ' '] ++ twoDigits date.day ++ ' ' ::
    monthName date.month ++ ' ' :: (List.replicate (4 - digits.length) '0' ++ digits) ++ ' ' ::
    twoDigits (seconds % 86400 / 3600) ++ ':' :: twoDigits (seconds % 3600 / 60) ++ ':' ::
    twoDigits (seconds % 60) ++ [' ', '+', '0', '0', '0', '0']

example : String.ofList (rfc1123z 1728049445) = "Fri, 04 Oct 2024 13:44:05 +0000" := by
  decide +kernel

theorem space_le_of_isDigit {c : Char} (h : c.isDigit = true) : ' ' ≤ c := by
  simp only [Char.isDigit, ge_iff_le, Bool.and_eq_true, decide_eq_true_eq] at h
  exact UInt32.le_trans (by decide : ' '.val ≤ '0'.val) h.1

theorem rfc1123z_printable (seconds : Nat) : ∀ c ∈ rfc1123z seconds, ' ' ≤ c := by
  have htwo : ∀ n < 100, ((twoDigits n).all (' ' ≤ ·)) = true := by decide
  have hmonths : ∀ n < 13, ((monthName n).all (' ' ≤ ·)) = true := by decide
  have hdays : ∀ n < 7, ((dayName n).all (' ' ≤ ·)) = true := by decide
  simp only [List.all_eq_true, decide_eq_true_eq] at htwo hmonths hdays
  obtain ⟨hmonth, hday⟩ := ofDays_bounds (seconds / 86400)
  have hdayName := hdays ((seconds / 86400 + 4) % 7) (by omega)
  have hday := htwo (ofDays (seconds / 86400)).day (by omega)
  have hmonth := hmonths (ofDays (seconds / 86400)).month hmonth
  have hyear : ∀ c ∈ Nat.toDigits 10 (ofDays (seconds / 86400)).year, ' ' ≤ c := fun c hc =>
    space_le_of_isDigit (Nat.isDigit_of_mem_toDigits (by decide) (by decide) hc)
  have hzeros : ∀ c ∈ List.replicate (4 - (Nat.toDigits 10 (ofDays (seconds / 86400)).year).length)
      '0', ' ' ≤ c := by
    intro c hc
    rw [(List.mem_replicate.mp hc).2]
    decide
  have hhours := htwo (seconds % 86400 / 3600) (by omega)
  have hminutes := htwo (seconds % 3600 / 60) (by omega)
  have hseconds := htwo (seconds % 60) (by omega)
  simp only [rfc1123z, List.forall_mem_append, List.forall_mem_cons, List.not_mem_nil,
    IsEmpty.forall_iff, implies_true, and_true]
  and_intros
  all_goals first | assumption | decide

end Lib.Calendar

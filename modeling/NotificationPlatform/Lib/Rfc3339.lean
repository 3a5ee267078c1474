import NotificationPlatform.Lib.Calendar

/-!
# Timestamps with a zone

The layout `2006-01-02T15:04:05Z07:00` as Go's `time.Parse` reads it: two digits for each part but
the hour, which may have one, a fraction that the layout does not name, and a zone that must be
there. A text is read to nanoseconds since 1970.
-/

namespace Lib.Rfc3339

open Lib.Calendar

def digit? (c : Char) : Option Nat := if c.isDigit then some (c.toNat - '0'.toNat) else none

def readNumber (fixed : Bool) : List Char → Option (Nat × List Char)
  | [] => none
  | [c] => if fixed then none else (digit? c).map (·, [])
  | c :: d :: rest => do
      let tens ← digit? c
      match digit? d with
      | some ones => some (10 * tens + ones, rest)
      | none => if fixed then none else some (tens, d :: rest)

def readYear : List Char → Option (Nat × List Char)
  | a :: b :: c :: d :: rest => do
      let a ← digit? a
      let b ← digit? b
      let c ← digit? c
      let d ← digit? d
      some (1000 * a + 100 * b + 10 * c + d, rest)
  | _ => none

def readChar (expected : Char) : List Char → Option (List Char)
  | c :: rest => if c = expected then some rest else none
  | [] => none

def nanoseconds (digits : List Char) : Nat :=
  Nat.ofDigitChars 10 (digits.take 9) 0 * 10 ^ (9 - (digits.take 9).length)

def readFraction : List Char → Nat × List Char
  | mark :: d :: rest =>
      if (mark = '.' ∨ mark = ',') ∧ d.isDigit then
        (nanoseconds ((d :: rest).takeWhile Char.isDigit), (d :: rest).dropWhile Char.isDigit)
      else (0, mark :: d :: rest)
  | cs => (0, cs)

def readZone : List Char → Option (Int × List Char)
  | 'Z' :: rest => some (0, rest)
  | sign :: a :: b :: ':' :: c :: d :: rest => do
      let (hours, _) ← readNumber true [a, b]
      let (minutes, _) ← readNumber true [c, d]
      if 24 < hours ∨ 60 < minutes then none
      else if sign = '+' then some ((hours * 60 + minutes) * 60, rest)
      else if sign = '-' then some (-((hours * 60 + minutes) * 60), rest)
      else none
  | _ => none

def isLeap (year : Nat) : Bool := year % 4 = 0 ∧ (year % 100 ≠ 0 ∨ year % 400 = 0)

def daysIn (month year : Nat) : Nat :=
  if month = 2 then if isLeap year then 29 else 28
  else if month = 4 ∨ month = 6 ∨ month = 9 ∨ month = 11 then 30
  else 31

structure Clock where
  date : Date
  hour : Nat
  minute : Nat
  second : Nat
  nanosecond : Nat

/-- The nanoseconds since 1970 at a place whose clock is `offset` seconds ahead. -/
def Clock.instant (clock : Clock) (offset : Int) : Int :=
  (dayNumber clock.date * 86400 + clock.hour * 3600 + clock.minute * 60 + clock.second - offset) *
    1000000000 + clock.nanosecond

def readClock (cs : List Char) : Option (Clock × List Char) := do
  let (year, cs) ← readYear cs
  let cs ← readChar '-' cs
  let (month, cs) ← readNumber true cs
  let cs ← readChar '-' cs
  let (day, cs) ← readNumber true cs
  let cs ← readChar 'T' cs
  let (hour, cs) ← readNumber false cs
  let cs ← readChar ':' cs
  let (minute, cs) ← readNumber true cs
  let cs ← readChar ':' cs
  let (second, cs) ← readNumber true cs
  let (nanosecond, cs) := readFraction cs
  if 1 ≤ month ∧ month ≤ 12 ∧ 1 ≤ day ∧ day ≤ daysIn month year ∧ hour < 24 ∧ minute < 60 ∧
      second < 60 then
    some (⟨⟨year, month, day⟩, hour, minute, second, nanosecond⟩, cs)
  else none

def parse (s : String) : Option Int := do
  let (clock, cs) ← readClock s.toList
  let (offset, cs) ← readZone cs
  if cs = [] then some (clock.instant offset) else none

example : [parse "2026-06-28T10:00:00Z", parse "2024-02-29T9:05:07.25+05:45",
    parse "2026-06-28T10:00:00", parse "2026-02-29T10:00:00Z", parse "2026-06-28T10:00Z"] =
    [some 1782640800000000000, some 1709176807250000000, none, none, none] := by decide +kernel

def IsZone (zone : List Char) : Prop :=
  zone = ['Z'] ∨ ∃ sign a b c d : Char, (sign = '+' ∨ sign = '-') ∧ zone = [sign, a, b, ':', c, d]

theorem readZone_split {cs rest : List Char} {offset : Int}
    (h : readZone cs = some (offset, rest)) : ∃ zone, IsZone zone ∧ cs = zone ++ rest := by
  unfold readZone at h
  split at h
  · obtain ⟨-, rfl⟩ := Prod.mk.inj (Option.some.inj h)
    exact ⟨['Z'], .inl rfl, rfl⟩
  · next sign a b c d after _ =>
      obtain ⟨⟨hours, _⟩, -, h⟩ := Option.bind_eq_some_iff.mp h
      obtain ⟨⟨minutes, _⟩, -, h⟩ := Option.bind_eq_some_iff.mp h
      refine ⟨[sign, a, b, ':', c, d], .inr ⟨sign, a, b, c, d, ?_, rfl⟩, ?_⟩
      all_goals
        dsimp only at h
        split at h
        · simp at h
        · split at h
          · next hsign =>
              obtain ⟨-, rfl⟩ := Prod.mk.inj (Option.some.inj h)
              first | exact .inl hsign | rfl
          · split at h
            · next hsign =>
                obtain ⟨-, rfl⟩ := Prod.mk.inj (Option.some.inj h)
                first | exact .inr hsign | rfl
            · simp at h
  · simp at h

theorem readNumber_suffix {fixed : Bool} {cs rest : List Char} {n : Nat}
    (h : readNumber fixed cs = some (n, rest)) : rest <:+ cs := by
  unfold readNumber at h
  split at h
  · simp at h
  · split at h
    · simp at h
    · obtain ⟨_, -, heq⟩ := Option.map_eq_some_iff.mp h
      rw [← (Prod.mk.inj heq).2]
      exact List.nil_suffix
  · next c d after =>
      obtain ⟨tens, -, h⟩ := Option.bind_eq_some_iff.mp h
      split at h
      · obtain ⟨-, rfl⟩ := Prod.mk.inj (Option.some.inj h)
        exact ⟨[c, d], rfl⟩
      · split at h
        · simp at h
        · obtain ⟨-, rfl⟩ := Prod.mk.inj (Option.some.inj h)
          exact ⟨[c], rfl⟩

theorem readYear_suffix {cs rest : List Char} {n : Nat} (h : readYear cs = some (n, rest)) :
    rest <:+ cs := by
  unfold readYear at h
  split at h
  · next a b c d after =>
      obtain ⟨_, -, h⟩ := Option.bind_eq_some_iff.mp h
      obtain ⟨_, -, h⟩ := Option.bind_eq_some_iff.mp h
      obtain ⟨_, -, h⟩ := Option.bind_eq_some_iff.mp h
      obtain ⟨_, -, h⟩ := Option.bind_eq_some_iff.mp h
      obtain ⟨-, rfl⟩ := Prod.mk.inj (Option.some.inj h)
      exact ⟨[a, b, c, d], rfl⟩
  · simp at h

theorem readChar_suffix {c : Char} {cs rest : List Char} (h : readChar c cs = some rest) :
    rest <:+ cs := by
  unfold readChar at h
  split at h
  · split at h
    · obtain rfl := Option.some.inj h
      exact List.suffix_cons _ _
    · simp at h
  · simp at h

theorem readFraction_suffix (cs : List Char) : (readFraction cs).2 <:+ cs := by
  unfold readFraction
  split
  · split
    · exact (List.dropWhile_suffix _).trans (List.suffix_cons _ _)
    · exact List.suffix_rfl
  · exact List.suffix_rfl

theorem readClock_suffix {cs rest : List Char} {clock : Clock}
    (h : readClock cs = some (clock, rest)) : rest <:+ cs := by
  obtain ⟨⟨year, cs₁⟩, hyear, h⟩ := Option.bind_eq_some_iff.mp h
  obtain ⟨cs₂, hdash, h⟩ := Option.bind_eq_some_iff.mp h
  obtain ⟨⟨month, cs₃⟩, hmonth, h⟩ := Option.bind_eq_some_iff.mp h
  obtain ⟨cs₄, hdash', h⟩ := Option.bind_eq_some_iff.mp h
  obtain ⟨⟨day, cs₅⟩, hday, h⟩ := Option.bind_eq_some_iff.mp h
  obtain ⟨cs₆, ht, h⟩ := Option.bind_eq_some_iff.mp h
  obtain ⟨⟨hour, cs₇⟩, hhour, h⟩ := Option.bind_eq_some_iff.mp h
  obtain ⟨cs₈, hcolon, h⟩ := Option.bind_eq_some_iff.mp h
  obtain ⟨⟨minute, cs₉⟩, hminute, h⟩ := Option.bind_eq_some_iff.mp h
  obtain ⟨cs₁₀, hcolon', h⟩ := Option.bind_eq_some_iff.mp h
  obtain ⟨⟨second, cs₁₁⟩, hsecond, h⟩ := Option.bind_eq_some_iff.mp h
  dsimp only at h
  split at h
  · obtain ⟨-, rfl⟩ := Prod.mk.inj (Option.some.inj h)
    have hfirst : cs₆ <:+ cs := (((((readChar_suffix ht).trans (readNumber_suffix hday)).trans
      (readChar_suffix hdash')).trans (readNumber_suffix hmonth)).trans
      (readChar_suffix hdash)).trans (readYear_suffix hyear)
    have hsecond : (readFraction cs₁₁).2 <:+ cs₆ := (((((readFraction_suffix cs₁₁).trans
      (readNumber_suffix hsecond)).trans (readChar_suffix hcolon')).trans
      (readNumber_suffix hminute)).trans (readChar_suffix hcolon)).trans (readNumber_suffix hhour)
    exact hsecond.trans hfirst
  · simp at h

theorem exists_zone_of_parse {s : String} {t : Int} (h : parse s = some t) :
    ∃ zone, IsZone zone ∧ zone <:+ s.toList := by
  obtain ⟨⟨clock, cs⟩, hclock, h⟩ := Option.bind_eq_some_iff.mp h
  obtain ⟨⟨offset, rest⟩, hzone, h⟩ := Option.bind_eq_some_iff.mp h
  dsimp only at h
  split at h
  · next hrest =>
      obtain ⟨zone, his, hcs⟩ := readZone_split hzone
      rw [hrest, List.append_nil] at hcs
      rw [← hcs] at his
      exact ⟨cs, his, readClock_suffix hclock⟩
  · simp at h

theorem digit?_digitChar {n : Nat} (h : n < 10) : digit? (Nat.digitChar n) = some n := by
  have hall : ∀ n < 10, digit? (Nat.digitChar n) = some n := by decide
  exact hall n h

theorem readNumber_twoDigits (fixed : Bool) {n : Nat} (h : n < 100) (rest : List Char) :
    readNumber fixed (twoDigits n ++ rest) = some (n, rest) := by
  have hone := digit?_digitChar (Nat.mod_lt n (by decide : 0 < 10))
  have hten := digit?_digitChar (show n / 10 < 10 by omega)
  simp only [twoDigits, List.cons_append, List.nil_append, readNumber, hten, hone,
    Option.bind_eq_bind, Option.bind_some]
  congr 2
  omega

theorem year_text {year : Nat} (h : year < 10000) :
    List.replicate (4 - (Nat.toDigits 10 year).length) '0' ++ Nat.toDigits 10 year =
      [Nat.digitChar (year / 1000), Nat.digitChar (year / 100 % 10),
        Nat.digitChar (year / 10 % 10), Nat.digitChar (year % 10)] := by
  have hzero : '0' = Nat.digitChar 0 := rfl
  have hmore : ∀ n, 10 ≤ n →
      Nat.toDigits 10 n = Nat.toDigits 10 (n / 10) ++ [Nat.digitChar (n % 10)] :=
    fun n hn => Nat.toDigits_of_base_le (by decide) hn
  have hone : ∀ n < 10, Nat.toDigits 10 n = [Nat.digitChar n] :=
    fun n hn => Nat.toDigits_of_lt_base hn
  rcases Nat.lt_or_ge year 10 with h1 | h1
  · have hdigits : year / 1000 = 0 ∧ year / 100 % 10 = 0 ∧ year / 10 % 10 = 0 ∧
        year % 10 = year := by omega
    rw [hone year h1, hdigits.1, hdigits.2.1, hdigits.2.2.1, hdigits.2.2.2, hzero]
    rfl
  rcases Nat.lt_or_ge year 100 with h2 | h2
  · have hdigits : year / 1000 = 0 ∧ year / 100 % 10 = 0 ∧ year / 10 % 10 = year / 10 := by omega
    rw [hmore year h1, hone (year / 10) (by omega), hdigits.1, hdigits.2.1, hdigits.2.2, hzero]
    rfl
  rcases Nat.lt_or_ge year 1000 with h3 | h3
  · have hdigits : year / 1000 = 0 ∧ year / 100 % 10 = year / 10 / 10 := by omega
    rw [hmore year h1, hmore (year / 10) (by omega), hone (year / 10 / 10) (by omega), hdigits.1,
      hdigits.2, hzero]
    rfl
  · have hdigits : year / 1000 = year / 10 / 10 / 10 ∧ year / 100 % 10 = year / 10 / 10 % 10 := by
      omega
    rw [hmore year h1, hmore (year / 10) (by omega), hmore (year / 10 / 10) (by omega),
      hone (year / 10 / 10 / 10) (by omega), hdigits.1, hdigits.2]
    rfl

theorem readYear_text {year : Nat} (h : year < 10000) (rest : List Char) :
    readYear (List.replicate (4 - (Nat.toDigits 10 year).length) '0' ++ Nat.toDigits 10 year ++
      rest) = some (year, rest) := by
  rw [year_text h]
  have ha := digit?_digitChar (show year / 1000 < 10 by omega)
  have hb := digit?_digitChar (show year / 100 % 10 < 10 by omega)
  have hc := digit?_digitChar (show year / 10 % 10 < 10 by omega)
  have hd := digit?_digitChar (show year % 10 < 10 by omega)
  simp only [List.cons_append, List.nil_append, readYear, ha, hb, hc, hd, Option.bind_eq_bind,
    Option.bind_some]
  congr 2
  omega

theorem readChar_self (c : Char) (rest : List Char) : readChar c (c :: rest) = some rest :=
  if_pos rfl

theorem readFraction_digits {digits rest : List Char} (hne : digits ≠ [])
    (hdigits : ∀ c ∈ digits, c.isDigit = true) (hrest : ∀ c ∈ rest.head?, c.isDigit = false) :
    readFraction ('.' :: (digits ++ rest)) = (nanoseconds digits, rest) := by
  have hnone : rest.takeWhile Char.isDigit = [] ∧ rest.dropWhile Char.isDigit = rest := by
    cases rest with
    | nil => exact ⟨rfl, rfl⟩
    | cons c rest => simp [hrest c rfl]
  cases digits with
  | nil => exact absurd rfl hne
  | cons d digits =>
      have htake : (d :: (digits ++ rest)).takeWhile Char.isDigit =
          d :: digits ++ rest.takeWhile Char.isDigit := List.takeWhile_append_of_pos hdigits
      have hdrop : (d :: (digits ++ rest)).dropWhile Char.isDigit =
          rest.dropWhile Char.isDigit := List.dropWhile_append_of_pos hdigits
      rw [hnone.1, List.append_nil] at htake
      rw [hnone.2] at hdrop
      rw [List.cons_append]
      rw [readFraction, if_pos ⟨.inl rfl, hdigits d List.mem_cons_self⟩, htake, hdrop]

theorem readFraction_zone {zone : List Char} (h : IsZone zone) : readFraction zone = (0, zone) := by
  rcases h with rfl | ⟨sign, a, b, c, d, hsign, rfl⟩
  · rfl
  · rcases hsign with rfl | rfl <;> simp [readFraction]

def offsetText (west : Bool) (hours minutes : Nat) : List Char :=
  (if west then '-' else '+') :: twoDigits hours ++ ':' :: twoDigits minutes

def offsetSeconds (west : Bool) (hours minutes : Nat) : Int :=
  if west then -(((hours : Int) * 60 + minutes) * 60) else ((hours : Int) * 60 + minutes) * 60

theorem readZone_offsetText (west : Bool) {hours minutes : Nat} (hhours : hours ≤ 24)
    (hminutes : minutes ≤ 60) :
    readZone (offsetText west hours minutes) = some (offsetSeconds west hours minutes, []) := by
  have hh := readNumber_twoDigits true (show hours < 100 by omega) []
  have hm := readNumber_twoDigits true (show minutes < 100 by omega) []
  rw [List.append_nil, twoDigits] at hh hm
  have hrange : ¬(24 < hours ∨ 60 < minutes) := by omega
  cases west with
  | true => simp [offsetText, twoDigits, readZone, hh, hm, hrange, offsetSeconds]
  | false => simp [offsetText, twoDigits, readZone, hh, hm, hrange, offsetSeconds]

theorem isZone_offsetText (west : Bool) (hours minutes : Nat) :
    IsZone (offsetText west hours minutes) := by
  refine .inr ⟨if west then '-' else '+', _, _, _, _, ?_, rfl⟩
  cases west with
  | true => exact .inr rfl
  | false => exact .inl rfl

end Lib.Rfc3339

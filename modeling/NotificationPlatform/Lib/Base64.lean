import Mathlib.Data.List.Basic

/-!
# Base64 without padding, in the URL alphabet

Three bytes are four digits of six bits; a rest of one or two bytes is two or three digits. The
decoder ignores line breaks and the unused bits of the last digit.
-/

namespace Lib.Base64

def digit (n : Nat) : Char :=
  if n < 26 then Char.ofNat (65 + n)
  else if n < 52 then Char.ofNat (71 + n)
  else if n < 62 then Char.ofNat (n - 4)
  else if n = 62 then '-' else '_'

def value (c : Char) : Option Nat :=
  if 'A' ≤ c ∧ c ≤ 'Z' then some (c.toNat - 65)
  else if 'a' ≤ c ∧ c ≤ 'z' then some (c.toNat - 71)
  else if '0' ≤ c ∧ c ≤ '9' then some (c.toNat + 4)
  else if c = '-' then some 62
  else if c = '_' then some 63
  else none

def encode : List UInt8 → List Char
  | [] => []
  | [a] => [digit (a.toNat / 4), digit (a.toNat % 4 * 16)]
  | [a, b] =>
      [digit (a.toNat / 4), digit (a.toNat % 4 * 16 + b.toNat / 16), digit (b.toNat % 16 * 4)]
  | a :: b :: c :: rest =>
      digit (a.toNat / 4) :: digit (a.toNat % 4 * 16 + b.toNat / 16) ::
        digit (b.toNat % 16 * 4 + c.toNat / 64) :: digit (c.toNat % 64) :: encode rest

def byte₁ (p q : Nat) : UInt8 := UInt8.ofNat (p * 4 + q / 16)

def byte₂ (q r : Nat) : UInt8 := UInt8.ofNat (q % 16 * 16 + r / 4)

def byte₃ (r s : Nat) : UInt8 := UInt8.ofNat (r % 4 * 64 + s)

def decodeDigits : List Char → Option (List UInt8)
  | [] => some []
  | [_] => none
  | [w, x] => do
      let p ← value w
      let q ← value x
      some [byte₁ p q]
  | [w, x, y] => do
      let p ← value w
      let q ← value x
      let r ← value y
      some [byte₁ p q, byte₂ q r]
  | w :: x :: y :: z :: rest => do
      let p ← value w
      let q ← value x
      let r ← value y
      let s ← value z
      let bytes ← decodeDigits rest
      some (byte₁ p q :: byte₂ q r :: byte₃ r s :: bytes)

def isLineBreak (c : Char) : Bool := c == '\r' || c == '\n'

def decode (cs : List Char) : Option (List UInt8) :=
  decodeDigits (cs.filter fun c => !isLineBreak c)

/-! ## Decoding undoes encoding -/

theorem digit_cases {n : Nat} (hn : n < 64) :
    value (digit n) = some n ∧ isLineBreak (digit n) = false := by
  have h : ∀ i : Fin 64, value (digit i) = some i.val ∧ isLineBreak (digit i) = false := by
    decide
  exact h ⟨n, hn⟩

theorem value_digit {n : Nat} (hn : n < 64) : value (digit n) = some n := (digit_cases hn).1

theorem byte₁_eq (a b : Nat) (x : UInt8) (ha : a = x.toNat / 4) (hb : b / 16 = x.toNat % 4) :
    byte₁ a b = x := by
  have h : a * 4 + b / 16 = x.toNat := by omega
  rw [byte₁, h, UInt8.ofNat_toNat]

theorem byte₂_eq (a b : Nat) (x : UInt8) (ha : a % 16 = x.toNat / 16)
    (hb : b / 4 = x.toNat % 16) : byte₂ a b = x := by
  have h : a % 16 * 16 + b / 4 = x.toNat := by omega
  rw [byte₂, h, UInt8.ofNat_toNat]

theorem byte₃_eq (a b : Nat) (x : UInt8) (ha : a % 4 = x.toNat / 64) (hb : b = x.toNat % 64) :
    byte₃ a b = x := by
  have h : a % 4 * 64 + b = x.toNat := by omega
  rw [byte₃, h, UInt8.ofNat_toNat]

theorem decodeDigits_encode (bytes : List UInt8) : decodeDigits (encode bytes) = some bytes := by
  fun_induction encode bytes with
  | case1 => rfl
  | case2 a =>
      have ha := a.toNat_lt
      have hfirst : byte₁ (a.toNat / 4) (a.toNat % 4 * 16) = a := by
        apply byte₁_eq <;> omega
      simp [decodeDigits, value_digit (show a.toNat / 4 < 64 by omega),
        value_digit (show a.toNat % 4 * 16 < 64 by omega), hfirst]
  | case3 a b =>
      have ha := a.toNat_lt
      have hb := b.toNat_lt
      have hfirst : byte₁ (a.toNat / 4) (a.toNat % 4 * 16 + b.toNat / 16) = a := by
        apply byte₁_eq <;> omega
      have hsecond : byte₂ (a.toNat % 4 * 16 + b.toNat / 16) (b.toNat % 16 * 4) = b := by
        apply byte₂_eq <;> omega
      simp [decodeDigits, value_digit (show a.toNat / 4 < 64 by omega),
        value_digit (show a.toNat % 4 * 16 + b.toNat / 16 < 64 by omega),
        value_digit (show b.toNat % 16 * 4 < 64 by omega), hfirst, hsecond]
  | case4 a b c rest ih =>
      have ha := a.toNat_lt
      have hb := b.toNat_lt
      have hc := c.toNat_lt
      have hfirst : byte₁ (a.toNat / 4) (a.toNat % 4 * 16 + b.toNat / 16) = a := by
        apply byte₁_eq <;> omega
      have hsecond : byte₂ (a.toNat % 4 * 16 + b.toNat / 16)
          (b.toNat % 16 * 4 + c.toNat / 64) = b := by
        apply byte₂_eq <;> omega
      have hthird : byte₃ (b.toNat % 16 * 4 + c.toNat / 64) (c.toNat % 64) = c := by
        apply byte₃_eq <;> omega
      simp [decodeDigits, value_digit (show a.toNat / 4 < 64 by omega),
        value_digit (show a.toNat % 4 * 16 + b.toNat / 16 < 64 by omega),
        value_digit (show b.toNat % 16 * 4 + c.toNat / 64 < 64 by omega),
        value_digit (show c.toNat % 64 < 64 by omega), ih, hfirst, hsecond, hthird]

theorem exists_digit_of_mem_encode {bytes : List UInt8} {c : Char} (h : c ∈ encode bytes) :
    ∃ n < 64, c = digit n := by
  fun_induction encode bytes with
  | case1 => simp at h
  | case2 a =>
      have ha := a.toNat_lt
      simp only [List.mem_cons, List.not_mem_nil, or_false] at h
      rcases h with rfl | rfl
      · exact ⟨_, by omega, rfl⟩
      · exact ⟨_, by omega, rfl⟩
  | case3 a b =>
      have ha := a.toNat_lt
      have hb := b.toNat_lt
      simp only [List.mem_cons, List.not_mem_nil, or_false] at h
      rcases h with rfl | rfl | rfl
      · exact ⟨_, by omega, rfl⟩
      · exact ⟨_, by omega, rfl⟩
      · exact ⟨_, by omega, rfl⟩
  | case4 a b c' rest ih =>
      have ha := a.toNat_lt
      have hb := b.toNat_lt
      have hc := c'.toNat_lt
      simp only [List.mem_cons] at h
      rcases h with rfl | rfl | rfl | rfl | h
      · exact ⟨_, by omega, rfl⟩
      · exact ⟨_, by omega, rfl⟩
      · exact ⟨_, by omega, rfl⟩
      · exact ⟨_, by omega, rfl⟩
      · exact ih h

theorem decode_encode (bytes : List UInt8) : decode (encode bytes) = some bytes := by
  have hfilter : (encode bytes).filter (fun c => !isLineBreak c) = encode bytes := by
    rw [List.filter_eq_self]
    intro c hc
    obtain ⟨n, hn, rfl⟩ := exists_digit_of_mem_encode hc
    rw [(digit_cases hn).2]
    rfl
  rw [decode, hfilter, decodeDigits_encode]

end Lib.Base64

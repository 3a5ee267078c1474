import Mathlib.Algebra.Order.Archimedean.Basic
import Mathlib.Data.Int.Log
import Mathlib.Data.Rat.Floor
import NotificationPlatform.Lib.JsonSyntax

/-!
# Numbers in texts and in 64 bits

The value of a JSON number as it is written, the binary64 number nearest to it, and the decimal
number with the fewest digits that is read as that. A natural number with up to 53 bits goes through
both unchanged.
-/

namespace Lib

namespace JsonText

def digitsValue (cs : List Char) : ℕ :=
  cs.foldl (fun n c => 10 * n + (c.toNat - '0'.toNat)) 0

def exponentValue : List Char → ℤ
  | _ :: '-' :: digits => -digitsValue digits
  | _ :: '+' :: digits => digitsValue digits
  | _ :: digits => digitsValue digits
  | [] => 0

def unsignedValue (cs : List Char) : ℚ :=
  let whole := cs.takeWhile Char.isDigit
  let rest := cs.dropWhile Char.isDigit
  let (fraction, exponent) := match rest with
    | '.' :: rest => (rest.takeWhile Char.isDigit, rest.dropWhile Char.isDigit)
    | _ => ([], rest)
  digitsValue (whole ++ fraction) * 10 ^ (exponentValue exponent - fraction.length)

def writtenNumber (cs : List Char) : Option ℚ :=
  if skipNumber cs = some [] then
    match cs with
    | '-' :: rest => some (-unsignedValue rest)
    | _ => some (unsignedValue cs)
  else none

end JsonText

namespace Binary64

def roundEven (q : ℚ) : ℤ :=
  if q - ⌊q⌋ < 1 / 2 then ⌊q⌋
  else if 1 / 2 < q - ⌊q⌋ then ⌊q⌋ + 1
  else if ⌊q⌋ % 2 = 0 then ⌊q⌋ else ⌊q⌋ + 1

def ulp (q : ℚ) : ℚ := 2 ^ (max (Int.log 2 |q|) (-1022) - 52)

def nearest (q : ℚ) : Option ℚ :=
  let r := roundEven (q / ulp q) * ulp q
  if |r| < 2 ^ 1024 then some r else none

def multiples (unit q : ℚ) : List ℚ :=
  [roundEven (q / unit), ⌊q / unit⌋, ⌊q / unit⌋ + 1].map fun z : ℤ => z * unit

def decimals (q : ℚ) : List ℚ :=
  (List.range 17).flatMap fun n : ℕ => multiples (10 ^ (Int.log 10 q - n)) q

/-- The shortest decimal number that is nearest to a binary64 number; seventeen digits are enough
for each of them. -/
def shortest (q : ℚ) : ℚ :=
  match (decimals |q|).find? fun d => nearest d = some |q| with
  | some d => if q < 0 then -d else d
  | none => q

theorem le_roundEven {q : ℚ} {z : ℤ} (h : (z : ℚ) ≤ q) : z ≤ roundEven q := by
  have hfloor : z ≤ ⌊q⌋ := Int.le_floor.mpr h
  unfold roundEven
  split_ifs <;> omega

theorem roundEven_intCast (z : ℤ) : roundEven z = z := by
  have hzero : (z : ℚ) - ⌊(z : ℚ)⌋ < 1 / 2 := by norm_num
  rw [roundEven, if_pos hzero, Int.floor_intCast]

theorem nearest_natCast {n : ℕ} (h : n < 2 ^ 53) : nearest n = some (n : ℚ) := by
  have hlog : Nat.log 2 n ≤ 52 := Nat.lt_succ_iff.mp (Nat.log_lt_of_lt_pow' (by norm_num) h)
  have hulp : ulp n = ((2 ^ (52 - Nat.log 2 n) : ℕ) : ℚ)⁻¹ := by
    have hexponent : max ((Nat.log 2 n : ℕ) : ℤ) (-1022) - 52 = -((52 - Nat.log 2 n : ℕ) : ℤ) := by
      omega
    rw [ulp, Nat.abs_cast, Int.log_natCast, hexponent, zpow_neg, zpow_natCast]
    norm_cast
  have hround : roundEven (n / ulp n) = ((n * 2 ^ (52 - Nat.log 2 n) : ℕ) : ℤ) := by
    have hquotient : (n : ℚ) / ulp n = (((n * 2 ^ (52 - Nat.log 2 n) : ℕ) : ℤ) : ℚ) := by
      rw [hulp, div_inv_eq_mul]
      push_cast
      rfl
    rw [hquotient, roundEven_intCast]
  have hback : (roundEven (n / ulp n) : ℚ) * ulp n = n := by
    have hpos : ((2 ^ (52 - Nat.log 2 n) : ℕ) : ℚ) ≠ 0 := by positivity
    rw [hround, hulp]
    push_cast
    field_simp
  have hrange : |(n : ℚ)| < 2 ^ 1024 := by
    rw [Nat.abs_cast]
    calc (n : ℚ) < 2 ^ 53 := by exact_mod_cast h
      _ ≤ 2 ^ 1024 := pow_le_pow_right₀ (by norm_num) (by norm_num)
  rw [nearest, hback, if_pos hrange]

theorem eq_of_nearest {m n : ℕ} (h : n < 2 ^ 53) (hnearest : nearest m = some (n : ℚ)) : m = n := by
  by_cases hm : m < 2 ^ 53
  · rw [nearest_natCast hm] at hnearest
    exact_mod_cast Option.some.inj hnearest
  · exfalso
    have hle : 2 ^ 53 ≤ m := Nat.not_lt.mp hm
    have hlog : 53 ≤ Nat.log 2 m := Nat.le_log_of_pow_le (by norm_num) hle
    have hulp : ulp m = 2 ^ (Nat.log 2 m - 52) := by
      have hexponent : max ((Nat.log 2 m : ℕ) : ℤ) (-1022) - 52 = ((Nat.log 2 m - 52 : ℕ) : ℤ) := by
        omega
      rw [ulp, Nat.abs_cast, Int.log_natCast, hexponent, zpow_natCast]
    have hpos : (0 : ℚ) < ulp m := by
      rw [hulp]
      positivity
    have hself : (2 : ℚ) ^ 52 * ulp m ≤ m := by
      have hpow : 2 ^ Nat.log 2 m ≤ m := Nat.pow_log_le_self 2 (by omega)
      rw [hulp, ← pow_add, show 52 + (Nat.log 2 m - 52) = Nat.log 2 m by omega]
      exact_mod_cast hpow
    have hround : (2 ^ 52 : ℤ) ≤ roundEven (m / ulp m) := by
      apply le_roundEven
      push_cast
      exact (le_div_iff₀ hpos).mpr hself
    have hroundQ : (2 : ℚ) ^ 52 ≤ roundEven (m / ulp m) := by exact_mod_cast hround
    have hlarge : (2 : ℚ) ^ 53 ≤ roundEven (m / ulp m) * ulp m := by
      have htwo : (2 : ℚ) ≤ ulp m := by
        rw [hulp]
        calc (2 : ℚ) = 2 ^ 1 := (pow_one 2).symm
          _ ≤ 2 ^ (Nat.log 2 m - 52) := pow_le_pow_right₀ (by norm_num) (by omega)
      calc (2 : ℚ) ^ 53 = 2 ^ 52 * 2 := by norm_num
        _ ≤ roundEven (m / ulp m) * ulp m := by gcongr
    have heq : (roundEven (m / ulp m) : ℚ) * ulp m = n := by
      unfold nearest at hnearest
      dsimp only at hnearest
      split at hnearest
      · exact Option.some.inj hnearest
      · simp at hnearest
    rw [heq] at hlarge
    have hlarge' : 2 ^ 53 ≤ n := by exact_mod_cast hlarge
    omega

private theorem exists_natCast {n k : ℕ} {d : ℚ} (hd : d ∈ multiples (10 ^ k) n) :
    ∃ m : ℕ, d = m := by
  have hnonneg : (0 : ℚ) ≤ n / 10 ^ k := by positivity
  have hround : 0 ≤ roundEven (n / 10 ^ k) := le_roundEven (by exact_mod_cast hnonneg)
  have hfloor : 0 ≤ ⌊(n : ℚ) / 10 ^ k⌋ := Int.floor_nonneg.mpr hnonneg
  obtain ⟨z, hz, rfl⟩ := List.mem_map.mp hd
  have hpos : 0 ≤ z := by
    simp only [List.mem_cons, List.not_mem_nil, or_false] at hz
    omega
  obtain ⟨j, rfl⟩ := Int.eq_ofNat_of_zero_le hpos
  exact ⟨j * 10 ^ k, by push_cast; rfl⟩

private theorem decimals_natCast {n : ℕ} (hlog : Nat.log 10 n < 17) : ∃ fewer more : List ℚ,
    decimals n = fewer ++ (n : ℚ) :: more ∧ ∀ d ∈ fewer, ∃ m : ℕ, d = m := by
  have hunit : ∀ i ≤ Nat.log 10 n, (10 : ℚ) ^ (Int.log 10 (n : ℚ) - i) =
      10 ^ (Nat.log 10 n - i) := by
    intro i hi
    rw [Int.log_natCast, ← Nat.cast_sub hi, zpow_natCast]
  have hself : multiples (10 ^ (Int.log 10 (n : ℚ) - Nat.log 10 n)) n =
      (n : ℚ) :: [⌊(n : ℚ)⌋, ⌊(n : ℚ)⌋ + 1].map fun z : ℤ => (z : ℚ) := by
    have hround : roundEven (n : ℚ) = n := roundEven_intCast n
    rw [hunit _ (le_refl _), Nat.sub_self, pow_zero]
    simp only [multiples, div_one, mul_one, hround, List.map_cons, Int.cast_natCast]
  obtain ⟨rest, hrange⟩ : ∃ rest, List.range 17 =
      List.range (Nat.log 10 n) ++ Nat.log 10 n :: rest := by
    have hdrop := List.drop_eq_getElem_cons (l := List.range 17) (i := Nat.log 10 n) (by simpa)
    have hsplit := List.take_append_drop (Nat.log 10 n) (List.range 17)
    rw [hdrop, List.getElem_range, List.take_range, Nat.min_eq_left hlog.le] at hsplit
    exact ⟨_, hsplit.symm⟩
  refine ⟨(List.range (Nat.log 10 n)).flatMap fun i : ℕ =>
      multiples (10 ^ (Int.log 10 (n : ℚ) - i)) n,
    [⌊(n : ℚ)⌋, ⌊(n : ℚ)⌋ + 1].map (fun z : ℤ => (z : ℚ)) ++
      rest.flatMap fun i : ℕ => multiples (10 ^ (Int.log 10 (n : ℚ) - i)) n, ?_, ?_⟩
  · rw [decimals, hrange, List.flatMap_append, List.flatMap_cons, hself, List.cons_append]
  · intro d hd
    obtain ⟨i, hi, hd⟩ := List.mem_flatMap.mp hd
    rw [hunit i (List.mem_range.mp hi).le] at hd
    exact exists_natCast hd

private theorem find?_append_cons {α : Type} {p : α → Bool} {as bs : List α} {b : α}
    (hb : p b = true) (has : ∀ a ∈ as, p a = true → a = b) :
    (as ++ b :: bs).find? p = some b := by
  rw [List.find?_append, List.find?_cons_of_pos hb]
  cases hfound : as.find? p with
  | none => rfl
  | some a =>
      rw [has a (List.mem_of_find?_eq_some hfound) (List.find?_some hfound)]
      rfl

theorem shortest_natCast {n : ℕ} (h : n < 2 ^ 53) : shortest n = n := by
  have hdigits : n < 10 ^ 17 := lt_trans h (by norm_num)
  have hlog : Nat.log 10 n < 17 := Nat.log_lt_of_lt_pow' (by norm_num) hdigits
  obtain ⟨fewer, more, hsplit, hwhole⟩ := decimals_natCast hlog
  have hself : ((decimals n).find? fun d => nearest d = some (n : ℚ)) = some (n : ℚ) := by
    rw [hsplit]
    apply find?_append_cons
    · exact decide_eq_true (nearest_natCast h)
    · intro d hd hread
      obtain ⟨m, rfl⟩ := hwhole d hd
      rw [eq_of_nearest h (of_decide_eq_true hread)]
  have hnonneg : ¬(n : ℚ) < 0 := (Nat.cast_nonneg n).not_gt
  have habs : |(n : ℚ)| = n := Nat.abs_cast n
  unfold shortest
  simp only [habs, hself, hnonneg, if_false]

end Binary64

end Lib

import Mathlib.Data.List.Basic

/-!
# Texts of identifiers

The texts that a database reads as a value of type `uuid`, and the text it writes for the value:
32 hexadecimal digits, in braces or not, with a hyphen after every second byte or not.
-/

namespace Lib.Uuid

def isHexDigit (c : Char) : Bool :=
  c.isDigit || ('a' ≤ c && c ≤ 'f') || ('A' ≤ c && c ≤ 'F')

/-- Read `n` bytes: their digits, and what follows them. A hyphen may stand after every second
byte but the last. -/
def bytes : Nat → List Char → Option (List Char × List Char)
  | 0, rest => some ([], rest)
  | n + 1, a :: b :: rest =>
      if isHexDigit a && isHexDigit b then
        let rest := match rest with
          | '-' :: tail => if n % 2 = 0 ∧ 0 < n then tail else rest
          | _ => rest
        (bytes n rest).map fun r => (a.toLower :: b.toLower :: r.1, r.2)
      else none
  | _ + 1, _ => none

def format (digits : List Char) : String :=
  String.ofList (digits.take 8 ++ '-' :: (digits.drop 8).take 4 ++ '-' :: (digits.drop 12).take 4 ++
    '-' :: (digits.drop 16).take 4 ++ '-' :: digits.drop 20)

def read (s : String) : Option String :=
  match s.toList with
  | '{' :: cs =>
      match bytes 16 cs with
      | some (digits, ['}']) => some (format digits)
      | _ => none
  | cs =>
      match bytes 16 cs with
      | some (digits, []) => some (format digits)
      | _ => none

theorem read_eq_none {s : String} {c : Char} {cs : List Char} (hs : s.toList = c :: cs)
    (hbrace : c ≠ '{') (hdigit : isHexDigit c = false) : read s = none := by
  have hbytes : bytes 16 (c :: cs) = none := by
    cases cs with
    | nil => rfl
    | cons d ds => simp [bytes, hdigit]
  unfold read
  rw [hs]
  split
  · next heq =>
      obtain ⟨rfl, -⟩ := List.cons.inj heq
      exact absurd rfl hbrace
  · rw [hbytes]

end Lib.Uuid

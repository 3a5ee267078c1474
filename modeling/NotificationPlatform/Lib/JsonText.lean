import Mathlib.Data.List.Basic

/-!
# String literals in JSON texts

Reading a literal follows the decoder of Go: escapes, pairs of surrogates, and the replacement
character for a surrogate without its partner. An encoder chooses which characters to escape; any
encoder whose characters are each read back gives literals that are read back.
-/

namespace Lib.JsonText

def hexDigit (n : Nat) : Char := if n < 10 then Char.ofNat (48 + n) else Char.ofNat (87 + n)

def hexValue (c : Char) : Option Nat :=
  if '0' ≤ c ∧ c ≤ '9' then some (c.toNat - 48)
  else if 'a' ≤ c ∧ c ≤ 'f' then some (c.toNat - 87)
  else if 'A' ≤ c ∧ c ≤ 'F' then some (c.toNat - 55)
  else none

def hex (n : Nat) : List Char :=
  [hexDigit (n / 4096 % 16), hexDigit (n / 256 % 16), hexDigit (n / 16 % 16), hexDigit (n % 16)]

def readHex : List Char → Option (Nat × List Char)
  | a :: b :: c :: d :: rest => do
      let a ← hexValue a
      let b ← hexValue b
      let c ← hexValue c
      let d ← hexValue d
      some (a * 4096 + b * 256 + c * 16 + d, rest)
  | _ => none

theorem hexValue_hexDigit {n : Nat} (hn : n < 16) : hexValue (hexDigit n) = some n := by
  have h : ∀ i : Fin 16, hexValue (hexDigit i) = some i.val := by decide
  exact h ⟨n, hn⟩

theorem readHex_hex {n : Nat} (hn : n < 65536) (rest : List Char) :
    readHex (hex n ++ rest) = some (n, rest) := by
  have hsum : n / 4096 % 16 * 4096 + n / 256 % 16 * 256 + n / 16 % 16 * 16 + n % 16 = n := by
    omega
  simp [readHex, hex, hexValue_hexDigit (show n / 4096 % 16 < 16 by omega),
    hexValue_hexDigit (show n / 256 % 16 < 16 by omega),
    hexValue_hexDigit (show n / 16 % 16 < 16 by omega),
    hexValue_hexDigit (show n % 16 < 16 by omega), hsum]

def replacement : Char := Char.ofNat 0xFFFD

def isSurrogate (n : Nat) : Bool := 0xD800 ≤ n && n < 0xE000

def readUnit (cs : List Char) : Option (Char × List Char) := do
  let (high, rest) ← readHex cs
  if isSurrogate high then
    match rest with
    | '\\' :: 'u' :: tail =>
        match readHex tail with
        | some (low, tail) =>
            if high < 0xDC00 ∧ 0xDC00 ≤ low ∧ low < 0xE000 then
              some (Char.ofNat (0x10000 + (high - 0xD800) * 1024 + (low - 0xDC00)), tail)
            else some (replacement, rest)
        | none => some (replacement, rest)
    | _ => some (replacement, rest)
  else some (Char.ofNat high, rest)

def shortEscapes : List (Char × Char) :=
  [('"', '"'), ('\\', '\\'), ('\x08', 'b'), ('\x0c', 'f'), ('\n', 'n'), ('\r', 'r'), ('\t', 't')]

def readChar : List Char → Option (Char × List Char)
  | '\\' :: e :: rest =>
      if e = 'u' then readUnit rest
      else if e = '/' then some ('/', rest)
      else (shortEscapes.find? fun p => p.2 == e).map fun p => (p.1, rest)
  | ['\\'] => none
  | c :: rest => if c < ' ' then none else some (c, rest)
  | [] => none

/-- The rest of a literal after its opening quote, and what follows the closing one. Each round
consumes a character, so the length of the text is enough fuel. -/
def readLiteral : Nat → List Char → Option (List Char × List Char)
  | 0, _ => none
  | _ + 1, '"' :: rest => some ([], rest)
  | fuel + 1, cs => do
      let (c, rest) ← readChar cs
      let (cs, rest) ← readLiteral fuel rest
      some (c :: cs, rest)

def isSpace (c : Char) : Bool := c == ' ' || c == '\t' || c == '\r' || c == '\n'

def readText (text : String) : Option String :=
  match text.toList.dropWhile isSpace with
  | '"' :: cs =>
      match readLiteral (cs.length + 1) cs with
      | some (value, rest) => if rest.all isSpace then some (String.ofList value) else none
      | none => none
  | _ => none

/-- `json.Unmarshal` into a `string`: `null` leaves it empty, every other value is an error. -/
def unmarshalString (text : String) : Option String :=
  match readText text with
  | some value => some value
  | none =>
      let cs := text.toList.dropWhile isSpace
      if cs.take 4 = ['n', 'u', 'l', 'l'] ∧ (cs.drop 4).all isSpace then some "" else none

def literal (escape : Char → List Char) (s : String) : String :=
  String.ofList ('"' :: (s.toList.flatMap escape ++ ['"']))

def escapeUnit (c : Char) : List Char := '\\' :: 'u' :: hex c.toNat

/-- The escapes that `json.Marshal` and the output of `jsonb` have in common. -/
def escapeCommon (c : Char) : Option (List Char) :=
  match shortEscapes.find? fun p => p.1 == c with
  | some p => some ['\\', p.2]
  | none => if c < ' ' then some (escapeUnit c) else none

/-- The string encoder of `json.Marshal`, which also escapes what is special in HTML and
JavaScript. -/
def escapeGo (c : Char) : List Char :=
  match escapeCommon c with
  | some cs => cs
  | none =>
      if c = '<' ∨ c = '>' ∨ c = '&' ∨ c.toNat = 0x2028 ∨ c.toNat = 0x2029 then escapeUnit c
      else [c]

def escapeJsonb (c : Char) : List Char := (escapeCommon c).getD [c]

theorem toNat_not_surrogate (c : Char) : isSurrogate c.toNat = false := by
  have h : c.toNat < 0xD800 ∨ 0xDFFF < c.toNat := by
    rcases c.valid with h | h
    · exact .inl h
    · exact .inr h.1
  simp only [isSurrogate, Bool.and_eq_false_iff, decide_eq_false_iff_not]
  omega

theorem readChar_escapeUnit {c : Char} (h : c.toNat < 65536) (rest : List Char) :
    readChar (escapeUnit c ++ rest) = some (c, rest) := by
  show readUnit (hex c.toNat ++ rest) = some (c, rest)
  simp [readUnit, readHex_hex h, toNat_not_surrogate]

theorem readChar_self {c : Char} (hescape : c ≠ '\\') (hspace : ¬c < ' ') (rest : List Char) :
    readChar (c :: rest) = some (c, rest) := by
  unfold readChar
  split
  · next heq => exact absurd (List.cons.inj heq).1 hescape
  · next heq => exact absurd (List.cons.inj heq).1 hescape
  · next heq =>
      obtain ⟨rfl, rfl⟩ := List.cons.inj heq
      rw [if_neg hspace]
  · next heq => simp at heq

/-- A character that an encoder writes can be read, and does not end the literal. -/
structure Reads (escape : Char → List Char) (c : Char) : Prop where
  reads : ∀ rest, readChar (escape c ++ rest) = some (c, rest)
  first : ∀ rest tail, escape c ++ rest ≠ '"' :: tail

theorem reads_unit {escape : Char → List Char} {c : Char} (h : escape c = escapeUnit c)
    (hc : c.toNat < 65536) : Reads escape c where
  reads rest := by rw [h, readChar_escapeUnit hc]
  first rest tail := by simp [h, escapeUnit]

theorem readChar_short {p : Char × Char} (hp : p ∈ shortEscapes) (rest : List Char) :
    readChar ('\\' :: p.2 :: rest) = some (p.1, rest) := by
  simp only [shortEscapes, List.mem_cons, List.not_mem_nil, or_false] at hp
  rcases hp with rfl | rfl | rfl | rfl | rfl | rfl | rfl <;> rfl

theorem reads_common {escape : Char → List Char} {c : Char} {cs : List Char}
    (hcommon : escapeCommon c = some cs) (h : escape c = cs) : Reads escape c := by
  unfold escapeCommon at hcommon
  split at hcommon
  · next p hp =>
      obtain rfl := Option.some.inj hcommon
      have hc : p.1 = c := by simpa using List.find?_some hp
      constructor
      · intro rest
        rw [h, ← hc]
        exact readChar_short (List.mem_of_find?_eq_some hp) rest
      · intro rest tail
        simp [h]
  · split at hcommon
    · next hspace =>
        obtain rfl := Option.some.inj hcommon
        have hlt : c.toNat < 32 := hspace
        exact reads_unit h (by omega)
    · simp at hcommon

theorem reads_self {escape : Char → List Char} {c : Char} (hcommon : escapeCommon c = none)
    (h : escape c = [c]) : Reads escape c := by
  unfold escapeCommon at hcommon
  split at hcommon
  · simp at hcommon
  · next hfind =>
      have hnot : ∀ p ∈ shortEscapes, p.1 ≠ c := by
        intro p hp
        have hne := List.find?_eq_none.mp hfind p hp
        simpa using hne
      have hquote : '"' ≠ c := hnot ('"', '"') (by simp [shortEscapes])
      have hescape : '\\' ≠ c := hnot ('\\', '\\') (by simp [shortEscapes])
      split at hcommon
      · simp at hcommon
      · next hspace =>
          exact ⟨fun rest => by rw [h]; exact readChar_self hescape.symm hspace rest,
            fun rest tail => by simp [h, hquote.symm]⟩

theorem reads_jsonb (c : Char) : Reads escapeJsonb c := by
  cases hcommon : escapeCommon c with
  | some cs => exact reads_common hcommon (by rw [escapeJsonb, hcommon]; rfl)
  | none => exact reads_self hcommon (by rw [escapeJsonb, hcommon]; rfl)

theorem reads_go (c : Char) : Reads escapeGo c := by
  cases hcommon : escapeCommon c with
  | some cs => exact reads_common hcommon (by simp only [escapeGo, hcommon])
  | none =>
      by_cases hspecial : c = '<' ∨ c = '>' ∨ c = '&' ∨ c.toNat = 0x2028 ∨ c.toNat = 0x2029
      · apply reads_unit
        · simp only [escapeGo, hcommon, if_pos hspecial]
        · rcases hspecial with rfl | rfl | rfl | h | h
          · decide
          · decide
          · decide
          · omega
          · omega
      · exact reads_self hcommon (by simp only [escapeGo, hcommon, if_neg hspecial])

theorem readLiteral_flatMap {escape : Char → List Char} (hreads : ∀ c, Reads escape c)
    (cs rest : List Char) (fuel : Nat) (hfuel : cs.length < fuel) :
    readLiteral fuel (cs.flatMap escape ++ '"' :: rest) = some (cs, rest) := by
  induction cs generalizing fuel with
  | nil =>
      cases fuel with
      | zero => simp at hfuel
      | succ fuel => rfl
  | cons c cs ih =>
      cases fuel with
      | zero => simp at hfuel
      | succ fuel =>
          have hlt : cs.length < fuel := by simpa using hfuel
          rw [List.flatMap_cons, List.append_assoc, readLiteral]
          · simp [(hreads c).reads, ih fuel hlt]
          · exact fun tail heq => (hreads c).first _ tail heq

theorem length_le_flatMap {escape : Char → List Char} (hreads : ∀ c, Reads escape c)
    (cs : List Char) : cs.length ≤ (cs.flatMap escape).length := by
  induction cs with
  | nil => simp
  | cons c cs ih =>
      have hpos : 0 < (escape c).length := by
        rw [List.length_pos_iff]
        intro hnil
        exact (hreads c).first ['"'] [] (by simp [hnil])
      simp only [List.flatMap_cons, List.length_append, List.length_cons]
      omega

theorem readText_literal {escape : Char → List Char} (hreads : ∀ c, Reads escape c) (s : String) :
    readText (literal escape s) = some s := by
  have hlt : s.toList.length < (s.toList.flatMap escape ++ ['"']).length + 1 := by
    have hs := length_le_flatMap hreads s.toList
    simp only [List.length_append, List.length_singleton]
    omega
  simp only [readText, literal, String.toList_ofList]
  rw [List.dropWhile_cons_of_neg (by decide)]
  simp only [readLiteral_flatMap hreads s.toList [] _ hlt]
  simp

theorem unmarshalString_literal {escape : Char → List Char} (hreads : ∀ c, Reads escape c)
    (s : String) : unmarshalString (literal escape s) = some s := by
  simp only [unmarshalString, readText_literal hreads]

theorem unmarshalString_object {text : String} {cs : List Char} (h : text.toList = '{' :: cs) :
    unmarshalString text = none := by
  have hdrop : text.toList.dropWhile isSpace = '{' :: cs := by
    rw [h, List.dropWhile_cons_of_neg (by decide)]
  have hread : readText text = none := by
    simp only [readText, hdrop]
    split
    · next heq => simp at heq
    · rfl
  simp [unmarshalString, hread, hdrop]

end Lib.JsonText

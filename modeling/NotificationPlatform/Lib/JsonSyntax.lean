import NotificationPlatform.Lib.JsonText

/-!
# The syntax of JSON texts

A recognizer for whole texts: what may stand where, without building a value. String literals are
those of `JsonText`.
-/

namespace Lib.JsonText

def skipDigits : List Char → Option (List Char)
  | [] => none
  | c :: rest => if c.isDigit then some (rest.dropWhile Char.isDigit) else none

def skipInteger : List Char → Option (List Char)
  | '0' :: rest => some rest
  | cs => skipDigits cs

def skipFraction : List Char → Option (List Char)
  | '.' :: rest => skipDigits rest
  | cs => some cs

def skipExponent : List Char → Option (List Char)
  | c :: rest =>
      if c = 'e' ∨ c = 'E' then
        match rest with
        | '+' :: rest => skipDigits rest
        | '-' :: rest => skipDigits rest
        | _ => skipDigits rest
      else some (c :: rest)
  | [] => some []

def skipNumber (cs : List Char) : Option (List Char) :=
  let unsigned := match cs with
    | '-' :: rest => rest
    | _ => cs
  ((skipInteger unsigned).bind skipFraction).bind skipExponent

def skipLiteral (cs : List Char) : Option (List Char) :=
  (readLiteral (cs.length + 1) cs).map Prod.snd

def skipWord (word cs : List Char) : Option (List Char) :=
  if cs.take word.length = word then some (cs.drop word.length) else none

def beginsValue (c : Char) : Bool :=
  isSpace c || c.isDigit || ['"', '{', '[', 't', 'f', 'n', '-'].contains c

mutual

/-- What follows a value. Each round consumes a character, so the length of the text is enough
fuel. -/
def skipValue : Nat → List Char → Option (List Char)
  | 0, _ => none
  | fuel + 1, cs =>
      match cs.dropWhile isSpace with
      | '"' :: rest => skipLiteral rest
      | '{' :: rest =>
          match rest.dropWhile isSpace with
          | '}' :: rest => some rest
          | _ => skipMembers fuel rest
      | '[' :: rest =>
          match rest.dropWhile isSpace with
          | ']' :: rest => some rest
          | _ => skipElements fuel rest
      | 't' :: rest => skipWord ['r', 'u', 'e'] rest
      | 'f' :: rest => skipWord ['a', 'l', 's', 'e'] rest
      | 'n' :: rest => skipWord ['u', 'l', 'l'] rest
      | rest => skipNumber rest

def skipMembers : Nat → List Char → Option (List Char)
  | 0, _ => none
  | fuel + 1, cs =>
      match cs.dropWhile isSpace with
      | '"' :: rest => do
          match (← skipLiteral rest).dropWhile isSpace with
          | ':' :: rest =>
              match (← skipValue fuel rest).dropWhile isSpace with
              | ',' :: rest => skipMembers fuel rest
              | '}' :: rest => some rest
              | _ => none
          | _ => none
      | _ => none

def skipElements : Nat → List Char → Option (List Char)
  | 0, _ => none
  | fuel + 1, cs => do
      match (← skipValue fuel cs).dropWhile isSpace with
      | ',' :: rest => skipElements fuel rest
      | ']' :: rest => some rest
      | _ => none

end

def isJson (text : String) : Bool :=
  (skipValue (text.toList.length + 1) text.toList).any fun rest => rest.all isSpace

example : isJson " \x7b\"a\": [1, -2.5e3, true, \x7b\x7d]\x7d" = true := by decide +kernel

theorem isJson_of_readText {text value : String} (h : readText text = some value) :
    isJson text = true := by
  unfold readText at h
  split at h
  · next cs hcs =>
      split at h
      · next value rest hliteral =>
          have hspaces : rest.all isSpace = true := by
            by_contra hspaces
            simp [hspaces] at h
          simp [isJson, skipValue, hcs, skipLiteral, hliteral, hspaces]
      · simp at h
  · simp at h

theorem skipNumber_eq_none {c : Char} (hdigit : c.isDigit = false) (hminus : c ≠ '-')
    (cs : List Char) : skipNumber (c :: cs) = none := by
  have hinteger : skipInteger (c :: cs) = none := by
    unfold skipInteger
    split
    · next heq =>
        obtain ⟨rfl, -⟩ := List.cons.inj heq
        exact absurd hdigit (by decide)
    · simp [skipDigits, hdigit]
  unfold skipNumber
  split
  · next heq => exact absurd (List.cons.inj heq).1 hminus
  · simp [hinteger]

theorem isJson_eq_false {text : String} {c : Char} {cs : List Char} (h : text.toList = c :: cs)
    (hc : beginsValue c = false) : isJson text = false := by
  simp only [beginsValue, Bool.or_eq_false_iff] at hc
  obtain ⟨⟨hspace, hdigit⟩, hstart⟩ := hc
  have hne : ∀ d ∈ ['"', '{', '[', 't', 'f', 'n', '-'], c ≠ d := by
    intro d hd heq
    rw [heq, List.contains_iff_mem.mpr hd] at hstart
    simp at hstart
  have hskip : ∀ fuel, skipValue (fuel + 1) (c :: cs) = none := by
    intro fuel
    rw [skipValue, List.dropWhile_cons_of_neg (by simp [hspace])]
    split
    · next heq => exact absurd (List.cons.inj heq).1 (hne '"' (by simp))
    · next heq => exact absurd (List.cons.inj heq).1 (hne '{' (by simp))
    · next heq => exact absurd (List.cons.inj heq).1 (hne '[' (by simp))
    · next heq => exact absurd (List.cons.inj heq).1 (hne 't' (by simp))
    · next heq => exact absurd (List.cons.inj heq).1 (hne 'f' (by simp))
    · next heq => exact absurd (List.cons.inj heq).1 (hne 'n' (by simp))
    · exact skipNumber_eq_none hdigit (hne '-' (by simp)) cs
  simp [isJson, h, hskip]

end Lib.JsonText

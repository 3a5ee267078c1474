import NotificationPlatform.Lib.JsonSyntax

/-!
# Objects and the texts of their members

An object is read as its keys and the texts of its values, which are left as they stand. Of two
members with one key the later one counts.
-/

namespace Lib.JsonText

/-- The keys of an object with the texts of their values. -/
abbrev Members := List (String × String)

def readValue (cs : List Char) : Option (List Char × List Char) :=
  let cs := cs.dropWhile isSpace
  (skipValue (cs.length + 1) cs).map fun rest => (cs.take (cs.length - rest.length), rest)

/-- The members of an object up to its closing brace, which ends the text. Each round consumes a
character, so the length of the text is enough fuel. -/
def readMembers : Nat → List Char → Option Members
  | 0, _ => none
  | fuel + 1, cs =>
      match cs.dropWhile isSpace with
      | '"' :: rest => do
          let (key, rest) ← readLiteral (rest.length + 1) rest
          match rest.dropWhile isSpace with
          | ':' :: rest => do
              let (value, rest) ← readValue rest
              let member := (String.ofList key, String.ofList value)
              match rest.dropWhile isSpace with
              | ',' :: rest => do
                  let members ← readMembers fuel rest
                  some (member :: members)
              | '}' :: rest => if rest.all isSpace then some [member] else none
              | _ => none
          | _ => none
      | _ => none

def readObject (text : String) : Option Members :=
  match text.toList.dropWhile isSpace with
  | '{' :: rest =>
      match rest.dropWhile isSpace with
      | '}' :: rest => if rest.all isSpace then some [] else none
      | _ => readMembers (rest.length + 1) rest
  | _ => none

def membersText (escape : Char → List Char) : Members → List Char
  | [] => ['}']
  | [m] => (literal escape m.1).toList ++ ':' :: (m.2.toList ++ ['}'])
  | m :: ms => (literal escape m.1).toList ++ ':' :: (m.2.toList ++ ',' :: membersText escape ms)

def writeObject (escape : Char → List Char) (ms : Members) : String :=
  String.ofList ('{' :: membersText escape ms)

def Whole (value : String) : Prop :=
  ∀ c rest, c = ',' ∨ c = '}' →
    readValue (value.toList ++ c :: rest) = some (value.toList, c :: rest)

section

variable {escape : Char → List Char}

theorem readLiteral_literal (hreads : ∀ c, Reads escape c) (s : String) (rest : List Char) :
    readLiteral ((s.toList.flatMap escape ++ '"' :: rest).length + 1)
      (s.toList.flatMap escape ++ '"' :: rest) = some (s.toList, rest) := by
  apply readLiteral_flatMap hreads
  have hlength := length_le_flatMap hreads s.toList
  simp only [List.length_append, List.length_cons]
  omega

theorem toList_literal (s : String) (rest : List Char) : (literal escape s).toList ++ rest =
    '"' :: (s.toList.flatMap escape ++ '"' :: rest) := by
  simp [literal]

theorem whole_literal (hreads : ∀ c, Reads escape c) (s : String) :
    Whole (literal escape s) := by
  intro c rest _
  have hskip : skipValue (((literal escape s).toList ++ c :: rest).length + 1)
      ((literal escape s).toList ++ c :: rest) = some (c :: rest) := by
    rw [toList_literal, skipValue, List.dropWhile_cons_of_neg (by decide)]
    simp only [skipLiteral, readLiteral_literal hreads, Option.map_some]
  have hdrop : ((literal escape s).toList ++ c :: rest).dropWhile isSpace =
      (literal escape s).toList ++ c :: rest := by
    rw [toList_literal, List.dropWhile_cons_of_neg (by decide)]
  unfold readValue
  rw [hdrop]
  dsimp only
  rw [hskip]
  simp

theorem whole_null : Whole "null" := by
  intro c rest _
  have hdrop : ("null".toList ++ c :: rest).dropWhile isSpace = "null".toList ++ c :: rest := by
    simp [isSpace]
  have hskip : skipValue (("null".toList ++ c :: rest).length + 1) ("null".toList ++ c :: rest) =
      some (c :: rest) := by
    rw [skipValue, hdrop]
    simp [skipWord]
  unfold readValue
  rw [hdrop]
  dsimp only
  rw [hskip]
  simp

private theorem readMembers_member (hreads : ∀ c, Reads escape c) {m : String × String}
    (hwhole : Whole m.2) {c : Char} (hc : c = ',' ∨ c = '}') (fuel : Nat) (rest : List Char) :
    readMembers (fuel + 1) ((literal escape m.1).toList ++ ':' :: (m.2.toList ++ c :: rest)) =
      if c = ',' then (readMembers fuel rest).map (m :: ·)
      else if rest.all isSpace then some [m] else none := by
  have hmember : (String.ofList m.1.toList, String.ofList m.2.toList) = m := by simp
  rw [toList_literal, readMembers, List.dropWhile_cons_of_neg (by decide)]
  simp only [readLiteral_literal hreads, Option.bind_eq_bind, Option.bind_some]
  rw [List.dropWhile_cons_of_neg (by decide)]
  simp only [hwhole c rest hc]
  simp only [Option.bind_some, hmember]
  rcases hc with rfl | rfl
  · rw [List.dropWhile_cons_of_neg (by decide), if_pos rfl]
    show (readMembers fuel rest).bind (fun members => some (m :: members)) = _
    cases readMembers fuel rest <;> rfl
  · rw [List.dropWhile_cons_of_neg (by decide), if_neg (by decide)]
    rfl

private theorem readMembers_membersText (hreads : ∀ c, Reads escape c) {ms : Members}
    (hne : ms ≠ []) (hwhole : ∀ m ∈ ms, Whole m.2) {fuel : Nat} (hfuel : ms.length ≤ fuel) :
    readMembers fuel (membersText escape ms) = some ms := by
  induction ms generalizing fuel with
  | nil => exact absurd rfl hne
  | cons m ms ih =>
      obtain ⟨fuel, rfl⟩ : ∃ n, fuel = n + 1 := by
        cases fuel with
        | zero => simp at hfuel
        | succ n => exact ⟨n, rfl⟩
      have hm := hwhole m (by simp)
      cases ms with
      | nil => simp [membersText, readMembers_member hreads hm (.inr rfl)]
      | cons m' ms =>
          have hrest := @ih (by simp) (fun m hm => hwhole m (List.mem_cons_of_mem _ hm)) fuel
            (by simpa using hfuel)
          rw [membersText, readMembers_member hreads hm (.inl rfl), if_pos rfl, hrest]
          · rfl
          · simp

private theorem length_le_membersText (escape : Char → List Char) (ms : Members) :
    ms.length ≤ (membersText escape ms).length := by
  induction ms with
  | nil => simp
  | cons m ms ih =>
      cases ms with
      | nil =>
          simp only [membersText, List.length_append, List.length_cons]
          omega
      | cons m' ms =>
          rw [membersText]
          · simp only [List.length_append, List.length_cons] at ih ⊢
            omega
          · simp

theorem readObject_writeObject (hreads : ∀ c, Reads escape c) {ms : Members}
    (hwhole : ∀ m ∈ ms, Whole m.2) : readObject (writeObject escape ms) = some ms := by
  unfold readObject writeObject
  rw [String.toList_ofList, List.dropWhile_cons_of_neg (by decide)]
  by_cases hne : ms = []
  · subst hne
    rfl
  · have hread := readMembers_membersText hreads hne hwhole
      (Nat.le_succ_of_le (length_le_membersText escape ms))
    -- the text goes on with the quote of a key
    obtain ⟨rest, hrest⟩ : ∃ rest, membersText escape ms = '"' :: rest := by
      cases ms with
      | nil => exact absurd rfl hne
      | cons m ms =>
          obtain ⟨tail, htail⟩ : ∃ tail, membersText escape (m :: ms) =
              (literal escape m.1).toList ++ tail := by
            cases ms <;> exact ⟨_, rfl⟩
          rw [htail, toList_literal]
          exact ⟨_, rfl⟩
    rw [hrest] at hread ⊢
    simp only [List.dropWhile_cons_of_neg (show ¬isSpace '"' = true by decide)]
    exact hread

end

def valueOf (ms : Members) (key : String) : Option String :=
  (ms.reverse.find? fun m => m.1 == key).map Prod.snd

theorem valueOf_eq_none_iff {ms : Members} {key : String} :
    valueOf ms key = none ↔ key ∉ ms.map Prod.fst := by
  simp only [valueOf, Option.map_eq_none_iff, List.find?_eq_none, List.mem_reverse, beq_iff_eq,
    List.mem_map, not_exists, not_and]

/-- `new` is `old` with the members of `changes` replaced or added. -/
def Updated (old changes new : Members) : Prop :=
  ∀ key, valueOf new key = (valueOf changes key).or (valueOf old key)

theorem updated_nil (old : Members) : Updated old [] old := by
  intro key
  simp [valueOf]

theorem updated_self_iff {old changes : Members} :
    Updated old changes changes ↔ ∀ key ∈ old.map Prod.fst, key ∈ changes.map Prod.fst := by
  constructor
  · intro h key hold
    by_contra hnew
    have hnone := valueOf_eq_none_iff.mpr hnew
    have hvalue := h key
    rw [hnone, Option.none_or] at hvalue
    exact valueOf_eq_none_iff.mp hvalue.symm hold
  · intro h key
    cases hvalue : valueOf changes key with
    | some v => rfl
    | none =>
        have hnew := valueOf_eq_none_iff.mp hvalue
        have hold : key ∉ old.map Prod.fst := fun hmem => hnew (h key hmem)
        rw [valueOf_eq_none_iff.mpr hold, Option.none_or]

end Lib.JsonText

import NotificationPlatform.Json
import NotificationPlatform.Lib.Binary64
import NotificationPlatform.Lib.JsonTokens

/-!
# Reading JSON values

`json.Unmarshal` of a text: its tokens are read first and then parsed, and of two fields with one
key the later one counts. How a number is read is a parameter: as it is written, or as a `float64`
that is written again. A text whose tokens differ in the strings of its values alone is read as the
same value but for these strings.
-/

namespace NotificationPlatform

open Lib Lib.JsonText

abbrev JsonToken := Token String

def writtenValue (text : String) : Option Rat := writtenNumber text.toList

/-- What `json.Marshal` writes for a number that `json.Unmarshal` has read into a `float64`. A number
out of range is an error. -/
def floatValue (text : String) : Option Rat :=
  ((writtenValue text).bind Binary64.nearest).map Binary64.shortest

theorem floatValue_natCast {text : String} {n : Nat} (hn : n < 2 ^ 53)
    (htext : writtenValue text = some (n : Rat)) : floatValue text = some (n : Rat) := by
  rw [floatValue, htext, Option.bind_some, Binary64.nearest_natCast hn, Option.map_some,
    Binary64.shortest_natCast hn]

example : floatValue "9007199254740993" = some 9007199254740992 ∧ floatValue "1e400" = none := by
  decide +kernel

section

variable (number : String → Option Rat)

def parseAtom (text : List Char) : Option Json :=
  if text = "null".toList then some .null
  else if text = "true".toList then some (.bool true)
  else if text = "false".toList then some (.bool false)
  else (number (String.ofList text)).map .num

mutual

def parseValue : Nat → List JsonToken → Option (Json × List JsonToken)
  | _ + 1, .str s :: rest => some (.str s, rest)
  | _ + 1, .atom text :: rest => (parseAtom number text).map fun j => (j, rest)
  | fuel + 1, .lbracket :: rest =>
      if rest.head? = some .rbracket then some (.arr [], rest.tail)
      else do
        let (items, rest) ← parseItems fuel rest
        some (.arr items, rest)
  | fuel + 1, .lbrace :: rest =>
      if rest.head? = some .rbrace then some (.obj [], rest.tail)
      else do
        let (fields, rest) ← parseFields fuel rest
        some (.obj (JsonMap.empty.setAll fields).fields, rest)
  | _, _ => none

def parseItems : Nat → List JsonToken → Option (List Json × List JsonToken)
  | 0, _ => none
  | fuel + 1, ts => do
      match ← parseValue fuel ts with
      | (item, .comma :: rest) =>
          let (items, rest) ← parseItems fuel rest
          some (item :: items, rest)
      | (item, .rbracket :: rest) => some ([item], rest)
      | _ => none

def parseFields : Nat → List JsonToken → Option (List (String × Json) × List JsonToken)
  | fuel + 1, .str key :: .colon :: ts => do
      match ← parseValue fuel ts with
      | (value, .comma :: rest) =>
          let (fields, rest) ← parseFields fuel rest
          some ((key, value) :: fields, rest)
      | (value, .rbrace :: rest) => some ([(key, value)], rest)
      | _ => none
  | _, _ => none

end

/-- A whole text. A level of nesting takes two rounds and two tokens, and an item takes one round
and a token. -/
def parseJson (ts : List JsonToken) : Option Json :=
  match parseValue number (2 * ts.length + 1) ts with
  | some (j, []) => some j
  | _ => none

/-- `json.Unmarshal` into an empty interface value. -/
def readJson (text : String) : Option Json := do
  let ts ← tokens readChar text.toList
  parseJson number (ts.map (Token.map String.ofList))

end

namespace Json

mutual

def strings : Json → List String
  | .str s => [s]
  | .arr items => itemStrings items
  | .obj fields => fieldStrings fields
  | .null | .bool _ | .num _ => []

def itemStrings : List Json → List String
  | [] => []
  | item :: rest => item.strings ++ itemStrings rest

def fieldStrings : List (String × Json) → List String
  | [] => []
  | field :: rest => field.2.strings ++ fieldStrings rest

end

mutual

def mapStrings (f : String → String) : Json → Json
  | .str s => .str (f s)
  | .arr items => .arr (mapItems f items)
  | .obj fields => .obj (mapFields f fields)
  | .null => .null
  | .bool b => .bool b
  | .num q => .num q

def mapItems (f : String → String) : List Json → List Json
  | [] => []
  | item :: rest => item.mapStrings f :: mapItems f rest

def mapFields (f : String → String) : List (String × Json) → List (String × Json)
  | [] => []
  | field :: rest => (field.1, field.2.mapStrings f) :: mapFields f rest

end

variable {f : String → String}

mutual

theorem strings_mapStrings : (j : Json) → (j.mapStrings f).strings = j.strings.map f
  | .str s => by simp [mapStrings, strings]
  | .arr items => by rw [mapStrings, strings, itemStrings_mapItems items, strings]
  | .obj fields => by rw [mapStrings, strings, fieldStrings_mapFields fields, strings]
  | .null => by simp [mapStrings, strings]
  | .bool b => by simp [mapStrings, strings]
  | .num q => by simp [mapStrings, strings]

theorem itemStrings_mapItems : (items : List Json) →
    itemStrings (mapItems f items) = (itemStrings items).map f
  | [] => by simp [mapItems, itemStrings]
  | item :: rest => by
      rw [mapItems, itemStrings, strings_mapStrings item, itemStrings_mapItems rest, itemStrings,
        List.map_append]

theorem fieldStrings_mapFields : (fields : List (String × Json)) →
    fieldStrings (mapFields f fields) = (fieldStrings fields).map f
  | [] => by simp [mapFields, fieldStrings]
  | field :: rest => by
      rw [mapFields, fieldStrings, strings_mapStrings field.2, fieldStrings_mapFields rest,
        fieldStrings, List.map_append]

end

private theorem mapFields_setField (fields : List (String × Json)) (key : String) (value : Json) :
    mapFields f (setField fields key value) =
      setField (mapFields f fields) key (value.mapStrings f) := by
  induction fields with
  | nil => simp [setField, mapFields]
  | cons field rest ih =>
      by_cases hkey : field.1 = key
      · simp [setField, mapFields, hkey]
      · simp [setField, mapFields, hkey, ih]

theorem mapFields_setAll (fields : List (String × Json)) (m m' : JsonMap)
    (h : m'.fields = mapFields f m.fields) :
    (m'.setAll (mapFields f fields)).fields = mapFields f (m.setAll fields).fields := by
  induction fields generalizing m m' with
  | nil => simpa [mapFields, JsonMap.setAll] using h
  | cons field rest ih =>
      rw [mapFields]
      apply ih (m.set field.1 field.2) (m'.set field.1 (field.2.mapStrings f))
      show setField m'.fields field.1 (field.2.mapStrings f) =
        mapFields f (setField m.fields field.1 field.2)
      rw [h, mapFields_setField]

end Json

/-- The same tokens, but for the strings that are no keys, and numbers on which two readers
agree. -/
inductive Refilled (f : String → String) (number number' : String → Option Rat) :
    List JsonToken → List JsonToken → Prop
  | nil : Refilled f number number' [] []
  | key (s : String) {ts ts' : List JsonToken} (hrest : Refilled f number number' ts ts') :
      Refilled f number number' (.str s :: .colon :: ts) (.str s :: .colon :: ts')
  | str (s : String) {ts ts' : List JsonToken} (hvalue : ts.head? ≠ some .colon)
      (hrest : Refilled f number number' ts ts') :
      Refilled f number number' (.str s :: ts) (.str (f s) :: ts')
  | other {t : JsonToken} {ts ts' : List JsonToken} (hother : ∀ s, t ≠ .str s)
      (hatom : ∀ text, t = .atom text → number (String.ofList text) = number' (String.ofList text))
      (hrest : Refilled f number number' ts ts') : Refilled f number number' (t :: ts) (t :: ts')

section

variable {f : String → String} {number number' : String → Option Rat}
  {ts ts' rest : List JsonToken}

theorem Refilled.length_eq (h : Refilled f number number' ts ts') : ts'.length = ts.length := by
  induction h with
  | nil => rfl
  | key s _ ih => simp [ih]
  | str s _ _ ih => simp [ih]
  | other _ _ _ ih => simp [ih]

theorem Refilled.of_cons {t : JsonToken} (h : Refilled f number number' (t :: ts) ts')
    (ht : ∀ s, t ≠ .str s) :
    ∃ ts₁, ts' = t :: ts₁ ∧ Refilled f number number' ts ts₁ := by
  cases h with
  | key s _ => exact absurd rfl (ht s)
  | str s _ _ => exact absurd rfl (ht s)
  | other _ _ hrest => exact ⟨_, rfl, hrest⟩

theorem Refilled.head_iff (h : Refilled f number number' ts ts') {t : JsonToken}
    (ht : ∀ s, t ≠ .str s) :
    ts'.head? = some t ↔ ts.head? = some t := by
  cases h with
  | nil => rfl
  | key s _ => rfl
  | str s _ _ => simp [Ne.symm (ht _)]
  | other _ _ _ => rfl

private theorem mapStrings_of_parseAtom {text : List Char} {j : Json}
    (hatom : number (String.ofList text) = number' (String.ofList text))
    (h : parseAtom number text = some j) : parseAtom number' text = some (j.mapStrings f) := by
  have hsame : parseAtom number' text = parseAtom number text := by rw [parseAtom, parseAtom, hatom]
  rw [hsame, h]
  unfold parseAtom at h
  split at h
  · obtain rfl := Option.some.inj h
    rw [Json.mapStrings]
  split at h
  · obtain rfl := Option.some.inj h
    rw [Json.mapStrings]
  split at h
  · obtain rfl := Option.some.inj h
    rw [Json.mapStrings]
  · obtain ⟨q, -, rfl⟩ := Option.map_eq_some_iff.mp h
    rw [Json.mapStrings]

/-- What one round of the parser reads from the tokens, it reads refilled from the refilled ones. -/
structure ParsesRefilled (f : String → String) (number number' : String → Option Rat)
    (fuel : Nat) : Prop where
  value : ∀ ts ts' j rest, Refilled f number number' ts ts' →
    parseValue number fuel ts = some (j, rest) → rest.head? ≠ some .colon →
    ∃ rest', Refilled f number number' rest rest' ∧
      parseValue number' fuel ts' = some (j.mapStrings f, rest')
  items : ∀ ts ts' items rest, Refilled f number number' ts ts' →
    parseItems number fuel ts = some (items, rest) → ∃ rest', Refilled f number number' rest rest' ∧
      parseItems number' fuel ts' = some (Json.mapItems f items, rest')
  fields : ∀ ts ts' fields rest, Refilled f number number' ts ts' →
    parseFields number fuel ts = some (fields, rest) → ∃ rest', Refilled f number number' rest rest' ∧
      parseFields number' fuel ts' = some (Json.mapFields f fields, rest')

private theorem parseValue_refilled {fuel : Nat} (ih : ParsesRefilled f number number' fuel) {j : Json}
    (hts : Refilled f number number' ts ts') (h : parseValue number (fuel + 1) ts = some (j, rest))
    (hcolon : rest.head? ≠ some .colon) : ∃ rest', Refilled f number number' rest rest' ∧
      parseValue number' (fuel + 1) ts' = some (j.mapStrings f, rest') := by
  cases hts with
  | nil => simp [parseValue] at h
  | key s hrest =>
      rw [parseValue] at h
      obtain ⟨-, rfl⟩ := Prod.mk.inj (Option.some.inj h)
      simp at hcolon
  | str s hvalue hrest =>
      rw [parseValue] at h
      obtain ⟨rfl, rfl⟩ := Prod.mk.inj (Option.some.inj h)
      exact ⟨_, hrest, by rw [parseValue, Json.mapStrings]⟩
  | @other t ts ts' hother hatoms hrest =>
      cases t with
      | str s => exact absurd rfl (hother s)
      | atom text =>
          rw [parseValue] at h
          obtain ⟨j', hatom, heq⟩ := Option.map_eq_some_iff.mp h
          obtain ⟨rfl, rfl⟩ := Prod.mk.inj heq
          exact ⟨_, hrest, by rw [parseValue, mapStrings_of_parseAtom (hatoms text rfl) hatom]; rfl⟩
      | lbracket =>
          rw [parseValue] at h
          split at h
          · next hempty =>
              obtain ⟨rfl, rfl⟩ := Prod.mk.inj (Option.some.inj h)
              obtain ⟨tail, rfl⟩ := List.head?_eq_some_iff.mp hempty
              obtain ⟨tail', rfl, htail⟩ := hrest.of_cons (by simp)
              refine ⟨tail', htail, ?_⟩
              rw [parseValue, List.head?_cons, if_pos rfl, Json.mapStrings, Json.mapItems]
              rfl
          · next hempty =>
              obtain ⟨⟨items, rest₁⟩, hitems, heq⟩ := Option.bind_eq_some_iff.mp h
              obtain ⟨rfl, rfl⟩ := Prod.mk.inj (Option.some.inj heq)
              obtain ⟨rest', hrest', hitems'⟩ := ih.items _ _ _ _ hrest hitems
              refine ⟨rest', hrest', ?_⟩
              rw [parseValue, if_neg (fun h => hempty ((hrest.head_iff (by simp)).mp h)), hitems',
                Json.mapStrings]
              rfl
      | lbrace =>
          rw [parseValue] at h
          split at h
          · next hempty =>
              obtain ⟨rfl, rfl⟩ := Prod.mk.inj (Option.some.inj h)
              obtain ⟨tail, rfl⟩ := List.head?_eq_some_iff.mp hempty
              obtain ⟨tail', rfl, htail⟩ := hrest.of_cons (by simp)
              refine ⟨tail', htail, ?_⟩
              rw [parseValue, List.head?_cons, if_pos rfl, Json.mapStrings, Json.mapFields]
              rfl
          · next hempty =>
              obtain ⟨⟨fields, rest₁⟩, hfields, heq⟩ := Option.bind_eq_some_iff.mp h
              obtain ⟨rfl, rfl⟩ := Prod.mk.inj (Option.some.inj heq)
              obtain ⟨rest', hrest', hfields'⟩ := ih.fields _ _ _ _ hrest hfields
              have hset := Json.mapFields_setAll fields .empty .empty
                (by simp [JsonMap.empty, Json.mapFields] : _ = Json.mapFields f _)
              refine ⟨rest', hrest', ?_⟩
              rw [parseValue, if_neg (fun h => hempty ((hrest.head_iff (by simp)).mp h)), hfields',
                Json.mapStrings, ← hset]
              rfl
      | rbrace | rbracket | colon | comma => simp [parseValue] at h

private theorem parseItems_refilled {fuel : Nat} (ih : ParsesRefilled f number number' fuel)
    {items : List Json} (hts : Refilled f number number' ts ts')
    (h : parseItems number (fuel + 1) ts = some (items, rest)) :
    ∃ rest', Refilled f number number' rest rest' ∧
      parseItems number' (fuel + 1) ts' = some (Json.mapItems f items, rest') := by
  rw [parseItems] at h ⊢
  obtain ⟨⟨item, rest₁⟩, hvalue, h⟩ := Option.bind_eq_some_iff.mp h
  split at h
  · next _ item' rest' hpair =>
      obtain ⟨rfl, rfl⟩ := Prod.mk.inj hpair
      obtain ⟨⟨items', rest₂⟩, hitems, heq⟩ := Option.bind_eq_some_iff.mp h
      obtain ⟨rfl, rfl⟩ := Prod.mk.inj (Option.some.inj heq)
      obtain ⟨_, hrest, hvalue'⟩ := ih.value _ _ _ _ hts hvalue (by simp)
      obtain ⟨tail, rfl, htail⟩ := hrest.of_cons (by simp)
      obtain ⟨rest', hrest', hitems'⟩ := ih.items _ _ _ _ htail hitems
      refine ⟨rest', hrest', ?_⟩
      rw [hvalue', Json.mapItems]
      simp [hitems']
  · next _ item' rest' hpair =>
      obtain ⟨rfl, rfl⟩ := Prod.mk.inj hpair
      obtain ⟨rfl, rfl⟩ := Prod.mk.inj (Option.some.inj h)
      obtain ⟨_, hrest, hvalue'⟩ := ih.value _ _ _ _ hts hvalue (by simp)
      obtain ⟨tail, rfl, htail⟩ := hrest.of_cons (by simp)
      refine ⟨tail, htail, ?_⟩
      rw [hvalue', Json.mapItems, Json.mapItems]
      rfl
  · simp at h

private theorem parseFields_refilled {fuel : Nat} (ih : ParsesRefilled f number number' fuel)
    {fields : List (String × Json)} (hts : Refilled f number number' ts ts')
    (h : parseFields number (fuel + 1) ts = some (fields, rest)) :
    ∃ rest', Refilled f number number' rest rest' ∧
      parseFields number' (fuel + 1) ts' = some (Json.mapFields f fields, rest') := by
  cases hts with
  | nil => simp [parseFields] at h
  | str s hvalue hrest =>
      rw [parseFields] at h
      · simp at h
      · rintro fuel' key ts₁ - heq
        obtain ⟨-, rfl⟩ := List.cons.inj heq
        exact hvalue rfl
  | @other t ts ts' hother hatoms hrest =>
      rw [parseFields] at h
      · simp at h
      · rintro fuel' key ts₁ - heq
        exact hother key (List.cons.inj heq).1
  | key s hrest₀ =>
      rw [parseFields] at h ⊢
      obtain ⟨⟨value, rest₁⟩, hvalue, h⟩ := Option.bind_eq_some_iff.mp h
      split at h
      · next _ value' rest' hpair =>
          obtain ⟨rfl, rfl⟩ := Prod.mk.inj hpair
          obtain ⟨⟨fields', rest₂⟩, hfields, heq⟩ := Option.bind_eq_some_iff.mp h
          obtain ⟨rfl, rfl⟩ := Prod.mk.inj (Option.some.inj heq)
          obtain ⟨_, hrest, hvalue'⟩ := ih.value _ _ _ _ hrest₀ hvalue (by simp)
          obtain ⟨tail, rfl, htail⟩ := hrest.of_cons (by simp)
          obtain ⟨rest', hrest', hfields'⟩ := ih.fields _ _ _ _ htail hfields
          refine ⟨rest', hrest', ?_⟩
          rw [hvalue', Json.mapFields]
          simp [hfields']
      · next _ value' rest' hpair =>
          obtain ⟨rfl, rfl⟩ := Prod.mk.inj hpair
          obtain ⟨rfl, rfl⟩ := Prod.mk.inj (Option.some.inj h)
          obtain ⟨_, hrest, hvalue'⟩ := ih.value _ _ _ _ hrest₀ hvalue (by simp)
          obtain ⟨tail, rfl, htail⟩ := hrest.of_cons (by simp)
          refine ⟨tail, htail, ?_⟩
          rw [hvalue', Json.mapFields, Json.mapFields]
          rfl
      · simp at h

private theorem parsesRefilled (fuel : Nat) : ParsesRefilled f number number' fuel := by
  induction fuel with
  | zero =>
      constructor
      · intro ts ts' j rest _ h
        simp [parseValue] at h
      · intro ts ts' items rest _ h
        simp [parseItems] at h
      · intro ts ts' fields rest _ h
        simp [parseFields] at h
  | succ fuel ih =>
      constructor
      · intro ts ts' j rest hts h hcolon
        exact parseValue_refilled ih hts h hcolon
      · intro ts ts' items rest hts h
        exact parseItems_refilled ih hts h
      · intro ts ts' fields rest hts h
        exact parseFields_refilled ih hts h

theorem parseJson_refilled (h : Refilled f number number' ts ts') {j : Json}
    (hparse : parseJson number ts = some j) : parseJson number' ts' = some (j.mapStrings f) := by
  unfold parseJson at hparse ⊢
  split at hparse
  · next j' hvalue =>
      obtain rfl := Option.some.inj hparse
      obtain ⟨rest', hrest, hvalue'⟩ := (parsesRefilled _).value _ _ _ _ h hvalue nofun
      cases hrest
      rw [h.length_eq, hvalue']
  · simp at hparse

end

end NotificationPlatform

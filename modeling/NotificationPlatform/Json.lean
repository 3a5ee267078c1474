import Mathlib.Data.List.Nodup

/-!
# JSON values and Go maps

Text encoding and `jsonb` storage are taken to round-trip JSON values, so a `jsonb` column and
a decoded body both hold the value itself. What Go's encoder and decoder do around the values
(struct fields, nil maps, ignored decoding errors) is modelled where it is used.
-/

namespace NotificationPlatform

/-- A JSON value; a number is the rational it denotes. -/
inductive Json where
  | null
  | bool (b : Bool)
  | num (q : Rat)
  | str (s : String)
  | arr (items : List Json)
  | obj (fields : List (String × Json))

def setField : List (String × Json) → String → Json → List (String × Json)
  | [], key, value => [(key, value)]
  | field :: rest, key, value =>
      if field.1 = key then (key, value) :: rest else field :: setField rest key value

theorem keys_setField (fields : List (String × Json)) (key : String) (value : Json) :
    (setField fields key value).map Prod.fst =
      if key ∈ fields.map Prod.fst then fields.map Prod.fst
      else fields.map Prod.fst ++ [key] := by
  induction fields with
  | nil => simp [setField]
  | cons field rest ih =>
      by_cases hkey : field.1 = key
      · simp [setField, hkey]
      · have hkey' : key ≠ field.1 := fun h => hkey h.symm
        simp only [setField, if_neg hkey, List.map_cons, ih, List.mem_cons, hkey', false_or]
        split <;> simp

/-- A Go `map[string]any`: fields under distinct keys. -/
structure JsonMap where
  fields : List (String × Json)
  nodup : (fields.map Prod.fst).Nodup

namespace JsonMap

def empty : JsonMap := ⟨[], List.nodup_nil⟩

def get? (m : JsonMap) (key : String) : Option Json :=
  (m.fields.find? (fun field => field.1 == key)).map Prod.snd

def set (m : JsonMap) (key : String) (value : Json) : JsonMap :=
  ⟨setField m.fields key value, by
    rw [keys_setField]
    split
    · exact m.nodup
    · next hkey => simpa [List.nodup_append] using
        ⟨m.nodup, fun a b hab hak => hkey (List.mem_map.mpr ⟨(a, b), hab, hak⟩)⟩⟩

def setAll (m : JsonMap) (fields : List (String × Json)) : JsonMap :=
  fields.foldl (fun m field => m.set field.1 field.2) m

theorem ext {m n : JsonMap} (h : m.fields = n.fields) : m = n := by
  cases m
  cases n
  simpa using h

private theorem setField_of_notMem {fields : List (String × Json)} {key : String} (value : Json)
    (h : key ∉ fields.map Prod.fst) :
    setField fields key value = fields ++ [(key, value)] := by
  induction fields with
  | nil => rfl
  | cons field rest ih =>
      simp only [List.map_cons, List.mem_cons, not_or] at h
      rw [setField, if_neg (fun hk => h.1 hk.symm), ih h.2, List.cons_append]

private theorem fields_setAll (m : JsonMap) (fields : List (String × Json))
    (h : ((m.fields ++ fields).map Prod.fst).Nodup) :
    (m.setAll fields).fields = m.fields ++ fields := by
  induction fields generalizing m with
  | nil => simp [setAll]
  | cons field rest ih =>
      have hnd : (m.fields.map Prod.fst ++ field.1 :: rest.map Prod.fst).Nodup := by
        simpa using h
      have hnew : field.1 ∉ m.fields.map Prod.fst := fun hmem =>
        (List.nodup_append.mp hnd).2.2 field.1 hmem field.1 (by simp) rfl
      have hset : (m.set field.1 field.2).fields = m.fields ++ [field] :=
        setField_of_notMem field.2 hnew
      have hrest := ih (m.set field.1 field.2) (by rw [hset]; simpa using h)
      rw [hset] at hrest
      simpa [setAll] using hrest

theorem setAll_empty (m : JsonMap) : empty.setAll m.fields = m :=
  ext (fields_setAll empty m.fields (by simpa [empty] using m.nodup))

theorem find?_setField (fields : List (String × Json)) (key other : String)
    (value : Json) :
    ((setField fields key value).find? fun field => field.1 == other).map Prod.snd =
      if key = other then some value
      else (fields.find? fun field => field.1 == other).map Prod.snd := by
  induction fields with
  | nil => by_cases h : key = other <;> simp [setField, h]
  | cons field rest ih =>
      by_cases hkey : field.1 = key
      · by_cases h : key = other <;> simp [setField, hkey, h]
      · rw [setField, if_neg hkey]
        by_cases hother : field.1 = other
        · have hne : key ≠ other := fun h => hkey (hother.trans h.symm)
          simp [hother, hne]
        · simpa [List.find?_cons, hother] using ih

theorem get?_set (m : JsonMap) (key other : String) (value : Json) :
    (m.set key value).get? other = if key = other then some value else m.get? other :=
  find?_setField m.fields key other value

theorem get?_setAll_of_notMem {m : JsonMap} {fields : List (String × Json)} {key : String}
    (h : key ∉ fields.map Prod.fst) : (m.setAll fields).get? key = m.get? key := by
  induction fields generalizing m with
  | nil => rfl
  | cons field rest ih =>
      simp only [List.map_cons, List.mem_cons, not_or] at h
      have htail := ih (m := m.set field.1 field.2) h.2
      rw [get?_set, if_neg (fun hkey => h.1 hkey.symm)] at htail
      exact htail

theorem get?_setAll_of_mem {m : JsonMap} {fields : List (String × Json)} {key : String}
    {value : Json} (hnd : (fields.map Prod.fst).Nodup) (hmem : (key, value) ∈ fields) :
    (m.setAll fields).get? key = some value := by
  induction fields generalizing m with
  | nil => simp at hmem
  | cons field rest ih =>
      have hcons : (field.1 :: rest.map Prod.fst).Nodup := hnd
      have hnot := (List.nodup_cons.mp hcons).1
      rcases List.mem_cons.mp hmem with rfl | hmem
      · have hfirst := get?_setAll_of_notMem (m := m.set key value) hnot
        rw [get?_set, if_pos rfl] at hfirst
        exact hfirst
      · exact ih (m := m.set field.1 field.2) (List.nodup_cons.mp hcons).2 hmem

theorem mem_fields_of_get? {m : JsonMap} {key : String} {value : Json}
    (h : m.get? key = some value) : (key, value) ∈ m.fields := by
  obtain ⟨field, hfield, rfl⟩ := Option.map_eq_some_iff.mp h
  have hkey : field.1 = key := by simpa using List.find?_some hfield
  have hmem := List.mem_of_find?_eq_some hfield
  rw [← hkey]
  exact hmem

end JsonMap

abbrev GoMap := Option JsonMap

def GoMap.fields : GoMap → List (String × Json)
  | none => []
  | some m => m.fields

def GoMap.toJson : GoMap → Json
  | none => .null
  | some m => .obj m.fields

/-- `json.Unmarshal` into a nil `map[string]any`, with a decoding error ignored. -/
def GoMap.ofJson : Json → GoMap
  | .obj fields => some (JsonMap.empty.setAll fields)
  | _ => none

theorem GoMap.ofJson_toJson (m : GoMap) : GoMap.ofJson m.toJson = m := by
  cases m with
  | none => rfl
  | some m => exact congrArg some m.setAll_empty

/-- `jsonb_set(target, '{key}', value)`; it is an error on a value that is not an object. -/
def jsonbSet (target : Json) (key : String) (value : Json) : Option Json :=
  match target with
  | .obj fields => some (.obj (setField fields key value))
  | _ => none

def Json.field? (name : String) : Json → Option Json
  | .obj fields => (fields.find? (fun field => field.1 == name)).map Prod.snd
  | _ => none

theorem Json.field?_setField (fields : List (String × Json)) (key other : String) (value : Json) :
    (Json.obj (setField fields key value)).field? other =
      if key = other then some value else (Json.obj fields).field? other :=
  JsonMap.find?_setField fields key other value

/-- Decode into a Go `string`: the zero value when the field is missing or of another type. -/
def Json.toString : Option Json → String
  | some (.str s) => s
  | _ => ""

def Json.toInt : Option Json → Int
  | some (.num q) => if q.den = 1 then q.num else 0
  | _ => 0

/-- Decode into a Go `[]string`; an element of another type is left at its zero value. -/
def Json.toStrings : Option Json → List String
  | some (.arr items) => items.map (fun item => Json.toString (some item))
  | _ => []

def Json.ofStrings (items : List String) : Json := .arr (items.map .str)

theorem Json.toStrings_ofStrings (items : List String) :
    Json.toStrings (some (Json.ofStrings items)) = items := by
  simp [Json.toStrings, Json.ofStrings, Json.toString, List.map_map, Function.comp_def]

end NotificationPlatform

import NotificationPlatform.NotificationDetail

/-!
# What is shown of a provider's response

A response is redacted before it is shown, and its text decides how a failure is classified. Two
responses that differ in secrets only look alike where the secrets lie in maps; a map inside an
array is shown as it is. The classification looks for words before it looks at the status.
-/

namespace NotificationPlatform

open Lib

namespace Json

/-- Equal but for the values under hidden keys, at any depth. The order of fields does not count. -/
inductive Agree (hidden : String → Bool) : Json → Json → Prop
  | null : Agree hidden .null .null
  | bool (b : Bool) : Agree hidden (.bool b) (.bool b)
  | num (q : Rat) : Agree hidden (.num q) (.num q)
  | str (s : String) : Agree hidden (.str s) (.str s)
  | arr {items other : List Json} (hlength : items.length = other.length)
      (hitems : ∀ (i : Nat) (v w : Json), items[i]? = some v → other[i]? = some w →
        Agree hidden v w) :
      Agree hidden (.arr items) (.arr other)
  | obj {fields other : List (String × Json)}
      (hkeys : ∀ key, (field? key (.obj fields)).isSome = (field? key (.obj other)).isSome)
      (hvalues : ∀ key, hidden key = false → ∀ v w, field? key (.obj fields) = some v →
        field? key (.obj other) = some w → Agree hidden v w) :
      Agree hidden (.obj fields) (.obj other)

def Same : Json → Json → Prop := Agree fun _ => false

/-- Equal but for the values under hidden keys that are reached through maps alone. -/
inductive AgreeInMaps (hidden : String → Bool) : Json → Json → Prop
  | same {v w : Json} (h : Same v w) : AgreeInMaps hidden v w
  | obj {fields other : List (String × Json)}
      (hkeys : ∀ key, (field? key (.obj fields)).isSome = (field? key (.obj other)).isSome)
      (hvalues : ∀ key, hidden key = false → ∀ v w, field? key (.obj fields) = some v →
        field? key (.obj other) = some w → AgreeInMaps hidden v w) :
      AgreeInMaps hidden (.obj fields) (.obj other)

end Json

section

variable {x : Texts}

/-- The keys under which `RedactMap` hides the value. -/
def hiddenKey (x : Texts) (key : String) : Bool := containsSecretKey (x.lowerText key)

theorem field?_redactMap_eq (fields : List (String × Json)) (key : String) :
    Json.field? key (.obj (redactMap x fields)) =
      (Json.field? key (.obj fields)).map fun value =>
        if hiddenKey x key then .str "[REDACTED]" else redactValue x value := by
  induction fields with
  | nil => simp [redactMap, Json.field?]
  | cons field rest ih =>
      obtain ⟨k, value⟩ := field
      by_cases hk : k = key
      · subst hk
        simp only [redactMap, Json.field?, List.find?_cons, beq_self_eq_true, Option.map_some]
        rfl
      · simpa [redactMap, Json.field?, List.find?_cons, hk] using ih

private theorem isSome_redactMap (fields : List (String × Json)) (key : String) :
    (Json.field? key (.obj (redactMap x fields))).isSome =
      (Json.field? key (.obj fields)).isSome := by
  rw [field?_redactMap_eq, Option.isSome_map]

private theorem field?_of_shown {fields : List (String × Json)} {key : String} {v : Json}
    (hkey : hiddenKey x key = false) (h : Json.field? key (.obj fields) = some v) :
    Json.field? key (.obj (redactMap x fields)) = some (redactValue x v) := by
  rw [field?_redactMap_eq, h, Option.map_some, hkey, if_neg Bool.false_ne_true]

private theorem same_redactMap {fields other : List (String × Json)}
    (hkeys : ∀ key, (Json.field? key (.obj fields)).isSome = (Json.field? key (.obj other)).isSome)
    (hvalues : ∀ key, hiddenKey x key = false → ∀ v w, Json.field? key (.obj fields) = some v →
      Json.field? key (.obj other) = some w → Json.Same (redactValue x v) (redactValue x w)) :
    Json.Same (.obj (redactMap x fields)) (.obj (redactMap x other)) := by
  apply Json.Agree.obj
  · intro key
    rw [isSome_redactMap, isSome_redactMap]
    exact hkeys key
  · intro key _ v w hv hw
    rw [field?_redactMap_eq, Option.map_eq_some_iff] at hv hw
    obtain ⟨v, hv, rfl⟩ := hv
    obtain ⟨w, hw, rfl⟩ := hw
    cases hkey : hiddenKey x key with
    | true => exact Json.Agree.str "[REDACTED]"
    | false => exact hvalues key hkey v w hv hw

theorem Json.Same.redact {v w : Json} (h : Json.Same v w) :
    Json.Same (redactValue x v) (redactValue x w) := by
  induction h with
  | null => exact .null
  | bool b => exact .bool b
  | num q => exact .num q
  | str s => exact .str s
  | arr hlength hitems => exact .arr hlength hitems
  | obj hkeys hvalues ih => exact same_redactMap hkeys fun key _ => ih key rfl

theorem Json.AgreeInMaps.redact {v w : Json} (h : Json.AgreeInMaps (hiddenKey x) v w) :
    Json.Same (redactValue x v) (redactValue x w) := by
  induction h with
  | same h => exact h.redact
  | obj hkeys hvalues ih => exact same_redactMap hkeys ih

private theorem eq_of_redactValue {v u : Json} (h : u = redactValue x v)
    (hu : ∀ fields, u ≠ .obj fields) : v = u := by
  cases v with
  | obj fields =>
      rw [redactValue] at h
      exact absurd h (hu _)
  | _ =>
      rw [h, redactValue]
      simp

private theorem obj_of_redactValue {v : Json} {fields : List (String × Json)}
    (h : .obj fields = redactValue x v) : ∃ inner, v = .obj inner ∧ fields = redactMap x inner := by
  cases v with
  | obj inner =>
      rw [redactValue] at h
      exact ⟨inner, rfl, Json.obj.inj h⟩
  | _ => simp [redactValue] at h

private theorem agreeInMaps_of_shown {u u' v w : Json} (h : Json.Same u u')
    (hu : ∀ fields, u ≠ .obj fields) (hu' : ∀ fields, u' ≠ .obj fields)
    (hv : u = redactValue x v) (hw : u' = redactValue x w) :
    Json.AgreeInMaps (hiddenKey x) v w := by
  rw [eq_of_redactValue hv hu, eq_of_redactValue hw hu']
  exact .same h

theorem agreeInMaps_of_redact {u u' : Json} (h : Json.Same u u') :
    ∀ v w, u = redactValue x v → u' = redactValue x w → Json.AgreeInMaps (hiddenKey x) v w := by
  induction h with
  | null => exact fun v w => agreeInMaps_of_shown .null (by simp) (by simp)
  | bool b => exact fun v w => agreeInMaps_of_shown (.bool b) (by simp) (by simp)
  | num q => exact fun v w => agreeInMaps_of_shown (.num q) (by simp) (by simp)
  | str s => exact fun v w => agreeInMaps_of_shown (.str s) (by simp) (by simp)
  | arr hlength hitems =>
      exact fun v w => agreeInMaps_of_shown (.arr hlength hitems) (by simp) (by simp)
  | obj hkeys _ ih =>
      intro v w hv hw
      obtain ⟨fields, rfl, rfl⟩ := obj_of_redactValue hv
      obtain ⟨other, rfl, rfl⟩ := obj_of_redactValue hw
      apply Json.AgreeInMaps.obj
      · intro key
        have hkey := hkeys key
        rw [isSome_redactMap, isSome_redactMap] at hkey
        exact hkey
      · intro key hkey v w hv hw
        exact ih key rfl _ _ (field?_of_shown hkey hv) (field?_of_shown hkey hw) v w rfl rfl

theorem same_redactValue_iff {v w : Json} :
    Json.Same (redactValue x v) (redactValue x w) ↔ Json.AgreeInMaps (hiddenKey x) v w :=
  ⟨fun h => agreeInMaps_of_redact h v w rfl rfl, Json.AgreeInMaps.redact⟩

/-- Two objects that agree but for secrets are redacted alike just when they agree so in maps
alone; the same holds of what is stored. -/
theorem redaction_hides_iff (fields other : List (String × Json)) :
    (Json.Agree (hiddenKey x) (.obj fields) (.obj other) →
      Json.Same (.obj (redactMap x fields)) (.obj (redactMap x other)) ∧
        Json.Same (redactJSON x (.obj fields)) (redactJSON x (.obj other))) ↔
      (Json.Agree (hiddenKey x) (.obj fields) (.obj other) →
        Json.AgreeInMaps (hiddenKey x) (.obj fields) (.obj other)) := by
  have hiff : Json.Same (.obj (redactMap x fields)) (.obj (redactMap x other)) ↔
      Json.AgreeInMaps (hiddenKey x) (.obj fields) (.obj other) := by
    have hvalue := @same_redactValue_iff x (.obj fields) (.obj other)
    rwa [redactValue, redactValue] at hvalue
  constructor
  · intro h hagree
    exact hiff.mp (h hagree).1
  · intro h hagree
    have hsame := hiff.mpr (h hagree)
    exact ⟨hsame, hsame⟩

end

def tokenInItems (token : String) : List (String × Json) :=
  [("items", .arr [.obj [("token", .str token)]])]

private theorem field?_single (key other : String) (value : Json) :
    Json.field? other (.obj [(key, value)]) = if key = other then some value else none := by
  by_cases hkey : key = other <;> simp [Json.field?, hkey]

private theorem agree_single {hidden : String → Bool} (key : String) {v w : Json}
    (h : hidden key = false → Json.Agree hidden v w) :
    Json.Agree hidden (.obj [(key, v)]) (.obj [(key, w)]) := by
  apply Json.Agree.obj
  · intro other
    rw [field?_single, field?_single]
    split <;> rfl
  · intro other hother v' w' hv hw
    rw [field?_single] at hv hw
    split at hv
    · next hkey =>
        rw [if_pos hkey] at hw
        obtain rfl := Option.some.inj hv
        obtain rfl := Option.some.inj hw
        exact h (by rw [hkey]; exact hother)
    · simp at hv

private theorem agree_item {hidden : String → Bool} {v w : Json} (h : Json.Agree hidden v w) :
    Json.Agree hidden (.arr [v]) (.arr [w]) := by
  apply Json.Agree.arr
  · rfl
  · intro i v' w' hv hw
    cases i with
    | zero =>
        obtain rfl := Option.some.inj hv
        obtain rfl := Option.some.inj hw
        exact h
    | succ i => simp at hv

private theorem same_of_single {key : String} {v w : Json}
    (h : Json.Same (.obj [(key, v)]) (.obj [(key, w)])) : Json.Same v w := by
  cases h with
  | obj hkeys hvalues =>
      exact hvalues key rfl v w (by simp [Json.field?]) (by simp [Json.field?])

private theorem same_of_item {v w : Json} (h : Json.Same (.arr [v]) (.arr [w])) :
    Json.Same v w := by
  cases h with
  | arr hlength hitems => exact hitems 0 v w rfl rfl

private theorem eq_of_same_str {s t : String} (h : Json.Same (.str s) (.str t)) : s = t := by
  cases h
  rfl

private theorem not_same_tokens :
    ¬ Json.Same (.arr [.obj [("token", .str "a")]]) (.arr [.obj [("token", .str "b")]]) := by
  intro h
  have htexts : "a" = "b" := eq_of_same_str (same_of_single (same_of_item h))
  exact absurd htexts (by decide)

/-- The tokens of two such objects can be told apart after the redaction. -/
theorem redaction_shows_items : ¬ ∀ fields other : List (String × Json),
    Json.Agree (hiddenKey sampleTexts) (.obj fields) (.obj other) →
      Json.Same (.obj (redactMap sampleTexts fields)) (.obj (redactMap sampleTexts other)) ∧
        Json.Same (redactJSON sampleTexts (.obj fields)) (redactJSON sampleTexts (.obj other)) := by
  intro hclaim
  have hagree : Json.Agree (hiddenKey sampleTexts) (.obj (tokenInItems "a"))
      (.obj (tokenInItems "b")) := by
    apply agree_single
    intro _
    apply agree_item
    apply agree_single
    intro htoken
    exact absurd htoken (by decide)
  have hredacted := (hclaim _ _ hagree).1
  have hmaps := agreeInMaps_of_redact hredacted (.obj (tokenInItems "a"))
    (.obj (tokenInItems "b")) (by rw [redactValue]) (by rw [redactValue])
  cases hmaps with
  | same h => exact not_same_tokens (same_of_single h)
  | obj hkeys hvalues =>
      have hitems := hvalues "items" (by decide) _ _ rfl rfl
      cases hitems with
      | same h => exact not_same_tokens h

/-- `strings.EqualFold` tells small letters apart. -/
def FoldsApart (x : Texts) : Prop :=
  ∀ c d, 'a' ≤ c ∧ c ≤ 'z' → 'a' ≤ d ∧ d ≤ 'z' → x.fold c = x.fold d → c = d

/-- The text that `Normalize` searches holds one of its words. -/
def TellsFailure (x : Texts) (providerCode message : String) : Prop :=
  ∃ entry ∈ failureWords, ∃ word ∈ entry.1,
    contains (x.lowerText (trimSpace (providerCode ++ " " ++ message))) word = true

section

variable {x : Texts} {status providerCode message : String}

private theorem code_ne_none {entry : List String × Classification} (h : entry ∈ failureWords) :
    entry.2.code ≠ "NONE" := by
  have hall : failureWords.all (fun entry => entry.2.code ≠ "NONE") = true := by decide
  simpa using List.all_eq_true.mp hall entry h

private theorem find?_failureWords_isSome :
    (failureWords.find? fun entry => entry.1.any
      (contains (x.lowerText (trimSpace (providerCode ++ " " ++ message))))).isSome ↔
      TellsFailure x providerCode message := by
  simp only [List.find?_isSome, List.any_eq_true, TellsFailure]

theorem normalize_of_tellsFailure (status : String) (h : TellsFailure x providerCode message) :
    (normalize x status providerCode message).code ≠ "NONE" := by
  obtain ⟨entry, hfind⟩ := Option.isSome_iff_exists.mp (find?_failureWords_isSome.mpr h)
  unfold normalize
  simp only [hfind]
  exact code_ne_none (List.mem_of_find?_eq_some hfind)

theorem normalize_of_not_tellsFailure (status : String)
    (h : ¬ TellsFailure x providerCode message) :
    (normalize x status providerCode message).code = "NONE" ↔
      x.equalFold status "dead" = false ∧ x.equalFold status "failed" = false := by
  have hfind := Option.not_isSome_iff_eq_none.mp (mt find?_failureWords_isSome.mp h)
  unfold normalize
  simp only [hfind]
  cases hdead : x.equalFold status "dead" <;> cases hfailed : x.equalFold status "failed" <;>
    simp

@[simp] private theorem equalFold_self (s : String) : x.equalFold s s = true := by
  simp [Texts.equalFold]

/-- A sent message is classified as no failure just when its texts hold none of the words; a dead
or failed one never is. -/
theorem normalize_sent_iff (h : FoldsApart x) (providerCode message : String) :
    ((normalize x "sent" providerCode message).code = "NONE" ∧
      (normalize x "dead" providerCode message).code ≠ "NONE" ∧
      (normalize x "failed" providerCode message).code ≠ "NONE") ↔
    ¬ TellsFailure x providerCode message := by
  have hdead : x.equalFold "sent" "dead" = false := by
    have hne : x.fold 's' ≠ x.fold 'd' := fun heq =>
      absurd (h 's' 'd' (by decide) (by decide) heq) (by decide)
    simp [Texts.equalFold, hne]
  have hfailed : x.equalFold "sent" "failed" = false := by simp [Texts.equalFold]
  constructor
  · intro ⟨hnone, _⟩ htells
    exact normalize_of_tellsFailure "sent" htells hnone
  · intro hnot
    refine ⟨(normalize_of_not_tellsFailure "sent" hnot).mpr ⟨hdead, hfailed⟩, ?_, ?_⟩
    · intro hnone
      simp [normalize_of_not_tellsFailure "dead" hnot] at hnone
    · intro hnone
      simp [normalize_of_not_tellsFailure "failed" hnot] at hnone

end

private theorem sampleTexts_foldsApart : FoldsApart sampleTexts := by
  intro c d hc hd h
  have hcLower : sampleTexts.fold c = c := sampleTexts_lowers c (.inl hc)
  have hdLower : sampleTexts.fold d = d := sampleTexts_lowers d (.inl hd)
  rwa [hcLower, hdLower] at h

/-- An answer of the mock provider whose message id tells nothing. -/
theorem normalize_sent_quiet :
    (normalize sampleTexts "sent" "mock_sms_1712345678000000000"
      "\x7b\"provider\": \"mock\", \"simulated\": true\x7d").code = "NONE" := by
  apply ((normalize_sent_iff sampleTexts_foldsApart _ _).mpr _).1
  rintro ⟨entry, hentry, word, hword, hin⟩
  have hall : failureWords.all (fun entry => entry.1.all fun word => !contains
      (sampleTexts.lowerText (trimSpace ("mock_sms_1712345678000000000" ++ " " ++
        "\x7b\"provider\": \"mock\", \"simulated\": true\x7d"))) word) = true := by
    simp only [contains, Texts.lowerText, trimSpace, String.toList_append, String.toList_ofList]
    decide +kernel
  have hout := List.all_eq_true.mp (List.all_eq_true.mp hall entry hentry) word hword
  rw [hin] at hout
  exact absurd hout (by decide)

/-- The digits of the time in a message id of the mock provider may hold `429`. -/
theorem normalize_sent_limited :
    (normalize sampleTexts "sent" "mock_sms_1712429000000000000"
      "\x7b\"provider\": \"mock\", \"simulated\": true\x7d").code ≠ "NONE" := by
  have hlimited : (["quota", "limit", "429"], _) ∈ failureWords :=
    List.mem_cons_of_mem _ List.mem_cons_self
  refine normalize_of_tellsFailure "sent" ⟨_, hlimited, "429", by decide, ?_⟩
  simp only [contains, Texts.lowerText, trimSpace, String.toList_append, String.toList_ofList]
  decide +kernel

end NotificationPlatform

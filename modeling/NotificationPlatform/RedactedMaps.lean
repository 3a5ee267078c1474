import NotificationPlatform.ShownResponses
import NotificationPlatform.Lib.Cells

/-!
# Redaction of nested maps

A path of keys leads from an object through the maps inside it. What `RedactMap` does is said
along paths: where no key of a path is hidden it keeps the levels and the values, and where a path
first meets a hidden key it ends in the marker. The loop itself is modelled over cells, as a Go map
is a reference: it writes to maps it has made and to no other.
-/

namespace NotificationPlatform

open Lib

def Json.at? : List String → Json → Option Json
  | [], value => some value
  | key :: path, value => (value.field? key).bind (Json.at? path)

def levelKeys (fields : List (String × Json)) : List String := fields.map Prod.fst

def ShownPath (x : Texts) (path : List String) : Prop := ∀ key ∈ path, hiddenKey x key = false

section

variable {x : Texts}

theorem Json.at?_append (path rest : List String) (value : Json) :
    (value.at? (path ++ rest)) = (value.at? path).bind (Json.at? rest) := by
  induction path generalizing value with
  | nil => rfl
  | cons key path ih =>
      simp only [List.cons_append, Json.at?, Option.bind_assoc]
      exact congrArg _ (funext ih)

theorem redactValue_of_not_object {value : Json} (h : value.isObject = false) :
    redactValue x value = value := by
  cases value with
  | obj fields => simp [Json.isObject] at h
  | _ => rfl

theorem levelKeys_redactMap (fields : List (String × Json)) :
    levelKeys (redactMap x fields) = levelKeys fields := by
  induction fields with
  | nil => simp [redactMap, levelKeys]
  | cons field rest ih =>
      obtain ⟨key, value⟩ := field
      simp only [levelKeys] at ih
      simp only [redactMap, levelKeys, List.map_cons, ih]

private theorem field?_redactValue {key : String} (hkey : hiddenKey x key = false) (value : Json) :
    (redactValue x value).field? key = (value.field? key).map (redactValue x) := by
  cases value with
  | obj fields =>
      rw [redactValue, field?_redactMap_eq]
      simp [hkey]
  | _ => rfl

theorem at?_redactValue {path : List String} (h : ShownPath x path) (value : Json) :
    (redactValue x value).at? path = (value.at? path).map (redactValue x) := by
  induction path generalizing value with
  | nil => rfl
  | cons key path ih =>
      have hkey : hiddenKey x key = false := h key List.mem_cons_self
      have hrest : ShownPath x path := fun other hmem => h other (List.mem_cons_of_mem _ hmem)
      rw [Json.at?, Json.at?, field?_redactValue hkey]
      cases value.field? key with
      | none => rfl
      | some inner => exact ih hrest inner

theorem at?_hidden {path : List String} {key : String} {value found : Json}
    (hpath : ShownPath x path) (hkey : hiddenKey x key = true)
    (h : value.at? (path ++ [key]) = some found) :
    (redactValue x value).at? (path ++ [key]) = some (.str "[REDACTED]") := by
  rw [Json.at?_append] at h ⊢
  rw [at?_redactValue hpath]
  obtain ⟨level, hlevel, hfound⟩ := Option.bind_eq_some_iff.mp h
  rw [hlevel, Option.map_some, Option.bind_some]
  obtain ⟨inner, hinner, -⟩ := Option.bind_eq_some_iff.mp hfound
  cases level with
  | obj fields =>
      rw [redactValue, Json.at?, field?_redactMap_eq, hinner]
      simp [hkey, Json.at?]
  | _ => simp [Json.field?] at hinner

theorem shownPath_of_object {path : List String} {value : Json} {level : List (String × Json)}
    (h : (redactValue x value).at? path = some (.obj level)) : ShownPath x path := by
  induction path generalizing value with
  | nil => simp [ShownPath]
  | cons key path ih =>
      obtain ⟨inner, hinner, hlevel⟩ := Option.bind_eq_some_iff.mp h
      cases value with
      | obj fields =>
          rw [redactValue, field?_redactMap_eq] at hinner
          obtain ⟨original, -, rfl⟩ := Option.map_eq_some_iff.mp hinner
          cases hkey : hiddenKey x key with
          | true =>
              -- the marker is a text, and no path leads on from it
              rw [hkey, if_pos rfl] at hlevel
              cases path with
              | nil => simp [Json.at?] at hlevel
              | cons other rest => simp [Json.at?, Json.field?] at hlevel
          | false =>
              rw [hkey, if_neg Bool.false_ne_true] at hlevel
              exact List.forall_mem_cons.mpr ⟨hkey, ih hlevel⟩
      | _ => simp [redactValue, Json.field?] at hinner

mutual

theorem redactValue_idem : ∀ value : Json, redactValue x (redactValue x value) = redactValue x value
  | .obj fields => by rw [redactValue, redactValue, redactMap_idem fields]
  | .null | .bool _ | .num _ | .str _ | .arr _ => rfl

theorem redactMap_idem : ∀ fields : List (String × Json),
    redactMap x (redactMap x fields) = redactMap x fields
  | [] => by simp only [redactMap]
  | (key, value) :: rest => by
      rw [redactMap, redactMap, redactMap_idem rest]
      cases containsSecretKey (x.lowerText key) with
      | true => rfl
      | false => simp only [Bool.false_eq_true, if_false, redactValue_idem value]

end

end

/-- A Go value of type `any`, as `json.Unmarshal` makes them: a slice and a map are references. -/
inductive GoValue where
  | null
  | bool (b : Bool)
  | num (q : Rat)
  | str (s : String)
  | slice (address : Nat)
  | map (address : Nat)

/-- The entries of a map, under distinct keys, in the order in which a loop visits them. -/
structure MapCell where
  entries : List (String × GoValue)
  nodup : (entries.map Prod.fst).Nodup

namespace MapCell

def empty : MapCell := ⟨[], List.nodup_nil⟩

private theorem keys_replace (entries : List (String × GoValue)) (key : String) (value : GoValue) :
    (entries.map fun e => if e.1 = key then (key, value) else e).map Prod.fst =
      entries.map Prod.fst := by
  rw [List.map_map]
  apply List.map_congr_left
  intro e _
  by_cases h : e.1 = key <;> simp [h]

def set (m : MapCell) (key : String) (value : GoValue) : MapCell :=
  if h : key ∈ m.entries.map Prod.fst then
    ⟨m.entries.map fun e => if e.1 = key then (key, value) else e, by
      rw [keys_replace]
      exact m.nodup⟩
  else
    ⟨m.entries ++ [(key, value)], by
      rw [List.map_append]
      simpa using List.Nodup.concat h m.nodup⟩

theorem entries_set_new {m : MapCell} {key : String} (h : key ∉ m.entries.map Prod.fst)
    (value : GoValue) : (m.set key value).entries = m.entries ++ [(key, value)] := by
  rw [set, dif_neg h]

end MapCell

inductive Cell where
  | slice (items : List GoValue)
  | map (m : MapCell)

abbrev Heap := List Cell

def Heap.store (heap : Heap) (address : Nat) (key : String) (value : GoValue) : Heap :=
  match heap[address]? with
  | some (.map m) => heap.set address (.map (m.set key value))
  | _ => heap

/-- The loop of `RedactMap`, which fills the map at `out`; `nested` is the call on a map inside. -/
def redactEntries (x : Texts) (nested : Heap → Nat → Option (Nat × Heap)) (out : Nat) :
    List (String × GoValue) → Heap → Option Heap
  | [], heap => some heap
  | (key, value) :: rest, heap =>
      if containsSecretKey (x.lowerText key) then
        redactEntries x nested out rest (heap.store out key (.str "[REDACTED]"))
      else
        match value with
        | .map address => do
            let (copy, heap) ← nested heap address
            redactEntries x nested out rest (heap.store out key (.map copy))
        | value => redactEntries x nested out rest (heap.store out key value)

/-- `RedactMap` on the map at an address: the address of the result and the heap it leaves. A call
takes one unit of fuel for itself and the calls inside. -/
def redactMapAt (x : Texts) : Nat → Heap → Nat → Option (Nat × Heap)
  | 0, _, _ => none
  | fuel + 1, heap, input =>
      match heap[input]? with
      | some (.map m) =>
          (redactEntries x (redactMapAt x fuel) heap.length m.entries
            (heap ++ [.map .empty])).map (heap.length, ·)
      | _ => none

mutual

inductive Holds (look : Nat → Option Cell) : GoValue → Json → Prop
  | null : Holds look .null .null
  | bool (b : Bool) : Holds look (.bool b) (.bool b)
  | num (q : Rat) : Holds look (.num q) (.num q)
  | str (s : String) : Holds look (.str s) (.str s)
  | slice {address : Nat} {items : List GoValue} {values : List Json}
      (hread : look address = some (.slice items)) (hitems : HoldItems look items values) :
      Holds look (.slice address) (.arr values)
  | map {address : Nat} {m : MapCell} {fields : List (String × Json)}
      (hread : look address = some (.map m)) (hfields : HoldFields look m.entries fields) :
      Holds look (.map address) (.obj fields)

inductive HoldItems (look : Nat → Option Cell) : List GoValue → List Json → Prop
  | nil : HoldItems look [] []
  | cons {item : GoValue} {value : Json} {items : List GoValue} {values : List Json}
      (hitem : Holds look item value) (hitems : HoldItems look items values) :
      HoldItems look (item :: items) (value :: values)

inductive HoldFields (look : Nat → Option Cell) :
    List (String × GoValue) → List (String × Json) → Prop
  | nil : HoldFields look [] []
  | cons {key : String} {held : GoValue} {value : Json} {entries : List (String × GoValue)}
      {fields : List (String × Json)} (hheld : Holds look held value)
      (hfields : HoldFields look entries fields) :
      HoldFields look ((key, held) :: entries) ((key, value) :: fields)

end

section

variable {look other : Nat → Option Cell}

mutual

theorem Holds.mono (h : Cells.Within look other) {held : GoValue} {value : Json} :
    Holds look held value → Holds other held value
  | .null => .null
  | .bool b => .bool b
  | .num q => .num q
  | .str s => .str s
  | .slice hread hitems => .slice (h _ _ hread) (hitems.mono h)
  | .map hread hfields => .map (h _ _ hread) (hfields.mono h)

theorem HoldItems.mono (h : Cells.Within look other) {items : List GoValue} {values : List Json} :
    HoldItems look items values → HoldItems other items values
  | .nil => .nil
  | .cons hitem hitems => .cons (hitem.mono h) (hitems.mono h)

theorem HoldFields.mono (h : Cells.Within look other) {entries : List (String × GoValue)}
    {fields : List (String × Json)} :
    HoldFields look entries fields → HoldFields other entries fields
  | .nil => .nil
  | .cons hheld hfields => .cons (hheld.mono h) (hfields.mono h)

end

theorem HoldFields.keys {entries : List (String × GoValue)} {fields : List (String × Json)}
    (h : HoldFields look entries fields) : entries.map Prod.fst = levelKeys fields := by
  induction entries generalizing fields with
  | nil =>
      cases h
      rfl
  | cons entry entries ih =>
      cases h with
      | cons hheld hfields => rw [List.map_cons, ih hfields, levelKeys, levelKeys, List.map_cons]

theorem HoldFields.concat {entries : List (String × GoValue)} {fields : List (String × Json)}
    (h : HoldFields look entries fields) (key : String) {held : GoValue} {value : Json}
    (hheld : Holds look held value) :
    HoldFields look (entries ++ [(key, held)]) (fields ++ [(key, value)]) := by
  induction entries generalizing fields with
  | nil =>
      cases h
      exact .cons hheld .nil
  | cons entry entries ih =>
      cases h with
      | cons hfirst hfields => exact .cons hfirst (ih hfields)

end

mutual

/-- No object inside has a key twice, as in what `json.Unmarshal` makes. -/
def Json.DistinctKeys : Json → Prop
  | .arr items => DistinctKeysAll items
  | .obj fields => (levelKeys fields).Nodup ∧ DistinctKeysUnder fields
  | _ => True

def DistinctKeysAll : List Json → Prop
  | [] => True
  | value :: rest => value.DistinctKeys ∧ DistinctKeysAll rest

def DistinctKeysUnder : List (String × Json) → Prop
  | [] => True
  | (_, value) :: rest => value.DistinctKeys ∧ DistinctKeysUnder rest

end

mutual

theorem exists_holds : ∀ (value : Json) (_ : value.DistinctKeys) (heap : Heap),
    ∃ later held, heap <+: later ∧ Holds (fun i => later[i]?) held value
  | .null, _, heap => ⟨heap, .null, List.prefix_rfl, .null⟩
  | .bool b, _, heap => ⟨heap, .bool b, List.prefix_rfl, .bool b⟩
  | .num q, _, heap => ⟨heap, .num q, List.prefix_rfl, .num q⟩
  | .str s, _, heap => ⟨heap, .str s, List.prefix_rfl, .str s⟩
  | .arr values, h, heap => by
      rw [Json.DistinctKeys] at h
      obtain ⟨later, items, hlonger, hitems⟩ := exists_holdItems values h heap
      have hgrown : later <+: later ++ [.slice items] := List.prefix_append _ _
      exact ⟨later ++ [.slice items], .slice later.length, hlonger.trans hgrown,
        .slice (by simp) (hitems.mono (Cells.within_of_longer hgrown))⟩
  | .obj fields, h, heap => by
      rw [Json.DistinctKeys] at h
      obtain ⟨later, entries, hlonger, hfields⟩ := exists_holdFields fields h.2 heap
      have hnodup : (entries.map Prod.fst).Nodup := by
        rw [hfields.keys]
        exact h.1
      have hgrown : later <+: later ++ [.map ⟨entries, hnodup⟩] := List.prefix_append _ _
      have hread : (later ++ [.map ⟨entries, hnodup⟩])[later.length]? =
          some (.map ⟨entries, hnodup⟩) := by simp
      exact ⟨later ++ [.map ⟨entries, hnodup⟩], .map later.length, hlonger.trans hgrown,
        .map hread (hfields.mono (Cells.within_of_longer hgrown))⟩

theorem exists_holdItems : ∀ (values : List Json) (_ : DistinctKeysAll values) (heap : Heap),
    ∃ later items, heap <+: later ∧ HoldItems (fun i => later[i]?) items values
  | [], _, heap => ⟨heap, [], List.prefix_rfl, .nil⟩
  | value :: rest, h, heap => by
      rw [DistinctKeysAll] at h
      obtain ⟨first, held, hfirst, hheld⟩ := exists_holds value h.1 heap
      obtain ⟨later, items, hlater, hitems⟩ := exists_holdItems rest h.2 first
      exact ⟨later, held :: items, hfirst.trans hlater,
        .cons (hheld.mono (Cells.within_of_longer hlater)) hitems⟩

theorem exists_holdFields : ∀ (fields : List (String × Json)) (_ : DistinctKeysUnder fields)
    (heap : Heap), ∃ later entries, heap <+: later ∧
      HoldFields (fun i => later[i]?) entries fields
  | [], _, heap => ⟨heap, [], List.prefix_rfl, .nil⟩
  | (key, value) :: rest, h, heap => by
      rw [DistinctKeysUnder] at h
      obtain ⟨first, held, hfirst, hheld⟩ := exists_holds value h.1 heap
      obtain ⟨later, entries, hlater, hfields⟩ := exists_holdFields rest h.2 first
      exact ⟨later, (key, held) :: entries, hfirst.trans hlater,
        .cons (hheld.mono (Cells.within_of_longer hlater)) hfields⟩

end

/-- The map at the end of `heap` is being filled: what is done of it is held by cells that were
there before or came after it, and no other cell of `heap` has changed. -/
def Filling (low : Nat) (heap : Heap) (done : List (String × Json)) (later : Heap) : Prop :=
  ∃ m : MapCell, heap ++ [.map m] <+: later ∧
    HoldFields (Cells.outside later low (heap.length + 1)) m.entries done

section

variable {x : Texts} {low : Nat} {heap later : Heap} {done : List (String × Json)}

theorem Filling.start (low : Nat) (heap : Heap) : Filling low heap [] (heap ++ [.map .empty]) :=
  ⟨.empty, List.prefix_rfl, .nil⟩

theorem Filling.prefix_old (h : Filling low heap done later) : heap <+: later := by
  obtain ⟨m, hlonger, -⟩ := h
  exact (List.prefix_append heap _).trans hlonger

theorem Filling.length_lt (h : Filling low heap done later) : heap.length + 1 ≤ later.length := by
  obtain ⟨m, hlonger, -⟩ := h
  simpa using hlonger.length_le

theorem Filling.grow {next : Heap} (h : Filling low heap done later) (hlonger : later <+: next) :
    Filling low heap done next := by
  obtain ⟨m, hm, hdone⟩ := h
  exact ⟨m, hm.trans hlonger, hdone.mono (Cells.outside_mono hlonger (Nat.le_refl _))⟩

theorem Filling.store {key : String} {held : GoValue} {value : Json}
    (h : Filling low heap done later) (hlow : low ≤ heap.length) (hkey : key ∉ levelKeys done)
    (hheld : Holds (Cells.outside later low (heap.length + 1)) held value) :
    Filling low heap (done ++ [(key, value)]) (later.store heap.length key held) := by
  obtain ⟨m, hm, hdone⟩ := h
  have hread : later[heap.length]? = some (.map m) :=
    Cells.getElem?_of_longer hm (by simp)
  have hstore : later.store heap.length key held =
      later.set heap.length (.map (m.set key held)) := by
    rw [Heap.store, hread]
  have hnew : key ∉ m.entries.map Prod.fst := by rwa [hdone.keys]
  have hlook := Cells.outside_set later hlow (Nat.lt_succ_self heap.length)
    (Cell.map (m.set key held))
  rw [hstore]
  refine ⟨m.set key held, Cells.prefix_set hm _, ?_⟩
  rw [hlook, MapCell.entries_set_new hnew]
  exact hdone.concat key hheld

theorem Filling.holds (h : Filling low heap done later) :
    Holds (Cells.outside later low heap.length) (.map heap.length) (.obj done) := by
  obtain ⟨m, hm, hdone⟩ := h
  have hread : later[heap.length]? = some (.map m) :=
    Cells.getElem?_of_longer hm (by simp)
  have hseen : Cells.outside later low heap.length heap.length = some (.map m) :=
    Cells.outside_eq_some.mpr ⟨.inr (Nat.le_refl _), hread⟩
  exact .map hseen (hdone.mono (Cells.outside_mono List.prefix_rfl (Nat.le_succ _)))

def LoopFills (x : Texts) (fields : List (String × Json)) (fuel : Nat) : Prop :=
  ∀ (low : Nat) (heap later : Heap) (done : List (String × Json))
    (entries : List (String × GoValue)), low ≤ heap.length →
    HoldFields (Cells.outside heap low heap.length) entries fields →
    (levelKeys (done ++ fields)).Nodup → Filling low heap done later →
    ∃ final, redactEntries x (redactMapAt x fuel) heap.length entries later = some final ∧
      Filling low heap (done ++ redactMap x fields) final

/-- A call makes a new map that holds the redacted value and changes no cell. The cells from `low`
to the end of the heap are those of maps under way, and the call uses none of them. -/
def CallCopies (x : Texts) (value : Json) (fuel : Nat) : Prop :=
  ∀ (low : Nat) (heap : Heap) (input : Nat), low ≤ heap.length →
    Holds (Cells.outside heap low heap.length) (.map input) value →
    ∃ out later, redactMapAt x fuel heap input = some (out, later) ∧ heap <+: later ∧
      heap.length ≤ out ∧
      Holds (Cells.outside later low heap.length) (.map out) (redactValue x value)

private theorem redactEntries_shown {nested : Heap → Nat → Option (Nat × Heap)} {out : Nat}
    {key : String} {held : GoValue} (hkey : containsSecretKey (x.lowerText key) = false)
    (hheld : ∀ address, held ≠ .map address) (rest : List (String × GoValue)) (heap : Heap) :
    redactEntries x nested out ((key, held) :: rest) heap =
      redactEntries x nested out rest (heap.store out key held) := by
  rw [redactEntries, hkey, if_neg Bool.false_ne_true]
  exact hheld

private theorem Holds.redactValue_eq {look : Nat → Option Cell} {held : GoValue} {value : Json}
    (h : Holds look held value) (hheld : ∀ address, held ≠ .map address) :
    redactValue x value = value := by
  cases h with
  | map hread hfields => exact absurd rfl (hheld _)
  | _ => rfl

theorem CallCopies.of_loop {fields : List (String × Json)} {fuel : Nat}
    (hloop : LoopFills x fields fuel) : CallCopies x (.obj fields) (fuel + 1) := by
  intro low heap input hlow hinput
  cases hinput with
  | @map _ m _ hread hfields =>
      have hnodup : (levelKeys ([] ++ fields)).Nodup := by
        rw [List.nil_append, ← hfields.keys]
        exact m.nodup
      obtain ⟨final, hrun, hfilled⟩ := hloop low heap _ [] _ hlow hfields hnodup
        (Filling.start low heap)
      refine ⟨heap.length, final, ?_, hfilled.prefix_old, Nat.le_refl _, ?_⟩
      · rw [redactMapAt, (Cells.outside_eq_some.mp hread).2]
        simp only [hrun, Option.map_some]
      · rw [redactValue]
        exact hfilled.holds

theorem LoopFills.cons {key : String} {value : Json} {rest : List (String × Json)} {fuel : Nat}
    (hvalue : CallCopies x value fuel) (hrest : LoopFills x rest fuel) :
    LoopFills x ((key, value) :: rest) fuel := by
  intro low heap later done entries hlow hentries hnodup hfilling
  cases hentries with
  | @cons _ held _ entries _ hheld hfields =>
      have hkey : key ∉ levelKeys done := by
        intro hmem
        rw [levelKeys, List.map_append, List.map_cons] at hnodup
        exact (List.nodup_append.mp hnodup).2.2 key hmem key List.mem_cons_self rfl
      -- the rest of the loop, once the entry of this round is written
      have hround : ∀ (held : GoValue) (written : Json) (next : Heap), Filling low heap done next →
          Holds (Cells.outside next low (heap.length + 1)) held written →
          ∃ final, redactEntries x (redactMapAt x fuel) heap.length entries
              (next.store heap.length key held) = some final ∧
            Filling low heap (done ++ (key, written) :: redactMap x rest) final := by
        intro held written next hnext hwritten
        have hnodup' : (levelKeys ((done ++ [(key, written)]) ++ rest)).Nodup := by
          simpa [levelKeys] using hnodup
        have hlater := hrest low heap _ _ entries hlow hfields hnodup'
          (hnext.store hlow hkey hwritten)
        simpa using hlater
      cases hhidden : containsSecretKey (x.lowerText key) with
      | true =>
          have hmarker := hround (.str "[REDACTED]") (.str "[REDACTED]") later hfilling (.str _)
          simpa only [redactEntries, redactMap, hhidden, if_true] using hmarker
      | false =>
          by_cases hmap : ∃ address, held = .map address
          · obtain ⟨address, rfl⟩ := hmap
            have hlt := hfilling.length_lt
            have hinput := hheld.mono
              (Cells.outside_of_longer hfilling.prefix_old rfl later.length)
            obtain ⟨copy, next, hcall, hgrown, -, hcopy⟩ :=
              hvalue low later address (by omega) hinput
            have hcopied := hround (.map copy) _ next (hfilling.grow hgrown)
              (hcopy.mono (Cells.outside_mono List.prefix_rfl hlt))
            simpa [redactEntries, redactMap, hhidden, hcall] using hcopied
          · have hother : ∀ address, held ≠ .map address := fun address h => hmap ⟨address, h⟩
            have hkept := hround held value later hfilling
              (hheld.mono (Cells.outside_of_longer hfilling.prefix_old rfl _))
            rw [redactEntries_shown hhidden hother, redactMap, hhidden,
              if_neg Bool.false_ne_true, hheld.redactValue_eq hother]
            exact hkept

theorem CallCopies.of_not_object {value : Json} (h : value.isObject = false) (fuel : Nat) :
    CallCopies x value fuel := by
  intro low heap input hlow hinput
  cases hinput
  simp [Json.isObject] at h

mutual

theorem exists_callCopies : ∀ value : Json,
    ∃ enough, ∀ fuel, enough ≤ fuel → CallCopies x value fuel
  | .obj fields => by
      obtain ⟨enough, henough⟩ := exists_loopFills fields
      refine ⟨enough + 1, fun fuel hfuel => ?_⟩
      obtain ⟨below, rfl⟩ : ∃ below, fuel = below + 1 := ⟨fuel - 1, by omega⟩
      exact .of_loop (henough below (by omega))
  | .null | .bool _ | .num _ | .str _ | .arr _ => ⟨0, fun fuel _ => .of_not_object rfl fuel⟩

theorem exists_loopFills : ∀ fields : List (String × Json),
    ∃ enough, ∀ fuel, enough ≤ fuel → LoopFills x fields fuel
  | [] => by
      refine ⟨0, fun fuel _ low heap later done entries hlow hentries hnodup hfilling => ?_⟩
      cases hentries
      exact ⟨later, rfl, by simpa [redactMap] using hfilling⟩
  | (key, value) :: rest => by
      obtain ⟨first, hfirst⟩ := exists_callCopies value
      obtain ⟨others, hothers⟩ := exists_loopFills rest
      refine ⟨max first others, fun fuel hfuel => ?_⟩
      exact .cons (hfirst fuel (by omega)) (hothers fuel (by omega))

end

end

/-- `RedactMap` is a projection that keeps the structure of an object. -/
theorem redactMap_projection (x : Texts) (fields : List (String × Json)) :
    redactMap x (redactMap x fields) = redactMap x fields ∧
    (∀ path original, ShownPath x path → (Json.obj fields).at? path = some (.obj original) →
      ∃ level, (Json.obj (redactMap x fields)).at? path = some (.obj level) ∧
        levelKeys level = levelKeys original) ∧
    (∀ path level, (Json.obj (redactMap x fields)).at? path = some (.obj level) →
      ∃ original, (Json.obj fields).at? path = some (.obj original) ∧
        levelKeys level = levelKeys original) ∧
    (∀ path key found, ShownPath x path → hiddenKey x key = true →
      (Json.obj fields).at? (path ++ [key]) = some found →
      (Json.obj (redactMap x fields)).at? (path ++ [key]) = some (.str "[REDACTED]")) ∧
    (∀ path value, ShownPath x path → value.isObject = false →
      (Json.obj fields).at? path = some value →
      (Json.obj (redactMap x fields)).at? path = some value) ∧
    ∃ enough, ∀ fuel, enough ≤ fuel → ∀ (heap : Heap) (input : Nat),
      Holds (fun i => heap[i]?) (.map input) (.obj fields) →
      ∃ out later, redactMapAt x fuel heap input = some (out, later) ∧
        Holds (fun i => later[i]?) (.map out) (.obj (redactMap x fields)) ∧
        heap.length ≤ out ∧ ∀ i < heap.length, later[i]? = heap[i]? := by
  have hvalue : Json.obj (redactMap x fields) = redactValue x (.obj fields) := by rw [redactValue]
  refine ⟨redactMap_idem fields, ?_, ?_, ?_, ?_, ?_⟩
  · intro path original hpath hfound
    refine ⟨redactMap x original, ?_, levelKeys_redactMap original⟩
    rw [hvalue, at?_redactValue hpath, hfound, Option.map_some, redactValue]
  · intro path level hlevel
    rw [hvalue] at hlevel
    rw [at?_redactValue (shownPath_of_object hlevel)] at hlevel
    obtain ⟨value, hfound, hkept⟩ := Option.map_eq_some_iff.mp hlevel
    cases value with
    | obj original =>
        rw [redactValue, Json.obj.injEq] at hkept
        exact ⟨original, hfound, by rw [← hkept, levelKeys_redactMap]⟩
    | _ => simp [redactValue] at hkept
  · intro path key found hpath hkey hfound
    rw [hvalue]
    exact at?_hidden hpath hkey hfound
  · intro path value hpath hother hfound
    rw [hvalue, at?_redactValue hpath, hfound, Option.map_some, redactValue_of_not_object hother]
  · obtain ⟨enough, hcopies⟩ := exists_callCopies (x := x) (.obj fields)
    refine ⟨enough, fun fuel hfuel heap input hinput => ?_⟩
    rw [← Cells.outside_self heap heap.length] at hinput
    obtain ⟨out, later, hrun, hlonger, hout, hholds⟩ :=
      hcopies fuel hfuel heap.length heap input (Nat.le_refl _) hinput
    rw [redactValue, Cells.outside_self] at hholds
    refine ⟨out, later, hrun, hholds, hout, fun i hi => ?_⟩
    obtain ⟨added, rfl⟩ := hlonger
    exact List.getElem?_append_left hi

end NotificationPlatform

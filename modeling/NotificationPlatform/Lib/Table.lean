import Mathlib.Data.List.Nodup

/-!
# Keyed tables

Rows under a primary key, in the order they were inserted. The key is unique by construction.
-/

namespace Lib

structure Table (ρ : Type) where
  rows : List (Nat × ρ)
  nodup : (rows.map Prod.fst).Nodup

namespace Table

variable {ρ β : Type}

def empty : Table ρ := ⟨[], List.nodup_nil⟩

def get? (t : Table ρ) (k : Nat) : Option ρ := (t.rows.find? (fun r => r.1 == k)).map Prod.snd

def insert (t : Table ρ) (k : Nat) (r : ρ) : Table ρ :=
  if h : k ∈ t.rows.map Prod.fst then t
  else ⟨t.rows ++ [(k, r)], by simpa [List.nodup_append] using
    ⟨t.nodup, fun a b hab hak => h (List.mem_map.mpr ⟨(a, b), hab, hak⟩)⟩⟩

def modify (t : Table ρ) (k : Nat) (f : ρ → ρ) : Table ρ :=
  ⟨t.rows.map (fun r => (r.1, if r.1 = k then f r.2 else r.2)), by
    simpa [List.map_map, Function.comp_def] using t.nodup⟩

def update (t : Table ρ) (p : Nat × ρ → Bool) (f : ρ → ρ) : Table ρ :=
  ⟨t.rows.map (fun r => (r.1, if p r then f r.2 else r.2)), by
    simpa [List.map_map, Function.comp_def] using t.nodup⟩

def filter (t : Table ρ) (p : Nat × ρ → Bool) : Table ρ :=
  ⟨t.rows.filter p, t.nodup.sublist (List.filter_sublist.map Prod.fst)⟩

def insertAll (t : Table ρ) (rs : List (Nat × ρ)) : Table ρ :=
  rs.foldl (fun t r => t.insert r.1 r.2) t

@[simp] theorem get?_empty (k : Nat) : (empty : Table ρ).get? k = none := rfl

@[simp] theorem rows_empty : (empty : Table ρ).rows = [] := rfl

theorem get?_eq_none {t : Table ρ} {k : Nat} :
    t.get? k = none ↔ k ∉ t.rows.map Prod.fst := by
  simp only [get?, Option.map_eq_none_iff, List.find?_eq_none, beq_iff_eq, List.mem_map]
  constructor
  · rintro h ⟨r, hr, hk⟩
    exact h r hr hk
  · intro h r hr hk
    exact h ⟨r, hr, hk⟩

theorem get?_eq_some {t : Table ρ} {k : Nat} {r : ρ} :
    t.get? k = some r ↔ (k, r) ∈ t.rows := by
  obtain ⟨rows, hnd⟩ := t
  simp only [get?]
  induction rows with
  | nil => simp
  | cons x xs ih =>
      have hx := (List.nodup_cons.mp hnd).1
      have hxs := (List.nodup_cons.mp hnd).2
      by_cases hk : x.1 = k
      · subst k
        have hnot : ∀ r, (x.1, r) ∉ xs := fun r hr => hx (List.mem_map.mpr ⟨_, hr, rfl⟩)
        obtain ⟨k, r'⟩ := x
        simp [hnot, eq_comm]
      · have hne : (k, r) ≠ x := fun h => hk (by rw [← h])
        simpa [List.find?_cons, hk, hne] using ih hxs

theorem rows_insert {t : Table ρ} {k : Nat} (h : t.get? k = none) (r : ρ) :
    (t.insert k r).rows = t.rows ++ [(k, r)] := by
  rw [insert, dif_neg (get?_eq_none.mp h)]

theorem get?_insert_self {t : Table ρ} {k : Nat} (h : t.get? k = none) (r : ρ) :
    (t.insert k r).get? k = some r := by
  rw [get?_eq_some, rows_insert h]
  simp

theorem get?_insert_ne (t : Table ρ) {k j : Nat} (r : ρ) (h : j ≠ k) :
    (t.insert k r).get? j = t.get? j := by
  unfold insert
  split
  · rfl
  · simp [get?, List.find?_append, Ne.symm h]

theorem get?_insert_of_some {t : Table ρ} {k j : Nat} {r s : ρ} (h : t.get? j = some s) :
    (t.insert k r).get? j = some s := by
  by_cases hjk : j = k
  · subst k
    have hmem : j ∈ t.rows.map Prod.fst :=
      List.mem_map.mpr ⟨(j, s), get?_eq_some.mp h, rfl⟩
    rw [insert, dif_pos hmem, h]
  · rw [get?_insert_ne t r hjk, h]

theorem get?_insertAll_of_some {t : Table ρ} {rs : List (Nat × ρ)} {j : Nat} {s : ρ}
    (h : t.get? j = some s) : (t.insertAll rs).get? j = some s := by
  induction rs generalizing t with
  | nil => exact h
  | cons r rs ih => exact ih (get?_insert_of_some h)

theorem get?_insertAll_cases {t : Table ρ} {rs : List (Nat × ρ)} {j : Nat} {r : ρ}
    (h : (t.insertAll rs).get? j = some r) : t.get? j = some r ∨ (j, r) ∈ rs := by
  induction rs generalizing t with
  | nil => exact .inl h
  | cons x rs ih =>
      rcases ih (t := t.insert x.1 x.2) h with hget | hmem
      · by_cases hj : j = x.1
        · cases hx : t.get? x.1 with
          | none =>
              rw [hj, get?_insert_self hx, Option.some.injEq] at hget
              exact .inr (by simp [hj, ← hget])
          | some s =>
              rw [hj, get?_insert_of_some hx] at hget
              exact .inl (by rw [hj, hx, hget])
        · rw [get?_insert_ne _ _ hj] at hget
          exact .inl hget
      · exact .inr (List.mem_cons_of_mem _ hmem)

theorem rows_insertAll {t : Table ρ} {rs : List (Nat × ρ)}
    (h : (t.rows.map Prod.fst ++ rs.map Prod.fst).Nodup) :
    (t.insertAll rs).rows = t.rows ++ rs := by
  induction rs generalizing t with
  | nil => simp [insertAll]
  | cons r rs ih =>
      have hnew : t.get? r.1 = none := by
        rw [get?_eq_none]
        intro hmem
        exact (List.nodup_append.mp h).2.2 r.1 hmem r.1 (by simp) rfl
      have hrows := rows_insert hnew r.2
      have hrest := ih (t := t.insert r.1 r.2) (by rw [hrows]; simpa using h)
      rw [hrows] at hrest
      simpa [insertAll] using hrest

@[simp] theorem keys_modify (t : Table ρ) (k : Nat) (f : ρ → ρ) :
    (t.modify k f).rows.map Prod.fst = t.rows.map Prod.fst := by
  simp [modify, Function.comp_def]

theorem get?_modify (t : Table ρ) (k j : Nat) (f : ρ → ρ) :
    (t.modify k f).get? j = if j = k then (t.get? j).map f else t.get? j := by
  obtain ⟨rows, hnd⟩ := t
  simp only [get?, modify]
  clear hnd
  induction rows with
  | nil => simp
  | cons x xs ih =>
      by_cases hx : x.1 = j
      · subst j
        by_cases hk : x.1 = k <;> simp [hk]
      · simpa [List.find?_cons, hx] using ih

@[simp] theorem get?_modify_self (t : Table ρ) (k : Nat) (f : ρ → ρ) :
    (t.modify k f).get? k = (t.get? k).map f := by
  rw [get?_modify, if_pos rfl]

theorem get?_modify_ne (t : Table ρ) {k j : Nat} (f : ρ → ρ) (h : j ≠ k) :
    (t.modify k f).get? j = t.get? j := by
  rw [get?_modify, if_neg h]

theorem mem_rows_modify {t : Table ρ} {k : Nat} {f : ρ → ρ} {e : Nat × ρ}
    (h : e ∈ (t.modify k f).rows) :
    ∃ r, (e.1, r) ∈ t.rows ∧ e.2 = if e.1 = k then f r else r := by
  obtain ⟨⟨j, r⟩, hr, rfl⟩ := List.mem_map.mp h
  exact ⟨r, hr, rfl⟩

theorem map_modify {t : Table ρ} {k : Nat} {f : ρ → ρ} {g : Nat × ρ → β}
    (hf : ∀ j r, g (j, f r) = g (j, r)) : (t.modify k f).rows.map g = t.rows.map g := by
  rw [modify, List.map_map]
  apply List.map_congr_left
  rintro ⟨j, r⟩ _
  by_cases hj : j = k <;> simp [hj, hf]

theorem get?_update (t : Table ρ) (p : Nat × ρ → Bool) (f : ρ → ρ) (k : Nat) :
    (t.update p f).get? k = (t.get? k).map fun r => if p (k, r) then f r else r := by
  obtain ⟨rows, hnd⟩ := t
  simp only [get?, update]
  clear hnd
  induction rows with
  | nil => simp
  | cons x xs ih =>
      by_cases hx : x.1 = k
      · subst k
        simp
      · simpa [List.find?_cons, hx] using ih

theorem filter_eq_singleton {t : Table ρ} {p : Nat × ρ → Bool} {k : Nat} {r : ρ}
    (h : t.get? k = some r) (hp : ∀ e ∈ t.rows, p e = true ↔ e.1 = k) :
    t.rows.filter p = [(k, r)] := by
  have hmem : (k, r) ∈ t.rows := get?_eq_some.mp h
  obtain ⟨before, after, hsplit⟩ := List.append_of_mem hmem
  have hnd := t.nodup
  rw [hsplit, List.map_append, List.map_cons, List.nodup_middle, List.nodup_cons] at hnd
  have hnone : ∀ e ∈ before ++ after, ¬p e = true := by
    intro e he hpe
    have hrow : e ∈ t.rows := by
      rw [hsplit]
      simp only [List.mem_append, List.mem_cons] at he ⊢
      tauto
    apply hnd.1
    rw [← List.map_append]
    exact List.mem_map.mpr ⟨e, he, (hp e hrow).mp hpe⟩
  have hself : p (k, r) = true := (hp _ hmem).mpr rfl
  rw [hsplit, List.filter_append, List.filter_cons_of_pos hself,
    List.filter_eq_nil_iff.mpr fun e he => hnone e (by simp [he]),
    List.filter_eq_nil_iff.mpr fun e he => hnone e (by simp [he])]
  rfl

@[simp] theorem rows_filter (t : Table ρ) (p : Nat × ρ → Bool) :
    (t.filter p).rows = t.rows.filter p := rfl

theorem get?_filter_of_pos {t : Table ρ} {p : Nat × ρ → Bool} {k : Nat} {r : ρ}
    (h : t.get? k = some r) (hp : p (k, r) = true) : (t.filter p).get? k = some r := by
  rw [get?_eq_some]
  exact List.mem_filter.mpr ⟨get?_eq_some.mp h, hp⟩

theorem filterMap_modify {t : Table ρ} {k : Nat} {f : ρ → ρ} {view : Nat × ρ → Option β}
    (hf : ∀ r, t.get? k = some r → view (k, f r) = view (k, r)) :
    (t.modify k f).rows.filterMap view = t.rows.filterMap view := by
  rw [modify, List.filterMap_map]
  apply List.filterMap_congr
  rintro ⟨j, r⟩ hr
  by_cases hj : j = k
  · subst j
    simp [hf r (get?_eq_some.mpr hr)]
  · simp [hj]

theorem rows_modify {t : Table ρ} {k : Nat} {r : ρ} (h : t.get? k = some r) (f : ρ → ρ) :
    ∃ before after, t.rows = before ++ (k, r) :: after ∧
      (t.modify k f).rows = before ++ (k, f r) :: after := by
  obtain ⟨before, after, hsplit⟩ := List.append_of_mem (get?_eq_some.mp h)
  have hnd := t.nodup
  rw [hsplit, List.map_append, List.map_cons, List.nodup_middle, List.nodup_cons] at hnd
  have hother : ∀ e ∈ before ++ after, e.1 ≠ k := by
    intro e he heq
    apply hnd.1
    rw [← List.map_append]
    exact List.mem_map.mpr ⟨e, he, heq⟩
  have hsame : ∀ rows : List (Nat × ρ), (∀ e ∈ rows, e.1 ≠ k) →
      rows.map (fun e => (e.1, if e.1 = k then f e.2 else e.2)) = rows := by
    intro rows hrows
    refine (List.map_congr_left fun e he => ?_).trans rows.map_id
    simp [hrows e he]
  refine ⟨before, after, hsplit, ?_⟩
  show t.rows.map (fun e => (e.1, if e.1 = k then f e.2 else e.2)) = _
  rw [hsplit, List.map_append, List.map_cons, hsame before fun e he => hother e (by simp [he]),
    hsame after fun e he => hother e (by simp [he]), if_pos rfl]

theorem countP_modify {t : Table ρ} {k : Nat} {r : ρ} (h : t.get? k = some r) (f : ρ → ρ)
    (p : Nat × ρ → Bool) :
    (t.modify k f).rows.countP p + (if p (k, r) then 1 else 0) =
      t.rows.countP p + (if p (k, f r) then 1 else 0) := by
  obtain ⟨before, after, hrows, hmodify⟩ := rows_modify h f
  rw [hrows, hmodify]
  simp only [List.countP_append, List.countP_cons]
  omega

theorem filter_insert {t : Table ρ} {p : Nat × ρ → Bool} {k : Nat} {r : ρ} (h : p (k, r) = false) :
    (t.insert k r).rows.filter p = t.rows.filter p := by
  unfold insert
  split
  · rfl
  · simp [h]

theorem filter_insertAll {t : Table ρ} {p : Nat × ρ → Bool} {rs : List (Nat × ρ)}
    (h : ∀ r ∈ rs, p r = false) : (t.insertAll rs).rows.filter p = t.rows.filter p := by
  induction rs generalizing t with
  | nil => rfl
  | cons r rs ih =>
      have hfirst : p (r.1, r.2) = false := h r (by simp)
      have hrest := ih (t := t.insert r.1 r.2) fun r' hr' => h r' (by simp [hr'])
      rw [filter_insert hfirst] at hrest
      exact hrest

end Table

end Lib

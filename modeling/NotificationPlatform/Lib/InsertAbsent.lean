import Mathlib.Data.List.Nodup

/-!
# Rows that are inserted once

A table in which a row is inserted unless its key is taken. Whoever inserts first decides what
the key stands for, and all who read after an insertion read the same row.
-/

namespace Lib.InsertAbsent

variable {ρ κ : Type} [DecidableEq κ] {key : ρ → κ} {k : κ} {row : ρ} {rows rows' : List ρ}

def withKey (key : ρ → κ) (k : κ) (rows : List ρ) : List ρ :=
  rows.filter fun row => decide (key row = k)

def insertAbsent (key : ρ → κ) (row : ρ) (rows : List ρ) : List ρ :=
  if withKey key (key row) rows = [] then rows ++ [row] else rows

def Keeps (key : ρ → κ) (k : κ) (rows rows' : List ρ) : Prop :=
  withKey key k rows ≠ [] → withKey key k rows' = withKey key k rows

theorem mem_withKey : row ∈ withKey key k rows ↔ row ∈ rows ∧ key row = k := by
  simp [withKey]

theorem Keeps.refl (key : ρ → κ) (k : κ) (rows : List ρ) : Keeps key k rows rows :=
  fun _ => rfl

theorem Keeps.trans {rows'' : List ρ} (h : Keeps key k rows rows') (h' : Keeps key k rows' rows'') :
    Keeps key k rows rows'' := by
  intro htaken
  have hsame := h htaken
  rw [h' (by rwa [hsame]), hsame]

theorem Keeps.taken (h : Keeps key k rows rows') (htaken : withKey key k rows ≠ []) :
    withKey key k rows' ≠ [] := by
  rwa [h htaken]

theorem withKey_append_self (h : withKey key (key row) rows = []) :
    withKey key (key row) (rows ++ [row]) = [row] := by
  have hrows : (rows.filter fun r => decide (key r = key row)) = [] := h
  simp [withKey, List.filter_append, hrows]

theorem withKey_append_of_ne (h : key row ≠ k) :
    withKey key k (rows ++ [row]) = withKey key k rows := by
  simp [withKey, List.filter_append, h]

theorem keeps_insertAbsent (key : ρ → κ) (k : κ) (row : ρ) (rows : List ρ) :
    Keeps key k rows (insertAbsent key row rows) := by
  intro htaken
  unfold insertAbsent
  split
  · next hfree =>
      have hne : key row ≠ k := by
        rintro rfl
        exact htaken hfree
      exact withKey_append_of_ne hne
  · rfl

theorem withKey_insertAbsent_ne_nil (key : ρ → κ) (row : ρ) (rows : List ρ) :
    withKey key (key row) (insertAbsent key row rows) ≠ [] := by
  unfold insertAbsent
  split
  · next hfree =>
      rw [withKey_append_self hfree]
      exact List.cons_ne_nil _ _
  · next htaken => exact htaken

theorem nodup_append (hnodup : (rows.map key).Nodup) (h : withKey key (key row) rows = []) :
    ((rows ++ [row]).map key).Nodup := by
  have hnew : key row ∉ rows.map key := by
    intro hmem
    obtain ⟨other, hother, hkey⟩ := List.mem_map.mp hmem
    have hthere : other ∈ withKey key (key row) rows := mem_withKey.mpr ⟨hother, hkey⟩
    rw [h] at hthere
    exact List.not_mem_nil hthere
  simpa using List.Nodup.concat hnew hnodup

theorem length_withKey_le (hnodup : (rows.map key).Nodup) : (withKey key k rows).length ≤ 1 := by
  have hsub : ((withKey key k rows).map key).Nodup :=
    hnodup.sublist (List.filter_sublist.map key)
  have hall : ∀ other ∈ (withKey key k rows).map key, other = k := by
    intro other hother
    obtain ⟨row, hrow, rfl⟩ := List.mem_map.mp hother
    exact (mem_withKey.mp hrow).2
  rw [List.eq_replicate_of_mem hall, List.length_map] at hsub
  exact List.nodup_replicate.mp hsub

theorem withKey_eq_of_head? (h : (withKey key k rows).length ≤ 1)
    (hread : (withKey key k rows).head? = some row) : withKey key k rows = [row] := by
  cases hrows : withKey key k rows with
  | nil => simp [hrows] at hread
  | cons first rest =>
      rw [hrows] at h hread
      have hrest : rest = [] := List.eq_nil_of_length_eq_zero (by simpa using h)
      obtain rfl := Option.some.inj hread
      rw [hrest]

end Lib.InsertAbsent

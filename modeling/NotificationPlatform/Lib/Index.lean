import Mathlib.Data.Finset.Card

/-!
# Sets indexed by a key

A set kept beside a map from each key to the members with that key, in which a key without
members is absent: what inserting and erasing a member do to the map.
-/

namespace Lib

variable {α κ : Type} [DecidableEq α] [DecidableEq κ]

def indexed (key : α → κ) (all : Finset α) (k : κ) : Option (Finset α) :=
  if all.filter (fun a => key a = k) = ∅ then none else some (all.filter fun a => key a = k)

variable {key key' : α → κ} {all s : Finset α} {a : α} {k k' : κ}

theorem indexed_empty : indexed key ∅ = fun _ => none := by
  funext k
  rw [indexed, if_pos (Finset.filter_empty _)]

theorem indexed_eq_some (h : indexed key all k = some s) :
    s = all.filter (fun a => key a = k) ∧ s.Nonempty := by
  unfold indexed at h
  split at h
  · simp at h
  · next hne =>
      obtain rfl := Option.some.inj h
      exact ⟨rfl, Finset.nonempty_iff_ne_empty.mpr hne⟩

theorem mem_of_indexed (h : indexed key all k = some s) : a ∈ s ↔ a ∈ all ∧ key a = k := by
  rw [(indexed_eq_some h).1, Finset.mem_filter]

theorem mem_iff_indexed : a ∈ all ↔ ∃ k s, indexed key all k = some s ∧ a ∈ s := by
  constructor
  · intro ha
    have hmem : a ∈ all.filter fun b => key b = key a := by simp [ha]
    have hne : all.filter (fun b => key b = key a) ≠ ∅ := Finset.ne_empty_of_mem hmem
    exact ⟨key a, _, if_neg hne, hmem⟩
  · rintro ⟨k, s, hs, ha⟩
    exact ((mem_of_indexed hs).mp ha).1

theorem indexed_disjoint {s' : Finset α} (hk : k ≠ k') (hs : indexed key all k = some s)
    (hs' : indexed key all k' = some s') : Disjoint s s' := by
  rw [Finset.disjoint_left]
  intro a ha ha'
  have hka : key a = k := ((mem_of_indexed hs).mp ha).2
  have hka' : key a = k' := ((mem_of_indexed hs').mp ha').2
  exact hk (hka.symm.trans hka')

theorem mem_indexed_getD : a ∈ (indexed key all k).getD ∅ ↔ a ∈ all ∧ key a = k := by
  unfold indexed
  split
  · next hempty =>
      rw [← Finset.mem_filter (s := all) (p := fun a => key a = k), hempty]
      rfl
  · simp

theorem indexed_congr (h : ∀ a ∈ all, key a = key' a) : indexed key all = indexed key' all := by
  funext k
  have hfilter : all.filter (fun a => key a = k) = all.filter fun a => key' a = k := by
    apply Finset.filter_congr
    intro a ha
    rw [h a ha]
  simp only [indexed, hfilter]

theorem indexed_insert :
    indexed key (insert a all) = fun k =>
      if k = key a then some (insert a ((indexed key all k).getD ∅)) else indexed key all k := by
  funext k
  by_cases hk : k = key a
  · subst hk
    rw [if_pos rfl]
    have hset : (insert a all).filter (fun b => key b = key a)
        = insert a ((indexed key all (key a)).getD ∅) := by
      ext b
      rw [Finset.mem_insert, mem_indexed_getD, Finset.mem_filter, Finset.mem_insert]
      grind
    have hne : insert a ((indexed key all (key a)).getD ∅) ≠ ∅ := Finset.insert_ne_empty _ _
    simp only [indexed, hset] at hne ⊢
    rw [if_neg hne]
  · rw [if_neg hk]
    have hset : (insert a all).filter (fun b => key b = k) = all.filter fun b => key b = k := by
      ext b
      rw [Finset.mem_filter, Finset.mem_filter, Finset.mem_insert]
      grind
    simp only [indexed, hset]

theorem indexed_erase :
    indexed key (all.erase a) = fun k =>
      if k = key a then
        match indexed key all k with
        | none => none
        | some s => if s.erase a = ∅ then none else some (s.erase a)
      else indexed key all k := by
  funext k
  have hset : (all.erase a).filter (fun b => key b = k)
      = (all.filter fun b => key b = k).erase a := by
    ext b
    simp only [Finset.mem_filter, Finset.mem_erase]
    tauto
  by_cases hk : k = key a
  · rw [if_pos hk]
    cases hs : indexed key all k with
    | none =>
        have hempty : all.filter (fun b => key b = k) = ∅ := by
          by_contra hne
          rw [indexed, if_neg hne] at hs
          simp at hs
        simp [indexed, hset, hempty]
    | some s =>
        rw [(indexed_eq_some hs).1]
        simp only [indexed, hset]
  · rw [if_neg hk]
    have hsame : (all.filter fun b => key b = k).erase a = all.filter fun b => key b = k := by
      apply Finset.erase_eq_of_notMem
      intro ha
      exact hk (Finset.mem_filter.mp ha).2.symm
    simp only [indexed, hset, hsame]

end Lib

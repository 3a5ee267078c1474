import Mathlib.Data.List.Basic
import Mathlib.Logic.Function.Basic

/-!
# Row versions under read committed

A table as a multi-version store keeps it. An inserted row is a version that names its creator, and
a deletion names the deleter in the version. A statement sees the versions whose creator is its
own transaction or has committed, unless their deleter is or has. Where another transaction has
still to decide about a version, a statement that depends on the outcome waits.
-/

namespace Lib.ReadCommitted

inductive Status where
  | active
  | committed
  | aborted
  deriving DecidableEq, Repr

/-- One version of a row; a version without a creator has been there from the start. -/
structure Version (κ τ : Type) where
  key : κ
  creator : Option τ
  deleter : Option τ

structure Store (κ τ : Type) where
  rows : List (Version κ τ)
  status : τ → Status

variable {κ τ : Type}

namespace Store

/-- A table with these rows, before any transaction. -/
def load (keys : List κ) : Store κ τ := ⟨keys.map fun k => ⟨k, none, none⟩, fun _ => .active⟩

def keyAt (st : Store κ τ) (i : Nat) : Option κ := st.rows[i]?.map Version.key

def Owned (st : Store κ τ) (mine : τ → κ → Prop) : Prop :=
  ∀ v ∈ st.rows, ∀ u, v.creator = some u ∨ v.deleter = some u → mine u v.key

theorem load_owned (keys : List κ) (mine : τ → κ → Prop) : (load keys).Owned mine := by
  intro v hv u hu
  obtain ⟨k, -, rfl⟩ := List.mem_map.mp hv
  simp at hu

variable [DecidableEq τ]

/-- The changes of transaction `u` count for an observer: for its own transaction, if it has one,
and for whatever has committed. -/
def counts (st : Store κ τ) (o : Option τ) (u : τ) : Bool :=
  o == some u || st.status u == .committed

def visible (st : Store κ τ) (o : Option τ) (v : Version κ τ) : Bool :=
  v.creator.all (st.counts o) && !v.deleter.any (st.counts o)

def Sees (st : Store κ τ) (o : Option τ) (i : Nat) (k : κ) : Prop :=
  ∃ v, st.rows[i]? = some v ∧ v.key = k ∧ st.visible o v = true

def live (st : Store κ τ) : List κ := (st.rows.filter (st.visible none)).map Version.key

def busy (st : Store κ τ) (t u : τ) : Bool := u != t && st.status u == .active

def inDoubt (st : Store κ τ) (t : τ) (v : Version κ τ) : Bool :=
  v.creator.any (st.busy t) ||
    v.creator.all (st.counts (some t)) && v.deleter.any (st.busy t)

def targets (st : Store κ τ) (t : τ) (p : κ → Bool) : List Nat :=
  (List.range st.rows.length).filter fun i =>
    st.rows[i]?.any fun v => p v.key && st.visible (some t) v

/-- Delete the version at an index, or wait. It stays as it is when it has been deleted. -/
def mark (st : Store κ τ) (t : τ) (i : Nat) : Option (Store κ τ) :=
  match st.rows[i]? with
  | none => some st
  | some v =>
      if v.deleter.any (st.busy t) then none
      else if v.deleter.any (st.counts (some t)) then some st
      else some { st with rows := st.rows.set i { v with deleter := some t } }

def insert [DecidableEq κ] (st : Store κ τ) (t : τ) (k : κ) : Option (Store κ τ) :=
  if st.rows.any fun v => decide (v.key = k) && st.inDoubt t v then none
  else if st.rows.any fun v => decide (v.key = k) && st.visible (some t) v then some st
  else some { st with rows := st.rows ++ [⟨k, some t, none⟩] }

def finish (st : Store κ τ) (t : τ) (s : Status) : Store κ τ :=
  { st with status := Function.update st.status t s }

@[simp] theorem finish_rows (st : Store κ τ) (t : τ) (s : Status) :
    (st.finish t s).rows = st.rows := rfl

@[simp] theorem finish_keyAt (st : Store κ τ) (t : τ) (s : Status) (i : Nat) :
    (st.finish t s).keyAt i = st.keyAt i := rfl

variable {st st' : Store κ τ} {t : τ} {o : Option τ} {i : Nat} {k : κ}

theorem Sees.keyAt (h : st.Sees o i k) : st.keyAt i = some k := by
  obtain ⟨v, hv, rfl, -⟩ := h
  simp [Store.keyAt, hv]

theorem mem_live : k ∈ st.live ↔ ∃ i, st.Sees none i k := by
  simp only [live, List.mem_map, List.mem_filter]
  constructor
  · rintro ⟨v, ⟨hv, hvisible⟩, hk⟩
    obtain ⟨i, hi⟩ := List.getElem?_of_mem hv
    exact ⟨i, v, hi, hk, hvisible⟩
  · rintro ⟨i, v, hi, hk, hvisible⟩
    exact ⟨v, ⟨List.mem_of_getElem? hi, hvisible⟩, hk⟩

theorem mem_targets {p : κ → Bool} :
    i ∈ st.targets t p ↔ ∃ k, st.Sees (some t) i k ∧ p k = true := by
  simp only [targets, List.mem_filter, List.mem_range]
  constructor
  · rintro ⟨hi, hany⟩
    rw [List.getElem?_eq_getElem hi, Option.any_some, Bool.and_eq_true] at hany
    exact ⟨_, ⟨_, List.getElem?_eq_getElem hi, rfl, hany.2⟩, hany.1⟩
  · rintro ⟨k, ⟨v, hv, rfl, hvisible⟩, hp⟩
    obtain ⟨hi, -⟩ := List.getElem?_eq_some_iff.mp hv
    refine ⟨hi, ?_⟩
    rw [hv, Option.any_some, hp, hvisible]
    rfl

theorem sees_finish_committed :
    (st.finish t .committed).Sees none i k ↔ st.Sees (some t) i k := by
  have hcounts : (st.finish t .committed).counts none = st.counts (some t) := by
    funext u
    by_cases hu : u = t
    · subst u
      simp [counts, finish]
    · simp [counts, finish, hu, Ne.symm hu]
  simp [Sees, visible, hcounts]

theorem sees_finish_aborted (ht : st.status t ≠ .committed) :
    (st.finish t .aborted).Sees o i k ↔ st.Sees o i k := by
  have hcounts : (st.finish t .aborted).counts o = st.counts o := by
    funext u
    by_cases hu : u = t
    · subst u
      have hnot : (st.status t == .committed) = false := beq_eq_false_iff_ne.mpr ht
      simp [counts, finish, hnot]
    · simp [counts, finish, hu]
  simp [Sees, visible, hcounts]

theorem sees_finish_foreign {mine : τ → κ → Prop} (hown : st.Owned mine) (hk : ¬mine t k)
    {s : Status} : (st.finish t s).Sees o i k ↔ st.Sees o i k := by
  have hcounts : ∀ u, u ≠ t → (st.finish t s).counts o u = st.counts o u := by
    intro u hu
    simp [counts, finish, hu]
  have hvisible : ∀ v ∈ st.rows, v.key = k → (st.finish t s).visible o v = st.visible o v := by
    intro v hv hkey
    have hother : ∀ u, v.creator = some u ∨ v.deleter = some u → u ≠ t := by
      rintro u hu rfl
      exact hk (hkey ▸ hown v hv u hu)
    have hcreator : v.creator.all ((st.finish t s).counts o) = v.creator.all (st.counts o) := by
      cases hc : v.creator with
      | none => rfl
      | some u => exact hcounts u (hother u (.inl hc))
    have hdeleter : v.deleter.any ((st.finish t s).counts o) = v.deleter.any (st.counts o) := by
      cases hd : v.deleter with
      | none => rfl
      | some u => exact hcounts u (hother u (.inr hd))
    rw [visible, visible, hcreator, hdeleter]
  constructor
  · rintro ⟨v, hv, hkey, hsees⟩
    exact ⟨v, hv, hkey, by rwa [hvisible v (List.mem_of_getElem? hv) hkey] at hsees⟩
  · rintro ⟨v, hv, hkey, hsees⟩
    exact ⟨v, hv, hkey, by rwa [hvisible v (List.mem_of_getElem? hv) hkey]⟩

theorem mark_cases (h : st.mark t i = some st') :
    (st' = st ∧ ∀ k, ¬st.Sees (some t) i k) ∨
    ∃ v, st.rows[i]? = some v ∧ (∀ u, v.deleter = some u → st.status u = .aborted ∧ u ≠ t) ∧
      st' = { st with rows := st.rows.set i { v with deleter := some t } } := by
  unfold mark at h
  split at h
  · next hnone =>
      obtain rfl := Option.some.inj h
      refine .inl ⟨rfl, ?_⟩
      rintro k ⟨v, hv, -⟩
      simp [hnone] at hv
  · next v hv =>
      split at h
      · simp at h
      · next hbusy =>
          split at h
          · next hcounts =>
              obtain rfl := Option.some.inj h
              refine .inl ⟨rfl, ?_⟩
              rintro k ⟨v', hv', -, hvisible⟩
              obtain rfl := Option.some.inj (hv.symm.trans hv')
              simp [visible, hcounts] at hvisible
          · next hcounts =>
              refine .inr ⟨v, hv, ?_, (Option.some.inj h).symm⟩
              intro u hu
              simp only [hu, Option.any_some, busy, counts, Bool.and_eq_true, bne_iff_ne,
                Bool.or_eq_true, beq_iff_eq, Option.some.injEq, not_and, not_or] at hbusy hcounts
              have hne : u ≠ t := Ne.symm hcounts.1
              refine ⟨?_, hne⟩
              cases hs : st.status u with
              | active => exact absurd hs (hbusy hne)
              | committed => exact absurd hs hcounts.2
              | aborted => rfl

theorem mark_keyAt (h : st.mark t i = some st') (j : Nat) : st'.keyAt j = st.keyAt j := by
  rcases mark_cases h with ⟨rfl, -⟩ | ⟨v, hv, -, rfl⟩
  · rfl
  · by_cases hj : j = i
    · subst j
      obtain ⟨hi, -⟩ := List.getElem?_eq_some_iff.mp hv
      simp only [keyAt, List.getElem?_set_self hi, hv, Option.map_some]
    · simp [keyAt, List.getElem?_set_ne (Ne.symm hj)]

theorem mark_status (h : st.mark t i = some st') : st'.status = st.status := by
  rcases mark_cases h with ⟨rfl, -⟩ | ⟨v, -, -, rfl⟩ <;> rfl

theorem mark_owned {mine : τ → κ → Prop} (h : st.mark t i = some st') (hown : st.Owned mine)
    (hmine : ∀ k, st.keyAt i = some k → mine t k) : st'.Owned mine := by
  rcases mark_cases h with ⟨rfl, -⟩ | ⟨v, hv, -, rfl⟩
  · exact hown
  · intro v' hv' u hu
    rcases List.mem_or_eq_of_mem_set hv' with hmem | rfl
    · exact hown v' hmem u hu
    · rcases hu with hcreator | hdeleter
      · exact hown v (List.mem_of_getElem? hv) u (.inl hcreator)
      · obtain rfl := Option.some.inj hdeleter
        exact hmine v.key (by simp [keyAt, hv])

theorem sees_mark_other (h : st.mark t i = some st') (ht : st.status t ≠ .committed)
    (ho : o ≠ some t) (hactive : ∀ u, o = some u → st.status u ≠ .aborted) {j : Nat} :
    st'.Sees o j k ↔ st.Sees o j k := by
  rcases mark_cases h with ⟨rfl, -⟩ | ⟨v, hv, hdeleter, rfl⟩
  · rfl
  · have hnot : v.deleter.any (st.counts o) = false := by
      cases hd : v.deleter with
      | none => rfl
      | some u =>
          obtain ⟨haborted, -⟩ := hdeleter u hd
          have hother : o ≠ some u := fun hu => hactive u hu haborted
          simp [counts, hother, haborted]
    have hsame : st.visible o { v with deleter := some t } = st.visible o v := by
      have hcounts : st.counts o t = false := by simp [counts, ho, ht]
      simp [visible, hnot, hcounts]
    by_cases hj : j = i
    · subst j
      obtain ⟨hi, -⟩ := List.getElem?_eq_some_iff.mp hv
      constructor
      · rintro ⟨v', hv', hkey, hvisible⟩
        obtain rfl : { v with deleter := some t } = v' := by
          simpa [List.getElem?_set, hi] using hv'
        exact ⟨v, hv, hkey, hsame ▸ hvisible⟩
      · rintro ⟨v', hv', hkey, hvisible⟩
        obtain rfl := Option.some.inj (hv.symm.trans hv')
        exact ⟨_, List.getElem?_set_self hi, hkey, hsame.trans hvisible⟩
    · simp only [Sees, List.getElem?_set_ne (Ne.symm hj)]
      rfl

theorem sees_mark_own (h : st.mark t i = some st') {j : Nat} :
    st'.Sees (some t) j k ↔ st.Sees (some t) j k ∧ j ≠ i := by
  rcases mark_cases h with ⟨rfl, hnot⟩ | ⟨v, hv, -, rfl⟩
  · constructor
    · intro hsees
      refine ⟨hsees, ?_⟩
      rintro rfl
      exact hnot k hsees
    · exact And.left
  · by_cases hj : j = i
    · subst j
      obtain ⟨hi, -⟩ := List.getElem?_eq_some_iff.mp hv
      constructor
      · rintro ⟨v', hv', -, hvisible⟩
        obtain rfl : { v with deleter := some t } = v' := by
          simpa [List.getElem?_set, hi] using hv'
        simp [visible, counts] at hvisible
      · rintro ⟨-, hne⟩
        exact absurd rfl hne
    · simp only [Sees, List.getElem?_set_ne (Ne.symm hj), ne_eq, hj, not_false_iff, and_true]
      rfl

private theorem sees_append {v : Version κ τ} {j : Nat} :
    Sees { st with rows := st.rows ++ [v] } o j k ↔
      st.Sees o j k ∨ j = st.rows.length ∧ v.key = k ∧ st.visible o v = true := by
  constructor
  · rintro ⟨v', hv', hkey, hvisible⟩
    by_cases hj : j < st.rows.length
    · rw [List.getElem?_append_left hj] at hv'
      exact .inl ⟨v', hv', hkey, hvisible⟩
    · have hlt : j < (st.rows ++ [v]).length := (List.getElem?_eq_some_iff.mp hv').1
      have hlen : j = st.rows.length := by
        simp only [List.length_append, List.length_singleton] at hlt
        omega
      obtain rfl : v = v' := by simpa [hlen] using hv'
      exact .inr ⟨hlen, hkey, hvisible⟩
  · rintro (⟨v', hv', hkey, hvisible⟩ | ⟨rfl, hkey, hvisible⟩)
    · obtain ⟨hlt, -⟩ := List.getElem?_eq_some_iff.mp hv'
      exact ⟨v', by rw [List.getElem?_append_left hlt, hv'], hkey, hvisible⟩
    · exact ⟨v, by simp, hkey, hvisible⟩

section

variable [DecidableEq κ]

theorem insert_cases (h : st.insert t k = some st') :
    (st' = st ∧ ∃ i, st.Sees (some t) i k) ∨
      st' = { st with rows := st.rows ++ [⟨k, some t, none⟩] } := by
  unfold insert at h
  split at h
  · simp at h
  · split at h
    · next hany =>
        obtain rfl := Option.some.inj h
        obtain ⟨v, hv, hboth⟩ := List.any_eq_true.mp hany
        rw [Bool.and_eq_true, decide_eq_true_eq] at hboth
        obtain ⟨i, hi⟩ := List.getElem?_of_mem hv
        exact .inl ⟨rfl, i, v, hi, hboth⟩
    · exact .inr (Option.some.inj h).symm

theorem insert_status (h : st.insert t k = some st') : st'.status = st.status := by
  rcases insert_cases h with ⟨rfl, -⟩ | rfl <;> rfl

theorem insert_keyAt (h : st.insert t k = some st') {j : Nat} {k' : κ}
    (hj : st.keyAt j = some k') : st'.keyAt j = some k' := by
  rcases insert_cases h with ⟨rfl, -⟩ | rfl
  · exact hj
  · obtain ⟨v, hv, rfl⟩ := Option.map_eq_some_iff.mp hj
    obtain ⟨hlt, -⟩ := List.getElem?_eq_some_iff.mp hv
    simp [keyAt, List.getElem?_append_left hlt, hv]

theorem insert_owned {mine : τ → κ → Prop} (h : st.insert t k = some st') (hown : st.Owned mine)
    (hmine : mine t k) : st'.Owned mine := by
  rcases insert_cases h with ⟨rfl, -⟩ | rfl
  · exact hown
  · intro v hv u hu
    rcases List.mem_append.mp hv with hv | hv
    · exact hown v hv u hu
    · obtain rfl := List.mem_singleton.mp hv
      have hut : u = t := by simpa [eq_comm] using hu
      subst u
      exact hmine

theorem sees_insert_other (h : st.insert t k = some st') (ht : st.status t ≠ .committed)
    (ho : o ≠ some t) {j : Nat} {k' : κ} : st'.Sees o j k' ↔ st.Sees o j k' := by
  rcases insert_cases h with ⟨rfl, -⟩ | rfl
  · rfl
  · rw [sees_append]
    have hnot : st.visible o ⟨k, some t, none⟩ = false := by simp [visible, counts, ho, ht]
    simp [hnot]

theorem sees_insert_own (h : st.insert t k = some st') {k' : κ} :
    (∃ j, st'.Sees (some t) j k') ↔ (∃ j, st.Sees (some t) j k') ∨ k = k' := by
  rcases insert_cases h with ⟨rfl, i, hsees⟩ | rfl
  · constructor
    · exact .inl
    · rintro (hsees' | rfl)
      · exact hsees'
      · exact ⟨i, hsees⟩
  · have hown : st.visible (some t) ⟨k, some t, none⟩ = true := by simp [visible, counts]
    simp only [sees_append, hown, and_true, exists_or, exists_eq_left]

end

end Store

end Lib.ReadCommitted

import Mathlib.Data.List.Induction
import Mathlib.Order.Lattice

/-!
# Stable sorting by a comparison

A sort that is given a comparison promises something only where the comparison is a strict weak
order of the members of the list: the members come out in order, and those that are tied stay in
the order they had. Insertion sort, which moves each member back over the ones that it is less
than, keeps the promise.
-/

namespace Lib

variable {α : Type}

def tied (less : α → α → Bool) (a b : α) : Bool := !less a b && !less b a

structure StrictWeakOn (less : α → α → Bool) (l : List α) : Prop where
  irrefl : ∀ a ∈ l, less a a = false
  trans : ∀ a ∈ l, ∀ b ∈ l, ∀ c ∈ l, less a b = true → less b c = true → less a c = true
  split : ∀ a ∈ l, ∀ b ∈ l, ∀ c ∈ l, less a c = true → less a b = true ∨ less b c = true

structure StableSorted (less : α → α → Bool) (l out : List α) : Prop where
  perm : out.Perm l
  sorted : out.Pairwise fun a b => less b a = false
  stable : ∀ a ∈ l, out.filter (tied less a) = l.filter (tied less a)

def SortsStably (sort : (α → α → Bool) → List α → List α) : Prop :=
  ∀ (less : α → α → Bool) (l : List α), StrictWeakOn less l → StableSorted less l (sort less l)

/-- The member is moved back over the ones that it is less than; the list is reversed. -/
def insertBack (less : α → α → Bool) (a : α) : List α → List α
  | [] => [a]
  | b :: rest => if less a b then b :: insertBack less a rest else a :: b :: rest

def insertionSort (less : α → α → Bool) (l : List α) : List α :=
  (l.foldl (fun sorted a => insertBack less a sorted) []).reverse

section Order

variable {less : α → α → Bool} {l : List α}

theorem StrictWeakOn.asymm (h : StrictWeakOn less l) {a b : α} (ha : a ∈ l) (hb : b ∈ l)
    (hab : less a b = true) : less b a = false := by
  by_contra hba
  have hloop := h.trans a ha b hb a ha hab (by simpa using hba)
  rw [h.irrefl a ha] at hloop
  exact absurd hloop (by simp)

theorem StrictWeakOn.mono (h : StrictWeakOn less l) {part : List α} (hpart : ∀ a ∈ part, a ∈ l) :
    StrictWeakOn less part where
  irrefl a ha := h.irrefl a (hpart a ha)
  trans a ha b hb c hc := h.trans a (hpart a ha) b (hpart b hb) c (hpart c hc)
  split a ha b hb c hc := h.split a (hpart a ha) b (hpart b hb) c (hpart c hc)

theorem strictWeakOn_of_key {κ : Type} [LinearOrder κ] (key : α → κ)
    (hless : ∀ a ∈ l, ∀ b ∈ l, less a b = true ↔ key a < key b) : StrictWeakOn less l where
  irrefl a ha := by
    by_contra h
    have hlt := (hless a ha a ha).mp (by simpa using h)
    exact lt_irrefl _ hlt
  trans a ha b hb c hc hab hbc := by
    have h1 := (hless a ha b hb).mp hab
    have h2 := (hless b hb c hc).mp hbc
    exact (hless a ha c hc).mpr (h1.trans h2)
  split a ha b hb c hc hac := by
    have hlt := (hless a ha c hc).mp hac
    rw [hless a ha b hb, hless b hb c hc]
    exact lt_or_ge (key a) (key b) |>.imp_right fun hle => lt_of_le_of_lt hle hlt

theorem tied_of_key {κ : Type} [LinearOrder κ] (key : α → κ)
    (hless : ∀ a ∈ l, ∀ b ∈ l, less a b = true ↔ key a < key b) {a b : α} (ha : a ∈ l)
    (hb : b ∈ l) : tied less a b = true ↔ key a = key b := by
  have hab : less a b = false ↔ key b ≤ key a := by
    rw [← not_lt, ← hless a ha b hb, Bool.not_eq_true]
  have hba : less b a = false ↔ key a ≤ key b := by
    rw [← not_lt, ← hless b hb a ha, Bool.not_eq_true]
  simp only [tied, Bool.and_eq_true, Bool.not_eq_true', hab, hba]
  exact ⟨fun h => le_antisymm h.2 h.1, fun h => ⟨h.ge, h.le⟩⟩

end Order

/-- `out` is the list in the order of a key, members of one key in the order of the list. -/
structure SortedBy {κ : Type} [DecidableEq κ] (le : κ → κ → Prop) (key : α → κ)
    (l out : List α) : Prop where
  perm : out.Perm l
  sorted : out.Pairwise fun a b => le (key a) (key b)
  stable : ∀ k, out.filter (fun a => key a = k) = l.filter fun a => key a = k

theorem StableSorted.sortedBy {κ : Type} [LinearOrder κ] {key : α → κ} {less : α → α → Bool}
    {l out : List α} (h : StableSorted less l out)
    (hless : ∀ a ∈ l, ∀ b ∈ l, less a b = true ↔ key a < key b) :
    SortedBy (· ≤ ·) key l out where
  perm := h.perm
  sorted := by
    refine h.sorted.imp_of_mem ?_
    intro a b ha hb hba
    have ha' := h.perm.mem_iff.mp ha
    have hb' := h.perm.mem_iff.mp hb
    rw [← not_lt, ← hless b hb' a ha', hba]
    simp
  stable k := by
    by_cases hk : ∃ a ∈ l, key a = k
    · obtain ⟨a, ha, rfl⟩ := hk
      have htied : ∀ b ∈ l, decide (key b = key a) = tied less a b := by
        intro b hb
        rw [Bool.eq_iff_iff, decide_eq_true_iff, tied_of_key key hless ha hb]
        exact eq_comm
      have hout : ∀ b ∈ out, decide (key b = key a) = tied less a b :=
        fun b hb => htied b (h.perm.mem_iff.mp hb)
      rw [List.filter_congr hout, List.filter_congr htied]
      exact h.stable a ha
    · have hnone : ∀ b ∈ l, ¬decide (key b = k) = true := by
        intro b hb hkey
        exact hk ⟨b, hb, by simpa using hkey⟩
      rw [List.filter_eq_nil_iff.mpr hnone, List.filter_eq_nil_iff]
      exact fun b hb => hnone b (h.perm.mem_iff.mp hb)

theorem SortsStably.sortedBy {κ : Type} [LinearOrder κ] {key : α → κ}
    {sort : (α → α → Bool) → List α → List α} (hsort : SortsStably sort) {less : α → α → Bool}
    {l : List α} (hless : ∀ a ∈ l, ∀ b ∈ l, less a b = true ↔ key a < key b) :
    SortedBy (· ≤ ·) key l (sort less l) :=
  (hsort less l (strictWeakOn_of_key key hless)).sortedBy hless

section Insertion

variable (less : α → α → Bool)

theorem perm_insertBack (a : α) (r : List α) : (insertBack less a r).Perm (a :: r) := by
  induction r with
  | nil => exact .refl _
  | cons b rest ih =>
      by_cases hab : less a b = true
      · rw [insertBack, if_pos hab]
        exact (ih.cons b).trans (.swap a b rest)
      · rw [insertBack, if_neg hab]

theorem insertionSort_concat (l : List α) (a : α) :
    insertionSort less (l ++ [a]) =
      (insertBack less a (insertionSort less l).reverse).reverse := by
  simp [insertionSort, List.foldl_append]

theorem perm_insertionSort (l : List α) : (insertionSort less l).Perm l := by
  induction l using List.reverseRecOn with
  | nil => exact .refl _
  | append_singleton l a ih =>
      rw [insertionSort_concat]
      have hinsert := perm_insertBack less a (insertionSort less l).reverse
      have hrest := ((List.reverse_perm _).trans ih).cons a
      have hlast := (List.perm_append_singleton a l).symm
      exact (List.reverse_perm _).trans ((hinsert.trans hrest).trans hlast)

variable {less}

private theorem pairwise_insertBack {a : α} {r : List α} (hw : StrictWeakOn less (a :: r))
    (h : r.Pairwise fun b c => less b c = false) :
    (insertBack less a r).Pairwise fun b c => less b c = false := by
  induction r with
  | nil => simp [insertBack]
  | cons b rest ih =>
      have hb : ∀ c ∈ rest, less b c = false := (List.pairwise_cons.mp h).1
      have hrest := (List.pairwise_cons.mp h).2
      by_cases hab : less a b = true
      · rw [insertBack, if_pos hab]
        have hba := hw.asymm (by simp) (by simp) hab
        refine List.pairwise_cons.mpr ⟨?_, ih (hw.mono (by simp +contextual)) hrest⟩
        intro c hc
        have hmem := (perm_insertBack less a rest).mem_iff.mp hc
        rcases List.mem_cons.mp hmem with rfl | hc
        · exact hba
        · exact hb c hc
      · rw [insertBack, if_neg hab]
        refine List.pairwise_cons.mpr ⟨?_, h⟩
        intro c hc
        rcases List.mem_cons.mp hc with rfl | hc'
        · simpa using hab
        · by_contra hac
          have hsplit := hw.split a (by simp) b (by simp) c (by simp [hc']) (by simpa using hac)
          rcases hsplit with h1 | h2
          · exact hab h1
          · rw [hb c hc'] at h2
            exact absurd h2 (by simp)

private theorem filter_insertBack {a c : α} {r : List α} (hw : StrictWeakOn less (c :: a :: r)) :
    (insertBack less a r).filter (tied less c) = (a :: r).filter (tied less c) := by
  induction r with
  | nil => rfl
  | cons b rest ih =>
      by_cases hab : less a b = true
      · rw [insertBack, if_pos hab, List.filter_cons, ih (hw.mono (by simp +contextual))]
        have hone : ¬(tied less c a = true ∧ tied less c b = true) := by
          rintro ⟨hca, hcb⟩
          simp only [tied, Bool.and_eq_true, Bool.not_eq_true'] at hca hcb
          have hsplit := hw.split a (by simp) c (by simp) b (by simp) hab
          rw [hca.2, hcb.1] at hsplit
          simp at hsplit
        by_cases hca : tied less c a = true
        · have hcb : tied less c b = false := by simpa [hca] using hone
          simp [hca, hcb]
        · simp [List.filter_cons, hca]
      · rw [insertBack, if_neg hab]

private theorem filter_insertionSort {c : α} {l : List α} (hw : StrictWeakOn less (c :: l)) :
    (insertionSort less l).filter (tied less c) = l.filter (tied less c) := by
  induction l using List.reverseRecOn with
  | nil => rfl
  | append_singleton l a ih =>
      have hold := ih (hw.mono (by simp +contextual))
      have hwa : StrictWeakOn less (c :: a :: (insertionSort less l).reverse) := by
        apply hw.mono
        intro b hb
        simp only [List.mem_cons, List.mem_reverse, (perm_insertionSort less l).mem_iff] at hb
        rcases hb with rfl | rfl | hb
        · simp
        · simp
        · simp [hb]
      rw [insertionSort_concat, List.filter_reverse, filter_insertBack hwa, List.filter_cons,
        List.filter_reverse, hold, List.filter_append]
      by_cases hca : tied less c a = true
      · simp [hca]
      · simp [hca]

private theorem pairwise_insertionSort {l : List α} (hw : StrictWeakOn less l) :
    (insertionSort less l).Pairwise fun a b => less b a = false := by
  induction l using List.reverseRecOn with
  | nil => simp [insertionSort]
  | append_singleton l a ih =>
      have hold := ih (hw.mono (by simp +contextual))
      have hwa : StrictWeakOn less (a :: (insertionSort less l).reverse) := by
        apply hw.mono
        intro b hb
        simp only [List.mem_cons, List.mem_reverse, (perm_insertionSort less l).mem_iff] at hb
        rcases hb with rfl | hb
        · simp
        · simp [hb]
      rw [insertionSort_concat, List.pairwise_reverse]
      apply pairwise_insertBack hwa
      rw [List.pairwise_reverse]
      exact hold

theorem sortsStably_insertionSort : SortsStably (insertionSort (α := α)) :=
  fun less l hw => {
    perm := perm_insertionSort less l
    sorted := pairwise_insertionSort hw
    stable := fun c hc => filter_insertionSort (hw.mono (by simp [hc])) }

end Insertion

end Lib

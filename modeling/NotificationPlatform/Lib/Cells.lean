import Mathlib.Data.List.Basic

/-!
# Cells under addresses

A heap as the list of its cells: an address is a position, and a new cell comes last. A
procedure that fills cells it has made keeps them apart from what it reads, which is said by
leaving a range of addresses out of sight.
-/

namespace Lib.Cells

variable {α : Type*}

/-- Whatever is seen by `look` is seen by `other` as well. -/
def Within (look other : Nat → Option α) : Prop :=
  ∀ address cell, look address = some cell → other address = some cell

/-- The cells of a heap but for those at `low` and above that lie below `high`. -/
def outside (heap : List α) (low high address : Nat) : Option α :=
  if address < low ∨ high ≤ address then heap[address]? else none

theorem outside_eq_some {heap : List α} {low high address : Nat} {cell : α} :
    outside heap low high address = some cell ↔
      (address < low ∨ high ≤ address) ∧ heap[address]? = some cell := by
  by_cases h : address < low ∨ high ≤ address
  · simp [outside, h]
  · simp [outside, h]

theorem outside_self (heap : List α) (n : Nat) : outside heap n n = fun i => heap[i]? := by
  funext address
  exact if_pos (Nat.lt_or_ge address n)

theorem getElem?_of_longer {heap later : List α} (hlonger : heap <+: later) {address : Nat}
    {cell : α} (h : heap[address]? = some cell) : later[address]? = some cell := by
  obtain ⟨added, rfl⟩ := hlonger
  rw [List.getElem?_append_left (List.getElem?_eq_some_iff.mp h).1, h]

theorem within_of_longer {heap later : List α} (hlonger : heap <+: later) :
    Within (fun i => heap[i]?) (fun i => later[i]?) :=
  fun _ _ h => getElem?_of_longer hlonger h

/-- A longer heap shows no less, also where the cells that come after the old ones are left out
up to a later address. -/
theorem outside_of_longer {heap later : List α} (hlonger : heap <+: later) {low high : Nat}
    (hhigh : high = heap.length) (other : Nat) :
    Within (outside heap low high) (outside later low other) := by
  intro address cell h
  rw [outside_eq_some] at h
  have hlt : address < heap.length := (List.getElem?_eq_some_iff.mp h.2).1
  have hlow : address < low := h.1.resolve_right (by omega)
  exact outside_eq_some.mpr ⟨.inl hlow, getElem?_of_longer hlonger h.2⟩

theorem outside_mono {heap later : List α} (hlonger : heap <+: later) {low high other : Nat}
    (hother : other ≤ high) : Within (outside heap low high) (outside later low other) := by
  intro address cell h
  rw [outside_eq_some] at h
  have hseen : address < low ∨ other ≤ address := by omega
  exact outside_eq_some.mpr ⟨hseen, getElem?_of_longer hlonger h.2⟩

theorem outside_set (heap : List α) {low high address : Nat} (hlow : low ≤ address)
    (hhigh : address < high) (cell : α) :
    outside (heap.set address cell) low high = outside heap low high := by
  funext i
  by_cases h : i < low ∨ high ≤ i
  · have hne : address ≠ i := by omega
    simp [outside, h, hne]
  · simp [outside, h]

theorem prefix_set {heap later : List α} {cell : α} (h : heap ++ [cell] <+: later) (next : α) :
    heap ++ [next] <+: later.set heap.length next := by
  obtain ⟨added, rfl⟩ := h
  exact ⟨added, by simp⟩

end Lib.Cells

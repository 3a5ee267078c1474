import Mathlib.Data.List.Basic
import Mathlib.Data.List.Infix

/-!
# Texts with placeholders

A text is read from left to right as characters and placeholders, and filled by putting other texts
in the place of the placeholders. Replacing one placeholder after the other comes to the same as
long as the text that is put in makes no placeholder with what stands around it.
-/

namespace Lib.Template

inductive Piece (ι : Type) where
  | char (c : Char)
  | hole (i : ι)
  deriving DecidableEq, Repr

variable {ι : Type}

def holeAt (name : ι → List Char) (holes : List ι) (cs : List Char) : Option ι :=
  holes.find? fun i => (name i).isPrefixOf cs

/-- The pieces of a text, after a number of characters that belong to a placeholder. -/
def piecesFrom (name : ι → List Char) (holes : List ι) : Nat → List Char → List (Piece ι)
  | _, [] => []
  | n + 1, _ :: cs => piecesFrom name holes n cs
  | 0, c :: cs =>
      match holeAt name holes (c :: cs) with
      | some i => .hole i :: piecesFrom name holes ((name i).length - 1) cs
      | none => .char c :: piecesFrom name holes 0 cs

def pieces (name : ι → List Char) (holes : List ι) (cs : List Char) : List (Piece ι) :=
  piecesFrom name holes 0 cs

def Piece.text (value : ι → List Char) : Piece ι → List Char
  | .char c => [c]
  | .hole i => value i

def fill (value : ι → List Char) (ps : List (Piece ι)) : List Char := ps.flatMap (Piece.text value)

def replaceAll (s old new : String) : String :=
  String.ofList (fill (fun _ => new.toList) (pieces (fun _ => old.toList) [()] s.toList))

def Piece.spell [DecidableEq ι] (i : ι) (new : List Char) : Piece ι → List (Piece ι)
  | .char c => [.char c]
  | .hole j => if j = i then new.map .char else [.hole j]

variable {name value : ι → List Char} {holes : List ι}

@[simp] theorem pieces_nil : pieces name holes [] = [] := rfl

@[simp] theorem fill_nil : fill value [] = [] := rfl

@[simp] theorem fill_cons (p : Piece ι) (ps : List (Piece ι)) :
    fill value (p :: ps) = p.text value ++ fill value ps := rfl

@[simp] theorem fill_append (ps qs : List (Piece ι)) :
    fill value (ps ++ qs) = fill value ps ++ fill value qs := List.flatMap_append

theorem fill_chars (cs : List Char) : fill value (cs.map .char) = cs := by
  induction cs with
  | nil => rfl
  | cons c cs ih => simp [Piece.text, ih]

private theorem piecesFrom_append (cs rest : List Char) :
    piecesFrom name holes cs.length (cs ++ rest) = piecesFrom name holes 0 rest := by
  induction cs with
  | nil => rfl
  | cons c cs ih => simpa [piecesFrom] using ih

theorem pieces_char {c : Char} {cs : List Char} (h : holeAt name holes (c :: cs) = none) :
    pieces name holes (c :: cs) = .char c :: pieces name holes cs := by
  simp only [pieces, piecesFrom, h]

theorem exists_rest_of_holeAt {i : ι} {cs : List Char} (h : holeAt name holes cs = some i) :
    ∃ rest, cs = name i ++ rest := by
  have hprefix := List.find?_some h
  obtain ⟨rest, hrest⟩ := List.isPrefixOf_iff_prefix.mp hprefix
  exact ⟨rest, hrest.symm⟩

theorem pieces_hole {i : ι} {rest : List Char} (hne : name i ≠ [])
    (h : holeAt name holes (name i ++ rest) = some i) :
    pieces name holes (name i ++ rest) = .hole i :: pieces name holes rest := by
  obtain ⟨c, cs, hname⟩ := List.exists_cons_of_ne_nil hne
  have hlength : (name i).length - 1 = cs.length := by
    rw [hname, List.length_cons, Nat.add_sub_cancel]
  rw [hname, List.cons_append] at h ⊢
  rw [pieces, piecesFrom]
  simp only [h, hlength, piecesFrom_append]
  rfl

theorem fill_pieces (hne : ∀ i, name i ≠ []) (cs : List Char) :
    fill name (pieces name holes cs) = cs := by
  induction hn : cs.length using Nat.strong_induction_on generalizing cs with
  | h n ih =>
      cases cs with
      | nil => rfl
      | cons c cs =>
          cases hhole : holeAt name holes (c :: cs) with
          | none =>
              have hrest := ih cs.length (by simp [← hn]) cs rfl
              rw [pieces_char hhole, fill_cons, hrest]
              rfl
          | some i =>
              obtain ⟨rest, hcs⟩ := exists_rest_of_holeAt hhole
              have hlt : rest.length < n := by
                have hpos := List.length_pos_iff.mpr (hne i)
                rw [← hn, hcs, List.length_append]
                omega
              rw [hcs] at hhole ⊢
              rw [pieces_hole (hne i) hhole, fill_cons, ih rest.length hlt rest rfl]
              rfl

theorem infix_fill {i : ι} {ps : List (Piece ι)} (hi : .hole i ∈ ps) :
    value i <:+: fill value ps := by
  obtain ⟨before, after, rfl⟩ := List.append_of_mem hi
  exact ⟨fill value before, fill value after, by simp [Piece.text]⟩

theorem fill_of_no_holes {value' : ι → List Char} {ps : List (Piece ι)}
    (h : ∀ i, .hole i ∉ ps) : fill value ps = fill value' ps := by
  induction ps with
  | nil => rfl
  | cons p ps ih =>
      have hrest := ih fun i hi => h i (List.mem_cons_of_mem _ hi)
      cases p with
      | char c => rw [fill_cons, fill_cons, hrest, Piece.text, Piece.text]
      | hole i => exact absurd List.mem_cons_self (h i)

theorem fill_pieces_singleton (name : ι → List Char) (i : ι) (new cs : List Char) :
    fill (fun _ => new) (pieces (fun _ : Unit => name i) [()] cs) =
      fill (fun _ => new) (pieces name [i] cs) := by
  suffices h : ∀ n, fill (fun _ => new) (piecesFrom (fun _ : Unit => name i) [()] n cs) =
      fill (fun _ => new) (piecesFrom name [i] n cs) from h 0
  induction cs with
  | nil => intro n; cases n <;> rfl
  | cons c cs ih =>
      intro n
      cases n with
      | succ n => exact ih n
      | zero =>
          by_cases hprefix : (name i).isPrefixOf (c :: cs) = true
          · have hrest := ih ((name i).length - 1)
            simp [piecesFrom, holeAt, hprefix, Piece.text, hrest]
          · have hrest := ih 0
            simp [piecesFrom, holeAt, hprefix, Piece.text, hrest]

theorem fill_spell [DecidableEq ι] {i : ι} {value' : ι → List Char}
    (hother : ∀ j, j ≠ i → value' j = value j) (ps : List (Piece ι)) :
    fill value' (ps.flatMap (Piece.spell i (value i))) = fill value ps := by
  induction ps with
  | nil => rfl
  | cons p ps ih =>
      have hp : fill value' (p.spell i (value i)) = p.text value := by
        cases p with
        | char c => rfl
        | hole j =>
            by_cases hj : j = i
            · subst j
              simp [Piece.spell, Piece.text, fill_chars]
            · simp [Piece.spell, Piece.text, hj, hother j hj]
      rw [List.flatMap_cons, fill_append, hp, ih, fill_cons]

end Lib.Template

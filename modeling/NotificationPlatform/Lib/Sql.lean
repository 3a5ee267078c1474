import Mathlib.Data.List.Basic

/-!
# Statements with numbered parameters

A row gives a value to every column and a database a list of rows to every table. A statement
names its arguments by their numbers, so that what it does depends on whether the numbers in its
text and the order of its arguments agree. The general results say what a statement cannot touch:
the rows that its conditions, and the references it follows, keep away from.
-/

namespace Lib.Sql

variable {T V : Type}

abbrev Row (V : Type) := String → V

abbrev Db (T V : Type) := T → List (Row V)

/-- What stands for a value in a statement: `$n`, numbered from 1, a literal, or `now()`. -/
inductive Term (V : Type) where
  | param (n : Nat)
  | const (v : V)
  | now

/-- Columns with what stands for their values: assignments, or conditions `column = ..`. -/
abbrev Terms (V : Type) := List (String × Term V)

/-- A foreign key to the column `id` of a table, `ON DELETE CASCADE` or `ON DELETE SET NULL`. -/
structure Reference (T : Type) where
  child : T
  column : String
  parent : T
  cascades : Bool

/-- How a database reads a value for a column (it may refuse to), compares values, which rows a
table may hold together, and which references it follows. -/
structure Engine (T V : Type) where
  read : String → V → Option V
  same : V → V → Bool
  null : V
  valid : T → List (Row V) → Bool
  references : List (Reference T)

inductive Stmt (T V : Type) where
  | update (table : T) (sets conds : Terms V)
  | delete (table : T) (conds : Terms V)

def Term.eval (clock : V) (args : List V) : Term V → Option V
  | .param 0 => none
  | .param (n + 1) => args[n]?
  | .const v => some v
  | .now => some clock

def assign (sets : List (String × V)) (row : Row V) : Row V :=
  fun column => (sets.lookup column).getD (row column)

namespace Engine

variable (E : Engine T V)

/-- The values of the columns; `none` when an argument is missing or cannot be read. -/
def bind (clock : V) (args : List V) : Terms V → Option (List (String × V))
  | [] => some []
  | (column, term) :: rest =>
      match (term.eval clock args).bind (E.read column), bind clock args rest with
      | some v, some vs => some ((column, v) :: vs)
      | _, _ => none

def selects (conds : List (String × V)) (row : Row V) : Bool :=
  conds.all fun c => E.same (row c.1) c.2

def refers (gone : List (Row V)) (ref : Reference T) (row : Row V) : Bool :=
  gone.any fun g => E.same (row ref.column) (g "id")

variable [DecidableEq T]

def release (parent : T) (gone : List (Row V)) (table : T) (row : Row V) : Option (Row V) :=
  let hit := E.references.filter fun ref =>
    decide (ref.parent = parent) && decide (ref.child = table) && E.refers gone ref row
  if hit.any Reference.cascades then none
  else some (assign (hit.map fun ref => (ref.column, E.null)) row)

def updated (table : T) (sets conds : List (String × V)) (u : T) (row : Row V) : Option (Row V) :=
  some (if u = table ∧ E.selects conds row then assign sets row else row)

def remaining (db : Db T V) (table : T) (conds : List (String × V)) (u : T) (row : Row V) :
    Option (Row V) :=
  if u = table ∧ E.selects conds row then none
  else E.release table ((db table).filter (E.selects conds)) u row

/-- Execute a statement: the number of rows it affects and the database after it. -/
def exec (clock : V) (args : List V) (db : Db T V) : Stmt T V → Option (Nat × Db T V)
  | .update table sets conds =>
      match E.bind clock args sets, E.bind clock args conds with
      | some sets, some conds =>
          if E.valid table ((db table).filterMap (E.updated table sets conds table)) then
            some (((db table).filter (E.selects conds)).length,
              fun u => (db u).filterMap (E.updated table sets conds u))
          else none
      | _, _ => none
  | .delete table conds =>
      match E.bind clock args conds with
      | some conds =>
          some (((db table).filter (E.selects conds)).length,
            fun u => (db u).filterMap (E.remaining db table conds u))
      | none => none

def insert (db : Db T V) (table : T) (row : Row V) : Option (Db T V) :=
  if (db table).any fun r => E.same (r "id") (row "id") then none
  else if E.valid table (db table ++ [row]) then
    some fun u => if u = table then db u ++ [row] else db u
  else none

theorem exec_cases {clock : V} {args : List V} {db db' : Db T V} {s : Stmt T V} {n : Nat}
    (h : E.exec clock args db s = some (n, db')) :
    (∃ table sets conds bsets bconds, s = .update table sets conds ∧
      E.bind clock args sets = some bsets ∧ E.bind clock args conds = some bconds ∧
      db' = fun u => (db u).filterMap (E.updated table bsets bconds u)) ∨
    (∃ table conds bconds, s = .delete table conds ∧
      E.bind clock args conds = some bconds ∧
      db' = fun u => (db u).filterMap (E.remaining db table bconds u)) := by
  cases s with
  | update table sets conds =>
      simp only [exec] at h
      split at h
      · next bsets bconds hsets hconds =>
          split at h
          · obtain ⟨-, rfl⟩ := Prod.mk.inj (Option.some.inj h)
            exact .inl ⟨table, sets, conds, bsets, bconds, rfl, hsets, hconds, rfl⟩
          · simp at h
      · simp at h
  | delete table conds =>
      simp only [exec] at h
      split at h
      · next bconds hconds =>
          obtain ⟨-, rfl⟩ := Prod.mk.inj (Option.some.inj h)
          exact .inr ⟨table, conds, bconds, rfl, hconds, rfl⟩
      · simp at h

theorem insert_cases {db db' : Db T V} {table : T} {row : Row V}
    (h : E.insert db table row = some db') :
    (∀ r ∈ db table, E.same (r "id") (row "id") = false) ∧
      db' = fun u => if u = table then db u ++ [row] else db u := by
  unfold insert at h
  split at h
  · simp at h
  · next hnew =>
      split at h
      · refine ⟨fun r hr => ?_, (Option.some.inj h).symm⟩
        simp only [List.any_eq_true, not_exists, not_and, Bool.not_eq_true] at hnew
        exact hnew r hr
      · simp at h

end Engine

section

variable {E : Engine T V} {clock : V} {args : List V}

theorem Engine.bind_eq_some {terms : Terms V} {bound : List (String × V)}
    (h : E.bind clock args terms = some bound) :
    List.Forall₂ (fun t b => t.1 = b.1 ∧ (t.2.eval clock args).bind (E.read t.1) = some b.2)
      terms bound := by
  induction terms generalizing bound with
  | nil =>
      obtain rfl : [] = bound := by simpa [Engine.bind] using h
      exact .nil
  | cons t rest ih =>
      obtain ⟨column, term⟩ := t
      rw [Engine.bind] at h
      split at h
      · next v vs hv hvs =>
          obtain rfl := Option.some.inj h
          exact .cons ⟨rfl, hv⟩ (ih hvs)
      · simp at h

theorem Engine.exists_bound {terms : Terms V} {bound : List (String × V)}
    (h : E.bind clock args terms = some bound) {column : String} {term : Term V}
    (hmem : (column, term) ∈ terms) :
    ∃ v, (column, v) ∈ bound ∧ (term.eval clock args).bind (E.read column) = some v := by
  have hall := Engine.bind_eq_some h
  clear h
  induction hall with
  | nil => simp at hmem
  | @cons t b terms bound hb _ ih =>
      rcases List.mem_cons.mp hmem with heq | hmem
      · obtain ⟨bcolumn, v⟩ := b
        rw [← heq] at hb
        have hcolumn : column = bcolumn := hb.1
        exact ⟨v, by simp [hcolumn], hb.2⟩
      · obtain ⟨v, hv, heval⟩ := ih hmem
        exact ⟨v, List.mem_cons_of_mem _ hv, heval⟩

theorem Engine.bound_columns {terms : Terms V} {bound : List (String × V)}
    (h : E.bind clock args terms = some bound) : bound.map Prod.fst = terms.map Prod.fst := by
  have hall := Engine.bind_eq_some h
  clear h
  induction hall with
  | nil => rfl
  | cons hb _ ih => simp [hb.1, ih]

theorem Engine.selects_congr {conds : List (String × V)} {row row' : Row V}
    (h : ∀ column ∈ conds.map Prod.fst, row column = row' column) :
    E.selects conds row = E.selects conds row' := by
  unfold Engine.selects
  induction conds with
  | nil => rfl
  | cons c rest ih =>
      have hrest := ih fun column hc => h column (List.mem_cons_of_mem _ hc)
      simp only [List.all_cons, hrest, h c.1 (by simp)]

theorem Engine.same_of_selects {conds : List (String × V)} {row : Row V} {column : String} {v : V}
    (h : E.selects conds row = true) (hmem : (column, v) ∈ conds) :
    E.same (row column) v = true :=
  List.all_eq_true.mp h _ hmem

end

theorem assign_of_notMem {sets : List (String × V)} {row : Row V} {column : String}
    (h : column ∉ sets.map Prod.fst) : assign sets row column = row column := by
  have hnone : sets.lookup column = none := by
    rw [List.lookup_eq_none_iff]
    intro p hp
    simp only [bne_iff_ne, ne_eq]
    intro heq
    exact h (List.mem_map.mpr ⟨p, hp, heq.symm⟩)
  simp [assign, hnone]

theorem assign_of_mem {sets : List (String × V)} {row : Row V} {column : String} {v : V}
    (hnodup : (sets.map Prod.fst).Nodup) (hmem : (column, v) ∈ sets) :
    assign sets row column = v := by
  have hlookup : sets.lookup column = some v := by
    induction sets with
    | nil => simp at hmem
    | cons s rest ih =>
        obtain ⟨hnew, hrest⟩ := List.nodup_cons.mp hnodup
        rw [List.lookup_cons]
        rcases List.mem_cons.mp hmem with rfl | hmem
        · simp
        · have hne : column ≠ s.1 := by
            intro heq
            apply hnew
            rw [← heq]
            exact List.mem_map_of_mem hmem
          rw [beq_eq_false_iff_ne.mpr hne]
          exact ih hrest hmem
  simp [assign, hlookup]

section

variable [DecidableEq T] {E : Engine T V}

theorem Engine.release_eq_some {parent table : T} {gone : List (Row V)} {row row' : Row V}
    (h : E.release parent gone table row = some row') :
    (∀ ref ∈ E.references, ref.parent = parent → ref.child = table →
      E.refers gone ref row = true → ref.cascades = false) ∧
    ∃ lost : List (Reference T), (∀ ref ∈ lost, ref ∈ E.references ∧ ref.child = table ∧
      ref.cascades = false) ∧ row' = assign (lost.map fun ref => (ref.column, E.null)) row := by
  unfold Engine.release at h
  dsimp only at h
  split at h
  · simp at h
  · next hnone =>
      have hall : ∀ ref ∈ E.references, ref.parent = parent → ref.child = table →
          E.refers gone ref row = true → ref.cascades = false := by
        intro ref href hparent hchild hrefers
        by_contra hcascades
        apply hnone
        rw [List.any_eq_true]
        refine ⟨ref, List.mem_filter.mpr ⟨href, by simp [hparent, hchild, hrefers]⟩, ?_⟩
        simpa using hcascades
      refine ⟨hall, _, ?_, (Option.some.inj h).symm⟩
      intro ref href
      obtain ⟨hmem, hhit⟩ := List.mem_filter.mp href
      obtain ⟨⟨hparent, hchild⟩, hrefers⟩ :
          (ref.parent = parent ∧ ref.child = table) ∧ E.refers gone ref row = true := by
        simpa using hhit
      exact ⟨hmem, hchild, hall ref hmem hparent hchild hrefers⟩

theorem Engine.filterMap_updated {table : T} {sets conds : List (String × V)}
    (rows : List (Row V)) : rows.filterMap (E.updated table sets conds table) =
      rows.map fun row => if E.selects conds row then assign sets row else row := by
  have hupdated : E.updated table sets conds table =
      fun row => some (if E.selects conds row then assign sets row else row) := by
    funext row
    simp only [Engine.updated, true_and]
  rw [hupdated, List.filterMap_eq_map']

theorem Engine.remaining_eq_some {db : Db T V} {table u : T} {conds : List (String × V)}
    {row row' : Row V} (h : E.remaining db table conds u row = some row') :
    ¬(u = table ∧ E.selects conds row = true) ∧
      E.release table ((db table).filter (E.selects conds)) u row = some row' := by
  unfold Engine.remaining at h
  split at h
  · simp at h
  · next hskip => exact ⟨hskip, h⟩

end

/-- The rows of every table that are not `mine` are the same, in the same order. -/
def Kept (mine : T → Row V → Bool) (db db' : Db T V) : Prop :=
  ∀ u, (db' u).filter (fun row => !mine u row) = (db u).filter (fun row => !mine u row)

theorem Kept.refl (mine : T → Row V → Bool) (db : Db T V) : Kept mine db db := fun _ => rfl

theorem Kept.trans {mine : T → Row V → Bool} {db db' db'' : Db T V} (h : Kept mine db db')
    (h' : Kept mine db' db'') : Kept mine db db'' := fun u => (h' u).trans (h u)

theorem filter_filterMap_kept {mine : Row V → Bool} {f : Row V → Option (Row V)}
    {rows : List (Row V)} (hother : ∀ row ∈ rows, mine row = false → f row = some row)
    (hmine : ∀ row ∈ rows, mine row = true → ∀ row', f row = some row' → mine row' = true) :
    (rows.filterMap f).filter (fun row => !mine row) = rows.filter (fun row => !mine row) := by
  induction rows with
  | nil => rfl
  | cons row rows ih =>
      have hrest := ih (fun r hr => hother r (List.mem_cons_of_mem _ hr))
        fun r hr => hmine r (List.mem_cons_of_mem _ hr)
      cases hrow : mine row with
      | false =>
          rw [List.filterMap_cons_some (hother row (by simp) hrow)]
          simp [hrow, hrest]
      | true =>
          cases hf : f row with
          | none => simp [hf, hrow, hrest]
          | some row' =>
              have hrow' := hmine row (by simp) hrow row' hf
              simp [hf, hrow, hrow', hrest]

section

variable [DecidableEq T] {E : Engine T V} {mine : T → Row V → Bool} {db : Db T V} {table : T}
  {conds : List (String × V)}

theorem kept_update {sets : List (String × V)}
    (hselects : ∀ row ∈ db table, E.selects conds row = true → mine table row = true)
    (hassign : ∀ row, mine table row = true → mine table (assign sets row) = true) :
    Kept mine db fun u => (db u).filterMap (E.updated table sets conds u) := by
  intro u
  apply filter_filterMap_kept
  · intro row hrow hother
    have hskip : ¬(u = table ∧ E.selects conds row = true) := by
      rintro ⟨rfl, hsel⟩
      rw [hselects row hrow hsel] at hother
      simp at hother
    simp [Engine.updated, hskip]
  · intro row _ hmine row' hrow'
    obtain rfl := Option.some.inj hrow'
    split
    · next h =>
        obtain ⟨rfl, -⟩ := h
        exact hassign row hmine
    · exact hmine

theorem kept_delete
    (hselects : ∀ row ∈ db table, E.selects conds row = true → mine table row = true)
    (hrefers : ∀ ref ∈ E.references, ref.parent = table → ∀ row ∈ db ref.child,
      E.refers ((db table).filter (E.selects conds)) ref row = true → mine ref.child row = true)
    (hnull : ∀ u row sets, mine u row = true → (∀ s ∈ sets, ∃ ref ∈ E.references,
      ref.child = u ∧ s = (ref.column, E.null)) → mine u (assign sets row) = true) :
    Kept mine db fun u => (db u).filterMap (E.remaining db table conds u) := by
  intro u
  apply filter_filterMap_kept
  · intro row hrow hother
    have hskip : ¬(u = table ∧ E.selects conds row = true) := by
      rintro ⟨rfl, hsel⟩
      rw [hselects row hrow hsel] at hother
      simp at hother
    have hnone : (E.references.filter fun ref => decide (ref.parent = table) &&
        decide (ref.child = u) &&
          E.refers ((db table).filter (E.selects conds)) ref row) = [] := by
      rw [List.filter_eq_nil_iff]
      intro ref href hhit
      obtain ⟨⟨hparent, rfl⟩, hr⟩ : (ref.parent = table ∧ ref.child = u) ∧ _ = true := by
        simpa using hhit
      rw [hrefers ref href hparent row hrow hr] at hother
      simp at hother
    have hsame : assign ([] : List (String × V)) row = row := rfl
    simp [Engine.remaining, hskip, Engine.release, hnone, hsame]
  · intro row _ hmine row' hrow'
    obtain ⟨-, lost, hlost, rfl⟩ := Engine.release_eq_some (Engine.remaining_eq_some hrow').2
    apply hnull u row _ hmine
    intro s hs
    obtain ⟨ref, href, rfl⟩ := List.mem_map.mp hs
    obtain ⟨hmem, hchild, -⟩ := hlost ref href
    exact ⟨ref, hmem, hchild, rfl⟩

theorem kept_insert {row : Row V} {db' : Db T V} (h : E.insert db table row = some db')
    (hmine : mine table row = true) : Kept mine db db' := by
  obtain ⟨-, rfl⟩ := E.insert_cases h
  intro u
  dsimp only
  split
  · next hu =>
      subst u
      simp [hmine]
  · rfl

end

end Lib.Sql

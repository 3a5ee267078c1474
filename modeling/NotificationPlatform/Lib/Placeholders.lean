import NotificationPlatform.Lib.Sql

/-!
# Placeholders in their order

Columns that are given the placeholders one after the other, each with its value as the next
argument, are bound to these values wherever the arguments stand among others.
-/

namespace Lib.Sql

variable {V : Type}

def Term.number : Term V → Option Nat
  | .param n => some n
  | .const _ | .now => none

def placeholders (terms : Terms V) : List Nat := terms.filterMap fun t => t.2.number

def bindings (clock : V) (args : List V) (terms : Terms V) : List (String × Option V) :=
  terms.map fun t => (t.1, t.2.eval clock args)

def numbered : Nat → List (String × V) → Terms V
  | _, [] => []
  | k, c :: rest => (c.1, .param (k + 1)) :: numbered (k + 1) rest

@[simp] theorem placeholders_append (s t : Terms V) :
    placeholders (s ++ t) = placeholders s ++ placeholders t := List.filterMap_append

@[simp] theorem bindings_append (clock : V) (args : List V) (s t : Terms V) :
    bindings clock args (s ++ t) = bindings clock args s ++ bindings clock args t := List.map_append

theorem numbered_append (k : Nat) (cols rest : List (String × V)) :
    numbered k (cols ++ rest) = numbered k cols ++ numbered (k + cols.length) rest := by
  induction cols generalizing k with
  | nil => rfl
  | cons c cols ih =>
      have hk : k + 1 + cols.length = k + (c :: cols).length := by
        rw [List.length_cons]
        omega
      rw [List.cons_append, numbered, numbered, ih, hk, List.cons_append]

@[simp] theorem placeholders_numbered (k : Nat) (cols : List (String × V)) :
    placeholders (numbered k cols) = List.range' (k + 1) cols.length := by
  induction cols generalizing k with
  | nil => rfl
  | cons c cols ih =>
      rw [numbered, List.length_cons, List.range'_succ, ← ih (k + 1)]
      rfl

theorem map_fst_numbered (k : Nat) (cols : List (String × V)) :
    (numbered k cols).map Prod.fst = cols.map Prod.fst := by
  induction cols generalizing k with
  | nil => rfl
  | cons c cols ih => rw [numbered, List.map_cons, List.map_cons, ih]

theorem bindings_numbered (clock : V) (before behind : List V) (cols : List (String × V)) :
    bindings clock (before ++ cols.map Prod.snd ++ behind) (numbered before.length cols) =
      cols.map fun c => (c.1, some c.2) := by
  induction cols generalizing before with
  | nil => rfl
  | cons c cols ih =>
      have hrest := ih (before ++ [c.2])
      rw [List.length_append, List.length_singleton, List.append_assoc before, List.cons_append,
        List.nil_append] at hrest
      rw [numbered, List.map_cons, List.map_cons]
      have hfirst : (before ++ c.2 :: cols.map Prod.snd ++ behind)[before.length]? = some c.2 := by
        simp
      show (c.1, _) :: bindings clock _ _ = _
      rw [hrest]
      exact congrArg (fun v => (c.1, v) :: _) hfirst

theorem exists_bindings (clock : V) {args : List V} {terms : Terms V}
    (h : ∀ n ∈ placeholders terms, 0 < n ∧ n ≤ args.length) :
    ∃ cols : List (String × V), bindings clock args terms = cols.map fun c => (c.1, some c.2) := by
  induction terms with
  | nil => exact ⟨[], rfl⟩
  | cons t rest ih =>
      obtain ⟨column, term⟩ := t
      have hterm : ∃ v, term.eval clock args = some v := by
        cases term with
        | param n =>
            obtain ⟨hpos, hle⟩ := h n (by simp [placeholders, Term.number])
            obtain ⟨n, rfl⟩ := Nat.exists_eq_succ_of_ne_zero (Nat.ne_of_gt hpos)
            exact ⟨_, List.getElem?_eq_getElem hle⟩
        | const v => exact ⟨v, rfl⟩
        | now => exact ⟨clock, rfl⟩
      have hrest : ∀ n ∈ placeholders rest, 0 < n ∧ n ≤ args.length := by
        intro n hn
        apply h n
        rw [← List.singleton_append, placeholders_append]
        exact List.mem_append_right _ hn
      obtain ⟨v, hv⟩ := hterm
      obtain ⟨cols, hcols⟩ := ih hrest
      refine ⟨(column, v) :: cols, ?_⟩
      rw [List.map_cons, ← hcols, ← hv]
      rfl

theorem Engine.bind_of_bindings {T : Type} {E : Engine T V}
    (hread : ∀ column v, E.read column v = some v) {clock : V} {args : List V} {terms : Terms V}
    {cols : List (String × V)}
    (h : bindings clock args terms = cols.map fun c => (c.1, some c.2)) :
    E.bind clock args terms = some cols := by
  induction terms generalizing cols with
  | nil =>
      obtain rfl : cols = [] := List.map_eq_nil_iff.mp h.symm
      rfl
  | cons t rest ih =>
      cases cols with
      | nil => simp [bindings] at h
      | cons c cols =>
          obtain ⟨column, term⟩ := t
          obtain ⟨hfirst, hrest⟩ := List.cons.inj h
          obtain ⟨hcolumn, hterm⟩ := Prod.mk.inj hfirst
          dsimp only at hcolumn hterm
          rw [Engine.bind, ih hrest, hterm, Option.bind_some, hread, hcolumn]

theorem lookup_filter {p : String → Bool} {column : String} (h : p column = true)
    (cols : List (String × V)) :
    (cols.filter fun c => p c.1).lookup column = cols.lookup column := by
  induction cols with
  | nil => rfl
  | cons c cols ih =>
      obtain ⟨column', v⟩ := c
      rw [List.filter_cons]
      by_cases hcolumn : column = column'
      · subst hcolumn
        rw [if_pos h, List.lookup_cons_self, List.lookup_cons_self]
      · have hne : (column == column') = false := beq_eq_false_iff_ne.mpr hcolumn
        by_cases hp : p column' = true
        · rw [if_pos hp, List.lookup_cons, List.lookup_cons, hne, ih]
        · rw [if_neg hp, List.lookup_cons, hne, ih]

end Lib.Sql

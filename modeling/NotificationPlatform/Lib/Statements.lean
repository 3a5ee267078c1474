import Mathlib.Data.List.Pairwise

/-!
# Statements without a transaction

A list of statements is executed in order until one fails; what was done before the failure stays
done. Such a list is all-or-nothing on a state exactly when no statement before the failing one
does anything, provided that what a statement does cannot be undone by the ones behind it.
-/

namespace Lib

variable {τ σ ε ω : Type}

/-- Execute statements until one fails. `exec n` is what the environment makes of the statement
that is executed as number `n`. -/
def executeAll (exec : Nat → τ → σ → Except ε σ) : Nat → List τ → σ → Except ε Unit × σ
  | _, [], s => (.ok (), s)
  | n, t :: ts, s =>
      match exec n t s with
      | .ok s' => executeAll exec (n + 1) ts s'
      | .error e => (.error e, s)

variable {exec : Nat → τ → σ → Except ε σ} {n : Nat} {t : τ} {ts : List τ} {s s' : σ} {e : ε}

theorem executeAll_ok (h : exec n t s = .ok s') :
    executeAll exec n (t :: ts) s = executeAll exec (n + 1) ts s' := by
  rw [executeAll, h]

theorem executeAll_error (h : exec n t s = .error e) :
    executeAll exec n (t :: ts) s = (.error e, s) := by
  rw [executeAll, h]

theorem executeAll_append_ok (rest : List τ) (h : executeAll exec n ts s = (.ok (), s')) :
    executeAll exec n (ts ++ rest) s = executeAll exec (n + ts.length) rest s' := by
  induction ts generalizing n s with
  | nil =>
      obtain rfl : s = s' := congrArg Prod.snd h
      rfl
  | cons t ts ih =>
      cases hexec : exec n t s with
      | error e => simp [executeAll_error hexec] at h
      | ok u =>
          have hlen : n + (t :: ts).length = n + 1 + ts.length := by
            simp only [List.length_cons]
            omega
          rw [executeAll_ok hexec] at h
          rw [List.cons_append, executeAll_ok hexec, ih h, hlen]

theorem executeAll_append_error (rest : List τ) (h : executeAll exec n ts s = (.error e, s')) :
    executeAll exec n (ts ++ rest) s = (.error e, s') := by
  induction ts generalizing n s with
  | nil => simp [executeAll] at h
  | cons t ts ih =>
      cases hexec : exec n t s with
      | error e' =>
          rw [executeAll_error hexec] at h
          rw [List.cons_append, executeAll_error hexec, h]
      | ok u =>
          rw [executeAll_ok hexec] at h
          rw [List.cons_append, executeAll_ok hexec, ih h]

def FailsAfter (exec : Nat → τ → σ → Except ε σ) (n : Nat) (done : List τ) (t : τ) (s : σ) : Prop :=
  ∃ s' e, executeAll exec n done s = (.ok (), s') ∧ exec (n + done.length) t s' = .error e

theorem executeAll_fails {done : List τ} (rest : List τ) (hdone : executeAll exec n done s = (.ok (), s'))
    (hfail : exec (n + done.length) t s' = .error e) :
    executeAll exec n (done ++ t :: rest) s = (.error e, s') := by
  induction done generalizing n s with
  | nil =>
      obtain rfl : s = s' := congrArg Prod.snd hdone
      exact executeAll_error hfail
  | cons d done ih =>
      cases hexec : exec n d s with
      | error e' => simp [executeAll_error hexec] at hdone
      | ok u =>
          rw [executeAll_ok hexec] at hdone
          rw [List.cons_append, executeAll_ok hexec]
          apply ih hdone
          rw [← hfail]
          congr 1
          simp only [List.length_cons]
          omega

theorem exists_fails_of_error (h : (executeAll exec n ts s).1 = .error e) :
    ∃ done t rest, ts = done ++ t :: rest ∧ FailsAfter exec n done t s := by
  induction ts generalizing n s with
  | nil => simp [executeAll] at h
  | cons t ts ih =>
      cases hexec : exec n t s with
      | error e' => exact ⟨[], t, ts, rfl, s, e', rfl, hexec⟩
      | ok u =>
          rw [executeAll_ok hexec] at h
          obtain ⟨done, x, rest, rfl, s', e', hdone, hfail⟩ := ih h
          refine ⟨t :: done, x, rest, rfl, s', e', ?_, ?_⟩
          · rw [executeAll_ok hexec, hdone]
          · rw [← hfail]
            congr 1
            simp only [List.length_cons]
            omega

/-- What statements do to the view of a state lasts: a statement that is not idle leaves a mark, and
the mark outlasts the statements that may stand behind it. -/
structure Lasting (exec : Nat → τ → σ → Except ε σ) (view : σ → ω) (before : τ → τ → Prop)
    (idle : τ → σ → Prop) (mark : τ → σ → Prop) (s : σ) : Prop where
  same : ∀ n t s', exec n t s = .ok s' → idle t s → s' = s
  marks : ∀ n t s', exec n t s = .ok s' → ¬idle t s → mark t s'
  keeps : ∀ n x t u u', before x t → mark x u → exec n t u = .ok u' → mark x u'
  differs : ∀ x u, mark x u → view u ≠ view s

variable {view : σ → ω} {before : τ → τ → Prop} {idle : τ → σ → Prop} {mark : τ → σ → Prop}

theorem Lasting.mark_executeAll (h : Lasting exec view before idle mark s) {x : τ} {u : σ}
    (hbefore : ∀ y ∈ ts, before x y) (hu : mark x u) : mark x (executeAll exec n ts u).2 := by
  induction ts generalizing n u with
  | nil => exact hu
  | cons t ts ih =>
      cases hexec : exec n t u with
      | error e =>
          rw [executeAll_error hexec]
          exact hu
      | ok u' =>
          rw [executeAll_ok hexec]
          have hbefore' : ∀ y ∈ ts, before x y := fun y hy => hbefore y (List.mem_cons_of_mem _ hy)
          exact ih hbefore' (h.keeps n x t u u' (hbefore t List.mem_cons_self) hu hexec)

theorem Lasting.same_iff (h : Lasting exec view before idle mark s) (horder : ts.Pairwise before)
    (hok : executeAll exec n ts s = (.ok (), s')) :
    view s' = view s ↔ ∀ x ∈ ts, idle x s := by
  induction ts generalizing n with
  | nil =>
      obtain rfl : s = s' := congrArg Prod.snd hok
      simp
  | cons t ts ih =>
      obtain ⟨hfirst, htail⟩ := List.pairwise_cons.mp horder
      cases hexec : exec n t s with
      | error e => simp [executeAll_error hexec] at hok
      | ok u =>
          rw [executeAll_ok hexec] at hok
          by_cases hidle : idle t s
          · obtain rfl := h.same n t u hexec hidle
            rw [ih htail hok]
            simp [hidle]
          · have hmark := h.mark_executeAll (n := n + 1) hfirst (h.marks n t u hexec hidle)
            rw [hok] at hmark
            constructor
            · intro hsame
              exact absurd hsame (h.differs t _ hmark)
            · intro hall
              exact absurd (hall t List.mem_cons_self) hidle

theorem Lasting.unchanged_iff (h : Lasting exec view before idle mark s) (horder : ts.Pairwise before) :
    ((∃ e, (executeAll exec n ts s).1 = .error e) → view (executeAll exec n ts s).2 = view s) ↔
      ∀ done t rest, ts = done ++ t :: rest → FailsAfter exec n done t s →
        ∀ x ∈ done, idle x s := by
  constructor
  · rintro hsame done t rest rfl ⟨s', e, hdone, hfail⟩
    have hall := executeAll_fails rest hdone hfail
    rw [hall] at hsame
    have horder := (List.pairwise_append.mp horder).1
    exact (h.same_iff horder hdone).mp (hsame ⟨e, rfl⟩)
  · rintro hidle ⟨e, herror⟩
    obtain ⟨done, t, rest, rfl, hfails⟩ := exists_fails_of_error herror
    have hall := hidle done t rest rfl hfails
    obtain ⟨s', e', hdone, hfail⟩ := hfails
    rw [executeAll_fails rest hdone hfail]
    exact (h.same_iff (List.pairwise_append.mp horder).1 hdone).mpr hall

end Lib

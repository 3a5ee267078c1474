import Mathlib.Data.List.Basic

/-!
# Programs of calls

A program makes calls to a shared environment and continues with each reply. The same
program text has two meanings: run alone against a handler (`eval`), or as one party among
many, of which only the order of its calls is known. For the second meaning a program is
checked once against a protocol (`Follows`), and what a system of programs preserves is then
proved from the protocol alone.
-/

namespace Lib

inductive Prog (S : Type) (R : S → Type) (α : Type) where
  | ret (a : α)
  | call (s : S) (k : R s → Prog S R α)

namespace Prog

variable {S : Type} {R : S → Type} {α β σ γ : Type}

def bind : Prog S R α → (α → Prog S R β) → Prog S R β
  | .ret a, f => f a
  | .call s k, f => .call s (fun r => (k r).bind f)

instance : Monad (Prog S R) where
  pure := Prog.ret
  bind := Prog.bind

def perform (s : S) : Prog S R (R s) := .call s .ret

@[simp] theorem pure_eq (a : α) : (pure a : Prog S R α) = .ret a := rfl

@[simp] theorem ret_bind (a : α) (f : α → Prog S R β) : (Prog.ret a >>= f) = f a := rfl

@[simp] theorem call_bind (s : S) (k : R s → Prog S R α) (f : α → Prog S R β) :
    (Prog.call s k >>= f) = .call s (fun r => k r >>= f) := rfl

@[simp] theorem perform_bind (s : S) (f : R s → Prog S R β) :
    (perform s >>= f) = .call s f := rfl

def next? : Prog S R α → Option S
  | .ret _ => none
  | .call s _ => some s

/-- Run a program alone: every call is answered by the handler, which carries the state. -/
def eval (h : (s : S) → σ → R s × σ) : Prog S R α → σ → α × σ
  | .ret a, w => (a, w)
  | .call s k, w => (k (h s w).1).eval h (h s w).2

@[simp] theorem eval_ret (h : (s : S) → σ → R s × σ) (a : α) (w : σ) :
    (Prog.ret a : Prog S R α).eval h w = (a, w) := rfl

@[simp] theorem eval_call (h : (s : S) → σ → R s × σ) (s : S) (k : R s → Prog S R α) (w : σ) :
    (Prog.call s k).eval h w = (k (h s w).1).eval h (h s w).2 := rfl

theorem eval_bind (h : (s : S) → σ → R s × σ) (p : Prog S R α) (f : α → Prog S R β) (w : σ) :
    (p >>= f).eval h w = (f (p.eval h w).1).eval h (p.eval h w).2 := by
  induction p generalizing w with
  | ret a => rfl
  | call s k ih =>
      rw [call_bind, eval_call, ih]
      rfl

/-- Run alone, the program receives only replies that satisfy `P`, and its result and the state
it leaves satisfy `Q`. -/
def Ends (h : (s : S) → σ → R s × σ) (P : (s : S) → R s → Prop) (Q : α → σ → Prop) :
    Prog S R α → σ → Prop
  | .ret a, w => Q a w
  | .call s k, w => P s (h s w).1 ∧ (k (h s w).1).Ends h P Q (h s w).2

theorem ends_call {h : (s : S) → σ → R s × σ} {P : (s : S) → R s → Prop} {Q : α → σ → Prop}
    {s : S} {k : R s → Prog S R α} {w w' : σ} {r : R s} (hs : h s w = (r, w')) (hr : P s r)
    (hk : (k r).Ends h P Q w') : (Prog.call s k).Ends h P Q w := by
  refine ⟨?_, ?_⟩ <;> rw [hs] <;> assumption

theorem Ends.mono {h : (s : S) → σ → R s × σ} {P : (s : S) → R s → Prop} {Q Q' : α → σ → Prop}
    {p : Prog S R α} {w : σ} (hp : p.Ends h P Q w) (himp : ∀ a w, Q a w → Q' a w) :
    p.Ends h P Q' w := by
  induction p generalizing w with
  | ret a => exact himp a w hp
  | call s k ih => exact ⟨hp.1, ih _ hp.2⟩

theorem Ends.eval {h : (s : S) → σ → R s × σ} {P : (s : S) → R s → Prop} {Q : α → σ → Prop}
    {p : Prog S R α} {w : σ} (hp : p.Ends h P Q w) : Q (p.eval h w).1 (p.eval h w).2 := by
  induction p generalizing w with
  | ret a => exact hp
  | call s k ih => exact ih _ hp.2

theorem Ends.of_bind {h : (s : S) → σ → R s × σ} {P : (s : S) → R s → Prop} {Q : β → σ → Prop}
    {p : Prog S R α} {f : α → Prog S R β} {w : σ} (hp : (p >>= f).Ends h P Q w) :
    p.Ends h P (fun a w' => (f a).Ends h P Q w') w := by
  induction p generalizing w with
  | ret a => exact hp
  | call s k ih => exact ⟨hp.1, ih _ hp.2⟩

/-- Run alone, the program comes to a point of its own, and makes only calls that satisfy `P` on
the way. -/
inductive Reaches (h : (s : S) → σ → R s × σ) (P : S → Prop) :
    Prog S R α → σ → Prog S R α → σ → Prop
  | refl (p : Prog S R α) (w : σ) : Reaches h P p w p w
  | call {s : S} {k : R s → Prog S R α} {p' : Prog S R α} {w w' : σ} (hs : P s)
      (hrest : Reaches h P (k (h s w).1) (h s w).2 p' w') : Reaches h P (.call s k) w p' w'

section

variable {h : (s : S) → σ → R s × σ} {P : S → Prop}

theorem Reaches.of_call {s : S} {k : R s → Prog S R α} {p' : Prog S R α} {w w₁ w' : σ} {r : R s}
    (hs : P s) (heq : h s w = (r, w₁)) (hrest : Reaches h P (k r) w₁ p' w') :
    Reaches h P (.call s k) w p' w' := by
  apply Reaches.call hs
  rw [heq]
  exact hrest

theorem Reaches.trans {p₁ p₂ p₃ : Prog S R α} {w₁ w₂ w₃ : σ} (h₁₂ : Reaches h P p₁ w₁ p₂ w₂)
    (h₂₃ : Reaches h P p₂ w₂ p₃ w₃) : Reaches h P p₁ w₁ p₃ w₃ := by
  induction h₁₂ with
  | refl p w => exact h₂₃
  | call hs _ ih => exact .call hs (ih h₂₃)

theorem Reaches.next?_ne_none {p p' : Prog S R α} {w w' : σ} (hp : Reaches h P p w p' w')
    (hnext : p'.next? ≠ none) : p.next? ≠ none := by
  cases hp with
  | refl p w => exact hnext
  | call _ _ => simp [next?]

theorem Reaches.bind {p : Prog S R α} {w w' : σ} {a : α} (hp : Reaches h P p w (.ret a) w')
    (f : α → Prog S R β) : Reaches h P (p >>= f) w (f a) w' := by
  generalize hend : (Prog.ret a : Prog S R α) = q at hp
  induction hp with
  | refl p w =>
      subst hend
      exact .refl (f a) w
  | call hs _ ih => exact .call hs (ih hend)

end

/-- As long as every reply is one that `A` allows, the program makes only calls that satisfy `C`
and ends with a result that satisfies `Q`. -/
def Yields (A : (s : S) → R s → Prop) (C : S → Prop) (Q : α → Prop) : Prog S R α → Prop
  | .ret a => Q a
  | .call s k => C s ∧ ∀ r, A s r → (k r).Yields A C Q

abbrev Makes (A : (s : S) → R s → Prop) (C : S → Prop) (p : Prog S R α) : Prop :=
  p.Yields A C fun _ => True

theorem Yields.bind {A : (s : S) → R s → Prop} {C : S → Prop} {Q : α → Prop} {Q' : β → Prop}
    {p : Prog S R α} {f : α → Prog S R β} (hp : p.Yields A C Q)
    (hf : ∀ a, Q a → (f a).Yields A C Q') : (p >>= f).Yields A C Q' := by
  induction p with
  | ret a => exact hf a hp
  | call s k ih => exact ⟨hp.1, fun r hr => ih r (hp.2 r hr)⟩

theorem Makes.bind {A : (s : S) → R s → Prop} {C : S → Prop} {p : Prog S R α}
    {f : α → Prog S R β} (hp : p.Makes A C) (hf : ∀ a, (f a).Makes A C) :
    (p >>= f).Makes A C :=
  Yields.bind hp fun a _ => hf a

/-- The program keeps to the protocol `P` from protocol state `g`: each call it makes is one
that `P` allows, whatever the replies were, and it ends in states that satisfy `Q`. -/
def Follows (P : γ → (s : S) → (R s → γ) → Prop) (Q : γ → α → Prop) : γ → Prog S R α → Prop
  | g, .ret a => Q g a
  | g, .call s k => ∃ f, P g s f ∧ ∀ r, Follows P Q (f r) (k r)

variable {P : γ → (s : S) → (R s → γ) → Prop}

@[simp] theorem follows_ret {Q : γ → α → Prop} (g : γ) (a : α) :
    Follows P Q g (.ret a : Prog S R α) ↔ Q g a := Iff.rfl

theorem follows_call {Q : γ → α → Prop} {g : γ} {s : S} {k : R s → Prog S R α}
    (f : R s → γ) (hf : P g s f) (hk : ∀ r, Follows P Q (f r) (k r)) :
    Follows P Q g (.call s k) := ⟨f, hf, hk⟩

theorem Follows.mono {Q Q' : γ → α → Prop} {g : γ} {p : Prog S R α} (h : Follows P Q g p)
    (himp : ∀ g a, Q g a → Q' g a) : Follows P Q' g p := by
  induction p generalizing g with
  | ret a => exact himp g a h
  | call s k ih =>
      obtain ⟨next, hallowed, hk⟩ := h
      exact ⟨next, hallowed, fun r => ih r (hk r)⟩

theorem Follows.bind {Q : γ → α → Prop} {Q' : γ → β → Prop} {g : γ} {p : Prog S R α}
    {f : α → Prog S R β} (hp : Follows P Q g p)
    (hf : ∀ g' a, Q g' a → Follows P Q' g' (f a)) : Follows P Q' g (p >>= f) := by
  induction p generalizing g with
  | ret a => exact hf g a hp
  | call s k ih =>
      obtain ⟨next, hallowed, hk⟩ := hp
      exact ⟨next, hallowed, fun r => ih r (hk r)⟩

theorem Follows.eval {Q : γ → α → Prop} {h : (s : S) → σ → R s × σ} {I : γ → σ → Prop}
    (hstep : ∀ g s f w, P g s f → I g w → I (f (h s w).1) (h s w).2) {g : γ} {p : Prog S R α}
    (hp : Follows P Q g p) {w : σ} (hw : I g w) :
    ∃ g', Q g' (p.eval h w).1 ∧ I g' (p.eval h w).2 := by
  induction p generalizing g w with
  | ret a => exact ⟨g, hp, hw⟩
  | call s k ih =>
      obtain ⟨next, hallowed, hk⟩ := hp
      exact ih _ (hk _) (hstep g s next w hallowed hw)

theorem Follows.eval_of_ends {Q : γ → α → Prop} {h : (s : S) → σ → R s × σ} {I : γ → σ → Prop}
    {E : (s : S) → R s → Prop} {E' : α → σ → Prop}
    (hstep : ∀ g s f w, P g s f → E s (h s w).1 → I g w → I (f (h s w).1) (h s w).2) {g : γ}
    {p : Prog S R α} (hp : Follows P Q g p) {w : σ} (hends : p.Ends h E E' w) (hw : I g w) :
    ∃ g', Q g' (p.eval h w).1 ∧ I g' (p.eval h w).2 := by
  induction p generalizing g w with
  | ret a => exact ⟨g, hp, hw⟩
  | call s k ih =>
      obtain ⟨next, hallowed, hk⟩ := hp
      obtain ⟨hreply, hrest⟩ := hends
      exact ih _ (hk _) hrest (hstep g s next w hallowed hreply hw)

end Prog

end Lib

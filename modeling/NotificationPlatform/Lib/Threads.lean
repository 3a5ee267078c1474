import NotificationPlatform.Lib.Program
import NotificationPlatform.Lib.Run

/-!
# Programs side by side

Programs over one shared state make their calls in any order, and anything else may change the
state in between. Whatever the others do, the calls of one program and their replies are a run of
this program alone, so what is proved of it along its own calls holds of it in every run of all.
-/

namespace Lib

abbrev Made (S : Type) (R : S → Type) : Type := (s : S) × R s

namespace Prog

variable {S : Type} {R : S → Type} {α β : Type}

inductive After : Prog S R α → List (Made S R) → Prog S R α → Prop
  | nil (p : Prog S R α) : After p [] p
  | cons {s : S} {k : R s → Prog S R α} {r : R s} {made : List (Made S R)} {q : Prog S R α}
      (hrest : After (k r) made q) : After (.call s k) (⟨s, r⟩ :: made) q

theorem After.append {p q r : Prog S R α} {made later : List (Made S R)} (h : After p made q)
    (h' : After q later r) : After p (made ++ later) r := by
  induction h with
  | nil p => exact h'
  | cons _ ih => exact .cons (ih h')

/-- Every call is one that `C` allows after the calls before it, and the result fits all calls. -/
def Keeps (C : List (Made S R) → S → Prop) (Q : List (Made S R) → α → Prop) :
    List (Made S R) → Prog S R α → Prop :=
  Follows (fun made s next => C made s ∧ next = fun r => made ++ [⟨s, r⟩]) Q

variable {C : List (Made S R) → S → Prop} {made : List (Made S R)}

theorem keeps_call {Q : List (Made S R) → α → Prop} {s : S} {k : R s → Prog S R α} (hs : C made s)
    (hk : ∀ r, Keeps C Q (made ++ [⟨s, r⟩]) (k r)) : Keeps C Q made (.call s k) :=
  follows_call _ ⟨hs, rfl⟩ hk

theorem Keeps.bind {Q : List (Made S R) → α → Prop} {Q' : List (Made S R) → β → Prop}
    {p : Prog S R α} {f : α → Prog S R β} (hp : Keeps C Q made p)
    (hf : ∀ made' a, Q made' a → Keeps C Q' made' (f a)) : Keeps C Q' made (p >>= f) :=
  Follows.bind hp hf

theorem Keeps.mono {Q Q' : List (Made S R) → α → Prop} {p : Prog S R α} (hp : Keeps C Q made p)
    (himp : ∀ made a, Q made a → Q' made a) : Keeps C Q' made p :=
  Follows.mono hp himp

theorem Keeps.after {Q : List (Made S R) → α → Prop} {p q : Prog S R α} {later : List (Made S R)}
    (hp : Keeps C Q made p) (hafter : After p later q) : Keeps C Q (made ++ later) q := by
  induction hafter generalizing made with
  | nil p => simpa using hp
  | cons _ ih =>
      obtain ⟨next, ⟨-, rfl⟩, hk⟩ := hp
      simpa using ih (hk _)

end Prog

structure Threads (S : Type) (R : S → Type) (α σ : Type) where
  state : σ
  threads : List (Prog S R α)

inductive ThreadEvent (S : Type) (R : S → Type) (α σ ω : Type) where
  | start (p : Prog S R α)
  | call (i : Nat) (o : ω)
  /-- something else leaves this state -/
  | other (s : σ)

namespace Threads

variable {S : Type} {R : S → Type} {α σ ω : Type}

def start (w : Threads S R α σ) (p : Prog S R α) : Threads S R α σ :=
  { w with threads := w.threads ++ [p] }

def step (exec : ω → (s : S) → σ → R s × σ) (w : Threads S R α σ) :
    ThreadEvent S R α σ ω → Option (Threads S R α σ)
  | .start p => some (w.start p)
  | .call i o =>
      match w.threads[i]? with
      | some (.call s k) =>
          some ⟨(exec o s w.state).2, w.threads.set i (k (exec o s w.state).1)⟩
      | _ => none
  | .other s => some { w with state := s }

def madeBy (exec : ω → (s : S) → σ → R s × σ) (i : Nat) (w : Threads S R α σ) :
    ThreadEvent S R α σ ω → Option (Made S R)
  | .call j o =>
      match w.threads[i]? with
      | some (.call s _) => if j = i then some ⟨s, (exec o s w.state).1⟩ else none
      | _ => none
  | _ => none

abbrev calls (exec : ω → (s : S) → σ → R s × σ) (i : Nat) (w : Threads S R α σ)
    (es : List (ThreadEvent S R α σ ω)) : List (Made S R) :=
  observed (step exec) (madeBy exec i) w es

variable {exec : ω → (s : S) → σ → R s × σ} {w w' : Threads S R α σ} {i : Nat}

theorem step_thread {e : ThreadEvent S R α σ ω} (h : w.step exec e = some w') {p : Prog S R α}
    (hp : w.threads[i]? = some p) :
    ∃ q, w'.threads[i]? = some q ∧ p.After (madeBy exec i w e).toList q := by
  have hi := (List.getElem?_eq_some_iff.mp hp).1
  cases e with
  | start p' =>
      obtain rfl := Option.some.inj h
      exact ⟨p, by simpa [start, List.getElem?_append_left hi] using hp, .nil p⟩
  | other s =>
      obtain rfl := Option.some.inj h
      exact ⟨p, hp, .nil p⟩
  | call j o =>
      simp only [step] at h
      split at h
      · next s k hthread =>
          obtain rfl := Option.some.inj h
          by_cases hji : j = i
          · subst hji
            obtain rfl : Prog.call s k = p := Option.some.inj (hthread.symm.trans hp)
            refine ⟨k (exec o s w.state).1, by simp [hi], ?_⟩
            simp only [madeBy, hp, if_true]
            exact .cons (.nil _)
          · refine ⟨p, by simpa [List.getElem?_set_ne hji] using hp, ?_⟩
            have hnone : madeBy exec i w (.call j o) = none := by
              simp only [madeBy, hp]
              cases p <;> simp [hji]
            rw [hnone]
            exact .nil p
      · simp at h

theorem after_calls {ok : Threads S R α σ → ThreadEvent S R α σ ω → Prop}
    {es : List (ThreadEvent S R α σ ω)} (h : Run (step exec) ok w es w') {p : Prog S R α}
    (hp : w.threads[i]? = some p) :
    ∃ q, w'.threads[i]? = some q ∧ p.After (calls exec i w es) q := by
  induction h generalizing p with
  | nil w => exact ⟨p, hp, .nil p⟩
  | cons _ hstep _ ih =>
      obtain ⟨p', hp', hfirst⟩ := step_thread hstep hp
      obtain ⟨q, hq, hrest⟩ := ih hp'
      exact ⟨q, hq, by rw [calls, observed_cons hstep]; exact hfirst.append hrest⟩

/-- **A program among others.** A program that keeps to `C` and `Q` by itself keeps to them in
every run of all, from its start. -/
theorem keeps_started {ok : Threads S R α σ → ThreadEvent S R α σ ω → Prop}
    {es : List (ThreadEvent S R α σ ω)} {C : List (Made S R) → S → Prop}
    {Q : List (Made S R) → α → Prop} {p q : Prog S R α} (hp : p.Keeps C Q [])
    (h : Run (step exec) ok (w.start p) es w') (hq : w'.threads[w.threads.length]? = some q) :
    q.Keeps C Q (calls exec w.threads.length (w.start p) es) := by
  have hstart : (w.start p).threads[w.threads.length]? = some p := by simp [start]
  obtain ⟨q', hq', hafter⟩ := after_calls h hstart
  obtain rfl := Option.some.inj (hq.symm.trans hq')
  simpa using hp.after hafter

end Threads

end Lib

import Mathlib.Data.List.Forall2

/-!
# Guarded runs

Runs of a partial step function in which every event is admitted by the state it is taken in.
The guard separates what a system can do from what a particular theorem assumes of its
environment: one step function serves every theorem, each with its own guard.
-/

namespace Lib

variable {σ ε : Type}

/-- The events `es` lead from one state to another, each of them admitted where it was taken. -/
inductive Run (step : σ → ε → Option σ) (ok : σ → ε → Prop) : σ → List ε → σ → Prop
  | nil (s : σ) : Run step ok s [] s
  | cons {s s' t : σ} {e : ε} {es : List ε} (hok : ok s e) (hstep : step s e = some s')
      (hrest : Run step ok s' es t) : Run step ok s (e :: es) t

def execute (step : σ → ε → Option σ) (okb : σ → ε → Bool) : σ → List ε → Option σ
  | s, [] => some s
  | s, e :: es =>
      if okb s e then
        match step s e with
        | some s' => execute step okb s' es
        | none => none
      else none

variable {step : σ → ε → Option σ} {ok ok' : σ → ε → Prop}

theorem Run.append {s t u : σ} {es fs : List ε} (h : Run step ok s es t)
    (h' : Run step ok t fs u) : Run step ok s (es ++ fs) u := by
  induction h with
  | nil s => exact h'
  | cons hok hstep _ ih => exact .cons hok hstep (ih h')

theorem Run.mono {s t : σ} {es : List ε} (h : Run step ok s es t)
    (himp : ∀ s e, ok s e → ok' s e) : Run step ok' s es t := by
  induction h with
  | nil s => exact .nil s
  | cons hok hstep _ ih => exact .cons (himp _ _ hok) hstep ih

theorem Run.mono_of_invariant {I : σ → Prop} {s t : σ} {es : List ε} (h : Run step ok s es t)
    (hs : I s) (hstep : ∀ s e s', I s → ok s e → step s e = some s' → I s')
    (himp : ∀ s e, I s → ok s e → ok' s e) : Run step ok' s es t := by
  induction h with
  | nil s => exact .nil s
  | cons hok hnext _ ih => exact .cons (himp _ _ hs hok) hnext (ih (hstep _ _ _ hs hok hnext))

theorem Run.of_states {P : σ → Prop} {s t : σ} {es : List ε}
    (h : Run step (fun s _ => P s) s es t) (ht : P t)
    (himp : ∀ s e s', P s → P s' → step s e = some s' → ok s e) : Run step ok s es t := by
  induction h with
  | nil s => exact .nil s
  | @cons s s' t e es hs hstep hrest ih =>
      have hs' : P s' := by
        cases hrest with
        | nil _ => exact ht
        | cons hnext _ _ => exact hnext
      exact .cons (himp s e s' hs hs' hstep) hstep (ih ht)

theorem Run.invariant {I : σ → Prop} {s t : σ} {es : List ε} (h : Run step ok s es t)
    (hstep : ∀ s e s', I s → ok s e → step s e = some s' → I s') (hs : I s) : I t := by
  induction h with
  | nil s => exact hs
  | cons hok hnext _ ih => exact ih (hstep _ _ _ hs hok hnext)

theorem Run.at_event {s t : σ} {es before after : List ε} {e : ε} (h : Run step ok s es t)
    (hes : es = before ++ e :: after) :
    ∃ u u', Run step ok s before u ∧ ok u e ∧ step u e = some u' := by
  induction before generalizing s es with
  | nil =>
      subst hes
      cases h with
      | cons hok hstep _ => exact ⟨s, _, .nil s, hok, hstep⟩
  | cons x xs ih =>
      subst hes
      cases h with
      | cons hok hstep hrest =>
          obtain ⟨u, u', hrun, hu, hu'⟩ := ih hrest rfl
          exact ⟨u, u', .cons hok hstep hrun, hu, hu'⟩

theorem Run.unique {s t t' : σ} {es : List ε} (h : Run step ok s es t) (h' : Run step ok' s es t') :
    t = t' := by
  induction h with
  | nil s =>
      cases h'
      rfl
  | cons _ hstep _ ih =>
      cases h' with
      | cons _ hstep' hrest' =>
          rw [hstep] at hstep'
          obtain rfl := Option.some.inj hstep'
          exact ih hrest'

def Passes (step : σ → ε → Option σ) (ok : σ → ε → Prop) (s : σ) (es : List ε) (t u : σ) : Prop :=
  ∃ before after, es = before ++ after ∧ Run step ok s before u ∧ Run step ok u after t

def Takes (step : σ → ε → Option σ) (ok : σ → ε → Prop) (s : σ) (es : List ε) (t u : σ) (e : ε) :
    Prop :=
  ∃ before after, es = before ++ e :: after ∧ Run step ok s before u ∧ Run step ok u (e :: after) t

theorem Takes.passes {s t u : σ} {es : List ε} {e : ε} (h : Takes step ok s es t u e) :
    Passes step ok s es t u := by
  obtain ⟨before, after, hes, hbefore, hafter⟩ := h
  exact ⟨before, e :: after, hes, hbefore, hafter⟩

private theorem taking_rest {s t u : σ} {es before after : List ε} (hafter : Run step ok u after t) :
    es = before ++ after → Run step ok s before u →
      Run step (fun u e => ok u e ∧ Takes step ok s es t u e) u after t := by
  induction hafter generalizing before with
  | nil u => exact fun _ _ => .nil u
  | @cons u u' t e after hok hstep hrest ih =>
      intro hes hbefore
      have htakes : Takes step ok s es t u e :=
        ⟨before, after, hes, hbefore, .cons hok hstep hrest⟩
      exact .cons ⟨hok, htakes⟩ hstep
        (ih (by simp [hes]) (hbefore.append (.cons hok hstep (.nil u'))))

theorem Run.taking {s t : σ} {es : List ε} (h : Run step ok s es t) :
    Run step (fun u e => ok u e ∧ Takes step ok s es t u e) s es t :=
  taking_rest h rfl (.nil s)

theorem Run.passing {s t : σ} {es : List ε} (h : Run step ok s es t) :
    Run step (fun u e => ok u e ∧ Passes step ok s es t u) s es t :=
  h.taking.mono fun _ _ hok => ⟨hok.1, hok.2.passes⟩

theorem Passes.append {s t t' u : σ} {es fs : List ε} (h : Passes step ok s es t u)
    (hrest : Run step ok t fs t') : Passes step ok s (es ++ fs) t' u := by
  obtain ⟨before, after, rfl, hbefore, hafter⟩ := h
  exact ⟨before, after ++ fs, by simp, hbefore, hafter.append hrest⟩

theorem Run.of_execute {okb : σ → ε → Bool} {s t : σ} {es : List ε}
    (hok : ∀ s e, okb s e = true → ok s e) (h : execute step okb s es = some t) :
    Run step ok s es t := by
  induction es generalizing s with
  | nil =>
      have hst : s = t := by simpa [execute] using h
      subst t
      exact .nil s
  | cons e es ih =>
      rw [execute] at h
      split at h
      · next hguard =>
          split at h
          · next s' hs' => exact .cons (hok s e hguard) hs' (ih h)
          · simp at h
      · simp at h

theorem Run.exists_of_execute {okb : σ → ε → Bool} {s : σ} {es : List ε} {p : σ → Bool}
    (hok : ∀ s e, okb s e = true → ok s e) (h : (execute step okb s es).any p = true) :
    ∃ t, Run step ok s es t ∧ p t = true := by
  cases ht : execute step okb s es with
  | none => simp [ht] at h
  | some t => exact ⟨t, Run.of_execute hok ht, by simpa [ht] using h⟩

/-! ## Observations -/

def observed {ω : Type} (step : σ → ε → Option σ) (see : σ → ε → Option ω) :
    σ → List ε → List ω
  | _, [] => []
  | s, e :: es =>
      (see s e).toList ++ match step s e with
        | some s' => observed step see s' es
        | none => []

theorem observed_cons {ω : Type} {see : σ → ε → Option ω} {s s' : σ} {e : ε} {es : List ε}
    (h : step s e = some s') :
    observed step see s (e :: es) = (see s e).toList ++ observed step see s' es := by
  simp only [observed, h]

theorem exists_split_of_getElem? {α : Type} {l : List α} {i : Nat} {a : α}
    (h : l[i]? = some a) :
    ∃ before after, l = before ++ a :: after ∧ before.length = i ∧
      ∀ b, l.set i b = before ++ b :: after := by
  induction l generalizing i with
  | nil => simp at h
  | cons x xs ih =>
      cases i with
      | zero =>
          have hx : x = a := by simpa using h
          subst x
          exact ⟨[], xs, rfl, rfl, fun b => rfl⟩
      | succ i =>
          obtain ⟨before, after, hl, hlen, hset⟩ := ih (by simpa using h)
          refine ⟨x :: before, after, by simp [hl], by simp [hlen], ?_⟩
          intro b
          simp [hset b]

theorem getElem?_concat_cases {α : Type} {l : List α} {a b : α} {i : Nat}
    (h : (l ++ [a])[i]? = some b) : l[i]? = some b ∨ b = a := by
  rcases List.mem_append.mp (List.mem_of_getElem? h) with _ | hb
  · by_cases hi : i < l.length
    · exact .inl ((List.getElem?_append_left hi).symm.trans h)
    · rw [List.getElem?_append_right (Nat.not_lt.mp hi)] at h
      exact .inr (List.mem_singleton.mp (List.mem_of_getElem? h))
  · exact .inr (List.mem_singleton.mp hb)

theorem getElem?_set_cases {α : Type} {l : List α} {a b : α} {i j : Nat}
    (h : (l.set i a)[j]? = some b) : l[j]? = some b ∨ i = j ∧ b = a := by
  by_cases hij : i = j
  · subst hij
    have hi : i < l.length := by simpa using (List.getElem?_eq_some_iff.mp h).1
    rw [List.getElem?_set_self hi] at h
    exact .inr ⟨rfl, (Option.some.inj h).symm⟩
  · rw [List.getElem?_set_ne hij] at h
    exact .inl h

theorem countP_set {α : Type} {l : List α} {i : Nat} {a : α} {p : α → Bool} (h : l[i]? = some a)
    (b : α) :
    (l.set i b).countP p + (if p a then 1 else 0) = l.countP p + (if p b then 1 else 0) := by
  obtain ⟨before, after, hsplit, -, hset⟩ := exists_split_of_getElem? h
  rw [hset, hsplit]
  simp only [List.countP_append, List.countP_cons]
  omega

theorem countP_le_one {α : Type} {l : List α} {p : α → Bool}
    (h : ∀ (i j : Nat) (a b : α), l[i]? = some a → l[j]? = some b → p a = true → p b = true →
      i = j) :
    l.countP p ≤ 1 := by
  induction l with
  | nil => simp
  | cons x xs ih =>
      have hrest : xs.countP p ≤ 1 := by
        apply ih
        intro i j a b ha hb hpa hpb
        have hsucc := h (i + 1) (j + 1) a b (by simpa using ha) (by simpa using hb) hpa hpb
        omega
      by_cases hx : p x = true
      · have hnone : xs.countP p = 0 := by
          rw [List.countP_eq_zero]
          intro y hy hpy
          obtain ⟨j, hj⟩ := List.getElem?_of_mem hy
          have hzero := h 0 (j + 1) x y rfl (by simpa using hj) hx hpy
          omega
        simp only [List.countP_cons, hnone, if_pos hx]
        omega
      · rw [List.countP_cons, if_neg hx]
        exact hrest

/-- The same position in two aligned lists: both split there, and replacing the two elements
by related ones keeps the lists aligned. -/
theorem exists_split_of_forall₂ {α β : Type} {R : α → β → Prop} {as : List α} {bs : List β}
    (h : List.Forall₂ R as bs) {i : Nat} {b : β} (hb : bs[i]? = some b) :
    ∃ before a after, as = before ++ a :: after ∧ before.length = i ∧ R a b ∧
      ∀ a' b', R a' b' → List.Forall₂ R (before ++ a' :: after) (bs.set i b') := by
  induction h generalizing i with
  | nil => simp at hb
  | @cons x y xs ys hxy hrest ih =>
      cases i with
      | zero =>
          have hy : y = b := by simpa using hb
          subst y
          exact ⟨[], x, xs, rfl, rfl, hxy, fun a' b' hab => .cons hab hrest⟩
      | succ i =>
          obtain ⟨before, a, after, hl, hlen, hab, hset⟩ := ih (by simpa using hb)
          refine ⟨x :: before, a, after, by simp [hl], by simp [hlen], hab, ?_⟩
          intro a' b' hab'
          exact .cons hxy (hset a' b' hab')

theorem forall₂_set {α β : Type} {R : α → β → Prop} {as : List α} {bs : List β}
    (h : List.Forall₂ R as bs) (i : Nat) {a : α} {b : β} (hab : R a b) :
    List.Forall₂ R (as.set i a) (bs.set i b) := by
  induction h generalizing i with
  | nil => exact .nil
  | cons hxy hrest ih =>
      cases i with
      | zero => exact .cons hab hrest
      | succ i => exact .cons hxy (ih i)

theorem exists_getElem?_of_forall₂ {α β : Type} {R : α → β → Prop} {as : List α} {bs : List β}
    (h : List.Forall₂ R as bs) {i : Nat} {b : β} (hb : bs[i]? = some b) :
    ∃ a, as[i]? = some a ∧ R a b := by
  induction h generalizing i with
  | nil => simp at hb
  | @cons x y xs ys hxy hrest ih =>
      cases i with
      | zero =>
          have hy : y = b := by simpa using hb
          subst y
          exact ⟨x, rfl, hxy⟩
      | succ i => exact ih (by simpa using hb)

theorem countP_le_of_forall₂ {α β : Type} {R : α → β → Prop} {p : β → Bool} {q : α → Bool}
    {as : List α} {bs : List β} (h : List.Forall₂ R as bs)
    (hpq : ∀ a b, R a b → p b = true → q a = true) : bs.countP p ≤ as.countP q := by
  induction h with
  | nil => exact Nat.le_refl _
  | @cons x y xs ys hxy _ ih =>
      simp only [List.countP_cons]
      by_cases hy : p y = true
      · rw [if_pos hy, if_pos (hpq x y hxy hy)]
        omega
      · rw [if_neg hy]
        omega

theorem exists_of_mem_forall₂ {α β : Type} {R : α → β → Prop} {as : List α} {bs : List β}
    (h : List.Forall₂ R as bs) {a : α} (ha : a ∈ as) : ∃ b ∈ bs, R a b := by
  induction h with
  | nil => simp at ha
  | @cons x y xs ys hxy _ ih =>
      rcases List.mem_cons.mp ha with rfl | ha
      · exact ⟨y, by simp, hxy⟩
      · obtain ⟨b, hb, hab⟩ := ih ha
        exact ⟨b, List.mem_cons_of_mem _ hb, hab⟩

theorem exists_split_of_forall₂_append {α β : Type} {R : α → β → Prop} {xs ys : List α} {a : α}
    {bs : List β} (h : List.Forall₂ R (xs ++ a :: ys) bs) :
    ∃ before b after, bs = before ++ b :: after ∧ List.Forall₂ R xs before ∧ R a b ∧
      List.Forall₂ R ys after := by
  induction xs generalizing bs with
  | nil =>
      cases h with
      | cons hab hrest => exact ⟨[], _, _, rfl, .nil, hab, hrest⟩
  | cons x xs ih =>
      cases h with
      | cons hxy hrest =>
          obtain ⟨before, b, after, rfl, hbefore, hab, hafter⟩ := ih hrest
          exact ⟨_ :: before, b, after, rfl, .cons hxy hbefore, hab, hafter⟩

end Lib

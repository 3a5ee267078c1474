import NotificationPlatform.Lib.Threads

/-!
# A lock and what it guards

Programs side by side with one lock. A program that keeps to the lock may change what it guards
while it holds the lock, and must leave it in order. Checked alone, for every value in order that it
may find, it keeps to its check in every run of all.
-/

namespace Lib

inductive LockRole where
  | lock
  | unlock
  | plain
  deriving DecidableEq, Repr

structure Guarded (S : Type) (R : S → Type) (σ ω γ : Type) where
  exec : ω → (s : S) → σ → R s × σ
  role : S → LockRole
  held : σ → Bool
  value : σ → γ
  /-- what every state satisfies -/
  valid : σ → Prop
  /-- what a value satisfies while the lock is free -/
  inOrder : γ → Prop
  /-- what never gets lost of a value -/
  later : γ → γ → Prop
  later_refl : ∀ x, later x x
  later_trans : ∀ {x y z}, later x y → later y z → later x z
  exec_valid : ∀ o s w, valid w → valid (exec o s w).2
  exec_lock : ∀ o s w, role s = .lock →
    held (exec o s w).2 = true ∧ value (exec o s w).2 = value w
  exec_unlock : ∀ o s w, role s = .unlock →
    held (exec o s w).2 = false ∧ value (exec o s w).2 = value w
  exec_plain : ∀ o s w, role s = .plain → held (exec o s w).2 = held w

/-- Where a program is: outside, with what it has seen of the value, or inside with the value. -/
inductive Place (γ : Type) where
  | outside (x : γ)
  | inside (x : γ)

def Place.isInside {γ : Type} : Place γ → Bool
  | .outside _ => false
  | .inside _ => true

namespace Guarded

variable {S : Type} {R : S → Type} {α β σ ω γ : Type} (A : Guarded S R σ ω γ)

def Effect (s : S) (x : γ) (r : R s) (y : γ) : Prop :=
  ∃ o w, A.valid w ∧ A.value w = x ∧ (A.exec o s w).1 = r ∧ A.value (A.exec o s w).2 = y

/-- The program keeps to the lock. Every call is one that `C` allows, from what has been called and
where the program is, and `Q` holds where it ends. -/
def Uses (C : List (Made S R) → Place γ → S → Prop) (Q : List (Made S R) → Place γ → α → Prop) :
    Prog S R α → List (Made S R) → Place γ → Prop
  | .ret a, made, place => Q made place a
  | .call s k, made, .outside x => C made (.outside x) s ∧
      match A.role s with
      | .lock => ∀ r y, A.later x y → A.inOrder y →
          Uses C Q (k r) (made ++ [⟨s, r⟩]) (.inside y)
      | .unlock => False
      | .plain => (∀ x r y, A.Effect s x r y → y = x) ∧
          ∀ r, Uses C Q (k r) (made ++ [⟨s, r⟩]) (.outside x)
  | .call s k, made, .inside x => C made (.inside x) s ∧
      match A.role s with
      | .lock => False
      | .unlock => A.inOrder x ∧ ∀ r, Uses C Q (k r) (made ++ [⟨s, r⟩]) (.outside x)
      | .plain => ∀ r y, A.Effect s x r y →
          A.later x y ∧ Uses C Q (k r) (made ++ [⟨s, r⟩]) (.inside y)

variable {A} {C : List (Made S R) → Place γ → S → Prop} {Q : List (Made S R) → Place γ → α → Prop}
  {made : List (Made S R)} {place : Place γ} {s : S} {k : R s → Prog S R α} {x : γ}

theorem uses_lock (hrole : A.role s = .lock) :
    A.Uses C Q (.call s k) made (.outside x) ↔ C made (.outside x) s ∧
      ∀ r y, A.later x y → A.inOrder y →
        A.Uses C Q (k r) (made ++ [⟨s, r⟩]) (.inside y) := by
  rw [Uses, hrole]

theorem uses_unlock (hrole : A.role s = .unlock) :
    A.Uses C Q (.call s k) made (.inside x) ↔ C made (.inside x) s ∧ A.inOrder x ∧
      ∀ r, A.Uses C Q (k r) (made ++ [⟨s, r⟩]) (.outside x) := by
  rw [Uses, hrole]

theorem uses_outside (hrole : A.role s = .plain) :
    A.Uses C Q (.call s k) made (.outside x) ↔ C made (.outside x) s ∧
      (∀ x r y, A.Effect s x r y → y = x) ∧
      ∀ r, A.Uses C Q (k r) (made ++ [⟨s, r⟩]) (.outside x) := by
  rw [Uses, hrole]

theorem uses_inside (hrole : A.role s = .plain) :
    A.Uses C Q (.call s k) made (.inside x) ↔ C made (.inside x) s ∧ ∀ r y, A.Effect s x r y →
      A.later x y ∧ A.Uses C Q (k r) (made ++ [⟨s, r⟩]) (.inside y) := by
  rw [Uses, hrole]

theorem not_unlock_of_outside (h : A.Uses C Q (.call s k) made (.outside x)) :
    A.role s ≠ .unlock := by
  intro hrole
  rw [Uses, hrole] at h
  exact h.2

theorem not_lock_of_inside (h : A.Uses C Q (.call s k) made (.inside x)) :
    A.role s ≠ .lock := by
  intro hrole
  rw [Uses, hrole] at h
  exact h.2

theorem Uses.bind {Q' : List (Made S R) → Place γ → β → Prop} {p : Prog S R α}
    {f : α → Prog S R β} (hp : A.Uses C Q p made place)
    (hf : ∀ made place a, Q made place a → A.Uses C Q' (f a) made place) :
    A.Uses C Q' (p >>= f) made place := by
  induction p generalizing made place with
  | ret a => exact hf made place a hp
  | call s k ih =>
    rw [Prog.call_bind]
    cases place with
    | outside x =>
      cases hrole : A.role s with
      | lock =>
        rw [uses_lock hrole] at hp ⊢
        exact ⟨hp.1, fun r y hlater horder => ih r (hp.2 r y hlater horder)⟩
      | unlock => exact absurd hrole (not_unlock_of_outside hp)
      | plain =>
        rw [uses_outside hrole] at hp ⊢
        exact ⟨hp.1, hp.2.1, fun r => ih r (hp.2.2 r)⟩
    | inside x =>
      cases hrole : A.role s with
      | lock => exact absurd hrole (not_lock_of_inside hp)
      | unlock =>
        rw [uses_unlock hrole] at hp ⊢
        exact ⟨hp.1, hp.2.1, fun r => ih r (hp.2.2 r)⟩
      | plain =>
        rw [uses_inside hrole] at hp ⊢
        exact ⟨hp.1, fun r y heffect => ⟨(hp.2 r y heffect).1, ih r (hp.2 r y heffect).2⟩⟩

/-! ## Runs -/

/-- Programs that keep to the lock begin, and nobody takes the lock while it is held. -/
def Admits (A : Guarded S R σ ω γ) (C : List (Made S R) → Place γ → S → Prop)
    (Q : List (Made S R) → Place γ → α → Prop) (w : Threads S R α σ) :
    ThreadEvent S R α σ ω → Prop
  | .start p => ∀ x, A.Uses C Q p [] (.outside x)
  | .call i _ => ∀ s k, w.threads[i]? = some (.call s k) → A.role s = .lock →
      A.held w.state = false
  | .other _ => False

def Agrees (A : Guarded S R σ ω γ) (w : σ) : Place γ → Prop
  | .outside x => A.later x (A.value w)
  | .inside x => x = A.value w ∧ A.held w = true

theorem agrees_outside {w w' : σ} (h : A.Agrees w (.outside x)) (hvalue : A.value w' = A.value w) :
    A.Agrees w' (.outside x) := by
  show A.later x (A.value w')
  rw [hvalue]
  exact h

/-- The programs are at these places, after these calls; at most one of them is inside. -/
structure Kept (A : Guarded S R σ ω γ) (C : List (Made S R) → Place γ → S → Prop)
    (Q : List (Made S R) → Place γ → α → Prop) (w : Threads S R α σ)
    (places : List (List (Made S R) × Place γ)) : Prop where
  valid : A.valid w.state
  inOrder : A.held w.state = false → A.inOrder (A.value w.state)
  uses : List.Forall₂ (fun g p => A.Uses C Q p g.1 g.2) places w.threads
  agrees : ∀ g ∈ places, A.Agrees w.state g.2
  unique : places.countP (fun g => g.2.isInside) ≤ 1

theorem kept_nil {w : σ} (hvalid : A.valid w) (horder : A.inOrder (A.value w)) :
    A.Kept C Q ⟨w, []⟩ [] :=
  ⟨hvalid, fun _ => horder, .nil, by simp, by simp⟩

variable {w w' : Threads S R α σ} {places : List (List (Made S R) × Place γ)}

theorem Kept.start (h : A.Kept C Q w places) {p : Prog S R α}
    (hp : ∀ x, A.Uses C Q p [] (.outside x)) :
    A.Kept C Q (w.start p) (places ++ [([], .outside (A.value w.state))]) where
  valid := h.valid
  inOrder := h.inOrder
  uses := List.rel_append h.uses (.cons (hp _) .nil)
  agrees := by
    intro g hg
    rcases List.mem_append.mp hg with hg | hg
    · exact h.agrees g hg
    · rw [List.mem_singleton.mp hg]
      exact A.later_refl _
  unique := by simpa [Place.isInside] using h.unique

theorem Kept.free (h : A.Kept C Q w places) (hfree : A.held w.state = false) :
    places.countP (fun g => g.2.isInside) = 0 := by
  rw [List.countP_eq_zero]
  intro g hg hinside
  have hagrees := h.agrees g hg
  cases hplace : g.2 with
  | outside x => simp [hplace, Place.isInside] at hinside
  | inside x =>
    rw [hplace] at hagrees
    simp [hagrees.2] at hfree

theorem Kept.set (h : A.Kept C Q w places) {i : Nat} {g g' : List (Made S R) × Place γ}
    (hg : places[i]? = some g) {w' : σ} {p : Prog S R α} (hvalid : A.valid w')
    (horder : A.held w' = false → A.inOrder (A.value w')) (huses : A.Uses C Q p g'.1 g'.2)
    (hagrees : A.Agrees w' g'.2)
    (hothers : ∀ place, A.Agrees w.state place → (g.2.isInside = true → place.isInside = false) →
      A.Agrees w' place)
    (hinside : g'.2.isInside = true → g.2.isInside = true ∨ A.held w.state = false) :
    A.Kept C Q ⟨w', w.threads.set i p⟩ (places.set i g') := by
  have hcount := countP_set (p := fun g : List (Made S R) × Place γ => g.2.isInside) hg g'
  have hunique := h.unique
  refine ⟨hvalid, horder, forall₂_set h.uses i huses, ?_, ?_⟩
  · obtain ⟨before, after, rfl, hlength, hset⟩ := exists_split_of_getElem? hg
    rw [hset]
    simp only [List.countP_append, List.countP_cons] at hunique
    have hother : ∀ x ∈ before ++ after, A.Agrees w' x.2 := by
      intro x hx
      refine hothers x.2 (h.agrees x (by simp at hx ⊢; tauto)) fun hin => ?_
      have hnone : (before ++ after).countP (fun g => g.2.isInside) = 0 := by
        rw [hin, if_pos rfl] at hunique
        rw [List.countP_append]
        omega
      simpa using List.countP_eq_zero.mp hnone x hx
    intro x hx
    rcases List.mem_append.mp hx with hx | hx
    · exact hother x (by simp [hx])
    · rcases List.mem_cons.mp hx with rfl | hx
      · exact hagrees
      · exact hother x (by simp [hx])
  · by_cases hin : g'.2.isInside = true
    · rcases hinside hin with hold | hfree
      · rw [hin, hold] at hcount
        omega
      · rw [hin, h.free hfree] at hcount
        simp at hcount
        omega
    · rw [Bool.not_eq_true] at hin
      rw [hin] at hcount
      simp at hcount
      omega

theorem Kept.call_outside (h : A.Kept C Q w places) {i : Nat} {made : List (Made S R)} {x : γ}
    {s : S} {k : R s → Prog S R α} (hplace : places[i]? = some (made, .outside x))
    (huses : A.Uses C Q (.call s k) made (.outside x)) (o : ω)
    (hlock : A.role s = .lock → A.held w.state = false) :
    A.later (A.value w.state) (A.value (A.exec o s w.state).2) ∧
      ∃ place', A.Kept C Q ⟨(A.exec o s w.state).2, w.threads.set i (k (A.exec o s w.state).1)⟩
        (places.set i (made ++ [⟨s, (A.exec o s w.state).1⟩], place')) := by
  have hvalid := A.exec_valid o s w.state h.valid
  have hlater : A.later x (A.value w.state) :=
    h.agrees _ (List.mem_of_getElem? hplace)
  cases hrole : A.role s with
  | lock =>
    obtain ⟨hheld, hvalue⟩ := A.exec_lock o s w.state hrole
    have hfree := hlock hrole
    rw [uses_lock hrole] at huses
    refine ⟨hvalue.symm ▸ A.later_refl _, .inside (A.value w.state),
      h.set hplace hvalid (by simp [hheld])
      (huses.2 _ _ hlater (h.inOrder hfree)) ⟨hvalue.symm, hheld⟩ ?_ fun _ => .inr hfree⟩
    rintro (y | y) hy -
    · exact agrees_outside hy hvalue
    · exact absurd hy.2 (by simp [hfree])
  | unlock => exact absurd hrole (not_unlock_of_outside huses)
  | plain =>
    have hheld := A.exec_plain o s w.state hrole
    rw [uses_outside hrole] at huses
    have hvalue := huses.2.1 _ _ _ ⟨o, w.state, h.valid, rfl, rfl, rfl⟩
    refine ⟨hvalue.symm ▸ A.later_refl _, .outside x, h.set hplace hvalid ?_ (huses.2.2 _) 
      (agrees_outside hlater hvalue) ?_ (by simp [Place.isInside])⟩
    · rw [hheld, hvalue]
      exact h.inOrder
    · rintro (y | y) hy -
      · exact agrees_outside hy hvalue
      · exact ⟨hy.1.trans hvalue.symm, hheld.trans hy.2⟩

theorem Kept.call_inside (h : A.Kept C Q w places) {i : Nat} {made : List (Made S R)} {x : γ}
    {s : S} {k : R s → Prog S R α} (hplace : places[i]? = some (made, .inside x))
    (huses : A.Uses C Q (.call s k) made (.inside x)) (o : ω) :
    A.later (A.value w.state) (A.value (A.exec o s w.state).2) ∧
      ∃ place', A.Kept C Q ⟨(A.exec o s w.state).2, w.threads.set i (k (A.exec o s w.state).1)⟩
        (places.set i (made ++ [⟨s, (A.exec o s w.state).1⟩], place')) := by
  have hvalid := A.exec_valid o s w.state h.valid
  obtain ⟨hx, hheld⟩ : x = A.value w.state ∧ A.held w.state = true :=
    h.agrees _ (List.mem_of_getElem? hplace)
  cases hrole : A.role s with
  | lock => exact absurd hrole (not_lock_of_inside huses)
  | unlock =>
    obtain ⟨hfree, hvalue⟩ := A.exec_unlock o s w.state hrole
    rw [uses_unlock hrole, hx] at huses
    refine ⟨hvalue.symm ▸ A.later_refl _, .outside (A.value w.state),
      h.set hplace hvalid (fun _ => hvalue.symm ▸ huses.2.1)
      (huses.2.2 _) ?_ ?_ (by simp [Place.isInside])⟩
    · show A.later _ _
      rw [hvalue]
      exact A.later_refl _
    · rintro (y | y) hy hout
      · exact agrees_outside hy hvalue
      · simp [Place.isInside] at hout
  | plain =>
    have hheld' := A.exec_plain o s w.state hrole
    rw [uses_inside hrole] at huses
    obtain ⟨hlater, hrest⟩ := huses.2 _ _ ⟨o, w.state, h.valid, hx.symm, rfl, rfl⟩
    refine ⟨hx ▸ hlater, .inside (A.value (A.exec o s w.state).2), h.set hplace hvalid
      (by simp [hheld', hheld]) hrest ⟨rfl, hheld'.trans hheld⟩ ?_ fun _ => .inl rfl⟩
    rintro (y | y) hy hout
    · exact A.later_trans hy (hx ▸ hlater)
    · simp [Place.isInside] at hout

theorem Kept.step (h : A.Kept C Q w places) {e : ThreadEvent S R α σ ω} (hok : A.Admits C Q w e)
    (hstep : w.step A.exec e = some w') :
    A.later (A.value w.state) (A.value w'.state) ∧
      ∃ places', A.Kept C Q w' places' ∧ ∀ i g, places[i]? = some g →
        ∃ g', places'[i]? = some g' ∧ g'.1 = g.1 ++ (Threads.madeBy A.exec i w e).toList := by
  cases e with
  | start p =>
    obtain rfl := Option.some.inj hstep
    refine ⟨A.later_refl _, _, h.start hok, fun i g hg => ⟨g, ?_, by simp [Threads.madeBy]⟩⟩
    rw [List.getElem?_append_left (List.getElem?_eq_some_iff.mp hg).1]
    exact hg
  | other s => exact absurd hok id
  | call j o =>
    simp only [Threads.step] at hstep
    split at hstep
    · next s k hthread =>
      obtain rfl := Option.some.inj hstep
      obtain ⟨⟨made, place⟩, hplace, huses⟩ := exists_getElem?_of_forall₂ h.uses hthread
      obtain ⟨hlater, place', hkept⟩ :
          A.later (A.value w.state) (A.value (A.exec o s w.state).2) ∧ ∃ place', A.Kept C Q
            ⟨(A.exec o s w.state).2, w.threads.set j (k (A.exec o s w.state).1)⟩
            (places.set j (made ++ [⟨s, (A.exec o s w.state).1⟩], place')) := by
        cases place with
        | outside x => exact h.call_outside hplace huses o (hok s k hthread)
        | inside x => exact h.call_inside hplace huses o
      refine ⟨hlater, _, hkept, fun i g hg => ?_⟩
      by_cases hji : j = i
      · subst hji
        obtain rfl := Option.some.inj (hg.symm.trans hplace)
        have hj := (List.getElem?_eq_some_iff.mp hplace).1
        exact ⟨_, by rw [List.getElem?_set_self hj], by simp [Threads.madeBy, hthread]⟩
      · refine ⟨g, by rw [List.getElem?_set_ne hji, hg], ?_⟩
        simp only [Threads.madeBy]
        split <;> simp [hji]
    · simp at hstep

theorem Kept.run {es : List (ThreadEvent S R α σ ω)}
    (hrun : Run (Threads.step A.exec) (A.Admits C Q) w es w') (h : A.Kept C Q w places) :
    A.later (A.value w.state) (A.value w'.state) ∧
      ∃ places', A.Kept C Q w' places' ∧ ∀ i g, places[i]? = some g →
        ∃ g', places'[i]? = some g' ∧ g'.1 = g.1 ++ Threads.calls A.exec i w es := by
  induction hrun generalizing places with
  | nil w =>
    exact ⟨A.later_refl _, places, h, fun i g hg => ⟨g, hg, by simp [Threads.calls, observed]⟩⟩
  | cons hok hstep _ ih =>
    obtain ⟨hlater₁, places₁, h₁, hmade₁⟩ := h.step hok hstep
    obtain ⟨hlater₂, places₂, h₂, hmade₂⟩ := ih h₁
    refine ⟨A.later_trans hlater₁ hlater₂, places₂, h₂, fun i g hg => ?_⟩
    obtain ⟨g₁, hg₁, heq₁⟩ := hmade₁ i g hg
    obtain ⟨g₂, hg₂, heq₂⟩ := hmade₂ i g₁ hg₁
    refine ⟨g₂, hg₂, ?_⟩
    rw [heq₂, heq₁, List.append_assoc, Threads.calls, Threads.calls, observed_cons hstep]

/-- **A program among others that share the lock.** In every run from a free lock and a value in
order, a program has kept to its check after the calls that were made for it. -/
theorem uses_started {w₀ : σ} (hvalid : A.valid w₀) (horder : A.inOrder (A.value w₀))
    {es₀ es : List (ThreadEvent S R α σ ω)}
    (hstart : Run (Threads.step A.exec) (A.Admits C Q) ⟨w₀, []⟩ es₀ w) {p q : Prog S R α}
    (hp : ∀ x, A.Uses C Q p [] (.outside x))
    (hrun : Run (Threads.step A.exec) (A.Admits C Q) (w.start p) es w')
    (hq : w'.threads[w.threads.length]? = some q) :
    ∃ place, A.Agrees w'.state place ∧
      A.Uses C Q q (Threads.calls A.exec w.threads.length (w.start p) es) place := by
  obtain ⟨-, places₀, h₀, -⟩ := (kept_nil hvalid horder).run hstart
  have hlength : places₀.length = w.threads.length := h₀.uses.length_eq
  obtain ⟨-, places, h, hmade⟩ := (h₀.start hp).run hrun
  obtain ⟨g, hg, heq⟩ := hmade w.threads.length ([], .outside (A.value w.state))
    (by simp [← hlength])
  obtain ⟨g', hg', huses⟩ := exists_getElem?_of_forall₂ h.uses hq
  obtain rfl := Option.some.inj (hg.symm.trans hg')
  refine ⟨g.2, h.agrees g (List.mem_of_getElem? hg), ?_⟩
  rw [List.nil_append] at heq
  exact heq ▸ huses

theorem uses_reached {w₀ : σ} (hvalid : A.valid w₀) (horder : A.inOrder (A.value w₀))
    {es : List (ThreadEvent S R α σ ω)}
    (hrun : Run (Threads.step A.exec) (A.Admits C Q) ⟨w₀, []⟩ es w) {i : Nat} {p : Prog S R α}
    (hp : w.threads[i]? = some p) :
    A.valid w.state ∧ ∃ made place, A.Agrees w.state place ∧ A.Uses C Q p made place := by
  obtain ⟨-, places, h, -⟩ := (kept_nil hvalid horder).run hrun
  obtain ⟨g, hg, huses⟩ := exists_getElem?_of_forall₂ h.uses hp
  exact ⟨h.valid, g.1, g.2, h.agrees g (List.mem_of_getElem? hg), huses⟩

/-- **One at a time.** In every run from a free lock, at most one program is at a point that it does
not reach outside, and nothing gets lost of the value. -/
theorem at_most_one {w₀ : σ} (hvalid : A.valid w₀) (horder : A.inOrder (A.value w₀))
    {es : List (ThreadEvent S R α σ ω)}
    (hrun : Run (Threads.step A.exec) (A.Admits C Q) ⟨w₀, []⟩ es w) {P : Prog S R α → Bool}
    (hP : ∀ made x p, A.Uses C Q p made (.outside x) → P p = false) :
    w.threads.countP P ≤ 1 ∧ A.later (A.value w₀) (A.value w.state) := by
  obtain ⟨hlater, places, h, -⟩ := (kept_nil hvalid horder).run hrun
  refine ⟨Nat.le_trans (countP_le_of_forall₂ h.uses ?_) h.unique, hlater⟩
  rintro ⟨made, x | x⟩ p huses hp
  · simp [hP made x p huses] at hp
  · rfl

end Guarded

end Lib

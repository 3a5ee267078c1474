import NotificationPlatform.RateLimit

/-!
# Runs of the rate limiter

What holds of the counters under every order of the commands of concurrent calls of `AllowKey`.
The call that created a counter is the only one that gives it a time to live, so a counter without
one waits for that call.
-/

namespace NotificationPlatform

open Lib

namespace KeyCall

def expiring (key : String) (limit : Int) (window : Nat) : LimitCode (Except Err Bool) :=
  .call (.expire key window) fun r =>
    match r with
    | .error e => .ret (.error e)
    | .ok _ => .ret (.ok (decide (1 ≤ limit)))

def counted (key : String) (limit : Int) (window count : Nat) : LimitCode (Except Err Bool) :=
  if count = 1 then expiring key limit window else .ret (.ok (decide ((count : Int) ≤ limit)))

theorem allowKey_eq (key : String) (limit : Int) (window : Nat) :
    RateLimit.allowKey key limit window = .call (.incr key) fun r =>
      match r with
      | .error e => .ret (.error e)
      | .ok count => counted key limit window count := by
  show Prog.call _ _ = _
  congr 1
  funext r
  cases r with
  | error e => rfl
  | ok count =>
      by_cases hcount : count = 1
      · subst hcount
        rfl
      · show (if count = 1 then _ else _) = if count = 1 then _ else _
        rw [if_neg hcount, if_neg hcount]
        rfl

def Ready (x : KeyCall) : Prop := x.prog = RateLimit.allowKey x.key x.limit x.window

def Expiring (x : KeyCall) : Prop := x.prog = expiring x.key x.limit x.window

def Returned (x : KeyCall) : Prop := ∃ r, x.prog = .ret r

/-- The next command of the call is its `EXPIRE`. -/
def awaitsExpire (x : KeyCall) : Bool :=
  match x.prog with
  | .call (.expire _ _) _ => true
  | _ => false

variable {x : KeyCall}

theorem Ready.not_expiring (h : x.Ready) : ¬x.Expiring := by
  intro hexpiring
  have heq : RateLimit.allowKey x.key x.limit x.window = expiring x.key x.limit x.window :=
    h.symm.trans hexpiring
  rw [allowKey_eq] at heq
  simp [expiring] at heq

theorem Ready.awaitsExpire (h : x.Ready) : x.awaitsExpire = false := by
  rw [KeyCall.awaitsExpire, h, allowKey_eq]

theorem Expiring.awaitsExpire (h : x.Expiring) : x.awaitsExpire = true := by
  rw [KeyCall.awaitsExpire, h]
  rfl

theorem Expiring.not_returned (h : x.Expiring) : x.result = none := by
  rw [result, h]
  rfl

end KeyCall

namespace LimiterWorld

variable {w w' : LimiterWorld} {e : LimiterEvent}

/-- Every call is before its `INCR`, before its `EXPIRE` or has returned. -/
def WellFormed (w : LimiterWorld) : Prop := ∀ x ∈ w.calls, x.Ready ∨ x.Expiring ∨ x.Returned

def setProg (w : LimiterWorld) (i : Nat) (x : KeyCall) (prog : LimitCode (Except Err Bool)) :
    LimiterWorld :=
  { w with calls := w.calls.set i { x with prog := prog } }

def afterIncr (w : LimiterWorld) (i : Nat) (x : KeyCall) : LimiterWorld :=
  { state := (w.state.incr x.key).2
    calls := w.calls.set i
      { x with prog := KeyCall.counted x.key x.limit x.window (w.state.incr x.key).1 }
    history := Function.update w.history x.key (w.recordIncr x.key ⟨i, w.state.now⟩) }

def afterExpire (w : LimiterWorld) (i : Nat) (x : KeyCall) : LimiterWorld :=
  { state := w.state.expire x.key x.window
    calls := w.calls.set i { x with prog := .ret (.ok (decide (1 ≤ x.limit))) }
    history := Function.update w.history x.key (w.recordExpire x.key) }

inductive Moves (w : LimiterWorld) : LimiterEvent → LimiterWorld → Prop
  | wait (d : Nat) :
      w.Moves (.wait d) { w with state := { w.state with now := w.state.now + d } }
  | start (key : String) (limit : Int) (window : Nat) :
      w.Moves (.allowKey key limit window)
        { w with calls := w.calls ++ [⟨key, limit, window, RateLimit.allowKey key limit window⟩] }
  | incr {i : Nat} {x : KeyCall} (hx : w.calls[i]? = some x) (hready : x.Ready) :
      w.Moves (.step i false) (w.afterIncr i x)
  | incrFails {i : Nat} {x : KeyCall} (hx : w.calls[i]? = some x) (hready : x.Ready) :
      w.Moves (.step i true) (w.setProg i x (.ret (.error .driver)))
  | expire {i : Nat} {x : KeyCall} (hx : w.calls[i]? = some x) (hexpiring : x.Expiring) :
      w.Moves (.step i false) (w.afterExpire i x)
  | expireFails {i : Nat} {x : KeyCall} (hx : w.calls[i]? = some x) (hexpiring : x.Expiring) :
      w.Moves (.step i true) (w.setProg i x (.ret (.error .driver)))
  | stop {i : Nat} {x : KeyCall} (hx : w.calls[i]? = some x) :
      w.Moves (.stop i) (w.setProg i x (.ret (.error .driver)))

theorem step_moves (hw : w.WellFormed) (h : w.step e = some w') : w.Moves e w' := by
  cases e with
  | wait d =>
      obtain rfl := Option.some.inj h
      exact .wait d
  | allowKey key limit window =>
      obtain rfl := Option.some.inj h
      exact .start key limit window
  | stop i =>
      simp only [step] at h
      split at h
      · simp at h
      · next x hx =>
          obtain rfl := Option.some.inj h
          exact .stop hx
  | step i fail =>
      simp only [step] at h
      split at h
      · simp at h
      · next x hx =>
          obtain ⟨key, limit, window, prog⟩ := x
          rcases hw _ (List.mem_of_getElem? hx) with hready | hexpiring | ⟨r, hr⟩
          · obtain rfl : prog = _ := hready.trans (KeyCall.allowKey_eq key limit window)
            obtain rfl := Option.some.inj h
            cases fail with
            | true => exact .incrFails hx hready
            | false => exact .incr hx hready
          · have hprog : prog = KeyCall.expiring key limit window := hexpiring
            subst hprog
            obtain rfl := Option.some.inj h
            cases fail with
            | true => exact .expireFails hx hexpiring
            | false => exact .expire hx hexpiring
          · obtain rfl : prog = _ := hr
            simp at h

theorem wellFormed_set (hw : w.WellFormed) {i : Nat} {x : KeyCall}
    (hx : x.Ready ∨ x.Expiring ∨ x.Returned) : ∀ y ∈ w.calls.set i x,
      y.Ready ∨ y.Expiring ∨ y.Returned := by
  intro y hy
  rcases List.mem_or_eq_of_mem_set hy with hy | rfl
  · exact hw y hy
  · exact hx

theorem counted_cases (key : String) (limit : Int) (window count : Nat) :
    (⟨key, limit, window, KeyCall.counted key limit window count⟩ : KeyCall).Expiring ∨
      (⟨key, limit, window, KeyCall.counted key limit window count⟩ : KeyCall).Returned := by
  by_cases hcount : count = 1
  · exact .inl (by rw [KeyCall.Expiring, KeyCall.counted, if_pos hcount])
  · exact .inr ⟨_, by rw [KeyCall.counted, if_neg hcount]⟩

theorem Moves.wellFormed (h : w.Moves e w') (hw : w.WellFormed) : w'.WellFormed := by
  cases h with
  | wait d => exact hw
  | start key limit window =>
      intro y hy
      rcases List.mem_append.mp hy with hy | hy
      · exact hw y hy
      · obtain rfl := List.mem_singleton.mp hy
        exact .inl rfl
  | incr hx hready => exact wellFormed_set hw (.inr (counted_cases _ _ _ _))
  | incrFails hx hready => exact wellFormed_set hw (.inr (.inr ⟨_, rfl⟩))
  | expire hx hexpiring => exact wellFormed_set hw (.inr (.inr ⟨_, rfl⟩))
  | expireFails hx hexpiring => exact wellFormed_set hw (.inr (.inr ⟨_, rfl⟩))
  | stop hx => exact wellFormed_set hw (.inr (.inr ⟨_, rfl⟩))

/-- A counter without a time to live waits for the call that created it. -/
structure Covered (w : LimiterWorld) : Prop where
  wellFormed : w.WellFormed
  waits : ∀ key c, w.state.keys key = some c → c.expiresAt = none →
    ∃ (i : Nat) (x : KeyCall), w.calls[i]? = some x ∧ x.key = key ∧ x.Expiring

/-- No `EXPIRE` fails, and no call stops before it. -/
def KeepsExpire (w : LimiterWorld) : LimiterEvent → Prop
  | .step i fail => ∀ x, w.calls[i]? = some x → x.awaitsExpire = true → fail = false
  | .stop i => ∀ x, w.calls[i]? = some x → x.awaitsExpire = false
  | _ => True

theorem keys_incr (s : LimitState) (key : String) :
    (s.incr key).2.keys = Function.update s.keys key (some
      ⟨(s.incr key).1, (s.counter key).bind Counter.expiresAt⟩) := by
  rw [LimitState.incr_state]
  rfl

theorem counter_eq_some {s : LimitState} {key : String} {c : Counter}
    (h : s.counter key = some c) : s.keys key = some c ∧ c.expired s.now = false := by
  unfold LimitState.counter at h
  split at h
  · next c' hc' =>
      split at h
      · simp at h
      · next hlive =>
          obtain rfl := Option.some.inj h
          exact ⟨hc', by simpa using hlive⟩
  · simp at h

theorem counter_of_lasting {s : LimitState} {key : String} {c : Counter}
    (h : s.keys key = some c) (hlasting : c.expiresAt = none) : s.counter key = some c := by
  simp [LimitState.counter, h, Counter.expired, hlasting]

theorem expiring_set {key : String} {i : Nat} {x x' : KeyCall} (hx : w.calls[i]? = some x)
    (hnot : x.key = key → ¬x.Expiring)
    (h : ∃ (j : Nat) (y : KeyCall), w.calls[j]? = some y ∧ y.key = key ∧ y.Expiring) :
    ∃ (j : Nat) (y : KeyCall), (w.calls.set i x')[j]? = some y ∧ y.key = key ∧ y.Expiring := by
  obtain ⟨j, y, hy, hkey, hexpiring⟩ := h
  have hne : i ≠ j := by
    rintro rfl
    obtain rfl := Option.some.inj (hx.symm.trans hy)
    exact hnot hkey hexpiring
  exact ⟨j, y, by rw [List.getElem?_set_ne hne, hy], hkey, hexpiring⟩

theorem Covered.setProg (h : w.Covered) {i : Nat} {x : KeyCall} (hx : w.calls[i]? = some x)
    (hnot : ¬x.Expiring) : (w.setProg i x (.ret (.error .driver))).Covered where
  wellFormed := wellFormed_set h.wellFormed (.inr (.inr ⟨_, rfl⟩))
  waits key c hc hlasting := expiring_set hx (fun _ => hnot) (h.waits key c hc hlasting)

theorem Covered.incr (h : w.Covered) {i : Nat} {x : KeyCall} (hx : w.calls[i]? = some x)
    (hready : x.Ready) : (w.afterIncr i x).Covered where
  wellFormed := wellFormed_set h.wellFormed (.inr (counted_cases _ _ _ _))
  waits key c hc hlasting := by
    have hwaits := h.waits key
    simp only [afterIncr, keys_incr] at hc
    by_cases hkey : key = x.key
    · subst hkey
      rw [Function.update_self] at hc
      obtain rfl := Option.some.inj hc
      cases hcounter : w.state.counter x.key with
      | some old =>
          have hold := (counter_eq_some hcounter).1
          rw [hcounter] at hlasting
          exact expiring_set hx (fun _ => hready.not_expiring) (hwaits old hold hlasting)
      | none =>
          have hone : (w.state.incr x.key).1 = 1 := by simp [LimitState.incr, hcounter]
          refine ⟨i, _, List.getElem?_set_self (List.getElem?_eq_some_iff.mp hx).1, rfl, ?_⟩
          rw [KeyCall.Expiring, hone]
          rfl
    · rw [Function.update_of_ne hkey] at hc
      exact expiring_set hx (fun _ => hready.not_expiring) (hwaits c hc hlasting)

theorem Covered.expire (h : w.Covered) {i : Nat} {x : KeyCall} (hx : w.calls[i]? = some x) :
    (w.afterExpire i x).Covered where
  wellFormed := wellFormed_set h.wellFormed (.inr (.inr ⟨_, rfl⟩))
  waits key c hc hlasting := by
    simp only [afterExpire, LimitState.expire] at hc
    by_cases hkey : key = x.key
    · subst hkey
      split at hc
      · simp only [LimitState.setCounter, Function.update_self] at hc
        obtain rfl := Option.some.inj hc
        simp at hlasting
      · next hnone => simp [counter_of_lasting hc hlasting] at hnone
    · have hold : w.state.keys key = some c := by
        split at hc
        · simpa [LimitState.setCounter, Function.update_of_ne hkey] using hc
        · exact hc
      exact expiring_set hx (fun heq => absurd heq.symm hkey) (h.waits key c hold hlasting)

theorem Covered.step (h : w.Covered) (hkeeps : w.KeepsExpire e)
    (hstep : w.step e = some w') : w'.Covered := by
  cases step_moves h.wellFormed hstep with
  | wait d => exact ⟨h.wellFormed, h.waits⟩
  | start key limit window =>
      refine ⟨(Moves.start key limit window).wellFormed h.wellFormed, ?_⟩
      intro key' c hc hlasting
      obtain ⟨j, y, hy, hkey, hexpiring⟩ := h.waits key' c hc hlasting
      exact ⟨j, y, by rw [List.getElem?_append_left (List.getElem?_eq_some_iff.mp hy).1, hy], hkey,
        hexpiring⟩
  | incr hx hready => exact h.incr hx hready
  | incrFails hx hready => exact h.setProg hx hready.not_expiring
  | expire hx hexpiring => exact h.expire hx
  | expireFails hx hexpiring => simpa using hkeeps _ hx hexpiring.awaitsExpire
  | stop hx =>
      apply h.setProg hx
      intro hexpiring
      have hawaits := hkeeps _ hx
      rw [hexpiring.awaitsExpire] at hawaits
      simp at hawaits

theorem Fresh.covered (h : w.Fresh) : w.Covered where
  wellFormed := by
    intro x hx
    simp [h.calls] at hx
  waits key c hc := by simp [h.keys] at hc

/-- When no `EXPIRE` was lost and no call is in progress, every counter has a time to live and
disappears when it has elapsed. -/
theorem limiter_keys_expire {w₀ : LimiterWorld} {es : List LimiterEvent} (hfresh : w₀.Fresh)
    (hrun : w₀.RunOf KeepsExpire es w) (hidle : w.Idle) {key : String} {c : Counter}
    (hc : w.state.counter key = some c) :
    ∃ t, c.expiresAt = some t ∧
      ∀ d, t ≤ w.state.now + d → { w.state with now := w.state.now + d }.counter key = none := by
  have hcovered : w.Covered :=
    hrun.invariant (fun _ _ _ h hkeeps hstep => h.step hkeeps hstep) hfresh.covered
  have hkey := (counter_eq_some hc).1
  cases ht : c.expiresAt with
  | none =>
      obtain ⟨i, x, hx, -, hexpiring⟩ := hcovered.waits key c hkey ht
      have hsome := hidle x (List.mem_of_getElem? hx)
      rw [hexpiring.not_returned] at hsome
      simp at hsome
  | some t =>
      refine ⟨t, rfl, ?_⟩
      intro d hd
      simp [LimitState.counter, hkey, Counter.expired, ht, hd]

def unused : LimiterWorld := ⟨⟨0, fun _ => none, fun _ => none, fun _ _ => none⟩, [], fun _ => []⟩

theorem unused_fresh : unused.Fresh := ⟨fun _ => rfl, rfl, fun _ => rfl⟩

/-- One call whose two commands succeed. -/
theorem limiter_keys_expire_once :
    ∃ w, unused.RunOf KeepsExpire
        [.allowKey "k" 1 RateLimit.second, .step 0 false, .step 0 false] w ∧
      w.state.counter "k" = some ⟨1, some RateLimit.second⟩ ∧
      { w.state with now := w.state.now + RateLimit.second }.counter "k" = none := by
  have hreach : ∃ w, unused.RunOf KeepsExpire
      [.allowKey "k" 1 RateLimit.second, .step 0 false, .step 0 false] w ∧ w.Idle ∧
      w.state.counter "k" = some ⟨1, some RateLimit.second⟩ ∧ w.state.now = 0 :=
    ⟨_, .cons trivial rfl (.cons (fun _ _ _ => rfl) rfl (.cons (fun _ _ _ => rfl) rfl (.nil _))),
      by decide, by decide, rfl⟩
  obtain ⟨w, hrun, hidle, hcounter, hnow⟩ := hreach
  obtain ⟨t, ht, hgone⟩ := limiter_keys_expire unused_fresh hrun hidle hcounter
  obtain rfl : RateLimit.second = t := Option.some.inj ht
  exact ⟨w, hrun, hcounter, hgone RateLimit.second (by omega)⟩

/-- One call whose `EXPIRE` fails leaves a counter that never disappears. -/
theorem counter_left_for_ever :
    ¬∀ (w₀ w : LimiterWorld) (es : List LimiterEvent), w₀.Fresh →
      w₀.RunOf (fun _ _ => True) es w → w.Idle →
      ∀ key c, w.state.counter key = some c → ∃ t, c.expiresAt = some t := by
  intro h
  have hrun : unused.RunOf (fun _ _ => True)
      [.allowKey "k" 1 RateLimit.second, .step 0 false, .step 0 true] _ :=
    .cons trivial rfl (.cons trivial rfl (.cons trivial rfl (.nil _)))
  obtain ⟨t, ht⟩ := h _ _ _ unused_fresh hrun
    (by decide) "k" ⟨1, none⟩ rfl
  simp at ht

end LimiterWorld

end NotificationPlatform

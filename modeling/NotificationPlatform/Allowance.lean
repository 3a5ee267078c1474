import NotificationPlatform.LimiterRuns

/-!
# `Allow` alone

What one call of `Allow` does to the counters when nothing else happens in between, for a plan of
the times of its commands and of which of them fail.
-/

namespace NotificationPlatform

open Lib

/-- When each command of a call is made, and which of them fail. -/
structure LimitPlan where
  time : LimitStmt → Nat
  fails : LimitStmt → Bool

namespace LimitState

def atTime (l : LimitState) (now : Nat) : LimitState := { l with now := now }

end LimitState

namespace LimitPlan

def handler (plan : LimitPlan) (stmt : LimitStmt) (l : LimitState) : LimitReply stmt × LimitState :=
  (l.atTime (plan.time stmt)).exec (plan.fails stmt) stmt

def allowKey (plan : LimitPlan) (key : String) (limit : Int) (window : Nat) (l : LimitState) :
    Except Err Bool × LimitState :=
  (RateLimit.allowKey key limit window).eval plan.handler l

def loadLimits (plan : LimitPlan) (t channel : String) (l : LimitState) : Limits × LimitState :=
  (RateLimit.loadLimits true t channel).eval plan.handler l

/-- `Allow` alone, in a service that has a database. -/
def allow (plan : LimitPlan) (t channel : String) (l : LimitState) :
    Except Err Bool × LimitState :=
  (RateLimit.allow true t channel).eval plan.handler l

end LimitPlan

section

variable (plan : LimitPlan) (l : LimitState)

theorem allowKey_alone (key : String) (limit : Int) (window : Nat) :
    plan.allowKey key limit window l =
      let l₁ := l.atTime (plan.time (.incr key))
      if plan.fails (.incr key) then (.error .driver, l₁)
      else if (l₁.incr key).1 = 1 then
        let l₂ := (l₁.incr key).2.atTime (plan.time (.expire key window))
        if plan.fails (.expire key window) then (.error .driver, l₂)
        else (.ok (decide (1 ≤ limit)), l₂.expire key window)
      else (.ok (decide (((l₁.incr key).1 : Int) ≤ limit)), (l₁.incr key).2) := by
  rw [LimitPlan.allowKey, KeyCall.allowKey_eq, Prog.eval_call]
  simp only [LimitPlan.handler, LimitState.exec]
  by_cases hincr : plan.fails (.incr key) = true
  · simp only [if_pos hincr]
    rfl
  · simp only [if_neg hincr]
    by_cases hone : ((l.atTime (plan.time (.incr key))).incr key).1 = 1
    · rw [KeyCall.counted, if_pos hone, if_pos hone, KeyCall.expiring, Prog.eval_call]
      simp only [LimitPlan.handler, LimitState.exec]
      by_cases hexpire : plan.fails (.expire key window) = true
      · simp only [if_pos hexpire]
        rfl
      · simp only [if_neg hexpire]
        rfl
    · rw [KeyCall.counted, if_neg hone, if_neg hone]
      rfl

def LimitState.storedLimits (t channel : String) : Limits :=
  RateLimit.orDefault
    (if plan.fails (.selectLimits t channel) then RateLimit.defaultLimits
    else (l.channels t channel).getD RateLimit.defaultLimits)

def LimitState.limitsFor (t channel : String) : Limits :=
  match (l.atTime (plan.time (.lookup (t ++ ":" ++ channel)))).cached (t ++ ":" ++ channel) with
  | some limits => limits
  | none => l.storedLimits plan t channel

theorem fetchLimits_alone (t channel : String) :
    (RateLimit.fetchLimits t channel).eval plan.handler l =
      let limits := l.storedLimits plan t channel
      let now := plan.time (.remember (t ++ ":" ++ channel) limits)
      (limits, { l with
        now := now
        cache := Function.update l.cache (t ++ ":" ++ channel) (some (limits, now)) }) := by
  have hscan : plan.handler (.selectLimits t channel) l =
      (if plan.fails (.selectLimits t channel) then .error .driver
        else match l.channels t channel with
          | some limits => .ok limits
          | none => .error .noRows, l.atTime (plan.time (.selectLimits t channel))) := by
    simp only [LimitPlan.handler, LimitState.exec, LimitState.atTime]
    by_cases hfails : plan.fails (.selectLimits t channel) = true
    · simp only [if_pos hfails]
    · simp only [if_neg hfails]
      cases l.channels t channel <;> rfl
  show Prog.eval plan.handler (.call (.selectLimits t channel) _) l = _
  rw [Prog.eval_call, hscan, LimitState.storedLimits]
  by_cases hfails : plan.fails (.selectLimits t channel) = true
  · simp only [if_pos hfails]
    rfl
  · simp only [if_neg hfails]
    cases l.channels t channel with
    | none => rfl
    | some limits => rfl

theorem loadLimits_alone (t channel : String) :
    ∃ l', plan.loadLimits t channel l = (l.limitsFor plan t channel, l') ∧ l'.keys = l.keys ∧
      l'.channels = l.channels ∧ (∃ stmt, l'.now = plan.time stmt) ∧
      (l'.cache = l.cache ∨ ∃ now, l'.cache = Function.update l.cache (t ++ ":" ++ channel)
        (some (l.storedLimits plan t channel, now))) := by
  have hlookup : ∀ l₁ : LimitState, l₁.cache = l.cache →
      plan.handler (.lookup (t ++ ":" ++ channel)) l₁ =
        ((l.atTime (plan.time (.lookup (t ++ ":" ++ channel)))).cached (t ++ ":" ++ channel),
          l₁.atTime (plan.time (.lookup (t ++ ":" ++ channel)))) := by
    intro l₁ hcache
    simp only [LimitPlan.handler, LimitState.exec, LimitState.cached, LimitState.atTime, hcache]
    rfl
  rw [LimitState.limitsFor]
  cases hcached : (l.atTime (plan.time (.lookup (t ++ ":" ++ channel)))).cached
      (t ++ ":" ++ channel) with
  | some limits =>
      refine ⟨l.atTime (plan.time (.lookup (t ++ ":" ++ channel))), ?_, rfl, rfl, ⟨_, rfl⟩,
        .inl rfl⟩
      show Prog.eval plan.handler (.call (.lookup (t ++ ":" ++ channel)) _) l = _
      rw [Prog.eval_call, hlookup l rfl, hcached]
      rfl
  | none =>
      have heval : plan.loadLimits t channel l =
          (RateLimit.fetchLimits t channel).eval plan.handler
            (l.atTime (plan.time (.lookup (t ++ ":" ++ channel)))) := by
        show Prog.eval plan.handler (.call (.lookup (t ++ ":" ++ channel)) _) l = _
        rw [Prog.eval_call, hlookup l rfl, hcached]
        show Prog.eval plan.handler (.call (.lookup (t ++ ":" ++ channel)) _) _ = _
        dsimp only
        rw [Prog.eval_call,
          hlookup (l.atTime (plan.time (.lookup (t ++ ":" ++ channel)))) rfl, hcached]
        rfl
      rw [heval, fetchLimits_alone]
      exact ⟨_, rfl, rfl, rfl, ⟨_, rfl⟩, .inr ⟨_, rfl⟩⟩

theorem allow_alone {t channel : String} (ht : t ≠ "") (hchannel : channel ≠ "") :
    plan.allow t channel l =
      let (limits, l₁) := plan.loadLimits t channel l
      match plan.allowKey (RateLimit.rateKey t) limits.ratePerSecond RateLimit.second l₁ with
      | (.ok true, l₂) =>
          plan.allowKey
            (RateLimit.dailyKey t channel (RateLimit.dateOf (plan.time .today)))
            limits.dailyQuota RateLimit.day (l₂.atTime (plan.time .today))
      | (r, l₂) => (r, l₂) := by
  have hboth : ¬(t = "" ∨ channel = "") := by simp [ht, hchannel]
  rw [LimitPlan.allow, RateLimit.allow, if_neg hboth, Prog.eval_bind]
  show Prog.eval plan.handler (RateLimit.allowKey (RateLimit.rateKey t)
    (plan.loadLimits t channel l).1.ratePerSecond RateLimit.second >>= _)
    (plan.loadLimits t channel l).2 = _
  rw [Prog.eval_bind]
  show Prog.eval plan.handler _ (plan.allowKey (RateLimit.rateKey t)
    (plan.loadLimits t channel l).1.ratePerSecond RateLimit.second
    (plan.loadLimits t channel l).2).2 = _
  rw [← LimitPlan.allowKey]
  dsimp only
  cases plan.allowKey (RateLimit.rateKey t)
    (plan.loadLimits t channel l).1.ratePerSecond RateLimit.second
    (plan.loadLimits t channel l).2 with
  | mk r l₂ =>
      cases r with
      | error e => rfl
      | ok b =>
          cases b with
          | false => rfl
          | true => rfl

end

theorem rateKey_ne_dailyKey (t channel day : String) :
    RateLimit.rateKey t ≠ RateLimit.dailyKey t channel day := by
  intro h
  have hlist := congrArg String.toList h
  simp only [RateLimit.rateKey, RateLimit.dailyKey, String.toList_append, List.append_assoc] at hlist
  have htail := List.append_cancel_left (List.append_cancel_left hlist)
  exact absurd (List.cons.inj (List.cons.inj htail).2).1 (by decide)

private theorem split_last {as bs cs ds : List Char} {sep : Char} (hbs : sep ∉ bs) (hds : sep ∉ ds)
    (h : as ++ sep :: bs = cs ++ sep :: ds) : as = cs ∧ bs = ds := by
  rcases List.append_eq_append_iff.mp h with ⟨zs, hcs, hrest⟩ | ⟨zs, has, hrest⟩
  · cases zs with
    | nil => exact ⟨by simpa using hcs.symm, (List.cons.inj hrest).2⟩
    | cons z zs =>
        have hmem : sep ∈ bs := by
          rw [(List.cons.inj hrest).2]
          simp
        exact absurd hmem hbs
  · cases zs with
    | nil => exact ⟨by simpa using has, (List.cons.inj hrest).2.symm⟩
    | cons z zs =>
        have hmem : sep ∈ ds := by
          rw [(List.cons.inj hrest).2]
          simp
        exact absurd hmem hds

theorem dailyKey_injective {t channel channel' day day' : String} (hday : ':' ∉ day.toList)
    (hday' : ':' ∉ day'.toList)
    (h : RateLimit.dailyKey t channel day = RateLimit.dailyKey t channel' day') :
    channel = channel' ∧ day = day' := by
  have hlist := congrArg String.toList h
  simp only [RateLimit.dailyKey, String.toList_append, List.append_assoc] at hlist
  have htail := List.append_cancel_left (List.append_cancel_left (List.append_cancel_left hlist))
  obtain ⟨hchannel, hdays⟩ := split_last hday hday' htail
  exact ⟨String.toList_inj.mp hchannel, String.toList_inj.mp hdays⟩

end NotificationPlatform

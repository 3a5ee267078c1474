import NotificationPlatform.Allowance

/-!
# The limits of a channel

A sequence of calls of `Allow` for one tenant, without errors. The counter of a second is the
tenant's and is compared with the limit of the channel that asks, the counter of a day is the
channel's own, and a limit that is not positive gives way to the default.
-/

namespace NotificationPlatform

open Lib

/-- A call of `Allow` for a tenant: its channel and the times of its commands. It belongs to the
UTC day that it reads from the clock and counts in, and sets the time to live of a counter after it
has created it. -/
structure AllowCall (t : String) where
  channel : String
  time : LimitStmt → Nat
  named : channel ≠ ""
  sameDay : RateLimit.dateOf
    (time (.incr (RateLimit.dailyKey t channel (RateLimit.dateOf (time .today))))) =
      RateLimit.dateOf (time .today)
  forward : time (.incr (RateLimit.dailyKey t channel (RateLimit.dateOf (time .today)))) ≤
    time (.expire (RateLimit.dailyKey t channel (RateLimit.dateOf (time .today))) RateLimit.day)

namespace AllowCall

variable {t : String}

def date (x : AllowCall t) : String := RateLimit.dateOf (x.time .today)

def plan (x : AllowCall t) : LimitPlan := ⟨x.time, fun _ => false⟩

/-- When the call asks the counter of the tenant, and when that counter disappears if the call
creates it. -/
def rateTime (x : AllowCall t) : Nat := x.time (.incr (RateLimit.rateKey t))

def rateEnd (x : AllowCall t) : Nat :=
  x.time (.expire (RateLimit.rateKey t) RateLimit.second) + RateLimit.second

end AllowCall

structure RateWindow (t : String) where
  calls : List (AllowCall t)
  ends : Nat

section

variable {t : String}

/-- The last window of the calls so far, the latest call first. A call that comes after the end of
a window begins the next one. -/
def lastWindow : List (AllowCall t) → Option (RateWindow t)
  | [] => none
  | x :: earlier =>
      match lastWindow earlier with
      | some w =>
          if x.rateTime < w.ends then some ⟨x :: w.calls, w.ends⟩ else some ⟨[x], x.rateEnd⟩
      | none => some ⟨[x], x.rateEnd⟩

def inWindow (earlier : List (AllowCall t)) (x : AllowCall t) : List (AllowCall t) :=
  match lastWindow earlier with
  | some w => if x.rateTime < w.ends then w.calls else []
  | none => []

def LimitState.inForce (l : LimitState) (t channel : String) : Limits :=
  RateLimit.orDefault ((l.channels t channel).getD RateLimit.defaultLimits)

def passesRate (l : LimitState) (earlier : List (AllowCall t)) (x : AllowCall t) : Bool :=
  decide (((inWindow earlier x).length : Int) < (l.inForce t x.channel).ratePerSecond)

def passed (l : LimitState) : List (AllowCall t) → List (AllowCall t)
  | [] => []
  | x :: earlier => if passesRate l earlier x then x :: passed l earlier else passed l earlier

def onDay (l : LimitState) (earlier : List (AllowCall t)) (channel date : String) :
    List (AllowCall t) :=
  (passed l earlier).filter fun y => decide (y.channel = channel ∧ y.date = date)

/-- The limiter after a sequence of calls, the latest first. -/
def LimitState.after (l : LimitState) : List (AllowCall t) → LimitState
  | [] => l
  | x :: earlier => (x.plan.allow t x.channel (l.after earlier)).2

/-- What the limiter answers after a sequence of calls. -/
def LimitState.answer (l : LimitState) (earlier : List (AllowCall t)) (x : AllowCall t) :
    Except Err Bool :=
  (x.plan.allow t x.channel (l.after earlier)).1

end

/-- No call has been counted for the tenant yet, and what is cached is what is stored. -/
structure LimitState.FreshFor (l : LimitState) (t : String) : Prop where
  rate : l.keys (RateLimit.rateKey t) = none
  daily : ∀ channel now, l.keys (RateLimit.dailyKey t channel (RateLimit.dateOf now)) = none
  cache : ∀ channel limits fetched,
    l.cache (t ++ ":" ++ channel) = some (limits, fetched) → limits = l.inForce t channel

section

variable (plan : LimitPlan) (hcalm : ∀ stmt, plan.fails stmt = false) {l : LimitState}
  (key : String) (limit : Int) (window : Nat)
include hcalm

theorem allowKey_first (hwhole : RateLimit.second ∣ window)
    (hnone : (l.atTime (plan.time (.incr key))).counter key = none) :
    ∃ l', plan.allowKey key limit window l = (.ok (decide (1 ≤ limit)), l') ∧
      l'.keys = Function.update l.keys key
        (some ⟨1, some (plan.time (.expire key window) + window)⟩) ∧
      l'.channels = l.channels ∧ l'.cache = l.cache := by
  have hincr : (l.atTime (plan.time (.incr key))).incr key =
      (1, (l.atTime (plan.time (.incr key))).setCounter key ⟨1, none⟩) := by
    rw [LimitState.incr, hnone]
  rw [allowKey_alone]
  simp only [hcalm, hincr, Bool.false_eq_true, if_false, if_true]
  refine ⟨_, rfl, ?_⟩
  have hcounter : (((l.atTime (plan.time (.incr key))).setCounter key ⟨1, none⟩).atTime
      (plan.time (.expire key window))).counter key = some ⟨1, none⟩ := by
    simp [LimitState.counter, LimitState.atTime, LimitState.setCounter, Counter.expired]
  rw [LimitState.expire, hcounter, RateLimit.ttl_eq hwhole]
  refine ⟨?_, rfl, rfl⟩
  simp only [LimitState.setCounter, LimitState.atTime, Function.update_idem]

theorem allowKey_again {c : Counter}
    (hsome : (l.atTime (plan.time (.incr key))).counter key = some c) (hpos : 0 < c.count) :
    ∃ l', plan.allowKey key limit window l = (.ok (decide ((c.count : Int) < limit)), l') ∧
      l'.keys = Function.update l.keys key (some ⟨c.count + 1, c.expiresAt⟩) ∧
      l'.channels = l.channels ∧ l'.cache = l.cache := by
  have hincr : (l.atTime (plan.time (.incr key))).incr key = (c.count + 1,
      (l.atTime (plan.time (.incr key))).setCounter key ⟨c.count + 1, c.expiresAt⟩) := by
    rw [LimitState.incr, hsome]
  have hone : ¬c.count + 1 = 1 := by omega
  have hlimit : ((c.count + 1 : Nat) : Int) ≤ limit ↔ (c.count : Int) < limit := by omega
  rw [allowKey_alone]
  simp only [hcalm, hincr, Bool.false_eq_true, if_false, hone, hlimit]
  exact ⟨_, rfl, rfl, rfl, rfl⟩

end

structure LimitState.Mirrors {t : String} (l₀ : LimitState) (earlier : List (AllowCall t))
    (l : LimitState) : Prop where
  channels : l.channels = l₀.channels
  cache : ∀ channel limits fetched,
    l.cache (t ++ ":" ++ channel) = some (limits, fetched) → limits = l₀.inForce t channel
  rate : l.keys (RateLimit.rateKey t) =
    (lastWindow earlier).map fun w => ⟨w.calls.length, some w.ends⟩
  window : ∀ w, lastWindow earlier = some w → w.calls ≠ []
  unused : ∀ channel now, onDay l₀ earlier channel (RateLimit.dateOf now) = [] →
    l.keys (RateLimit.dailyKey t channel (RateLimit.dateOf now)) = none
  /-- The counter of a day outlives the day. -/
  daily : ∀ channel now, onDay l₀ earlier channel (RateLimit.dateOf now) ≠ [] →
    ∃ ends, l.keys (RateLimit.dailyKey t channel (RateLimit.dateOf now)) =
        some ⟨(onDay l₀ earlier channel (RateLimit.dateOf now)).length, some ends⟩ ∧
      ∀ later, RateLimit.dateOf later = RateLimit.dateOf now → later < ends

theorem dateOf_eq {now now' : Nat} (h : RateLimit.dateOf now = RateLimit.dateOf now') :
    now / RateLimit.day = now' / RateLimit.day := Calendar.text_injective h

theorem lt_add_day {now now' : Nat} (h : RateLimit.dateOf now = RateLimit.dateOf now') :
    now < now' + RateLimit.day := by
  have hdays := dateOf_eq h
  have hpos : 0 < RateLimit.day := by decide
  have hnow := Nat.div_add_mod now RateLimit.day
  have hnow' := Nat.div_add_mod now' RateLimit.day
  have hmod := Nat.mod_lt now hpos
  rw [hdays] at hnow
  omega

section

variable {t : String} {l₀ l : LimitState} {earlier : List (AllowCall t)}

theorem LimitState.Mirrors.limitsFor (h : l₀.Mirrors earlier l) (x : AllowCall t) :
    l.limitsFor x.plan t x.channel = l₀.inForce t x.channel := by
  have hstored : l.storedLimits x.plan t x.channel = l₀.inForce t x.channel := by
    simp [LimitState.storedLimits, AllowCall.plan, LimitState.inForce, h.channels]
  rw [LimitState.limitsFor]
  split
  · next limits hcached =>
      unfold LimitState.cached at hcached
      split at hcached
      · next limits' fetched hentry =>
          have hlimits := h.cache x.channel limits' fetched hentry
          split at hcached
          · rw [← Option.some.inj hcached]
            exact hlimits
          · simp at hcached
      · simp at hcached
  · exact hstored

theorem cacheKey_injective {channel channel' : String}
    (h : t ++ ":" ++ channel = t ++ ":" ++ channel') : channel = channel' := by
  have hlist := congrArg String.toList h
  simp only [String.toList_append] at hlist
  exact String.toList_inj.mp (List.append_cancel_left hlist)

theorem LimitState.Mirrors.loadLimits (h : l₀.Mirrors earlier l) (x : AllowCall t) :
    ∃ l', x.plan.loadLimits t x.channel l = (l₀.inForce t x.channel, l') ∧
      l'.keys = l.keys ∧ l₀.Mirrors earlier l' := by
  obtain ⟨l', hload, hkeys, hchannels, -, hcache⟩ := loadLimits_alone x.plan l t x.channel
  rw [h.limitsFor x] at hload
  refine ⟨l', hload, hkeys, hchannels.trans h.channels, ?_, hkeys ▸ h.rate, h.window,
    hkeys ▸ h.unused, hkeys ▸ h.daily⟩
  intro channel limits fetched hentry
  rcases hcache with hsame | ⟨now, hupdate⟩
  · rw [hsame] at hentry
    exact h.cache channel limits fetched hentry
  · rw [hupdate] at hentry
    by_cases hchannel : channel = x.channel
    · subst hchannel
      rw [Function.update_self] at hentry
      obtain ⟨rfl, -⟩ := Prod.mk.inj (Option.some.inj hentry)
      simp [LimitState.storedLimits, AllowCall.plan, LimitState.inForce, h.channels]
    · have hne : t ++ ":" ++ channel ≠ t ++ ":" ++ x.channel :=
        fun heq => hchannel (cacheKey_injective heq)
      rw [Function.update_of_ne hne] at hentry
      exact h.cache channel limits fetched hentry

/-- The counter of the tenant when the call joins the last window or begins the next one. -/
private def RateCounted (l₀ l : LimitState) (earlier : List (AllowCall t)) (x : AllowCall t) :
    Prop :=
  ∃ l', x.plan.allowKey (RateLimit.rateKey t) (l₀.inForce t x.channel).ratePerSecond
      RateLimit.second l = (.ok (passesRate l₀ earlier x), l') ∧
    l'.keys = Function.update l.keys (RateLimit.rateKey t)
      ((lastWindow (x :: earlier)).map fun w => ⟨w.calls.length, some w.ends⟩) ∧
    (∀ w, lastWindow (x :: earlier) = some w → w.calls ≠ []) ∧
    l'.channels = l.channels ∧ l'.cache = l.cache

private theorem rateCounted_first {x : AllowCall t}
    (hnone : (l.atTime x.rateTime).counter (RateLimit.rateKey t) = none)
    (hempty : inWindow earlier x = [])
    (hlast : lastWindow (x :: earlier) = some ⟨[x], x.rateEnd⟩) : RateCounted l₀ l earlier x := by
  have hpositive : 0 < (l₀.inForce t x.channel).ratePerSecond := by
    simp only [LimitState.inForce, RateLimit.orDefault]
    split <;> omega
  obtain ⟨l', hallow, hkeys, hchannels, hcache⟩ := allowKey_first x.plan (fun _ => rfl)
    (RateLimit.rateKey t) (l₀.inForce t x.channel).ratePerSecond RateLimit.second (dvd_refl _) hnone
  refine ⟨l', ?_, ?_, ?_, hchannels, hcache⟩
  · have hone : 1 ≤ (l₀.inForce t x.channel).ratePerSecond := by omega
    rw [hallow, passesRate, hempty]
    simp [hpositive, hone]
  · rw [hkeys, hlast]
    rfl
  · intro w hw
    rw [hlast] at hw
    obtain rfl := Option.some.inj hw
    simp

private theorem rateCounted_again {x : AllowCall t} {w : RateWindow t}
    (hlive : (l.atTime x.rateTime).counter (RateLimit.rateKey t) =
      some ⟨w.calls.length, some w.ends⟩) (hcalls : w.calls ≠ [])
    (hwindow : inWindow earlier x = w.calls)
    (hlast : lastWindow (x :: earlier) = some ⟨x :: w.calls, w.ends⟩) :
    RateCounted l₀ l earlier x := by
  have hpos : 0 < w.calls.length := List.length_pos_of_ne_nil hcalls
  obtain ⟨l', hallow, hkeys, hchannels, hcache⟩ := allowKey_again x.plan (fun _ => rfl)
    (RateLimit.rateKey t) (l₀.inForce t x.channel).ratePerSecond RateLimit.second hlive hpos
  refine ⟨l', ?_, ?_, ?_, hchannels, hcache⟩
  · rw [hallow, passesRate, hwindow]
  · rw [hkeys, hlast]
    simp
  · intro w' hw'
    rw [hlast] at hw'
    obtain rfl := Option.some.inj hw'
    simp

private theorem LimitState.Mirrors.rateCounted (h : l₀.Mirrors earlier l) (x : AllowCall t) :
    RateCounted l₀ l earlier x := by
  have hkey := h.rate
  cases hlast : lastWindow earlier with
  | none =>
      rw [hlast] at hkey
      apply rateCounted_first
      · simp [LimitState.counter, LimitState.atTime, hkey]
      · simp [inWindow, hlast]
      · simp [lastWindow, hlast]
  | some w =>
      rw [hlast] at hkey
      by_cases hin : x.rateTime < w.ends
      · have hnot : ¬w.ends ≤ x.rateTime := by omega
        apply rateCounted_again (w := w)
        · simp [LimitState.counter, LimitState.atTime, hkey, Counter.expired, hnot]
        · exact h.window w hlast
        · simp [inWindow, hlast, hin]
        · simp [lastWindow, hlast, hin]
      · apply rateCounted_first
        · have hle : w.ends ≤ x.rateTime := by omega
          simp [LimitState.counter, LimitState.atTime, hkey, Counter.expired, hle]
        · simp [inWindow, hlast, hin]
        · simp [lastWindow, hlast, hin]

theorem onDay_cons (x : AllowCall t) (channel date : String) :
    onDay l₀ (x :: earlier) channel date =
      if passesRate l₀ earlier x = true ∧ x.channel = channel ∧ x.date = date then
        x :: onDay l₀ earlier channel date
      else onDay l₀ earlier channel date := by
  unfold onDay
  rw [passed]
  cases passesRate l₀ earlier x with
  | false => simp
  | true => simp [List.filter_cons]

private theorem LimitState.Mirrors.today (h : l₀.Mirrors earlier l) (x : AllowCall t) :
    (onDay l₀ earlier x.channel x.date = [] ∧
      l.keys (RateLimit.dailyKey t x.channel x.date) = none) ∨
    ∃ ends, onDay l₀ earlier x.channel x.date ≠ [] ∧
      l.keys (RateLimit.dailyKey t x.channel x.date) =
        some ⟨(onDay l₀ earlier x.channel x.date).length, some ends⟩ ∧
      x.time (.incr (RateLimit.dailyKey t x.channel x.date)) < ends ∧
      ∀ later, RateLimit.dateOf later = x.date → later < ends := by
  by_cases hnone : onDay l₀ earlier x.channel x.date = []
  · exact .inl ⟨hnone, h.unused x.channel (x.time .today) hnone⟩
  · obtain ⟨ends, hkey, hends⟩ := h.daily x.channel (x.time .today) hnone
    exact .inr ⟨ends, hnone, hkey, hends _ x.sameDay, hends⟩

private theorem LimitState.Mirrors.dayCounted (h : l₀.Mirrors earlier l) (x : AllowCall t)
    {l₁ : LimitState} (hkeys : l₁.keys (RateLimit.dailyKey t x.channel x.date) =
      l.keys (RateLimit.dailyKey t x.channel x.date)) :
    ∃ l' ends, x.plan.allowKey (RateLimit.dailyKey t x.channel x.date)
        (l₀.inForce t x.channel).dailyQuota RateLimit.day l₁ =
        (.ok (decide (((onDay l₀ earlier x.channel x.date).length : Int) <
          (l₀.inForce t x.channel).dailyQuota)), l') ∧
      l'.keys = Function.update l₁.keys (RateLimit.dailyKey t x.channel x.date)
        (some ⟨(onDay l₀ earlier x.channel x.date).length + 1, some ends⟩) ∧
      (∀ later, RateLimit.dateOf later = x.date → later < ends) ∧
      l'.channels = l₁.channels ∧ l'.cache = l₁.cache := by
  rcases h.today x with ⟨hnone, hkey⟩ | ⟨ends, hsome, hkey, hlive, hends⟩
  · have hpositive : 0 < (l₀.inForce t x.channel).dailyQuota := by
      simp only [LimitState.inForce, RateLimit.orDefault]
      split <;> omega
    have hcounter : (l₁.atTime (x.plan.time (.incr (RateLimit.dailyKey t x.channel
        x.date)))).counter (RateLimit.dailyKey t x.channel x.date) = none := by
      simp [LimitState.counter, LimitState.atTime, hkeys, hkey]
    obtain ⟨l', hallow, hkeys', hchannels, hcache⟩ := allowKey_first x.plan (fun _ => rfl)
      (RateLimit.dailyKey t x.channel x.date) (l₀.inForce t x.channel).dailyQuota RateLimit.day
      RateLimit.second_dvd_day hcounter
    refine ⟨l', x.time (.expire (RateLimit.dailyKey t x.channel x.date) RateLimit.day) +
      RateLimit.day, ?_, ?_, ?_, hchannels, hcache⟩
    · have hone : 1 ≤ (l₀.inForce t x.channel).dailyQuota := by omega
      rw [hallow, hnone]
      simp [hpositive, hone]
    · rw [hkeys', hnone]
      rfl
    · intro later hlater
      have hlt := lt_add_day (hlater.trans x.sameDay.symm)
      have hforward := x.forward
      change later < x.time (.incr (RateLimit.dailyKey t x.channel x.date)) + RateLimit.day at hlt
      change x.time (.incr (RateLimit.dailyKey t x.channel x.date)) ≤ x.time (.expire
        (RateLimit.dailyKey t x.channel x.date) RateLimit.day) at hforward
      omega
  · have hnot : ¬ends ≤ x.time (.incr (RateLimit.dailyKey t x.channel x.date)) := by omega
    have hcounter : (l₁.atTime (x.plan.time (.incr (RateLimit.dailyKey t x.channel
        x.date)))).counter (RateLimit.dailyKey t x.channel x.date) =
          some ⟨(onDay l₀ earlier x.channel x.date).length, some ends⟩ := by
      simp [LimitState.counter, LimitState.atTime, hkeys, hkey, Counter.expired, AllowCall.plan,
        hnot]
    obtain ⟨l', hallow, hkeys', hchannels, hcache⟩ := allowKey_again x.plan (fun _ => rfl)
      (RateLimit.dailyKey t x.channel x.date) (l₀.inForce t x.channel).dailyQuota RateLimit.day
      hcounter (List.length_pos_of_ne_nil hsome)
    exact ⟨l', ends, hallow, hkeys', hends, hchannels, hcache⟩

private theorem dailyKey_ne {x : AllowCall t} {channel : String} {now : Nat}
    (h : ¬(x.channel = channel ∧ x.date = RateLimit.dateOf now)) :
    RateLimit.dailyKey t channel (RateLimit.dateOf now) ≠
      RateLimit.dailyKey t x.channel x.date := by
  intro heq
  exact h (dailyKey_injective (Calendar.text_noColon _) (Calendar.text_noColon _) heq.symm)

private theorem LimitState.Mirrors.stopped (h : l₀.Mirrors earlier l) {x : AllowCall t}
    {l' : LimitState} (hpasses : passesRate l₀ earlier x = false)
    (hkeys : l'.keys = Function.update l.keys (RateLimit.rateKey t)
      ((lastWindow (x :: earlier)).map fun w => ⟨w.calls.length, some w.ends⟩))
    (hwindow : ∀ w, lastWindow (x :: earlier) = some w → w.calls ≠ [])
    (hchannels : l'.channels = l.channels) (hcache : l'.cache = l.cache) :
    l₀.Mirrors (x :: earlier) l' := by
  have hday : ∀ channel date, onDay l₀ (x :: earlier) channel date =
      onDay l₀ earlier channel date := by
    intro channel date
    rw [onDay_cons, if_neg (by simp [hpasses])]
  have hdaily : ∀ channel date, l'.keys (RateLimit.dailyKey t channel date) =
      l.keys (RateLimit.dailyKey t channel date) := by
    intro channel date
    rw [hkeys, Function.update_of_ne (rateKey_ne_dailyKey t channel date).symm]
  refine ⟨hchannels.trans h.channels, hcache ▸ h.cache, ?_, hwindow, ?_, ?_⟩
  · rw [hkeys, Function.update_self]
  · intro channel now hnone
    rw [hday] at hnone
    rw [hdaily]
    exact h.unused channel now hnone
  · intro channel now hsome
    rw [hday] at hsome ⊢
    rw [hdaily]
    exact h.daily channel now hsome

private theorem LimitState.Mirrors.counted (h : l₀.Mirrors earlier l) {x : AllowCall t}
    {l₁ l' : LimitState} {ends : Nat} (hpasses : passesRate l₀ earlier x = true)
    (hkeys : l₁.keys = Function.update l.keys (RateLimit.rateKey t)
      ((lastWindow (x :: earlier)).map fun w => ⟨w.calls.length, some w.ends⟩))
    (hwindow : ∀ w, lastWindow (x :: earlier) = some w → w.calls ≠ [])
    (hkeys' : l'.keys = Function.update l₁.keys (RateLimit.dailyKey t x.channel x.date)
      (some ⟨(onDay l₀ earlier x.channel x.date).length + 1, some ends⟩))
    (hends : ∀ later, RateLimit.dateOf later = x.date → later < ends)
    (hchannels : l'.channels = l.channels) (hcache : l'.cache = l.cache) :
    l₀.Mirrors (x :: earlier) l' := by
  refine ⟨hchannels.trans h.channels, hcache ▸ h.cache, ?_, hwindow, ?_, ?_⟩
  · rw [hkeys', Function.update_of_ne (rateKey_ne_dailyKey t x.channel x.date), hkeys,
      Function.update_self]
  · intro channel now hnone
    have hother : ¬(x.channel = channel ∧ x.date = RateLimit.dateOf now) := by
      intro hsame
      rw [onDay_cons, if_pos ⟨hpasses, hsame⟩] at hnone
      simp at hnone
    rw [onDay_cons, if_neg (by simp [hother])] at hnone
    rw [hkeys', Function.update_of_ne (dailyKey_ne hother), hkeys,
      Function.update_of_ne (rateKey_ne_dailyKey t channel _).symm]
    exact h.unused channel now hnone
  · intro channel now hsome
    by_cases hsame : x.channel = channel ∧ x.date = RateLimit.dateOf now
    · obtain ⟨rfl, hdate⟩ := hsame
      refine ⟨ends, ?_, hdate ▸ hends⟩
      rw [onDay_cons, if_pos ⟨hpasses, rfl, hdate⟩, ← hdate, hkeys', Function.update_self]
      rfl
    · rw [onDay_cons, if_neg (by simp [hsame])] at hsome ⊢
      rw [hkeys', Function.update_of_ne (dailyKey_ne hsame), hkeys,
        Function.update_of_ne (rateKey_ne_dailyKey t channel _).symm]
      exact h.daily channel now hsome

theorem LimitState.Mirrors.allow (ht : t ≠ "") (h : l₀.Mirrors earlier l) (x : AllowCall t) :
    ∃ l', x.plan.allow t x.channel l = (.ok (passesRate l₀ earlier x &&
        decide (((onDay l₀ earlier x.channel x.date).length : Int) <
          (l₀.inForce t x.channel).dailyQuota)), l') ∧
      l₀.Mirrors (x :: earlier) l' := by
  obtain ⟨l₁, hload, hkeys₁, h₁⟩ := h.loadLimits x
  obtain ⟨l₂, hrate, hkeys₂, hwindow, hchannels₂, hcache₂⟩ := h₁.rateCounted x
  rw [allow_alone x.plan l ht x.named, hload]
  dsimp only
  rw [hrate]
  cases hpasses : passesRate l₀ earlier x with
  | false => exact ⟨l₂, rfl, h₁.stopped hpasses hkeys₂ hwindow hchannels₂ hcache₂⟩
  | true =>
      have hdaily : (l₂.atTime (x.plan.time .today)).keys (RateLimit.dailyKey t x.channel x.date) =
          l₁.keys (RateLimit.dailyKey t x.channel x.date) := by
        show l₂.keys _ = _
        rw [hkeys₂, Function.update_of_ne (rateKey_ne_dailyKey t x.channel x.date).symm]
      obtain ⟨l₃, ends, hday, hkeys₃, hends, hchannels₃, hcache₃⟩ := h₁.dayCounted x hdaily
      refine ⟨l₃, ?_, h₁.counted hpasses hkeys₂ hwindow hkeys₃ hends
        (hchannels₃.trans hchannels₂) (hcache₃.trans hcache₂)⟩
      rw [Bool.true_and]
      exact hday

theorem LimitState.FreshFor.mirrors (hfresh : l₀.FreshFor t) :
    l₀.Mirrors ([] : List (AllowCall t)) l₀ where
  channels := rfl
  cache := hfresh.cache
  rate := hfresh.rate
  window w hw := by simp [lastWindow] at hw
  unused channel now _ := hfresh.daily channel now
  daily channel now hsome := by simp [onDay, passed] at hsome

theorem LimitState.FreshFor.after (hfresh : l₀.FreshFor t) (ht : t ≠ "")
    (earlier : List (AllowCall t)) : l₀.Mirrors earlier (l₀.after earlier) := by
  induction earlier with
  | nil => exact hfresh.mirrors
  | cons x earlier ih =>
      obtain ⟨l', hallow, hmirrors⟩ := ih.allow ht x
      rw [LimitState.after, hallow]
      exact hmirrors

end

/-- After any sequence of calls for a tenant, a call for a channel returns true if and only if
fewer calls of the tenant, on any channel, fell in the current one-second window than the limit in
force for the channel, and fewer calls of the channel that passed this check fell on the day of the
call than its daily quota in force. Otherwise it returns false. -/
theorem allow_enforces_limits {t : String} (ht : t ≠ "") {l : LimitState} (hfresh : l.FreshFor t)
    (earlier : List (AllowCall t)) (x : AllowCall t) :
    l.answer earlier x = .ok (decide (
      ((inWindow earlier x).length : Int) < (l.inForce t x.channel).ratePerSecond ∧
      ((onDay l earlier x.channel x.date).length : Int) < (l.inForce t x.channel).dailyQuota)) := by
  obtain ⟨l', hallow, -⟩ := (hfresh.after ht earlier).allow ht x
  rw [LimitState.answer, hallow, passesRate, Bool.decide_and]

def twoChannels : LimitState where
  now := 0
  keys _ := none
  cache _ := none
  channels t channel := if t = "t1" ∧ (channel = "email" ∨ channel = "sms") then some ⟨1, 10⟩ else none

theorem twoChannels_fresh : twoChannels.FreshFor "t1" := ⟨rfl, fun _ _ => rfl, by simp [twoChannels]⟩

def callAt (channel : String) (now : Nat) (named : channel ≠ "") : AllowCall "t1" :=
  ⟨channel, fun _ => now, named, rfl, le_refl now⟩

/-- The earlier calls for the same channel in the window of a call. -/
def ownInWindow {t : String} (earlier : List (AllowCall t)) (x : AllowCall t) :
    List (AllowCall t) :=
  (inWindow earlier x).filter fun y => decide (y.channel = x.channel)

/-- Where the calls for the other channels of the tenant, and the defaults that replace a zero, do
not matter: of two positive limits one is used up by the channel's own calls, or all calls of the
window stay below the rate; of limits with a zero the ones in force are used up. -/
def LimitState.Decisive {t : String} (l : LimitState) (earlier : List (AllowCall t))
    (x : AllowCall t) (stored : Limits) : Prop :=
  let used : Int := (onDay l earlier x.channel x.date).length
  if 0 < stored.ratePerSecond ∧ 0 < stored.dailyQuota then
    stored.dailyQuota ≤ used ∨ stored.ratePerSecond ≤ (ownInWindow earlier x).length ∨
      ((inWindow earlier x).length : Int) < stored.ratePerSecond
  else
    (l.inForce t x.channel).ratePerSecond ≤ (inWindow earlier x).length ∨
      (l.inForce t x.channel).dailyQuota ≤ used

instance {t : String} (l : LimitState) (earlier : List (AllowCall t)) (x : AllowCall t)
    (stored : Limits) : Decidable (l.Decisive earlier x stored) := by
  unfold LimitState.Decisive
  infer_instance

/-- After any sequence of calls for a tenant, a call for a channel is answered by the limits stored
for the channel, counted over its own calls, exactly where the condition holds. -/
theorem allow_enforces_own_limits_iff {t : String} (ht : t ≠ "") {l : LimitState}
    (hfresh : l.FreshFor t) (earlier : List (AllowCall t)) (x : AllowCall t) {stored : Limits}
    (hstored : l.channels t x.channel = some stored) (hrate : 0 ≤ stored.ratePerSecond)
    (hquota : 0 ≤ stored.dailyQuota) :
    (l.answer earlier x = .ok true ↔
      ((ownInWindow earlier x).length : Int) < stored.ratePerSecond ∧
        ((onDay l earlier x.channel x.date).length : Int) < stored.dailyQuota) ↔
    l.Decisive earlier x stored := by
  have hown : (ownInWindow earlier x).length ≤ (inWindow earlier x).length :=
    List.length_filter_le _ _
  have hinForce : l.inForce t x.channel = RateLimit.orDefault stored := by
    simp [LimitState.inForce, hstored]
  rw [allow_enforces_limits ht hfresh, Except.ok.injEq, decide_eq_true_eq, LimitState.Decisive,
    hinForce]
  by_cases hpositive : 0 < stored.ratePerSecond ∧ 0 < stored.dailyQuota
  · have hforce : RateLimit.orDefault stored = stored := by
      simp [RateLimit.orDefault, Int.not_le.mpr hpositive.1, Int.not_le.mpr hpositive.2]
    rw [if_pos hpositive, hforce]
    omega
  · rw [if_neg hpositive]
    omega

/-- The first call for `email` is let through, the second one in the same second is not. -/
theorem allow_enforces_own_limits_email :
    twoChannels.answer [] (callAt "email" 0 (by decide)) = .ok true ∧
      twoChannels.answer [callAt "email" 0 (by decide)] (callAt "email" 5 (by decide)) ≠
        .ok true := by
  have hname : "t1" ≠ "" := by decide
  have hstored : twoChannels.channels "t1" "email" = some ⟨1, 10⟩ := by decide
  have hfirst := (allow_enforces_own_limits_iff hname twoChannels_fresh []
    (callAt "email" 0 (by decide)) hstored (by decide) (by decide)).mpr (by decide +kernel)
  have hsecond := (allow_enforces_own_limits_iff hname twoChannels_fresh
    [callAt "email" 0 (by decide)] (callAt "email" 5 (by decide)) hstored (by decide)
    (by decide)).mpr (by decide +kernel)
  constructor
  · exact hfirst.mpr (by decide +kernel)
  · intro hanswer
    exact absurd (hsecond.mp hanswer) (by decide +kernel)

/-- After one call for `email`, the first call for `sms` in the same second is refused, although
its limit is one message a second and none has been sent. -/
theorem sms_refused_after_email :
    ¬∀ (earlier : List (AllowCall "t1")) (x : AllowCall "t1") (limits : Limits),
      twoChannels.channels "t1" x.channel = some limits →
      0 ≤ limits.ratePerSecond → 0 ≤ limits.dailyQuota →
      (twoChannels.answer earlier x = .ok true ↔
        ((ownInWindow earlier x).length : Int) < limits.ratePerSecond ∧
          ((onDay twoChannels earlier x.channel x.date).length : Int) < limits.dailyQuota) := by
  intro h
  have hclaim := (h [callAt "email" 0 (by decide)] (callAt "sms" 0 (by decide)) ⟨1, 10⟩
    (by decide) (by decide) (by decide)).mpr (by decide +kernel)
  exact absurd hclaim (by decide +kernel)

end NotificationPlatform

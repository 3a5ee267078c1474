import NotificationPlatform.Allowance
import NotificationPlatform.SendAtomicity

/-!
# What a rejected request costs

`Send` asks the rate limiter for one channel after the other, and each question that gets past the
counter of the tenant increments the daily counter of the channel. Nothing takes it back: the
counters only move on.
-/

namespace NotificationPlatform

open Lib

/-- The counter has been incremented since: it counts more, or it has been created anew after its
end and lives longer. A counter at zero is none that an `INCR` leaves. -/
structure Counter.After (old new : Counter) : Prop where
  counts : 0 < new.count
  moved : old.count = 0 ∨ (new.expiresAt = old.expiresAt ∧ old.count < new.count) ∨
    ∃ t, old.expiresAt = some t ∧ ∀ t', new.expiresAt = some t' → t < t'

def Moved : Option Counter → Option Counter → Prop
  | none, some _ => True
  | some old, some new => old.After new
  | _, none => False

namespace Counter

variable {a b c : Counter}

theorem After.trans (hab : a.After b) (hbc : b.After c) : a.After c := by
  refine ⟨hbc.counts, ?_⟩
  have hb := hab.counts
  rcases hab.moved with hzero | ⟨hends, hcount⟩ | ⟨t, ht, hlater⟩
  · exact .inl hzero
  · rcases hbc.moved with hzero | ⟨hends', hcount'⟩ | ⟨t, ht, hlater⟩
    · omega
    · exact .inr (.inl ⟨hends'.trans hends, hcount.trans hcount'⟩)
    · exact .inr (.inr ⟨t, hends ▸ ht, hlater⟩)
  · rcases hbc.moved with hzero | ⟨hends', -⟩ | ⟨u, hu, hlater'⟩
    · omega
    · refine .inr (.inr ⟨t, ht, ?_⟩)
      intro t' ht'
      exact hlater t' (hends' ▸ ht')
    · refine .inr (.inr ⟨t, ht, ?_⟩)
      intro t' ht'
      exact (hlater u hu).trans (hlater' t' ht')

theorem After.ne (h : a.After b) : a ≠ b := by
  rintro rfl
  have hcounts := h.counts
  rcases h.moved with hzero | ⟨-, hcount⟩ | ⟨t, ht, hlater⟩
  · omega
  · omega
  · exact absurd (hlater t ht) (lt_irrefl t)

end Counter

namespace Moved

variable {a b c : Option Counter}

theorem trans (hab : Moved a b) (hbc : Moved b c) : Moved a c := by
  cases c with
  | none => cases b <;> exact hbc.elim
  | some c =>
      cases b with
      | none => cases a <;> exact hab.elim
      | some b =>
          cases a with
          | none => trivial
          | some a => exact Counter.After.trans hab hbc

theorem ne (h : Moved a b) : b ≠ a := by
  rintro rfl
  cases b with
  | none => exact h
  | some b => exact Counter.After.ne h rfl

end Moved

def LimitState.Onward (l l' : LimitState) : Prop :=
  ∀ key, l'.keys key = l.keys key ∨ Moved (l.keys key) (l'.keys key)

theorem LimitState.Onward.refl (l : LimitState) : l.Onward l := fun _ => .inl rfl

theorem LimitState.Onward.trans {l₁ l₂ l₃ : LimitState} (h₁ : l₁.Onward l₂) (h₂ : l₂.Onward l₃) :
    l₁.Onward l₃ := by
  intro key
  rcases h₁ key with hkeep | hmoved
  · rw [← hkeep]
    exact h₂ key
  · rcases h₂ key with hkeep | hmoved'
    · rw [hkeep]
      exact .inr hmoved
    · exact .inr (hmoved.trans hmoved')

namespace LimitPlan

/-- A caller sets the time to live after it has incremented the counter. -/
def Forward (plan : LimitPlan) : Prop :=
  ∀ key window, plan.time (.incr key) ≤ plan.time (.expire key window)

structure Passes (plan : LimitPlan) (l : LimitState) (key : String) (limit : Int) (window : Nat) :
    Prop where
  incr : plan.fails (.incr key) = false
  expire : ((l.atTime (plan.time (.incr key))).incr key).1 = 1 →
    plan.fails (.expire key window) = false
  within : (((l.atTime (plan.time (.incr key))).incr key).1 : Int) ≤ limit

end LimitPlan

theorem incr_count (l : LimitState) (key : String) :
    (l.incr key).1 = ((l.counter key).map Counter.count).getD 0 + 1 := by
  unfold LimitState.incr
  cases l.counter key with
  | none => rfl
  | some c => rfl

theorem incr_keys (l : LimitState) (key : String) :
    (l.incr key).2.keys = Function.update l.keys key
      (some ⟨(l.incr key).1, (l.counter key).bind Counter.expiresAt⟩) := by
  rw [LimitState.incr_state]
  rfl

theorem moved_incr (l : LimitState) (key : String) :
    Moved (l.keys key) ((l.incr key).2.keys key) := by
  rw [incr_keys, Function.update_self]
  unfold LimitState.incr LimitState.counter
  cases l.keys key with
  | none => trivial
  | some c =>
      dsimp only
      by_cases hexpired : c.expired l.now = true
      · rw [if_pos hexpired]
        refine ⟨Nat.one_pos, .inr (.inr ?_)⟩
        cases hends : c.expiresAt with
        | none => simp [Counter.expired, hends] at hexpired
        | some t => exact ⟨t, rfl, by simp⟩
      · rw [if_neg hexpired]
        exact ⟨Nat.succ_pos _, .inr (.inl ⟨rfl, Nat.lt_succ_self _⟩)⟩

theorem moved_expire {l : LimitState} {key : String} {later window : Nat}
    (hone : (l.incr key).1 = 1) (hlater : l.now ≤ later) (hwindow : 0 < window) :
    Moved (l.keys key) ((((l.incr key).2.atTime later).expire key window).keys key) := by
  have hincr := moved_incr l key
  unfold LimitState.expire
  cases hcounter : ((l.incr key).2.atTime later).counter key with
  | none => exact hincr
  | some c =>
      have hc : c = ⟨1, (l.counter key).bind Counter.expiresAt⟩ := by
        have hkeys := (LimiterWorld.counter_eq_some hcounter).1
        change (l.incr key).2.keys key = some c at hkeys
        rw [incr_keys, Function.update_self, hone] at hkeys
        exact (Option.some.inj hkeys).symm
      subst hc
      simp only [LimitState.setCounter, Function.update_self]
      cases hold : l.keys key with
      | none => trivial
      | some old =>
          refine ⟨Nat.one_pos, ?_⟩
          by_cases hexpired : old.expired l.now = true
          · cases hends : old.expiresAt with
            | none => simp [Counter.expired, hends] at hexpired
            | some t =>
                have ht : t ≤ l.now := by simpa [Counter.expired, hends] using hexpired
                refine .inr (.inr ⟨t, rfl, ?_⟩)
                intro t' ht'
                have hend : later + RateLimit.ttl window = t' := Option.some.inj ht'
                have httl := RateLimit.ttl_pos hwindow
                omega
          · -- only a counter at zero counts one after its `INCR`
            have hzero : old.count + 1 = 1 := by
              have hlive : l.counter key = some old := by
                simp [LimitState.counter, hold, hexpired]
              simpa [LimitState.incr, hlive] using hone
            exact .inl (by omega)

theorem allowKey_moves {plan : LimitPlan} (hforward : plan.Forward) (l : LimitState) (key : String)
    (limit : Int) {window : Nat} (hwindow : 0 < window) :
    ∃ r l', plan.allowKey key limit window l = (r, l') ∧
      (r = .ok true ↔ plan.Passes l key limit window) ∧
      (∀ key', key' ≠ key → l'.keys key' = l.keys key') ∧
      (plan.fails (.incr key) = true → l'.keys key = l.keys key) ∧
      (plan.fails (.incr key) = false → Moved (l.keys key) (l'.keys key)) := by
  have hother : ∀ key', key' ≠ key →
      ((l.atTime (plan.time (.incr key))).incr key).2.keys key' = l.keys key' := by
    intro key' hne
    rw [incr_keys, Function.update_of_ne hne]
    rfl
  have hmoved := moved_incr (l.atTime (plan.time (.incr key))) key
  rw [allowKey_alone]
  dsimp only
  by_cases hincr : plan.fails (.incr key) = true
  · rw [if_pos hincr]
    refine ⟨_, _, rfl, ?_, fun _ _ => rfl, fun _ => rfl, by simp [hincr]⟩
    constructor
    · intro h
      cases h
    · intro h
      simpa [hincr] using h.incr
  · rw [if_neg hincr]
    have hfalse : plan.fails (.incr key) = false := by simpa using hincr
    by_cases hone : ((l.atTime (plan.time (.incr key))).incr key).1 = 1
    · rw [if_pos hone]
      by_cases hexpire : plan.fails (.expire key window) = true
      · rw [if_pos hexpire]
        refine ⟨_, _, rfl, ?_, hother, fun h => absurd h hincr, fun _ => hmoved⟩
        constructor
        · intro h
          cases h
        · intro h
          simpa [hexpire] using h.expire hone
      · rw [if_neg hexpire]
        refine ⟨_, _, rfl, ?_, ?_, fun h => absurd h hincr, fun _ => ?_⟩
        · constructor
          · intro h
            have hlimit : (1 : Int) ≤ limit := by simpa using h
            exact ⟨hfalse, fun _ => by simpa using hexpire, by rw [hone]; exact hlimit⟩
          · intro h
            have hlimit := h.within
            rw [hone] at hlimit
            simpa using hlimit
        · intro key' hne
          unfold LimitState.expire
          split
          · show Function.update _ key _ key' = _
            rw [Function.update_of_ne hne]
            exact hother key' hne
          · exact hother key' hne
        · exact moved_expire hone (hforward key window) hwindow
    · rw [if_neg hone]
      refine ⟨_, _, rfl, ?_, hother, fun h => absurd h hincr, fun _ => hmoved⟩
      constructor
      · intro h
        exact ⟨hfalse, fun h' => absurd h' hone, by simpa using h⟩
      · intro h
        simpa using h.within

/-- The question gets past the counter of the tenant and increments the daily counter. -/
structure LimitState.Counts (l : LimitState) (plan : LimitPlan) (t channel : String) :
    Prop where
  named : t ≠ "" ∧ channel ≠ ""
  rate : plan.Passes l (RateLimit.rateKey t) (l.limitsFor plan t channel).ratePerSecond
    RateLimit.second
  daily : plan.fails (.incr (RateLimit.dailyKey t channel
    (RateLimit.dateOf (plan.time .today)))) = false

/-- A question that counts moves a daily counter on, every other one changes no daily counter and
is not answered with a yes. -/
theorem allow_moves {plan : LimitPlan} (hforward : plan.Forward) (l : LimitState)
    (t channel : String) :
    ∃ r l', plan.allow t channel l = (r, l') ∧ l.Onward l' ∧
      (l.Counts plan t channel → ∃ date, Moved (l.keys (RateLimit.dailyKey t channel date))
        (l'.keys (RateLimit.dailyKey t channel date))) ∧
      (¬l.Counts plan t channel → r ≠ .ok true ∧ ∀ channel' date,
        l'.keys (RateLimit.dailyKey t channel' date) =
          l.keys (RateLimit.dailyKey t channel' date)) := by
  by_cases hnamed : t = "" ∨ channel = ""
  · refine ⟨.ok false, l, ?_, .refl l, ?_, fun _ => ⟨by simp, fun _ _ => rfl⟩⟩
    · rw [LimitPlan.allow, RateLimit.allow, if_pos hnamed]
      rfl
    · intro hcounts
      rcases hnamed with h | h
      · exact absurd h hcounts.named.1
      · exact absurd h hcounts.named.2
  · simp only [not_or] at hnamed
    obtain ⟨l₁, hload, hkeys, -⟩ := loadLimits_alone plan l t channel
    obtain ⟨r, l₂, hrate, hok, hother, hkeep, hmoved⟩ := allowKey_moves hforward l₁
      (RateLimit.rateKey t) (l.limitsFor plan t channel).ratePerSecond
      (show 0 < RateLimit.second by decide)
    have hpasses : plan.Passes l₁ (RateLimit.rateKey t) (l.limitsFor plan t channel).ratePerSecond
        RateLimit.second ↔ plan.Passes l (RateLimit.rateKey t)
          (l.limitsFor plan t channel).ratePerSecond RateLimit.second := by
      have hincr : ((l₁.atTime (plan.time (.incr (RateLimit.rateKey t)))).incr
          (RateLimit.rateKey t)).1 = ((l.atTime (plan.time (.incr (RateLimit.rateKey t)))).incr
          (RateLimit.rateKey t)).1 := by
        rw [incr_count, incr_count]
        simp only [LimitState.counter, LimitState.atTime, hkeys]
        rfl
      constructor
      · intro h
        exact ⟨h.incr, hincr ▸ h.expire, hincr ▸ h.within⟩
      · intro h
        exact ⟨h.incr, hincr.symm ▸ h.expire, hincr.symm ▸ h.within⟩
    have hdaily₂ : ∀ channel' date, l₂.keys (RateLimit.dailyKey t channel' date) =
        l.keys (RateLimit.dailyKey t channel' date) := by
      intro channel' date
      rw [hother _ (rateKey_ne_dailyKey t channel' date).symm, hkeys]
    have honward₂ : l.Onward l₂ := by
      intro key
      rw [← hkeys]
      by_cases hkey : key = RateLimit.rateKey t
      · subst hkey
        cases hfails : plan.fails (.incr (RateLimit.rateKey t)) with
        | true => exact .inl (hkeep hfails)
        | false => exact .inr (hmoved hfails)
      · exact .inl (hother key hkey)
    have hallow := allow_alone plan l hnamed.1 hnamed.2
    rw [hload] at hallow
    dsimp only at hallow
    rw [hrate] at hallow
    by_cases hr : r = .ok true
    · subst hr
      have hrate' := hpasses.mp (hok.mp rfl)
      obtain ⟨r', l₃, hlast, hok', hother', hkeep', hmoved'⟩ := allowKey_moves hforward
        (l₂.atTime (plan.time .today))
        (RateLimit.dailyKey t channel (RateLimit.dateOf (plan.time .today)))
        (l.limitsFor plan t channel).dailyQuota (show 0 < RateLimit.day by decide)
      refine ⟨r', l₃, hallow.trans hlast, ?_, ?_, ?_⟩
      · apply honward₂.trans
        intro key
        by_cases hkey : key = RateLimit.dailyKey t channel (RateLimit.dateOf (plan.time .today))
        · subst hkey
          cases hfails : plan.fails (.incr (RateLimit.dailyKey t channel
              (RateLimit.dateOf (plan.time .today)))) with
          | true => exact .inl (hkeep' hfails)
          | false => exact .inr (hmoved' hfails)
        · exact .inl (hother' key hkey)
      · intro hcounts
        refine ⟨RateLimit.dateOf (plan.time .today), ?_⟩
        rw [← hdaily₂ channel]
        exact hmoved' hcounts.daily
      · intro hnot
        have hfails : plan.fails (.incr (RateLimit.dailyKey t channel
            (RateLimit.dateOf (plan.time .today)))) = true := by
          by_contra hfalse
          exact hnot ⟨hnamed, hrate', by simpa using hfalse⟩
        refine ⟨?_, ?_⟩
        · intro htrue
          simpa [hfails] using (hok'.mp htrue).incr
        · intro channel' date
          rw [← hdaily₂ channel' date]
          by_cases hkey : RateLimit.dailyKey t channel' date =
              RateLimit.dailyKey t channel (RateLimit.dateOf (plan.time .today))
          · rw [hkey]
            exact hkeep' hfails
          · exact hother' _ hkey
    · have hreturn : plan.allow t channel l = (r, l₂) := by
        rw [hallow]
        split
        · next heq => exact absurd (Prod.mk.inj heq).1 hr
        · next heq => exact heq.symm
      refine ⟨r, l₂, hreturn, honward₂, ?_, fun _ => ⟨hr, hdaily₂⟩⟩
      intro hcounts
      exact absurd (hok.mpr (hpasses.mpr hcounts.rate)) hr

/-- The questions to the limiter are answered by the limiter, under the plan of the iteration that
asks, and all else as the plan of the sites says. -/
def meter (cfg : Config) (party : Party) (plan : Site → Outcome) (limits : Site → LimitPlan) :
    (c : Call) → Sys × LimitState → Reply c × (Sys × LimitState)
  | ⟨site, .allow tenantID channel⟩, (s, l) =>
      let (r, l') := (limits site).allow tenantID channel l
      (r, (s, l'))
  | c, (s, l) =>
      let (r, s') := s.exec cfg party c (plan c.site)
      (r, (s', l))

def metered {α : Type} (cfg : Config) (party : Party) (plan : Site → Outcome)
    (limits : Site → LimitPlan) (p : Go α) (s : Sys) (l : LimitState) :
    Except Err α × (Sys × LimitState) :=
  p.run.eval (meter cfg party plan limits) (s, l)

def sendMetered (cfg : Config) (unixNano : Nat) (t : String) (req : Request)
    (plan : Site → Outcome) (limits : Site → LimitPlan) (s : Sys) (l : LimitState) :
    Except Err Accepted × (Sys × LimitState) :=
  metered cfg (.request t req) plan limits (Notifications.send cfg unixNano t req) s l

section

variable {cfg : Config} {party : Party} {plan : Site → Outcome} {limits : Site → LimitPlan}

theorem eval_onward {α : Type} (hforward : ∀ site, (limits site).Forward) (p : Code α)
    (w : Sys × LimitState) : w.2.Onward (p.eval (meter cfg party plan limits) w).2.2 := by
  induction p generalizing w with
  | ret a => exact .refl w.2
  | call c k ih =>
      have hcall : w.2.Onward (meter cfg party plan limits c w).2.2 := by
        obtain ⟨site, stmt⟩ := c
        cases stmt with
        | allow t channel =>
            obtain ⟨r, l', hallow, honward, -⟩ := allow_moves (hforward site) w.2 t channel
            simp only [meter, hallow]
            exact honward
        | _ => exact .refl w.2
      exact hcall.trans (ih _ _)

variable {s : Sys} {l : LimitState} {α β : Type}

theorem metered_bind (p : Go α) (f : α → Go β) :
    metered cfg party plan limits (p >>= f) s l =
      match metered cfg party plan limits p s l with
      | (.ok a, (s', l')) => metered cfg party plan limits (f a) s' l'
      | (.error e, w) => (.error e, w) := by
  rw [metered, ExceptT.run_bind, Prog.eval_bind, metered]
  cases hr : p.run.eval (meter cfg party plan limits) (s, l) with
  | mk r w => cases r <;> rfl

theorem metered_onward (hforward : ∀ site, (limits site).Forward) (p : Go α) :
    l.Onward (metered cfg party plan limits p s l).2.2 :=
  eval_onward hforward p.run (s, l)

end

section

variable (cfg : Config) (party : Party) (plan : Site → Outcome) (limits : Site → LimitPlan)
  (t : String) (s : Sys) (l : LimitState)

/-- The feature and the configuration of the channel of iteration `i` let it through. -/
def configOpen (db : Db) (i : Nat) (channel : String) : Bool :=
  !(plan (.send .feature i)).fail &&
    (match db.featureEnabled t ("channel." ++ channel) with
      | .ok enabled => enabled
      | .error _ => false) &&
    !(plan (.send .validate i)).fail &&
    (match db.channelConfig t channel with
      | .ok config => (Notifications.checkConfig config "one_way").isOk
      | .error _ => false)

theorem meter_read {stmt : Stmt} {r : Except Err (Result stmt)} (site : Site)
    (hother : ∀ t channel, stmt ≠ .allow t channel) (hfailed : s.failed party stmt = s)
    (hperform : s.perform cfg party (plan site) stmt = r.map (·, s)) :
    meter cfg party plan limits ⟨site, stmt⟩ (s, l) =
      (bif (plan site).fail then .error .driver else r, (s, l)) := by
  cases stmt with
  | allow t channel => exact absurd rfl (hother t channel)
  | _ =>
      simp only [meter]
      rw [exec_read _ hfailed hperform]

theorem ensureActive_metered :
    ∃ r, metered cfg party plan limits (Notifications.ensureActive t) s l = (r, (s, l)) ∧
      (r = .ok () ↔ activeOpen plan t s.db = true) := by
  have hread : metered cfg party plan limits (call (.send .ensureActive 0) (.selectTenantStatus t))
      s l = (bif (plan (.send .ensureActive 0)).fail then .error .driver
        else s.db.tenantStatus t, (s, l)) :=
    meter_read cfg party plan limits s l _ (by simp) rfl rfl
  rw [Notifications.ensureActive, metered_bind, hread]
  cases hfail : (plan (.send .ensureActive 0)).fail with
  | true => exact ⟨_, rfl, by simp [activeOpen, hfail]⟩
  | false =>
      cases hstatus : s.db.tenantStatus t with
      | error e => exact ⟨_, rfl, by simp [activeOpen, hstatus]⟩
      | ok status => cases status <;> exact ⟨_, rfl, by simp [activeOpen, hfail, hstatus]⟩

private theorem attempt_metered {stmt : Stmt} {r : Except Err (Result stmt)} (site : Site)
    (hother : ∀ t channel, stmt ≠ .allow t channel) (hfailed : s.failed party stmt = s)
    (hperform : s.perform cfg party (plan site) stmt = r.map (·, s)) :
    metered cfg party plan limits (attempt site stmt) s l =
      (.ok (bif (plan site).fail then .error .driver else r), (s, l)) := by
  show (Except.ok (meter cfg party plan limits ⟨site, stmt⟩ (s, l)).1,
    (meter cfg party plan limits ⟨site, stmt⟩ (s, l)).2) = _
  rw [meter_read cfg party plan limits s l site hother hfailed hperform]

/-- One iteration of the gate loop: the limiter is asked when the feature and the configuration
let the channel through. -/
theorem checkChannel_metered (i : Nat) (channel : String) :
    (configOpen plan t s.db i channel = false ∧
      ∃ e, metered cfg party plan limits (Notifications.checkChannel t i channel) s l =
        (.error e, (s, l))) ∨
    (configOpen plan t s.db i channel = true ∧ ∃ r,
      metered cfg party plan limits (Notifications.checkChannel t i channel) s l =
        (r, (s, ((limits (.send .allow i)).allow t channel l).2)) ∧
      (r = .ok () ↔ ((limits (.send .allow i)).allow t channel l).1 = .ok true)) := by
  simp only [Notifications.checkChannel, configOpen]
  rw [metered_bind, attempt_metered cfg party plan limits s l _ (by simp) rfl rfl]
  cases hfail : (plan (.send .feature i)).fail with
  | true => exact .inl ⟨by simp, _, rfl⟩
  | false =>
  cases hfeature : s.db.featureEnabled t ("channel." ++ channel) with
  | error e => exact .inl ⟨by simp, _, rfl⟩
  | ok enabled =>
  cases enabled with
  | false => exact .inl ⟨by simp, _, rfl⟩
  | true =>
  dsimp only [cond]
  rw [metered_bind, attempt_metered cfg party plan limits s l _ (by simp) rfl rfl]
  cases hvalidate : (plan (.send .validate i)).fail with
  | true => exact .inl ⟨by simp, _, rfl⟩
  | false =>
  cases hconfig : s.db.channelConfig t channel with
  | error e => exact .inl ⟨by simp, _, rfl⟩
  | ok config =>
  dsimp only [cond]
  cases hcheck : Notifications.checkConfig config "one_way" with
  | error e => exact .inl ⟨by simp [Except.isOk, Except.toBool], _, rfl⟩
  | ok _ =>
  refine .inr ⟨by simp [Except.isOk, Except.toBool], ?_⟩
  dsimp only
  have hask : metered cfg party plan limits (attempt (.send .allow i) (.allow t channel)) s l =
      (.ok ((limits (.send .allow i)).allow t channel l).1,
        (s, ((limits (.send .allow i)).allow t channel l).2)) := rfl
  rw [metered_bind, hask]
  cases ((limits (.send .allow i)).allow t channel l).1 with
  | error e => exact ⟨_, rfl, by simp⟩
  | ok allowed =>
      cases allowed with
      | false => exact ⟨_, rfl, by simp⟩
      | true => exact ⟨_, rfl, by simp⟩

end

/-- `Send` comes to the first channel of the request, and the question it asks the limiter there
counts. -/
structure FirstCounted (plan : Site → Outcome) (limits : Site → LimitPlan) (t : String)
    (req : Request) (db : Db) (l : LimitState) : Prop where
  named : t ≠ ""
  active : activeOpen plan t db = true
  counted : ∃ channel rest, req.channels = channel :: rest ∧
    configOpen plan t db 0 channel = true ∧ l.Counts (limits (.send .allow 0)) t channel

/-- The daily counters of a tenant, as Redis stores them, are the same. -/
def SameQuota (t : String) (l l' : LimitState) : Prop :=
  ∀ channel date, l'.keys (RateLimit.dailyKey t channel date) =
    l.keys (RateLimit.dailyKey t channel date)

section

variable {cfg : Config} {party : Party} {plan : Site → Outcome} {limits : Site → LimitPlan}
  {t : String} {s : Sys} {l : LimitState}

private theorem not_same_of_moved {l₁ l' : LimitState} {channel date : String}
    (hmoved : Moved (l.keys (RateLimit.dailyKey t channel date))
      (l₁.keys (RateLimit.dailyKey t channel date))) (honward : l₁.Onward l') :
    ¬SameQuota t l l' := by
  intro hsame
  have hend : Moved (l.keys (RateLimit.dailyKey t channel date))
      (l'.keys (RateLimit.dailyKey t channel date)) := by
    rcases honward (RateLimit.dailyKey t channel date) with hkeep | hmoved'
    · rw [hkeep]
      exact hmoved
    · exact hmoved.trans hmoved'
  exact hend.ne (hsame channel date)

theorem checkChannels_metered (hforward : ∀ site, (limits site).Forward) (channel : String)
    (rest : List String) :
    (¬(configOpen plan t s.db 0 channel = true ∧ l.Counts (limits (.send .allow 0)) t channel) ∧
      ∃ e l', metered cfg party plan limits (Notifications.checkChannels t 0 (channel :: rest)) s l =
        (.error e, (s, l')) ∧ SameQuota t l l') ∨
    (configOpen plan t s.db 0 channel = true ∧ l.Counts (limits (.send .allow 0)) t channel ∧
      ∃ date, Moved (l.keys (RateLimit.dailyKey t channel date))
        ((metered cfg party plan limits (Notifications.checkChannels t 0 (channel :: rest)) s
          l).2.2.keys (RateLimit.dailyKey t channel date))) := by
  rw [Notifications.checkChannels, metered_bind]
  rcases checkChannel_metered cfg party plan limits t s l 0 channel with
    ⟨hclosed, e, heq⟩ | ⟨hopen, r, heq, hr⟩
  · refine .inl ⟨by simp [hclosed], e, l, ?_, fun _ _ => rfl⟩
    rw [heq]
  · obtain ⟨r', l', hallow, -, hcounted, hkept⟩ :=
      allow_moves (hforward (.send .allow 0)) l t channel
    rw [hallow] at heq hr
    rw [heq]
    by_cases hcounts : l.Counts (limits (.send .allow 0)) t channel
    · obtain ⟨date, hmoved⟩ := hcounted hcounts
      refine .inr ⟨hopen, hcounts, date, ?_⟩
      cases r with
      | error e => exact hmoved
      | ok _ =>
          rcases metered_onward hforward (Notifications.checkChannels t (0 + 1) rest)
            (RateLimit.dailyKey t channel date) with hkeep | hmoved'
          · dsimp only
            rw [hkeep]
            exact hmoved
          · exact hmoved.trans hmoved'
    · obtain ⟨hno, hsame⟩ := hkept hcounts
      refine .inl ⟨fun h => hcounts h.2, ?_⟩
      cases r with
      | ok _ => exact absurd (hr.mp rfl) hno
      | error e => exact ⟨e, l', rfl, hsame⟩

end

/-- A `Send` that returns an error leaves the daily counters of its tenant alone if and only if it
did not get past the first channel's question to the limiter: that question increments the daily
counter, and no error exit after it takes the increment back. -/
theorem rejected_send_keeps_quota_iff {cfg : Config} {unixNano : Nat} {t : String} {req : Request}
    {plan : Site → Outcome} {limits : Site → LimitPlan} {s s' : Sys} {l l' : LimitState} {e : Err}
    (hforward : ∀ site, (limits site).Forward)
    (h : sendMetered cfg unixNano t req plan limits s l = (.error e, (s', l'))) :
    SameQuota t l l' ↔ ¬FirstCounted plan limits t req s.db l := by
  have hl' : l' = (sendMetered cfg unixNano t req plan limits s l).2.2 := by rw [h]
  subst hl'
  clear h
  rw [sendMetered, Notifications.send]
  by_cases ht : t = ""
  · rw [if_pos ht]
    exact iff_of_true (fun _ _ => rfl) fun hfirst => hfirst.named ht
  rw [if_neg ht]
  by_cases hnil : req.channels = []
  · rw [if_pos hnil]
    refine iff_of_true (fun _ _ => rfl) ?_
    intro hfirst
    obtain ⟨channel, rest, hcons, -⟩ := hfirst.counted
    simp [hnil] at hcons
  rw [if_neg hnil]
  dsimp only
  obtain ⟨r, hactive, hr⟩ := ensureActive_metered cfg (.request t req) plan limits t s l
  rw [metered_bind, hactive]
  cases r with
  | error e =>
      refine iff_of_true (fun _ _ => rfl) ?_
      intro hfirst
      simpa using hr.mpr hfirst.active
  | ok _ =>
  dsimp only
  rw [Request.withDefaultSchedule_channels]
  cases hchannels : req.channels with
  | nil => exact absurd hchannels hnil
  | cons channel rest =>
  rw [metered_bind]
  rcases checkChannels_metered hforward channel rest with
    ⟨hnot, e, l', heq, hsame⟩ | ⟨hopen, hcounts, date, hmoved⟩
  · rw [heq]
    refine iff_of_true hsame ?_
    intro hfirst
    obtain ⟨channel', rest', hcons, hopen, hcounts⟩ := hfirst.counted
    rw [hchannels] at hcons
    obtain ⟨rfl, -⟩ := List.cons.inj hcons
    exact hnot ⟨hopen, hcounts⟩
  · refine iff_of_false ?_ (not_not.mpr ⟨ht, hr.mp rfl, channel, rest, hchannels, hopen, hcounts⟩)
    apply not_same_of_moved hmoved
    cases hgates : metered cfg (.request t req) plan limits
        (Notifications.checkChannels t 0 (channel :: rest)) s l with
    | mk r w =>
        cases r with
        | error e => exact .refl _
        | ok _ => exact metered_onward hforward _

/-- A limiter without counters, and a plan in which every command succeeds at once. -/
def unusedLimits : LimitState := ⟨0, fun _ => none, fun _ => none, fun _ _ => none⟩

def calmLimits : Site → LimitPlan := fun _ => ⟨fun _ => 0, fun _ => false⟩

theorem calmLimits_forward (site : Site) : (calmLimits site).Forward := fun _ _ => le_refl 0

/-- A request whose only channel is not enabled costs nothing. -/
theorem rejected_send_keeps_quota_push :
    ∃ e s' l', sendMetered (sampleConfig 3) 1 "t1" (sampleRequest ["push"] ⟨"", ""⟩ "")
        (fun _ => {}) calmLimits sampleWorld.sys unusedLimits = (.error e, (s', l')) ∧
      SameQuota "t1" unusedLimits l' := by
  have herror : (sendMetered (sampleConfig 3) 1 "t1" (sampleRequest ["push"] ⟨"", ""⟩ "")
      (fun _ => {}) calmLimits sampleWorld.sys unusedLimits).1.isOk = false := by decide +kernel
  cases hsend : sendMetered (sampleConfig 3) 1 "t1" (sampleRequest ["push"] ⟨"", ""⟩ "")
      (fun _ => {}) calmLimits sampleWorld.sys unusedLimits with
  | mk r w =>
      rw [hsend] at herror
      cases r with
      | ok _ => simp [Except.isOk, Except.toBool] at herror
      | error e =>
          refine ⟨e, w.1, w.2, rfl, (rejected_send_keeps_quota_iff calmLimits_forward hsend).mpr ?_⟩
          intro hfirst
          obtain ⟨channel, rest, hcons, hopen, -⟩ := hfirst.counted
          obtain ⟨rfl, -⟩ := List.cons.inj hcons
          exact absurd hopen (by decide)

/-- Two channels, and the second one is not enabled: `Send` returns an error, and one of the
messages that the first channel may send on that day is gone. -/
theorem quota_of_rejected_send :
    ¬∀ e s' l', sendMetered (sampleConfig 3) 1 "t1" (sampleRequest ["email", "push"] ⟨"", ""⟩ "")
        (fun _ => {}) calmLimits sampleWorld.sys unusedLimits = (.error e, (s', l')) →
      SameQuota "t1" unusedLimits l' := by
  intro hclaim
  have hcheck : (sendMetered (sampleConfig 3) 1 "t1" (sampleRequest ["email", "push"] ⟨"", ""⟩ "")
      (fun _ => {}) calmLimits sampleWorld.sys unusedLimits).1.isOk = false ∧
    (sendMetered (sampleConfig 3) 1 "t1" (sampleRequest ["email", "push"] ⟨"", ""⟩ "")
      (fun _ => {}) calmLimits sampleWorld.sys unusedLimits).2.2.keys
        (RateLimit.dailyKey "t1" "email" "1970-01-01") = some ⟨1, some RateLimit.day⟩ := by
    decide +kernel
  cases hsend : sendMetered (sampleConfig 3) 1 "t1" (sampleRequest ["email", "push"] ⟨"", ""⟩ "")
      (fun _ => {}) calmLimits sampleWorld.sys unusedLimits with
  | mk r w =>
      rw [hsend] at hcheck
      cases r with
      | ok _ => simp [Except.isOk, Except.toBool] at hcheck
      | error e =>
          have hkeys := hcheck.2
          rw [hclaim e w.1 w.2 hsend "email" "1970-01-01"] at hkeys
          simp [unusedLimits] at hkeys

end NotificationPlatform

import Mathlib.Data.List.ModifyLast
import Mathlib.Logic.Function.Basic
import NotificationPlatform.Lib.Calendar
import NotificationPlatform.Lib.Program
import NotificationPlatform.Lib.Run
import NotificationPlatform.Request

/-!
# The rate limiter

`ratelimit.Service` counts calls in Redis. `AllowKey` increments a counter and lets the caller
that created it set its time to live; `Allow` asks two counters, one for the tenant and one for
the channel and the day, with limits that it loads from the database through a cache.
-/

namespace NotificationPlatform

open Lib

/-- `channelLimits`, without the time it was fetched at. -/
structure Limits where
  ratePerSecond : Int
  dailyQuota : Int
  deriving DecidableEq, Repr

/-- The calls that the limiter makes: to its cache, to the database, to Redis and to the clock. -/
inductive LimitStmt where
  | lookup (cacheKey : String)
  | selectLimits (tenantID channel : String)
  | remember (cacheKey : String) (limits : Limits)
  | incr (key : String)
  | expire (key : String) (window : Nat)
  | today
  deriving DecidableEq

@[reducible] def LimitReply : LimitStmt → Type
  | .lookup _ => Option Limits
  | .selectLimits _ _ => Except Err Limits
  | .remember _ _ => Unit
  | .incr _ => Except Err Nat
  | .expire _ _ => Except Err Unit
  | .today => String

abbrev LimitCode := Prog LimitStmt LimitReply

def inquire (stmt : LimitStmt) : LimitCode (LimitReply stmt) := Prog.perform stmt

namespace RateLimit

/-- Times are in nanoseconds, as in `time.Duration`. -/
def second : Nat := 1000000000
def minute : Nat := 60 * second
def day : Nat := 24 * 60 * minute

/-- The time to live that the Redis client sends for a window: whole seconds, at least one for a
positive window. -/
def ttl (window : Nat) : Nat :=
  (if 0 < window ∧ window < second then 1 else window / second) * second

theorem ttl_pos {window : Nat} (h : 0 < window) : 0 < ttl window := by
  have hsecond : 0 < second := by decide
  apply Nat.mul_pos _ hsecond
  by_cases hlt : window < second
  · simp [h, hlt]
  · rw [if_neg (by simp [hlt])]
    exact Nat.div_pos (Nat.not_lt.mp hlt) hsecond

theorem ttl_eq {window : Nat} (h : second ∣ window) : ttl window = window := by
  rw [ttl, if_neg, Nat.div_mul_cancel h]
  intro hlt
  exact absurd (Nat.le_of_dvd hlt.1 h) (Nat.not_le.mpr hlt.2)

theorem second_dvd_day : second ∣ day := by
  unfold day minute
  exact Dvd.intro_left _ (Nat.mul_assoc _ _ _)

def dateOf (now : Nat) : String := (Calendar.ofDays (now / day)).text

def defaultLimits : Limits := ⟨100, 50000⟩

def orDefault (limits : Limits) : Limits where
  ratePerSecond := if limits.ratePerSecond ≤ 0 then 100 else limits.ratePerSecond
  dailyQuota := if limits.dailyQuota ≤ 0 then 50000 else limits.dailyQuota

def allowKey (key : String) (limit : Int) (window : Nat) : LimitCode (Except Err Bool) := do
  match ← inquire (.incr key) with
  | .error e => return .error e
  | .ok count =>
    if count = 1 then
      match ← inquire (.expire key window) with
      | .error e => return .error e
      | .ok _ => return .ok (decide ((count : Int) ≤ limit))
    else return .ok (decide ((count : Int) ≤ limit))

/-- The part of `loadLimits` that a cached entry saves; an error of the query leaves the
defaults. -/
def fetchLimits (tenantID channel : String) : LimitCode Limits := do
  let scanned ← inquire (.selectLimits tenantID channel)
  let limits := orDefault (match scanned with
    | .ok limits => limits
    | .error _ => defaultLimits)
  inquire (.remember (tenantID ++ ":" ++ channel) limits)
  return limits

/-- `Service.loadLimits`; the cache is asked a second time under the write lock. -/
def loadLimits (hasDB : Bool) (tenantID channel : String) : LimitCode Limits :=
  if !hasDB then return defaultLimits
  else do
    match ← inquire (.lookup (tenantID ++ ":" ++ channel)) with
    | some cached => return cached
    | none =>
      match ← inquire (.lookup (tenantID ++ ":" ++ channel)) with
      | some cached => return cached
      | none => fetchLimits tenantID channel

def rateKey (tenantID : String) : String := "tenant:" ++ tenantID ++ ":rate"

def dailyKey (tenantID channel day : String) : String :=
  "tenant:" ++ tenantID ++ ":daily:" ++ channel ++ ":" ++ day

def allow (hasDB : Bool) (tenantID channel : String) : LimitCode (Except Err Bool) :=
  if tenantID = "" ∨ channel = "" then return .ok false
  else do
    let limits ← loadLimits hasDB tenantID channel
    match ← allowKey (rateKey tenantID) limits.ratePerSecond second with
    | .error e => return .error e
    | .ok false => return .ok false
    | .ok true =>
      let today ← inquire .today
      allowKey (dailyKey tenantID channel today) limits.dailyQuota day

end RateLimit

/-- A counter in Redis and the time at which it disappears. -/
structure Counter where
  count : Nat
  expiresAt : Option Nat
  deriving DecidableEq, Repr

def Counter.expired (now : Nat) (c : Counter) : Bool :=
  match c.expiresAt with
  | some t => decide (t ≤ now)
  | none => false

/-- What the limiter reads and writes: the counters (an expired one is as good as none), the cache
with the time each entry was fetched, and the columns of `tenant_channels`. -/
structure LimitState where
  now : Nat
  keys : String → Option Counter
  cache : String → Option (Limits × Nat)
  channels : String → String → Option Limits

namespace LimitState

def counter (s : LimitState) (key : String) : Option Counter :=
  match s.keys key with
  | some c => if c.expired s.now then none else some c
  | none => none

def setCounter (s : LimitState) (key : String) (c : Counter) : LimitState :=
  { s with keys := Function.update s.keys key (some c) }

/-- `INCR`: a key that does not exist is created at zero and has no time to live. -/
def incr (s : LimitState) (key : String) : Nat × LimitState :=
  match s.counter key with
  | some c => (c.count + 1, s.setCounter key ⟨c.count + 1, c.expiresAt⟩)
  | none => (1, s.setCounter key ⟨1, none⟩)

/-- `EXPIRE`: nothing happens to a key that does not exist. -/
def expire (s : LimitState) (key : String) (window : Nat) : LimitState :=
  match s.counter key with
  | some c => s.setCounter key ⟨c.count, some (s.now + RateLimit.ttl window)⟩
  | none => s

theorem incr_state (s : LimitState) (key : String) :
    (s.incr key).2 = s.setCounter key ⟨(s.incr key).1, (s.counter key).bind Counter.expiresAt⟩ := by
  unfold incr
  cases s.counter key with
  | none => rfl
  | some c => rfl

/-- `cached, ok := s.cache[cacheKey]; ok && time.Since(cached.fetched) < 5*time.Minute` -/
def cached (s : LimitState) (cacheKey : String) : Option Limits :=
  match s.cache cacheKey with
  | some (limits, fetched) => if s.now - fetched < 5 * RateLimit.minute then some limits else none
  | none => none

/-- One call; the environment decides whether a command fails. -/
def exec (fail : Bool) (s : LimitState) :
    (stmt : LimitStmt) → LimitReply stmt × LimitState
  | .lookup cacheKey => (s.cached cacheKey, s)
  | .selectLimits tenantID channel =>
      if fail then (.error .driver, s)
      else
        match s.channels tenantID channel with
        | some limits => (.ok limits, s)
        | none => (.error .noRows, s)
  | .remember cacheKey limits =>
      ((), { s with cache := Function.update s.cache cacheKey (some (limits, s.now)) })
  | .incr key =>
      if fail then (.error .driver, s)
      else (.ok (s.incr key).1, (s.incr key).2)
  | .expire key window =>
      if fail then (.error .driver, s) else (.ok (), s.expire key window)
  | .today => (RateLimit.dateOf s.now, s)

end LimitState

/-- A call of `AllowKey` and how far it has come. -/
structure KeyCall where
  key : String
  limit : Int
  window : Nat
  prog : LimitCode (Except Err Bool)

def KeyCall.result (x : KeyCall) : Option (Except Err Bool) :=
  match x.prog with
  | .ret r => some r
  | .call _ _ => none

/-- The `INCR` of a call, and when it was made. -/
structure Hit where
  call : Nat
  time : Nat

/-- A lifetime of a key: the calls that incremented it, in order, and when its time to live was
set. -/
structure Lifetime where
  hits : List Hit
  expire : Option Nat

/-- The calls so far, and the history: the lifetimes of each key. -/
structure LimiterWorld where
  state : LimitState
  calls : List KeyCall
  history : String → List Lifetime

inductive LimiterEvent where
  | wait (duration : Nat)
  | allowKey (key : String) (limit : Int) (window : Nat)
  | step (i : Nat) (fail : Bool)
  | stop (i : Nat)

namespace LimiterWorld

/-- An `INCR` that finds no counter begins a lifetime, every other one belongs to the last. -/
def recordIncr (w : LimiterWorld) (key : String) (hit : Hit) : List Lifetime :=
  if (w.state.counter key).isNone then w.history key ++ [⟨[hit], none⟩]
  else (w.history key).modifyLast fun l => { l with hits := l.hits ++ [hit] }

/-- An `EXPIRE` that finds a counter belongs to the last lifetime. -/
def recordExpire (w : LimiterWorld) (key : String) : List Lifetime :=
  if (w.state.counter key).isNone then w.history key
  else (w.history key).modifyLast fun l => { l with expire := some w.state.now }

def command (w : LimiterWorld) (i : Nat) (fail : Bool) (x : KeyCall)
    (stmt : LimitStmt) (k : LimitReply stmt → LimitCode (Except Err Bool)) : LimiterWorld :=
  let r := w.state.exec fail stmt
  { state := r.2
    calls := w.calls.set i { x with prog := k r.1 }
    history :=
      if fail then w.history
      else
        match stmt with
        | .incr key => Function.update w.history key (w.recordIncr key ⟨i, w.state.now⟩)
        | .expire key _ => Function.update w.history key (w.recordExpire key)
        | _ => w.history }

def step (w : LimiterWorld) : LimiterEvent → Option LimiterWorld
  | .wait duration => some { w with state := { w.state with now := w.state.now + duration } }
  | .allowKey key limit window =>
      some { w with calls := w.calls ++ [⟨key, limit, window, RateLimit.allowKey key limit window⟩] }
  | .step i fail =>
      match w.calls[i]? with
      | none => none
      | some x =>
          match x.prog with
          | .ret _ => none
          | .call stmt k => some (w.command i fail x stmt k)
  -- the context of the caller is cancelled, or its process ends
  | .stop i =>
      match w.calls[i]? with
      | none => none
      | some x => some { w with calls := w.calls.set i { x with prog := .ret (.error .driver) } }

/-- A run whose events all meet a condition on the state they are taken in. -/
abbrev RunOf (ok : LimiterWorld → LimiterEvent → Prop) :
    LimiterWorld → List LimiterEvent → LimiterWorld → Prop :=
  Run step ok

structure Fresh (w : LimiterWorld) : Prop where
  keys : ∀ key, w.state.keys key = none
  calls : w.calls = []
  history : ∀ key, w.history key = []

def Idle (w : LimiterWorld) : Prop := ∀ x ∈ w.calls, x.result.isSome = true

instance (w : LimiterWorld) : Decidable w.Idle :=
  inferInstanceAs (Decidable (∀ x ∈ w.calls, x.result.isSome = true))

end LimiterWorld

end NotificationPlatform

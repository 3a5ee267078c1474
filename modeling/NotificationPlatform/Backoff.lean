import NotificationPlatform.AdminLists
import NotificationPlatform.Retry

/-!
# The pause before a retry

`RetryLoop` waits before it puts a job back into its channel queue, twice as long at each attempt.
The wait is a 64-bit number of nanoseconds, and nothing bounds the configured number of tries.
-/

namespace NotificationPlatform

/-- `envInt` of the value of a variable; one that is not set reads as an empty value. -/
def envInt (value : String) (fallback : Int) : Int :=
  let raw := trimSpace value
  if raw = "" then fallback
  else
    let parsed := atoi raw
    if !parsed.2 then fallback else parsed.1

/-- `MaxDeliveryTries` of `Load`, from the value of `MAX_DELIVERY_ATTEMPTS`. -/
def loadedMaxDeliveryTries (value : String) : Int := envInt value 3

namespace Retry

def minute : Int := 60 * 10 ^ 9

/-- `time.Duration(math.Pow(2, float64(exponent)))`. The fraction is dropped; what becomes of a
power that is no 64-bit number depends on the platform. -/
def powerOfTwo (platform : Nat → Int) (exponent : Int) : Int :=
  if exponent < 0 then 0
  else if exponent < 63 then 2 ^ exponent.toNat
  else platform exponent.toNat

def backoffDuration (platform : Nat → Int) (attempt : Nat) : Int :=
  wrapInt (powerOfTwo platform (attempt - 1) * minute)

/-- How long an iteration of `RetryLoop` sleeps, if it comes to that. -/
def pause (platform : Nat → Int) (cfg : Config) (d : Delivery) : Option Int :=
  match d.message.body with
  | none => none
  | some job =>
    if cfg.maxDeliveryTries ≤ job.attempt then none
    else some (backoffDuration platform job.attempt)

section

variable {platform : Nat → Int}

theorem backoffDuration_of_le {n : Nat} (hpos : 1 ≤ n) (hle : n ≤ 28) :
    backoffDuration platform n = 2 ^ (n - 1) * minute := by
  obtain ⟨k, rfl⟩ : ∃ k, n = k + 1 := ⟨n - 1, by omega⟩
  have hpower : powerOfTwo platform ((k + 1 : Nat) - 1) = 2 ^ k := by
    have hexp : ((k + 1 : Nat) : Int) - 1 = k := by omega
    rw [hexp, powerOfTwo, if_neg (by omega), if_pos (by omega), Int.toNat_natCast]
  have hbound : (2 : Int) ^ k ≤ 2 ^ 27 := by
    exact_mod_cast Nat.pow_le_pow_right (by decide) (show k ≤ 27 by omega)
  have hnonneg : (0 : Int) ≤ 2 ^ k := Int.pow_nonneg (by decide)
  rw [backoffDuration, hpower, Nat.add_sub_cancel]
  apply wrapInt_of_le
  · exact Int.mul_nonneg hnonneg (by decide)
  · calc (2 : Int) ^ k * minute ≤ 2 ^ 27 * minute :=
          Int.mul_le_mul_of_nonneg_right hbound (by decide)
      _ ≤ maxInt := by decide

theorem backoffDuration_29 : backoffDuration platform 29 = -2340616713709551616 := by
  rw [backoffDuration, powerOfTwo, if_neg (by decide), if_pos (by decide)]
  decide

/-- Before the last of the tries every wait is positive, and each is twice the one before. -/
def BackoffDoubles (platform : Nat → Int) (tries : Int) : Prop :=
  ∀ n : Nat, 1 ≤ n → n < tries → 0 < backoffDuration platform n ∧
    (n + 1 < tries → backoffDuration platform (n + 1) = 2 * backoffDuration platform n)

/-- The backoff doubles and stays positive just when there are at most 29 tries. -/
theorem backoff_doubles_iff (platform : Nat → Int) (value : String) :
    BackoffDoubles platform (loadedMaxDeliveryTries value) ↔ loadedMaxDeliveryTries value ≤ 29 := by
  generalize loadedMaxDeliveryTries value = tries
  constructor
  · intro h
    by_contra hmany
    have hpos := (h 29 (by decide) (by omega)).1
    rw [backoffDuration_29] at hpos
    exact absurd hpos (by decide)
  · intro htries n hn hlt
    have hfits : backoffDuration platform n = 2 ^ (n - 1) * minute :=
      backoffDuration_of_le hn (by omega)
    refine ⟨?_, ?_⟩
    · rw [hfits]
      exact Int.mul_pos (Int.pow_pos (by decide)) (by decide)
    · intro hnext
      obtain ⟨k, rfl⟩ : ∃ k, n = k + 1 := ⟨n - 1, by omega⟩
      rw [hfits, backoffDuration_of_le (by omega) (by omega), Nat.add_sub_cancel,
        Nat.add_sub_cancel, Int.pow_succ, Int.mul_comm (2 ^ k) 2, Int.mul_assoc]

end

/-- With 30 tries the wait before the last one is no wait at all. -/
theorem backoff_negative : ¬∀ (platform : Nat → Int) (value : String),
    BackoffDoubles platform (loadedMaxDeliveryTries value) := by
  intro h
  have htries : (29 : Nat) < loadedMaxDeliveryTries "30" := by decide +kernel
  have hpos := (h (fun _ => -2 ^ 63) "30" 29 (by decide) htries).1
  rw [backoffDuration_29] at hpos
  exact absurd hpos (by decide)

end Retry

end NotificationPlatform

import AlphaOne.Foundations.Run
import AlphaOne.Scheduler.CircuitBreaker

/-!
# The backoff of a long outage

`record_failure` of `services/scheduler/circuit_breaker.py` with the ranges of its numbers:
`2 ** exponent` is an unbounded integer and has to fit a float, the backoff has to fit a
`timedelta`, and the retry time a `datetime`. The product itself needs no range: it is exact, or
infinite and then capped.

`survives_iff` says which failures are recorded as they should be.
-/

namespace AlphaOne

namespace Scheduler

open Foundations

/-- `now + timedelta(seconds=seconds)`, `none` when one of the two raises an `OverflowError`. -/
def addSeconds (now : Datetime) (seconds : ℚ) : Option Datetime :=
  let delta := timedeltaOf seconds
  if Timedelta.InRange delta ∧ Datetime.InRange (now + delta) then some (now + delta) else none

/-- The retry time of a failure can be computed. -/
def CircuitBreakerConfig.InRange (config : CircuitBreakerConfig) (failures : ℕ) (now : Datetime) :
    Prop :=
  failures - config.failureThreshold < 1024 ∧ Timedelta.InRange (config.backoff failures) ∧
    Datetime.InRange (now + config.backoff failures)

instance (config : CircuitBreakerConfig) (failures : ℕ) (now : Datetime) :
    Decidable (config.InRange failures now) := by
  unfold CircuitBreakerConfig.InRange; infer_instance

namespace CircuitBreaker

/-- `record_failure` within the ranges. -/
def recordFailureChecked (now : Datetime) (b : CircuitBreaker) : Bool × CircuitBreaker :=
  let b := { b with consecutiveFailures := b.consecutiveFailures + 1 }
  if (b.consecutiveFailures : ℤ) < b.config.failureThreshold then (true, b)
  else
    let b := { b with state := .open_, openedAt := some now }
    match b.backoffSeconds.bind (addSeconds now) with
    | none => (false, b)
    | some nextRetryAt => (true, { b with nextRetryAt := some nextRetryAt })

variable {b : CircuitBreaker} {now : Datetime}

theorem backoffSeconds_eq (b : CircuitBreaker) :
    b.backoffSeconds =
      if b.consecutiveFailures - b.config.failureThreshold < 1024 then
        some (min (b.config.baseBackoffSeconds *
          2 ^ (b.consecutiveFailures - b.config.failureThreshold).toNat) b.config.maxBackoffSeconds)
      else none := by
  unfold backoffSeconds
  dsimp only
  split_ifs <;> first | rfl | omega

/-- The retry time is the backoff from now, if it is in range. -/
theorem backoffSeconds_bind_addSeconds (b : CircuitBreaker) (now : Datetime) :
    b.backoffSeconds.bind (addSeconds now) =
      if b.config.InRange b.consecutiveFailures now then
        some (now + b.config.backoff b.consecutiveFailures)
      else none := by
  rw [backoffSeconds_eq]
  by_cases hexp : b.consecutiveFailures - b.config.failureThreshold < 1024
  · rw [if_pos hexp, Option.bind_some, addSeconds]
    exact if_congr (by simp [CircuitBreakerConfig.InRange, hexp, CircuitBreakerConfig.backoff]) rfl
      rfl
  · rw [if_neg hexp, if_neg fun h => hexp h.1]
    rfl

theorem recordFailureChecked_of_lt (h : b.consecutiveFailures + 1 < b.config.failureThreshold) :
    b.recordFailureChecked now =
      (true, { b with consecutiveFailures := b.consecutiveFailures + 1 }) := by
  rw [recordFailureChecked]
  exact if_pos h

/-- A failure that reaches the threshold opens the breaker, and raises when its retry time is out of
range. -/
theorem recordFailureChecked_of_le (h : b.config.failureThreshold ≤ b.consecutiveFailures + 1) :
    let returns := b.config.InRange (b.consecutiveFailures + 1) now
    b.recordFailureChecked now =
      (decide returns,
        { b with
          consecutiveFailures := b.consecutiveFailures + 1
          state := .open_
          openedAt := some now
          nextRetryAt :=
            if returns then some (now + b.config.backoff (b.consecutiveFailures + 1))
            else b.nextRetryAt }) := by
  intro returns
  rw [recordFailureChecked, if_neg (not_lt.2 (by exact_mod_cast h))]
  simp only [backoffSeconds_bind_addSeconds]
  by_cases hr : b.config.InRange (b.consecutiveFailures + 1) now
  · simp [returns, hr]
  · simp [returns, hr]

/-- Every failure is counted. -/
theorem recordFailureChecked_count (b : CircuitBreaker) (now : Datetime) :
    (b.recordFailureChecked now).2.config = b.config ∧
      (b.recordFailureChecked now).2.consecutiveFailures = b.consecutiveFailures + 1 := by
  by_cases hth : b.config.failureThreshold ≤ b.consecutiveFailures + 1
  · rw [recordFailureChecked_of_le hth]
    exact ⟨rfl, rfl⟩
  · rw [recordFailureChecked_of_lt (not_le.1 hth)]
    exact ⟨rfl, rfl⟩

/-- An outage: the failures recorded at these times, with no success among them. -/
def outage (b : CircuitBreaker) (times : List Datetime) : CircuitBreaker :=
  run (fun b now => (b.recordFailureChecked now).2) b times

theorem outage_count (b : CircuitBreaker) (times : List Datetime) :
    (b.outage times).config = b.config ∧
      (b.outage times).consecutiveFailures = b.consecutiveFailures + times.length := by
  unfold outage
  induction times generalizing b with
  | nil => exact ⟨rfl, rfl⟩
  | cons now times ih =>
    obtain ⟨hconfig, hcount⟩ := recordFailureChecked_count b now
    obtain ⟨hconfig', hcount'⟩ := ih (b.recordFailureChecked now).2
    refine ⟨hconfig'.trans hconfig, hcount'.trans ?_⟩
    rw [hcount, List.length_cons]
    omega

/-- The backoff after so many failures. -/
def backoffAfter (b : CircuitBreaker) (failures : ℕ) : Option ℚ :=
  { b with consecutiveFailures := failures }.backoffSeconds

/-- A failure is survived: it returns, and once the threshold is reached the circuit is open for at
most the maximal backoff, which no smaller number of failures would exceed. -/
def Survives (b : CircuitBreaker) (now : Datetime) : Prop :=
  let failures := b.consecutiveFailures + 1
  let after := b.recordFailureChecked now
  after.1 = true ∧ (b.config.failureThreshold ≤ failures → after.2.state = .open_ ∧
    (∃ t, after.2.nextRetryAt = some t ∧ t - now ≤ timedeltaOf b.config.maxBackoffSeconds) ∧
    ∀ fewer ≤ failures, ∃ x y, b.backoffAfter fewer = some x ∧ b.backoffAfter failures = some y ∧
      x ≤ y)

theorem backoff_le_max (config : CircuitBreakerConfig) (failures : ℕ) :
    config.backoff failures ≤ timedeltaOf config.maxBackoffSeconds :=
  roundHalfEven_mono (mul_le_mul_of_nonneg_right (min_le_right _ _) (by norm_num))

/-- The backoff grows with the failures as long as it is computed at all. -/
theorem backoffAfter_mono {fewer failures : ℕ} (hbase : 0 < b.config.baseBackoffSeconds)
    (hle : fewer ≤ failures) (hexp : failures - b.config.failureThreshold < 1024) :
    ∃ x y, b.backoffAfter fewer = some x ∧ b.backoffAfter failures = some y ∧ x ≤ y := by
  have hcast : (fewer : ℤ) ≤ failures := by exact_mod_cast hle
  have hpow : (2 : ℚ) ^ (fewer - b.config.failureThreshold).toNat ≤
      2 ^ (failures - b.config.failureThreshold).toNat :=
    pow_le_pow_right₀ (by norm_num) (Int.toNat_le_toNat (by omega))
  refine ⟨_, _, (backoffSeconds_eq _).trans (if_pos ?_), (backoffSeconds_eq _).trans (if_pos hexp),
    min_le_min_right _ (mul_le_mul_of_nonneg_left hpow hbase.le)⟩
  show (fewer : ℤ) - b.config.failureThreshold < 1024
  omega

/-- **A failure is survived as long as its numbers are in range**: the threshold is not reached yet,
or the failures past it are fewer than 1024 and the retry time exists. -/
theorem survives_iff (b : CircuitBreaker) (now : Datetime)
    (hbase : 0 < b.config.baseBackoffSeconds) :
    b.Survives now ↔
      (b.consecutiveFailures + 1 < b.config.failureThreshold ∨
        b.config.InRange (b.consecutiveFailures + 1) now) := by
  unfold Survives
  dsimp only
  by_cases hth : b.config.failureThreshold ≤ b.consecutiveFailures + 1
  · rw [recordFailureChecked_of_le hth, or_iff_right (not_lt.2 hth)]
    constructor
    · rintro ⟨hreturns, -⟩
      exact of_decide_eq_true hreturns
    · intro hr
      refine ⟨decide_eq_true hr, fun _ => ⟨rfl, ⟨_, if_pos hr, ?_⟩, fun fewer hle => ?_⟩⟩
      · have hmax := backoff_le_max b.config (b.consecutiveFailures + 1)
        linarith
      · exact backoffAfter_mono hbase hle hr.1
  · rw [recordFailureChecked_of_lt (not_le.1 hth)]
    have hcast : ¬b.config.failureThreshold ≤ ((b.consecutiveFailures + 1 : ℕ) : ℤ) := by
      exact_mod_cast hth
    simp [not_le.1 hth]

/-- The fifth failure of an outage under the default configuration. -/
theorem survives_iff_fifth :
    let b : CircuitBreaker := { consecutiveFailures := 4 }
    0 < b.config.baseBackoffSeconds ∧ (b.Survives 0 ↔
      (b.consecutiveFailures + 1 < b.config.failureThreshold ∨
        b.config.InRange (b.consecutiveFailures + 1) 0)) := by
  intro b
  have hbase : 0 < b.config.baseBackoffSeconds := by decide +kernel
  exact ⟨hbase, survives_iff b 0 hbase⟩

/-- From 1024 failures past the threshold on, `2 ** exponent` is no float. -/
theorem raises_of_overflow
    (h : 1024 ≤ (b.consecutiveFailures + 1 : ℤ) - b.config.failureThreshold) :
    (b.recordFailureChecked now).1 = false ∧ ¬b.Survives now := by
  have hraises : (b.recordFailureChecked now).1 = false := by
    rw [recordFailureChecked_of_le (by omega)]
    refine decide_eq_false fun hr => ?_
    have hexp := hr.1
    push_cast at hexp
    omega
  exact ⟨hraises, fun hs => Bool.false_ne_true (hraises.symm.trans hs.1)⟩

/-- **The 1029th failure of an outage escapes**: under the default configuration `record_failure`
raises on it. -/
theorem outage_overflows :
    let b := ({} : CircuitBreaker).outage (List.replicate 1028 0)
    (b.recordFailureChecked 0).1 = false ∧ ¬b.Survives 0 := by
  obtain ⟨hconfig, hcount⟩ := outage_count {} (List.replicate 1028 0)
  rw [List.length_replicate] at hcount
  refine raises_of_overflow ?_
  rw [hconfig, hcount]
  norm_num

end CircuitBreaker

end Scheduler

end AlphaOne

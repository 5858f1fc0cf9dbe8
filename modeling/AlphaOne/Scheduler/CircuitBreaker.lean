import AlphaOne.Foundations.Rounding
import AlphaOne.Schema.Time
import Mathlib.Tactic.Linarith

/-!
# The circuit breaker

`services/scheduler/circuit_breaker.py`. A breaker lets every attempt pass while it is closed. Its
threshold of consecutive failures opens it; it then refuses all attempts until the backoff has
elapsed, and lets the next one pass half-open.
-/

namespace AlphaOne.Scheduler

open Foundations

inductive CircuitState
  | closed
  | open_
  | halfOpen
  deriving DecidableEq, Repr

structure CircuitBreakerConfig where
  failureThreshold : ℤ := 5
  baseBackoffSeconds : ℚ := 5
  maxBackoffSeconds : ℚ := 300
  deriving DecidableEq, Repr

structure CircuitBreaker where
  config : CircuitBreakerConfig := {}
  state : CircuitState := .closed
  consecutiveFailures : ℕ := 0
  openedAt : Option Datetime := none
  nextRetryAt : Option Datetime := none
  deriving DecidableEq, Repr

/-- `timedelta(seconds=…)`. -/
def timedeltaOf (seconds : ℚ) : Timedelta := roundHalfEven (seconds * 1000000)

/-- What the backoff is after a number of consecutive failures: doubled with each failure past the
threshold, and capped. -/
def CircuitBreakerConfig.backoff (config : CircuitBreakerConfig) (failures : ℕ) : Timedelta :=
  timedeltaOf (min (config.baseBackoffSeconds * 2 ^ (failures - config.failureThreshold).toNat)
    config.maxBackoffSeconds)

theorem timedeltaOf_pos {seconds : ℚ} (h : 1 ≤ seconds) : 0 < timedeltaOf seconds := by
  have hfloor : (1 : ℤ) ≤ ⌊seconds * 1000000⌋ := Int.le_floor.2 (by push_cast; linarith)
  exact lt_of_lt_of_le hfloor (floor_le_roundHalfEven _)

/-- The backoff is never nothing. -/
theorem CircuitBreakerConfig.backoff_pos {config : CircuitBreakerConfig}
    (hbase : 1 ≤ config.baseBackoffSeconds) (hmax : 1 ≤ config.maxBackoffSeconds)
    (failures : ℕ) : 0 < config.backoff failures := by
  refine timedeltaOf_pos (le_min ?_ hmax)
  exact one_le_mul_of_one_le_of_one_le hbase (one_le_pow₀ (by norm_num))

namespace CircuitBreaker

/-- `_backoff_seconds`, `none` when `2 ** exponent` is no float and the product raises an
`OverflowError`. -/
def backoffSeconds (b : CircuitBreaker) : Option ℚ :=
  let exponent := ((b.consecutiveFailures : ℤ) - b.config.failureThreshold).toNat
  if exponent < 1024 then
    some (min (b.config.baseBackoffSeconds * 2 ^ exponent) b.config.maxBackoffSeconds)
  else none

/-- `can_attempt`. -/
def canAttempt (now : Datetime) (b : CircuitBreaker) : Bool × CircuitBreaker :=
  match b.state with
  | .closed | .halfOpen => (true, b)
  | .open_ =>
    match b.nextRetryAt with
    | none => (false, b)
    | some nextRetryAt =>
      if nextRetryAt ≤ now then (true, { b with state := .halfOpen }) else (false, b)

/-- `record_success`. -/
def recordSuccess (b : CircuitBreaker) : CircuitBreaker :=
  { b with state := .closed, consecutiveFailures := 0, openedAt := none, nextRetryAt := none }

/-- `record_failure`, with whether it returns: the backoff is computed last. -/
def recordFailure (now : Datetime) (b : CircuitBreaker) : Bool × CircuitBreaker :=
  let b := { b with consecutiveFailures := b.consecutiveFailures + 1 }
  if (b.consecutiveFailures : ℤ) < b.config.failureThreshold then (true, b)
  else
    let b := { b with state := .open_, openedAt := some now }
    match b.backoffSeconds with
    | none => (false, b)
    | some seconds => (true, { b with nextRetryAt := some (now + timedeltaOf seconds) })

/-! ## What the operations do -/

variable {b : CircuitBreaker} {now : Datetime}

theorem canAttempt_of_closed (h : b.state = .closed) : b.canAttempt now = (true, b) := by
  simp only [canAttempt, h]

/-- An open breaker refuses until it is time to retry. -/
theorem canAttempt_of_open {t : Datetime} (h : b.state = .open_) (ht : b.nextRetryAt = some t) :
    b.canAttempt now =
      if t ≤ now then (true, { b with state := .halfOpen }) else (false, b) := by
  simp only [canAttempt, h, ht]

/-- A breaker that refuses stays as it is. -/
theorem canAttempt_of_refused (h : (b.canAttempt now).1 = false) : (b.canAttempt now).2 = b := by
  unfold canAttempt at *
  split at h
  · cases h
  · cases h
  · split at h
    · rfl
    · split_ifs at h ⊢
      rfl

/-- An attempt changes nothing but the state, which is not open after it. -/
theorem canAttempt_of_passed (h : (b.canAttempt now).1 = true) :
    (b.canAttempt now).2.state ≠ .open_ ∧ (b.canAttempt now).2.config = b.config ∧
      (b.canAttempt now).2.consecutiveFailures = b.consecutiveFailures ∧
      (b.canAttempt now).2.nextRetryAt = b.nextRetryAt := by
  unfold canAttempt at *
  split at h
  · next hs => simp [hs]
  · next hs => simp [hs]
  · split at h
    · cases h
    · split_ifs at h ⊢
      simp

/-- A failure below the threshold is counted. -/
theorem recordFailure_of_lt (h : b.consecutiveFailures + 1 < b.config.failureThreshold) :
    b.recordFailure now =
      (true, { b with consecutiveFailures := b.consecutiveFailures + 1 }) := by
  rw [recordFailure]
  exact if_pos h

/-- A failure that reaches the threshold opens the breaker. -/
theorem recordFailure_of_le (h : b.config.failureThreshold ≤ b.consecutiveFailures + 1) :
    let b' := (b.recordFailure now).2
    let returns := b.consecutiveFailures + 1 - b.config.failureThreshold < 1024
    b'.state = .open_ ∧ b'.config = b.config ∧
      b'.consecutiveFailures = b.consecutiveFailures + 1 ∧
      ((b.recordFailure now).1 = true ↔ returns) ∧
      b'.nextRetryAt =
        if returns then some (now + b.config.backoff (b.consecutiveFailures + 1))
        else b.nextRetryAt := by
  intro b' returns
  have hb' : b' = (b.recordFailure now).2 := rfl
  rw [recordFailure, if_neg (not_lt.2 (by exact_mod_cast h))] at hb' ⊢
  have hexp : (b.consecutiveFailures + 1 - b.config.failureThreshold).toNat < 1024 ↔ returns := by
    omega
  by_cases hr : returns
  · have hs : ∀ state openedAt, ({ b with
        consecutiveFailures := b.consecutiveFailures + 1
        state := state
        openedAt := openedAt } : CircuitBreaker).backoffSeconds = some (min
          (b.config.baseBackoffSeconds *
            2 ^ (b.consecutiveFailures + 1 - b.config.failureThreshold).toNat)
          b.config.maxBackoffSeconds) := fun _ _ => if_pos (by exact_mod_cast hexp.2 hr)
    simp only [hs] at hb' ⊢
    simp [hb', hr, CircuitBreakerConfig.backoff]
  · have hs : ∀ state openedAt, ({ b with
        consecutiveFailures := b.consecutiveFailures + 1
        state := state
        openedAt := openedAt } : CircuitBreaker).backoffSeconds = none :=
      fun _ _ => if_neg (by exact_mod_cast fun h => hr (hexp.1 h))
    simp only [hs] at hb' ⊢
    simp [hb', hr]

end CircuitBreaker

end AlphaOne.Scheduler

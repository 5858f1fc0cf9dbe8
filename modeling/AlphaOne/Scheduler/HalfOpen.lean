import AlphaOne.Scheduler.Backoff

/-!
# The half-open circuit

A circuit is half-open from the attempt that finds the backoff elapsed until an outcome is recorded.
`can_attempt` of `services/scheduler/circuit_breaker.py` lets each attempt of that time pass, not
the first one only, so that it is left to the caller to wait for the outcome of the trial.

`one_trial_iff` says so for all sequences of calls.
-/

namespace AlphaOne.Scheduler

open Foundations

/-- The calls of a breaker. -/
inductive BreakerCall
  | canAttempt (now : Datetime)
  | recordSuccess
  | recordFailure (now : Datetime)
  deriving DecidableEq, Repr

/-- A breaker, and whether a trial is under way: an attempt has moved it from open to half-open, and
no outcome has been recorded since. -/
structure TrialLog where
  breaker : CircuitBreaker := {}
  trial : Bool := false
  deriving DecidableEq, Repr

namespace TrialLog

/-- One call. -/
def step (s : TrialLog) : BreakerCall → TrialLog
  | .canAttempt now =>
    let after := (s.breaker.canAttempt now).2
    { breaker := after
      trial := s.trial || (s.breaker.state = .open_ && after.state = .halfOpen) }
  | .recordSuccess => { breaker := s.breaker.recordSuccess, trial := false }
  | .recordFailure now =>
    { breaker := (s.breaker.recordFailureChecked now).2, trial := false }

/-- An attempt that passes finds no open circuit before its retry time, and no trial under way. -/
def OneTrial (s : TrialLog) : BreakerCall → Prop
  | .canAttempt now => (s.breaker.canAttempt now).1 = true →
      (s.breaker.state = .open_ → ∃ t, s.breaker.nextRetryAt = some t ∧ t ≤ now) ∧ s.trial = false
  | _ => True

/-- The caller makes no attempt while the circuit is half-open. -/
def Waits (s : TrialLog) : BreakerCall → Prop
  | .canAttempt _ => s.breaker.state ≠ .halfOpen
  | _ => True

/-- A trial is under way when the circuit is half-open; and it has not been closed since the
failures reached the threshold. -/
structure Inv (s : TrialLog) : Prop where
  trial_iff : s.trial = true ↔ s.breaker.state = .halfOpen
  reached : s.breaker.state ≠ .closed →
    s.breaker.config.failureThreshold ≤ s.breaker.consecutiveFailures

theorem Inv.init (config : CircuitBreakerConfig) : Inv { breaker := { config := config } } where
  trial_iff := by simp
  reached h := absurd rfl h

variable {s : TrialLog}

/-- A closed or half-open breaker lets an attempt pass, and an open one from its retry time on. -/
theorem canAttempt_cases (b : CircuitBreaker) (now : Datetime) :
    (b.state ≠ .open_ ∧ b.canAttempt now = (true, b)) ∨
    (b.state = .open_ ∧ (∃ t, b.nextRetryAt = some t ∧ t ≤ now) ∧
      b.canAttempt now = (true, { b with state := .halfOpen })) ∨
    (b.state = .open_ ∧ b.canAttempt now = (false, b)) := by
  cases hstate : b.state with
  | closed => exact .inl ⟨by decide, by simp only [CircuitBreaker.canAttempt, hstate]⟩
  | halfOpen => exact .inl ⟨by decide, by simp only [CircuitBreaker.canAttempt, hstate]⟩
  | open_ =>
    refine .inr ?_
    cases hretry : b.nextRetryAt with
    | none => exact .inr ⟨rfl, by simp only [CircuitBreaker.canAttempt, hstate, hretry]⟩
    | some t =>
      rw [CircuitBreaker.canAttempt_of_open hstate hretry]
      by_cases hdue : t ≤ now
      · exact .inl ⟨rfl, ⟨t, rfl, hdue⟩, by rw [if_pos hdue, hretry]⟩
      · exact .inr ⟨rfl, if_neg hdue⟩

/-- A recorded failure never leaves the circuit half-open: it was opened by as many failures as the
threshold wants, and they are still counted. -/
theorem Inv.step_failure (hs : s.Inv) (now : Datetime) : (s.step (.recordFailure now)).Inv := by
  by_cases hth : s.breaker.config.failureThreshold ≤ s.breaker.consecutiveFailures + 1
  · rw [step, CircuitBreaker.recordFailureChecked_of_le hth]
    refine ⟨by simp, fun _ => ?_⟩
    exact_mod_cast hth
  · have hclosed : s.breaker.state = .closed := by
      by_contra hstate
      exact hth ((hs.reached hstate).trans (by linarith))
    rw [step, CircuitBreaker.recordFailureChecked_of_lt (not_le.1 hth)]
    exact ⟨by simp [hclosed], fun h => absurd hclosed h⟩

/-- Every call keeps the invariant. -/
theorem Inv.step (hs : s.Inv) (call : BreakerCall) : (s.step call).Inv := by
  cases call with
  | recordFailure now => exact hs.step_failure now
  | recordSuccess => exact ⟨by simp [TrialLog.step, CircuitBreaker.recordSuccess], absurd rfl⟩
  | canAttempt now =>
    obtain ⟨hstate, hcall⟩ | ⟨hstate, -, hcall⟩ | ⟨hstate, hcall⟩ :=
      canAttempt_cases s.breaker now
    · rw [TrialLog.step, hcall]
      exact ⟨by simp [hstate, hs.trial_iff], hs.reached⟩
    · rw [TrialLog.step, hcall]
      exact ⟨by simp [hstate], fun _ => hs.reached (by simp [hstate])⟩
    · rw [TrialLog.step, hcall]
      exact ⟨by simp [hstate, hs.trial_iff], hs.reached⟩

/-- A call keeps to one trial if and only if it waits for the outcome of the trial. -/
theorem Inv.oneTrial_iff (hs : s.Inv) (call : BreakerCall) : s.OneTrial call ↔ s.Waits call := by
  cases call with
  | recordFailure now => exact Iff.rfl
  | recordSuccess => exact Iff.rfl
  | canAttempt now =>
    have htrial : s.trial = false ↔ s.breaker.state ≠ .halfOpen := by
      rw [← Bool.not_eq_true, hs.trial_iff]
    obtain ⟨hstate, hcall⟩ | ⟨hstate, hdue, hcall⟩ | ⟨hstate, hcall⟩ :=
      canAttempt_cases s.breaker now
    · simp [OneTrial, Waits, hcall, hstate, htrial]
    · simp [OneTrial, Waits, hcall, hstate, htrial, hdue]
    · simp [OneTrial, Waits, hcall, hstate]

/-- **Half-open means one trial for the callers that wait for its outcome**, and for them only. -/
theorem one_trial_iff (config : CircuitBreakerConfig) (calls : List BreakerCall) :
    Guarded step OneTrial { breaker := { config := config } } calls ↔
      Guarded step Waits { breaker := { config := config } } calls :=
  ⟨.of_invariant (fun _ call hs _ => hs.step call) (fun _ call hs => (hs.oneTrial_iff call).1)
      (Inv.init config),
    .of_invariant (fun _ call hs _ => hs.step call) (fun _ call hs => (hs.oneTrial_iff call).2)
      (Inv.init config)⟩

/-- **A second attempt passes during the trial**: one failure opens the circuit, the attempt after
its backoff is the trial, and the next one passes before any outcome. -/
theorem second_trial_passes :
    let opened := run step { breaker := { config := { failureThreshold := 1 } } }
      [.recordFailure 0, .canAttempt (Timedelta.seconds 5)]
    opened.trial = true ∧ (opened.breaker.canAttempt (Timedelta.seconds 6)).1 = true ∧
      ¬Guarded step OneTrial { breaker := { config := { failureThreshold := 1 } } }
        [.recordFailure 0, .canAttempt (Timedelta.seconds 5),
          .canAttempt (Timedelta.seconds 6)] := by
  intro opened
  have htrial : opened.trial = true := by decide +kernel
  have hpasses : (opened.breaker.canAttempt (Timedelta.seconds 6)).1 = true := by decide +kernel
  refine ⟨htrial, hpasses, ?_⟩
  rintro ⟨-, -, honce, -⟩
  have hnone : opened.trial = false := (honce hpasses).2
  rw [htrial] at hnone
  cases hnone

end TrialLog

end AlphaOne.Scheduler

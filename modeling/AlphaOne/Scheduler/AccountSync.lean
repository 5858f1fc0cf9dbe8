import AlphaOne.Foundations.Run
import AlphaOne.Scheduler.CircuitBreaker
import Mathlib.Data.Int.ConditionallyCompleteOrder
import Mathlib.Tactic.Linarith

/-!
# The account sync job

`run_once_account_sync` and the `_loop` that drives it, of `services/scheduler/runner.py`, with
`account_sync_job` of `jobs.py`. A failed read of the balance comes back as a status, other failures
are raised, and the watchdog of the loop cancels a tick that takes too long. Only an exception
inside the `try` reaches `record_failure`: a job that returns is a success, whatever it returns, and
a cancellation passes both.

`backs_off_iff` says in which runs a failing exchange is backed off.
-/

namespace AlphaOne.Scheduler

open Foundations

/-- How an awaited call ends. -/
inductive Awaited (α : Type)
  | returned (a : α)
  | raised
  /-- The watchdog has cancelled it. -/
  | cancelled
  deriving DecidableEq, Repr

namespace Awaited

variable {α β : Type}

def bind (x : Awaited α) (f : α → Awaited β) : Awaited β :=
  match x with
  | returned a => f a
  | raised => .raised
  | cancelled => .cancelled

/-- A result with a `finally` block, whose own failure replaces it. -/
def finally_ (x : Awaited α) (block : Awaited Unit) : Awaited α :=
  match block with
  | returned _ => x
  | raised => .raised
  | cancelled => .cancelled

end Awaited

/-- `balance["status"]`. -/
inductive BalanceStatus
  | ok
  | notConfigured
  | unavailable
  deriving DecidableEq, Repr

/-- How the calls of a tick end, when it makes them. -/
structure SyncTick where
  startedAt : Datetime
  balance : Awaited BalanceStatus
  positions : Awaited Unit := .returned ()
  fills : Awaited Unit := .returned ()
  /-- `provider.close()`. -/
  close : Awaited Unit := .returned ()
  /-- The clock when the tick fails. -/
  failedAt : Datetime := startedAt
  started_le : startedAt ≤ failedAt := by decide

/-- `account_sync_job`. -/
def accountSyncJob (t : SyncTick) : Awaited BalanceStatus :=
  t.balance.bind fun status =>
    if status ≠ .ok then .returned status
    else t.positions.bind fun _ => t.fills.bind fun _ => .returned status

/-- `run_once_account_sync`. -/
def runOnceAccountSync (t : SyncTick) (b : CircuitBreaker) : Awaited Unit × CircuitBreaker :=
  let (attempt, b) := b.canAttempt t.startedAt
  if attempt = false then (.returned (), b)
  else
    match accountSyncJob t with
    | .returned _ => ((Awaited.returned ()).finally_ t.close, b.recordSuccess)
    | .raised =>
      let (returns, b) := b.recordFailure t.failedAt
      ((if returns then Awaited.returned () else .raised).finally_ t.close, b)
    | .cancelled => (Awaited.cancelled.finally_ t.close, b)

/-- The exchange read has failed, or the tick has raised or been cancelled. -/
def SyncTick.Failed (t : SyncTick) : Prop :=
  ¬(accountSyncJob t = .returned .ok ∧ t.close = .returned ())

instance (t : SyncTick) : Decidable t.Failed := by unfold SyncTick.Failed; infer_instance

/-- The loop of the job: it goes on after a tick that returns or is cancelled, and ends with one
that raises. Beside it, the failed ticks in a row. -/
structure SyncLoop where
  running : Bool := true
  accountSyncBreaker : CircuitBreaker := {}
  failures : ℕ := 0
  /-- The clock when the last of them failed. -/
  failedAt : Datetime := 0
  /-- Each of them has raised in the job, and been recorded. -/
  recorded : Bool := true
  deriving DecidableEq, Repr

namespace SyncLoop

/-- A tick at `now` makes its requests. -/
def requests (s : SyncLoop) (now : Datetime) : Bool :=
  s.running && (s.accountSyncBreaker.canAttempt now).1

/-- `_loop`, one tick. -/
def step (s : SyncLoop) (t : SyncTick) : SyncLoop :=
  if s.running = false then s
  else
    let (result, breaker) := runOnceAccountSync t s.accountSyncBreaker
    let s' := { s with running := result ≠ .raised, accountSyncBreaker := breaker }
    if s.requests t.startedAt = false then s'
    else if t.Failed then
      { s' with
        failures := s.failures + 1
        failedAt := t.failedAt
        recorded := s.recorded && accountSyncJob t = .raised }
    else { s' with failures := 0, recorded := true }

/-- `CircuitBreakerConfig()`. -/
def config : CircuitBreakerConfig := {}

/-- Failures in a row that reach the threshold leave the circuit open, and no request is made until
the backoff has elapsed. -/
def BacksOff (s : SyncLoop) : Prop :=
  config.failureThreshold ≤ s.failures → s.accountSyncBreaker.state = .open_ ∧
    ∀ now, s.requests now = true → s.failedAt + config.backoff s.failures ≤ now

/-- The condition on a tick: when it brings the failures in a row to the threshold or beyond, all of
them have raised in the job. After 1024 failures more the backoff overflows, and the loop has to end
with it: the watchdog does not cancel the tick in its `finally` block. -/
def Recorded (s : SyncLoop) (t : SyncTick) : Prop :=
  s.requests t.startedAt = true → t.Failed → config.failureThreshold ≤ s.failures + 1 →
    s.recorded = true ∧ accountSyncJob t = .raised ∧
      (config.failureThreshold + 1024 ≤ s.failures + 1 → t.close ≠ .cancelled)

instance (s : SyncLoop) (t : SyncTick) : Decidable (s.Recorded t) := by
  unfold Recorded; infer_instance

/-! ## One tick -/

variable {s : SyncLoop} {t : SyncTick}

/-- A tick that makes no request changes nothing. -/
theorem step_of_refused (h : s.requests t.startedAt = false) : s.step t = s := by
  unfold step
  split_ifs with hrun
  · rfl
  · have hattempt : (s.accountSyncBreaker.canAttempt t.startedAt).1 = false := by
      simpa [requests, hrun] using h
    have hkept := CircuitBreaker.canAttempt_of_refused hattempt
    simp only [Bool.not_eq_false] at hrun
    simp [runOnceAccountSync, hattempt, hkept, ← hrun]

/-- A tick that makes its requests, by what it leaves and whether it has failed. -/
theorem step_of_requests (h : s.requests t.startedAt = true) :
    let after := runOnceAccountSync t s.accountSyncBreaker
    ((s.step t).running = true ↔ after.1 ≠ .raised) ∧ (s.step t).accountSyncBreaker = after.2 ∧
      (s.step t).failures = (if t.Failed then s.failures + 1 else 0) ∧
      (t.Failed → (s.step t).failedAt = t.failedAt) ∧
      ((s.step t).recorded = true ↔
        (t.Failed → s.recorded = true ∧ accountSyncJob t = .raised)) := by
  intro after
  have hrun : s.running = true := by
    simp only [requests, Bool.and_eq_true] at h
    exact h.1
  by_cases hf : t.Failed <;> simp [step, hrun, h, hf, after]

theorem passed_of_requests (h : s.requests t.startedAt = true) :
    (s.accountSyncBreaker.canAttempt t.startedAt).1 = true := by
  simp only [requests, Bool.and_eq_true] at h
  exact h.2

/-- What a tick does with the breaker it has passed. -/
theorem runOnceAccountSync_of_passed {b : CircuitBreaker}
    (h : (b.canAttempt t.startedAt).1 = true) :
    let b' := (b.canAttempt t.startedAt).2
    runOnceAccountSync t b =
      match accountSyncJob t with
      | .returned _ => ((Awaited.returned ()).finally_ t.close, b'.recordSuccess)
      | .raised =>
        ((if (b'.recordFailure t.failedAt).1 then Awaited.returned () else .raised).finally_ t.close,
          (b'.recordFailure t.failedAt).2)
      | .cancelled => (Awaited.cancelled.finally_ t.close, b') := by
  simp [runOnceAccountSync, h]

/-! ## The invariant -/

/-- What the loop and its breaker know of the failures in a row. Below the threshold the breaker is
closed; an unrecorded failure is missing in its count; and the threshold is reached by recorded
failures only. -/
structure Inv (s : SyncLoop) : Prop where
  config_eq : s.accountSyncBreaker.config = config
  counted : s.recorded = true → s.accountSyncBreaker.consecutiveFailures = s.failures
  missed : s.recorded = false →
    s.accountSyncBreaker.consecutiveFailures < s.failures ∧ s.failures < config.failureThreshold
  closed : s.failures < config.failureThreshold → s.accountSyncBreaker.state = .closed
  opened : config.failureThreshold ≤ s.failures → s.accountSyncBreaker.state = .open_ ∧
    (s.running = true →
      s.accountSyncBreaker.nextRetryAt = some (s.failedAt + config.backoff s.failures))

theorem Inv.init : Inv {} where
  config_eq := rfl
  counted _ := rfl
  missed h := by cases h
  closed _ := rfl
  opened h := by cases h

theorem Inv.backsOff (hs : s.Inv) : s.BacksOff := by
  intro hfail
  obtain ⟨hopen, hnext⟩ := hs.opened hfail
  refine ⟨hopen, fun now hnow => ?_⟩
  obtain ⟨hrun, hattempt⟩ := Bool.and_eq_true_iff.1 hnow
  rw [CircuitBreaker.canAttempt_of_open hopen (hnext hrun)] at hattempt
  split_ifs at hattempt with hle
  exact hle

/-- The breaker a tick works with has the count and the configuration of the one it found, and
below the threshold it is closed. -/
theorem Inv.passed (hs : s.Inv) (h : s.requests t.startedAt = true) :
    let b := (s.accountSyncBreaker.canAttempt t.startedAt).2
    b.state ≠ .open_ ∧ b.config = config ∧
      b.consecutiveFailures = s.accountSyncBreaker.consecutiveFailures ∧
      b.nextRetryAt = s.accountSyncBreaker.nextRetryAt ∧
      (s.failures < config.failureThreshold → b.state = .closed) := by
  intro b
  obtain ⟨hstate, hconfig, hcount, hnext⟩ :=
    CircuitBreaker.canAttempt_of_passed (passed_of_requests h)
  refine ⟨hstate, hconfig.trans hs.config_eq, hcount, hnext, fun hlt => ?_⟩
  have hclosed := hs.closed hlt
  show (s.accountSyncBreaker.canAttempt t.startedAt).2.state = .closed
  rw [CircuitBreaker.canAttempt_of_closed hclosed]
  exact hclosed

/-- A breaker counts no more failures than there have been. -/
theorem Inv.count_le (hs : s.Inv) :
    s.accountSyncBreaker.consecutiveFailures ≤ s.failures := by
  cases hr : s.recorded with
  | true => exact (hs.counted hr).le
  | false => exact (hs.missed hr).1.le

/-- Below the threshold the invariant is a closed breaker with its count. -/
theorem Inv.of_below {s : SyncLoop} {b : CircuitBreaker} (hb : s.accountSyncBreaker = b)
    (hlt : s.failures < config.failureThreshold) (hconfig : b.config = config)
    (hclosed : b.state = .closed) (hcounted : s.recorded = true → b.consecutiveFailures = s.failures)
    (hmissed : s.recorded = false → b.consecutiveFailures < s.failures) : s.Inv := by
  subst hb
  exact ⟨hconfig, hcounted, fun h => ⟨hmissed h, hlt⟩, fun _ => hclosed, fun h => by omega⟩

/-- A failed tick below the threshold. -/
theorem Inv.step_below (hs : s.Inv) (hreq : s.requests t.startedAt = true) (hf : t.Failed)
    (hlt : s.failures + 1 < config.failureThreshold) : (s.step t).Inv := by
  obtain ⟨-, hbreaker, hfailures, -, hrecorded⟩ := step_of_requests hreq
  obtain ⟨-, hconfig, hcount, -, hclosed⟩ := hs.passed hreq
  have hclosed := hclosed (by omega)
  have hcountLe := hs.count_le
  rw [runOnceAccountSync_of_passed (passed_of_requests hreq)] at hbreaker
  rw [if_pos hf] at hfailures
  have hlt' : (s.step t).failures < config.failureThreshold := by rwa [hfailures]
  cases hjob : accountSyncJob t with
  | returned status =>
    rw [hjob] at hbreaker hrecorded
    have hmissed : ¬(s.step t).recorded = true := fun h => absurd (hrecorded.1 h hf).2 nofun
    refine .of_below hbreaker hlt' hconfig rfl (fun h => absurd h hmissed) fun _ => ?_
    rw [hfailures]
    exact Nat.succ_pos _
  | raised =>
    have hbelow : (s.accountSyncBreaker.canAttempt t.startedAt).2.consecutiveFailures + 1 <
        (s.accountSyncBreaker.canAttempt t.startedAt).2.config.failureThreshold := by
      rw [hcount, hconfig]
      omega
    rw [hjob] at hbreaker hrecorded
    simp only [CircuitBreaker.recordFailure_of_lt hbelow] at hbreaker
    refine .of_below hbreaker hlt' hconfig hclosed (fun h => ?_) fun h => ?_
    · rw [hfailures, ← hs.counted (hrecorded.1 h hf).1, ← hcount]
    · have hmissed : s.recorded = false := by
        rw [← Bool.not_eq_true]
        exact fun hr => by simp [hrecorded.2 fun _ => ⟨hr, rfl⟩] at h
      have hless := (hs.missed hmissed).1
      rw [hfailures]
      show _ + 1 < _
      omega
  | cancelled =>
    rw [hjob] at hbreaker hrecorded
    have hmissed : ¬(s.step t).recorded = true := fun h => absurd (hrecorded.1 h hf).2 nofun
    refine .of_below hbreaker hlt' hconfig hclosed (fun h => absurd h hmissed) fun _ => ?_
    rw [hfailures, hcount]
    omega

/-- A tick that has not failed. -/
theorem Inv.step_ok (hs : s.Inv) (hreq : s.requests t.startedAt = true) (hf : ¬t.Failed) :
    (s.step t).Inv := by
  obtain ⟨-, hbreaker, hfailures, -, hrecorded⟩ := step_of_requests hreq
  obtain ⟨-, hconfig, -⟩ := hs.passed hreq
  obtain ⟨hjob, -⟩ := not_not.1 hf
  rw [runOnceAccountSync_of_passed (passed_of_requests hreq), hjob] at hbreaker
  rw [if_neg hf] at hfailures
  have hrecorded : (s.step t).recorded = true := hrecorded.2 fun h => absurd h hf
  refine .of_below hbreaker ?_ hconfig rfl (fun _ => hfailures.symm) (by simp [hrecorded])
  rw [hfailures]
  decide

/-- What a recorded failure makes of the breaker when it reaches the threshold. -/
theorem Inv.breaker_of_reached (hs : s.Inv) (hreq : s.requests t.startedAt = true)
    (hjob : accountSyncJob t = .raised) (hr : s.recorded = true)
    (hth : config.failureThreshold ≤ s.failures + 1) :
    let b := (s.step t).accountSyncBreaker
    let returns := s.failures + 1 - config.failureThreshold < 1024
    b.state = .open_ ∧ b.config = config ∧ b.consecutiveFailures = s.failures + 1 ∧
      b.nextRetryAt = (if returns then some (t.failedAt + config.backoff (s.failures + 1))
        else s.accountSyncBreaker.nextRetryAt) ∧
      ((s.step t).running = true ↔
        (if returns then t.close ≠ .raised else t.close = .cancelled)) := by
  intro b returns
  obtain ⟨hrunning, hbreaker, -⟩ := step_of_requests hreq
  obtain ⟨-, hconfig, hcount, hnext, -⟩ := hs.passed hreq
  rw [hs.counted hr] at hcount
  have hth' : (s.accountSyncBreaker.canAttempt t.startedAt).2.config.failureThreshold ≤
      (s.accountSyncBreaker.canAttempt t.startedAt).2.consecutiveFailures + 1 := by
    rwa [hconfig, hcount]
  obtain ⟨hopen, hconfig', hcount', hreturns, hretry⟩ :=
    @CircuitBreaker.recordFailure_of_le _ t.failedAt hth'
  rw [hconfig, hcount] at hreturns hretry
  rw [runOnceAccountSync_of_passed (passed_of_requests hreq), hjob] at hrunning hbreaker
  have hb : b = _ := hbreaker
  rw [hb]
  refine ⟨hopen, hconfig'.trans hconfig, hcount'.trans (by rw [hcount]), ?_, ?_⟩
  · exact hretry.trans (by rw [hnext])
  · rw [hrunning]
    by_cases hret : returns
    · simp only [hreturns.2 hret, hret, if_true]
      cases t.close <;> simp [Awaited.finally_]
    · simp only [mt hreturns.1 hret, hret, if_false]
      cases t.close <;> simp [Awaited.finally_]

/-- A tick that brings the failures in a row to the threshold or beyond, and is recorded. -/
theorem Inv.step_reaching (hs : s.Inv) (hreq : s.requests t.startedAt = true) (hf : t.Failed)
    (hth : config.failureThreshold ≤ s.failures + 1) (h : s.Recorded t) : (s.step t).Inv := by
  obtain ⟨hr, hjob, hclose⟩ := h hreq hf hth
  obtain ⟨-, -, hfailures, hfailedAt, hrecorded⟩ := step_of_requests hreq
  rw [if_pos hf] at hfailures
  obtain ⟨hopen, hconfig, hcount, hnext, hrunning⟩ := hs.breaker_of_reached hreq hjob hr hth
  have hrecorded : (s.step t).recorded = true := hrecorded.2 fun _ => ⟨hr, hjob⟩
  refine ⟨hconfig, fun _ => hcount.trans hfailures.symm, by simp [hrecorded], fun hlt => ?_,
    fun _ => ⟨hopen, fun hrun => ?_⟩⟩
  · rw [hfailures] at hlt
    omega
  · rw [hnext, hfailures, hfailedAt hf]
    by_cases hret : s.failures + 1 - config.failureThreshold < 1024
    · rw [if_pos hret]
    · -- the overflow has ended the loop, unless its tick was cancelled
      rw [hrunning, if_neg hret] at hrun
      exact absurd hrun (hclose (by linarith))

/-- **A tick under its condition keeps the invariant.** -/
theorem Inv.step (hs : s.Inv) (h : s.Recorded t) : (s.step t).Inv := by
  by_cases hreq : s.requests t.startedAt = true
  · by_cases hf : t.Failed
    · by_cases hth : config.failureThreshold ≤ s.failures + 1
      · exact hs.step_reaching hreq hf hth h
      · exact hs.step_below hreq hf (not_le.1 hth)
    · exact hs.step_ok hreq hf
  · rwa [step_of_refused (by simpa using hreq)]

/-- A tick that leaves the breaker open at the threshold has raised in the job, and the failures
before it have been recorded. -/
theorem Inv.raised_of_open (hs : s.Inv) (hreq : s.requests t.startedAt = true)
    (hth : config.failureThreshold ≤ s.failures + 1)
    (hopen : (s.step t).accountSyncBreaker.state = .open_) :
    s.recorded = true ∧ accountSyncJob t = .raised := by
  obtain ⟨-, hbreaker, -⟩ := step_of_requests hreq
  obtain ⟨hstate, hconfig, hcount, -, hclosed⟩ := hs.passed hreq
  rw [runOnceAccountSync_of_passed (passed_of_requests hreq)] at hbreaker
  rw [hbreaker] at hopen
  have hjob : accountSyncJob t = .raised := by
    cases hjob : accountSyncJob t with
    | raised => rfl
    | returned status =>
      rw [hjob] at hopen
      cases hopen
    | cancelled =>
      rw [hjob] at hopen
      exact absurd hopen hstate
  refine ⟨?_, hjob⟩
  by_contra hr
  obtain ⟨hmissed, hlt⟩ := hs.missed (Bool.not_eq_true _ ▸ hr)
  have hlt' : (s.accountSyncBreaker.canAttempt t.startedAt).2.consecutiveFailures + 1 <
      (s.accountSyncBreaker.canAttempt t.startedAt).2.config.failureThreshold := by
    rw [hcount, hconfig]
    omega
  rw [hjob] at hopen
  simp only [CircuitBreaker.recordFailure_of_lt hlt', hclosed hlt] at hopen
  cases hopen

/-- When the backoff overflows and the loop goes on, it goes on with the retry time of the failure
before, which has passed. -/
theorem Inv.requests_of_overflow (hs : s.Inv) (hreq : s.requests t.startedAt = true)
    (hjob : accountSyncJob t = .raised) (hr : s.recorded = true)
    (hover : config.failureThreshold + 1024 ≤ s.failures + 1) (hclose : t.close = .cancelled) :
    (s.step t).requests t.startedAt = true := by
  have hth : config.failureThreshold ≤ s.failures + 1 := by linarith
  obtain ⟨hopen, -, -, hnext, hrunning⟩ := hs.breaker_of_reached hreq hjob hr hth
  have hret : ¬s.failures + 1 - config.failureThreshold < 1024 :=
    not_lt.2 (by linarith)
  rw [if_neg hret] at hnext hrunning
  obtain ⟨hrun, hpassed⟩ := Bool.and_eq_true_iff.1 hreq
  have hpast : config.failureThreshold ≤ s.failures := by
    generalize config.failureThreshold = threshold at hover ⊢
    omega
  obtain ⟨hopened, hretry⟩ := hs.opened hpast
  rw [hretry hrun] at hnext
  have hdue : s.failedAt + config.backoff s.failures ≤ t.startedAt := by
    rw [CircuitBreaker.canAttempt_of_open hopened (hretry hrun)] at hpassed
    split_ifs at hpassed with hle
    exact hle
  rw [requests, hrunning.2 hclose, CircuitBreaker.canAttempt_of_open hopen hnext, if_pos hdue]
  rfl

/-- A tick that brings the failures in a row to the threshold, and after which the exchange is
backed off, has met its condition. -/
theorem Inv.recorded_of_backsOff (hs : s.Inv) (h : (s.step t).BacksOff) : s.Recorded t := by
  intro hreq hf hth
  obtain ⟨-, -, hfailures, hfailedAt, -⟩ := step_of_requests hreq
  rw [if_pos hf] at hfailures
  obtain ⟨hopen, hwaits⟩ := h (by rw [hfailures]; exact_mod_cast hth)
  obtain ⟨hr, hjob⟩ := hs.raised_of_open hreq hth hopen
  refine ⟨hr, hjob, fun hover hclose => ?_⟩
  have hwait := hwaits t.startedAt (hs.requests_of_overflow hreq hjob hr hover hclose)
  rw [hfailedAt hf, hfailures] at hwait
  have hpos : 0 < config.backoff (s.failures + 1) :=
    CircuitBreakerConfig.backoff_pos (by norm_num [config]) (by norm_num [config]) _
  have hstarted := t.started_le
  linarith

/-! ## Backing off -/

/-- **A failing exchange is backed off in the runs whose failures are recorded**: whenever the
failed ticks in a row reach the threshold, each of them has raised in the job. -/
theorem backs_off_iff (ticks : List SyncTick) :
    Always SyncLoop.step BacksOff {} ticks ↔ Guarded SyncLoop.step Recorded {} ticks := by
  refine always_iff_guarded_of_invariant (A := fun _ _ => True) (fun _ => Inv.backsOff)
    (fun s t hs _ h => hs.step h) (fun s t hs _ h => hs.recorded_of_backsOff h) Inv.init
    (Guarded.of_forall (fun _ _ => trivial) _ _)

/-- **A balance that cannot be read never opens the circuit**: after five such ticks the sixth makes
its requests at once. -/
theorem unread_balance_never_backs_off :
    let unread (now : Datetime) : SyncTick :=
      { startedAt := now, balance := .returned .unavailable, failedAt := now, started_le := le_rfl }
    let ticks := [unread 0, unread 30, unread 60, unread 90, unread 120]
    let s := run SyncLoop.step {} ticks
    s.failures = 5 ∧ s.accountSyncBreaker.state = .closed ∧ s.requests 120 = true ∧
      ¬Always SyncLoop.step BacksOff {} ticks := by
  intro unread ticks s
  have hfailures : s.failures = 5 := by decide
  have hclosed : s.accountSyncBreaker.state = .closed := by decide
  have hreached : config.failureThreshold ≤ s.failures := by
    rw [hfailures]
    decide
  refine ⟨hfailures, hclosed, by decide, fun h => ?_⟩
  obtain ⟨hopen, -⟩ := h.last hreached
  rw [hclosed] at hopen
  cases hopen

end SyncLoop

end AlphaOne.Scheduler

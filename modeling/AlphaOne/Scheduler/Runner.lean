import AlphaOne.Foundations.Components
import AlphaOne.Scheduler.AccountSync
import AlphaOne.Scheduler.Backoff

/-!
# The loops of the scheduler

`SchedulerRunner` of `services/scheduler/runner.py` from its `start` on. Each of the seven jobs has
a loop, which stamps the time, lets one tick run under the watchdog, and sleeps; and a circuit
breaker. The AI paper trading runs inside the tick of the signal generation, behind a breaker of its
own. The loops take turns at their awaits, in any order.

* `loops_are_independent`: a job is not affected by the other jobs, nor the signal generation by the
  failures of the AI paper trading.
* `heartbeat_tells`: how old the heartbeat of a loop that goes on can get, and when a loop ends.
-/

namespace AlphaOne.Scheduler

open Foundations

/-- The jobs with a loop, by the names of their loops. -/
inductive Job
  | accountSync
  | exitAlerts
  | signalGeneration
  | signalGeneration15m
  | outcomeEvaluation
  | candleIngestion
  | liveBreakout
  deriving DecidableEq, Repr

def Job.all : List Job :=
  [.accountSync, .exitAlerts, .signalGeneration, .signalGeneration15m, .outcomeEvaluation,
    .candleIngestion, .liveBreakout]

theorem Job.mem_all (job : Job) : job ∈ Job.all := by cases job <;> decide

/-- The interval of the loop. -/
def Job.interval : Job → Timedelta
  | .accountSync | .exitAlerts | .liveBreakout => Timedelta.seconds 30
  | .signalGeneration | .signalGeneration15m | .outcomeEvaluation | .candleIngestion =>
    Timedelta.seconds 900

/-- The tick closes its client in a `finally` block. -/
def Job.closes : Job → Bool
  | .accountSync | .candleIngestion => true
  | _ => false

/-- `JOB_TICK_TIMEOUT_SECONDS`. -/
def jobTickTimeout : Timedelta := Timedelta.seconds 60

/-- A run of `ai_paper_trading_job` inside a tick, and of the messages about what it has opened. -/
structure PaperRun where
  startedAt : Datetime
  job : Awaited Unit := .returned ()
  sends : Awaited Unit := .returned ()
  failedAt : Datetime := startedAt
  deriving DecidableEq, Repr

/-- How a tick ends. -/
structure TickEnd where
  now : Datetime
  job : Awaited Unit := .returned ()
  /-- The AI paper trading, in a tick of the signal generation whose job has returned. -/
  paper : PaperRun := { startedAt := now }
  /-- `close()` of the tick's client, if it has one. -/
  close : Awaited Unit := .returned ()
  deriving DecidableEq, Repr

/-- What an exception inside a `try` comes to: it is recorded, which may raise again. -/
def recordedFailure (now : Datetime) (b : CircuitBreaker) : Awaited Unit × CircuitBreaker :=
  let (returns, b) := b.recordFailureChecked now
  (if returns then .returned () else .raised, b)

/-- The part of `run_once_signal_generation` about the AI paper trading. -/
def runPaper (p : PaperRun) (b : CircuitBreaker) : Awaited Unit × CircuitBreaker :=
  let (attempt, b) := b.canAttempt p.startedAt
  if attempt = false then (.returned (), b)
  else
    match p.job with
    | .cancelled => (.cancelled, b)
    | .raised => recordedFailure p.failedAt b
    | .returned _ =>
      match p.sends with
      | .cancelled => (.cancelled, b.recordSuccess)
      | .raised => recordedFailure p.failedAt b.recordSuccess
      | .returned _ => (.returned (), b.recordSuccess)

/-- Where a loop is: its tick is under way, or it sleeps, or an exception has ended it. -/
inductive LoopPhase
  | ticking (since : Datetime)
  | sleeping (wakesAt : Datetime)
  | ended
  deriving DecidableEq, Repr

/-- A loop with its breaker and heartbeat, and with the breaker of the AI paper trading, which only
the signal generation uses. -/
structure JobLoop where
  breaker : CircuitBreaker := {}
  aiPaperTradingBreaker : CircuitBreaker := {}
  lastTickAt : Option Datetime := none
  phase : LoopPhase
  deriving DecidableEq, Repr

/-- The body of `run_once_…`, in the `try`. -/
def tickBody (job : Job) (e : TickEnd) (paper : CircuitBreaker) : Awaited Unit × CircuitBreaker :=
  match job, e.job with
  | .signalGeneration, .returned _ => runPaper e.paper paper
  | _, result => (result, paper)

/-- The rest of `run_once_…` after its body: the outcome is recorded, and the client closed. -/
def recordTick (job : Job) (e : TickEnd) (body : Awaited Unit) (b : CircuitBreaker) :
    Awaited Unit × CircuitBreaker :=
  let (result, b) : Awaited Unit × CircuitBreaker :=
    match body with
    | .returned _ => (.returned (), b.recordSuccess)
    | .raised => recordedFailure e.now b
    | .cancelled => (.cancelled, b)
  (if job.closes then result.finally_ e.close else result, b)

/-- An event of a loop: it wakes, or the tick that is under way ends. -/
inductive LoopEvent
  | wakes (now : Datetime)
  | tickEnds (e : TickEnd)
  deriving DecidableEq, Repr

def LoopEvent.now : LoopEvent → Datetime
  | .wakes now => now
  | .tickEnds e => e.now

/-- `_loop`, from one `await` to the next. A tick that is cancelled by the watchdog is logged; any
other exception ends the loop. -/
def loopStep (job : Job) (s : JobLoop) : LoopEvent → JobLoop
  | .wakes now =>
    match s.phase with
    | .sleeping _ =>
      let (attempt, breaker) := s.breaker.canAttempt now
      { s with
        breaker
        lastTickAt := some now
        phase := if attempt then .ticking now else .sleeping (now + job.interval) }
    | _ => s
  | .tickEnds e =>
    match s.phase with
    | .ticking _ =>
      let (body, paper) := tickBody job e s.aiPaperTradingBreaker
      let (result, breaker) := recordTick job e body s.breaker
      { s with
        breaker
        aiPaperTradingBreaker := paper
        phase := if result = .raised then .ended else .sleeping (e.now + job.interval) }
    | _ => s

/-- The loops after `start`, which wakes all of them at once. -/
def startLoops (now : Datetime) : Job → JobLoop := fun _ => { phase := .sleeping now }

/-- What `get_heartbeat` reports of a job. -/
structure Heartbeat where
  lastTickAt : Option Datetime
  secondsSinceLastTick : Option ℚ
  circuitState : CircuitState
  consecutiveFailures : ℕ
  deriving DecidableEq, Repr

/-- `get_heartbeat`, for a breaker and the loop it works in. -/
def heartbeatOf (s : JobLoop) (b : CircuitBreaker) (now : Datetime) : Heartbeat where
  lastTickAt := s.lastTickAt
  secondsSinceLastTick := s.lastTickAt.map fun t => Timedelta.totalSeconds (now - t)
  circuitState := b.state
  consecutiveFailures := b.consecutiveFailures

/-- `get_heartbeat`: the jobs, and the AI paper trading, which shares the tick of the signal
generation. -/
def getHeartbeat (s : Job → JobLoop) (now : Datetime) : (Job → Heartbeat) × Heartbeat :=
  (fun job => heartbeatOf (s job) (s job).breaker now,
    heartbeatOf (s .signalGeneration) (s .signalGeneration).aiPaperTradingBreaker now)

/-! ## What the breakers do -/

/-- The clock is one of those Python has, and so is every retry time that is counted from it. -/
def ClockInRange (now : Datetime) : Prop :=
  Datetime.InRange now ∧ Datetime.InRange (now + Timedelta.seconds 300)

instance (now : Datetime) : Decidable (ClockInRange now) := by
  unfold ClockInRange; infer_instance

variable {b : CircuitBreaker} {now : Datetime}

theorem canAttempt_config (b : CircuitBreaker) (now : Datetime) :
    (b.canAttempt now).2.config = b.config ∧
      (b.canAttempt now).2.consecutiveFailures = b.consecutiveFailures := by
  cases h : (b.canAttempt now).1 with
  | true =>
    obtain ⟨-, hconfig, hcount, -⟩ := CircuitBreaker.canAttempt_of_passed h
    exact ⟨hconfig, hcount⟩
  | false =>
    rw [CircuitBreaker.canAttempt_of_refused h]
    exact ⟨rfl, rfl⟩

theorem recordedFailure_config (now : Datetime) (b : CircuitBreaker) :
    (recordedFailure now b).2.config = b.config ∧
      (recordedFailure now b).2.consecutiveFailures = b.consecutiveFailures + 1 :=
  CircuitBreaker.recordFailureChecked_count b now

/-- The backoff of the default configuration. -/
theorem backoff_inRange (hnow : ClockInRange now) {failures : ℕ} (h : failures < 1029) :
    ({} : CircuitBreakerConfig).InRange failures now := by
  have hmax : ({} : CircuitBreakerConfig).backoff failures ≤ Timedelta.seconds 300 :=
    (CircuitBreaker.backoff_le_max {} failures).trans (by decide +kernel)
  have hpos : 0 < ({} : CircuitBreakerConfig).backoff failures :=
    CircuitBreakerConfig.backoff_pos (by decide +kernel) (by decide +kernel) failures
  obtain ⟨⟨hlow, -⟩, -, hhigh⟩ := hnow
  refine ⟨?_, ⟨?_, ?_⟩, ?_, ?_⟩
  · show (failures : ℤ) - 5 < 1024
    omega
  · exact le_trans (by decide) hpos.le
  · exact lt_of_le_of_lt hmax (by decide)
  · linarith
  · linarith

/-- A failure is recorded without another exception, up to the 1028th in a row. -/
theorem recordedFailure_returns (hconfig : b.config = {}) (hnow : ClockInRange now)
    (h : b.consecutiveFailures < 1028) : (recordedFailure now b).1 = .returned () := by
  have hreturns : (b.recordFailureChecked now).1 = true := by
    by_cases hth : b.config.failureThreshold ≤ b.consecutiveFailures + 1
    · rw [CircuitBreaker.recordFailureChecked_of_le hth, hconfig]
      exact decide_eq_true (backoff_inRange hnow (by omega))
    · rw [CircuitBreaker.recordFailureChecked_of_lt (not_le.1 hth)]
  unfold recordedFailure
  dsimp only
  rw [hreturns]
  rfl

/-- The AI paper trading leaves the configuration of its breaker. -/
theorem runPaper_config (p : PaperRun) (b : CircuitBreaker) :
    (runPaper p b).2.config = b.config := by
  have hattempt := (canAttempt_config b p.startedAt).1
  unfold runPaper
  dsimp only
  split_ifs
  · exact hattempt
  · split
    · exact hattempt
    · rw [(recordedFailure_config _ _).1, hattempt]
    · split
      · exact hattempt
      · rw [(recordedFailure_config _ _).1]
        exact hattempt
      · exact hattempt

/-- **A failure of the AI paper trading stays inside**, unless it is cancelled with the tick, or it
is the 1029th in a row. -/
theorem runPaper_returns {p : PaperRun} (hconfig : b.config = {}) (hnow : ClockInRange p.failedAt)
    (h : b.consecutiveFailures < 1028) (hjob : p.job ≠ .cancelled) (hsends : p.sends ≠ .cancelled) :
    (runPaper p b).1 = .returned () := by
  obtain ⟨hattempt, hcount⟩ := canAttempt_config b p.startedAt
  unfold runPaper
  dsimp only
  split_ifs
  · rfl
  · split
    · next hc => exact absurd hc hjob
    · exact recordedFailure_returns (hattempt.trans hconfig) hnow (by omega)
    · split
      · next hc => exact absurd hc hsends
      · exact recordedFailure_returns (hattempt.trans hconfig) hnow (by
          simp [CircuitBreaker.recordSuccess])
      · rfl

/-! ## Independence -/

/-- The event without what the AI paper trading does in it. -/
def LoopEvent.withoutPaper : LoopEvent → LoopEvent
  | .wakes now => .wakes now
  | .tickEnds e => .tickEnds { e with paper := { startedAt := e.now } }

/-- The AI paper trading is not cancelled, and its breaker has counted fewer than 1028 failures in a
row. -/
def PaperContained (s : Job → JobLoop) (e : Job × LoopEvent) : Prop :=
  match e.2 with
  | .wakes _ => True
  | .tickEnds t => t.paper.job ≠ .cancelled ∧ t.paper.sends ≠ .cancelled ∧
      ClockInRange t.paper.failedAt ∧ (s e.1).aiPaperTradingBreaker.consecutiveFailures < 1028

instance (s : Job → JobLoop) : ∀ e : Job × LoopEvent, Decidable (PaperContained s e)
  | (_, .wakes _) => inferInstanceAs (Decidable True)
  | (job, .tickEnds t) => inferInstanceAs (Decidable (t.paper.job ≠ .cancelled ∧
      t.paper.sends ≠ .cancelled ∧ ClockInRange t.paper.failedAt ∧
        (s job).aiPaperTradingBreaker.consecutiveFailures < 1028))

/-- The same loop, but for the breaker of the AI paper trading. -/
structure SameLoop (s t : JobLoop) : Prop where
  breaker : s.breaker = t.breaker
  lastTickAt : s.lastTickAt = t.lastTickAt
  phase : s.phase = t.phase

theorem tickBody_config (job : Job) (e : TickEnd) (b : CircuitBreaker) :
    (tickBody job e b).2.config = b.config := by
  unfold tickBody
  split
  · exact runPaper_config e.paper b
  · rfl

/-- The breaker of the AI paper trading keeps its configuration. -/
theorem loopStep_paperConfig (job : Job) (s : JobLoop) (e : LoopEvent) :
    (loopStep job s e).aiPaperTradingBreaker.config = s.aiPaperTradingBreaker.config := by
  cases e with
  | wakes now =>
    unfold loopStep
    dsimp only
    split <;> rfl
  | tickEnds e =>
    unfold loopStep
    dsimp only
    split
    · exact tickBody_config job e _
    · rfl

/-- A tick whose AI paper trading is contained ends as it would without. -/
theorem tickBody_withoutPaper {job : Job} {e : TickEnd} {b b' : CircuitBreaker}
    (hconfig : b.config = {}) (hjob : e.paper.job ≠ .cancelled)
    (hsends : e.paper.sends ≠ .cancelled) (hclock : ClockInRange e.paper.failedAt)
    (h : b.consecutiveFailures < 1028) :
    (tickBody job e b).1 = (tickBody job { e with paper := { startedAt := e.now } } b').1 := by
  have hquiet : ∀ at_ : Datetime, (runPaper { startedAt := at_ } b').1 = .returned () := by
    intro at_
    unfold runPaper
    dsimp only
    split_ifs <;> rfl
  unfold tickBody
  dsimp only
  split
  · rw [runPaper_returns hconfig hclock h hjob hsends, hquiet]
  · rfl

/-- One event leaves a loop the same with and without the AI paper trading in it. -/
theorem SameLoop.step {job : Job} {s t : JobLoop} (h : SameLoop s t) {e : LoopEvent}
    (hconfig : s.aiPaperTradingBreaker.config = {})
    (he : ∀ u, e = .tickEnds u → u.paper.job ≠ .cancelled ∧ u.paper.sends ≠ .cancelled ∧
      ClockInRange u.paper.failedAt ∧ s.aiPaperTradingBreaker.consecutiveFailures < 1028) :
    SameLoop (loopStep job s e) (loopStep job t e.withoutPaper) := by
  cases e with
  | wakes now =>
    simp only [loopStep, LoopEvent.withoutPaper, ← h.phase]
    split
    · exact ⟨by simp [h.breaker], rfl, by simp [h.breaker]⟩
    · exact h
  | tickEnds u =>
    obtain ⟨hjob, hsends, hclock, hcount⟩ := he u rfl
    simp only [loopStep, LoopEvent.withoutPaper, ← h.phase]
    split
    · have hbody : (tickBody job u s.aiPaperTradingBreaker).1 =
          (tickBody job { u with paper := { startedAt := u.now } } t.aiPaperTradingBreaker).1 :=
        tickBody_withoutPaper hconfig hjob hsends hclock hcount
      have hrecord : ∀ body,
          recordTick job { u with paper := { startedAt := u.now } } body t.breaker =
            recordTick job u body s.breaker := fun body => by rw [h.breaker]; rfl
      rw [← hbody, hrecord]
      exact ⟨rfl, h.lastTickAt, rfl⟩
    · exact h

/-- **No loop is affected by another, and none by the AI paper trading** that runs inside the tick
of one of them, whatever the order of the events. -/
theorem loops_are_independent (s : Job → JobLoop) (events : List (Job × LoopEvent))
    (hconfig : ∀ job, (s job).aiPaperTradingBreaker.config = {})
    (h : Guarded (componentStep loopStep) PaperContained s events) (job : Job) :
    run (componentStep loopStep) s events job = run (loopStep job) (s job) (inputsOf job events) ∧
      SameLoop (run (componentStep loopStep) s events job)
        (run (loopStep job) (s job) ((inputsOf job events).map LoopEvent.withoutPaper)) := by
  refine ⟨run_componentStep loopStep s events job, ?_⟩
  have hsame : ∀ t, SameLoop (s job) t → SameLoop (run (componentStep loopStep) s events job)
      (run (loopStep job) t ((inputsOf job events).map LoopEvent.withoutPaper)) := by
    induction events generalizing s with
    | nil => exact fun t ht => ht
    | cons e events ih =>
      intro t ht
      have hkeep : ∀ job, (componentStep loopStep s e job).aiPaperTradingBreaker.config = {} := by
        intro job'
        by_cases hj : e.1 = job'
        · subst hj
          rw [componentStep_self loopStep s e.1 e.2, loopStep_paperConfig, hconfig]
        · rw [componentStep_of_ne loopStep s hj, hconfig]
      by_cases hj : e.1 = job
      · subst hj
        have hinputs : inputsOf e.1 (e :: events) = e.2 :: inputsOf e.1 events := by
          simp [inputsOf]
        rw [hinputs, List.map_cons, run_cons, run_cons]
        refine ih _ hkeep h.2 _ ?_
        rw [componentStep_self loopStep s e.1 e.2]
        refine ht.step (hconfig e.1) fun u hu => ?_
        have hcontained := h.1
        simpa only [PaperContained, hu] using hcontained
      · have hinputs : inputsOf job (e :: events) = inputsOf job events := by
          simp [inputsOf, hj]
        rw [hinputs, run_cons]
        refine ih _ hkeep h.2 t ?_
        rwa [componentStep_of_ne loopStep s hj]
  exact hsame (s job) ⟨rfl, rfl, rfl⟩

/-- Two ticks of the signal generation: the AI paper trading fails in the first; another job's tick
is cancelled between them. -/
def interleavedTicks : List (Job × LoopEvent) :=
  let at_ (n : ℤ) : Datetime := Timedelta.seconds n
  [(.signalGeneration, .wakes (at_ 0)), (.exitAlerts, .wakes (at_ 0)),
    (.signalGeneration,
      .tickEnds { now := at_ 5, paper := { startedAt := at_ 4, job := .raised } }),
    (.exitAlerts, .tickEnds { now := at_ 60, job := .cancelled }),
    (.signalGeneration, .wakes (at_ 905)), (.signalGeneration, .tickEnds { now := at_ 906 })]

theorem loops_are_independent_interleaved :
    run (componentStep loopStep) (startLoops 0) interleavedTicks .signalGeneration =
        run (loopStep .signalGeneration) (startLoops 0 .signalGeneration)
          (inputsOf .signalGeneration interleavedTicks) ∧
      SameLoop (run (componentStep loopStep) (startLoops 0) interleavedTicks .signalGeneration)
        (run (loopStep .signalGeneration) (startLoops 0 .signalGeneration)
          ((inputsOf .signalGeneration interleavedTicks).map LoopEvent.withoutPaper)) :=
  loops_are_independent (startLoops 0) interleavedTicks (fun _ => rfl) (by decide +kernel) _

/-! ## The heartbeat -/

/-- When the loop has to move at the latest: the watchdog, or the end of its sleep. -/
def LoopPhase.due : LoopPhase → Option Datetime
  | .ticking since => some (since + jobTickTimeout)
  | .sleeping wakesAt => some wakesAt
  | .ended => none

/-- No loop is more than `lag` behind at the time `now`. -/
def Prompt (lag : Timedelta) (s : Job → JobLoop) (now : Datetime) : Prop :=
  ∀ job d, (s job).phase.due = some d → now ≤ d + lag

instance (lag : Timedelta) (s : Job → JobLoop) (now : Datetime) : Decidable (Prompt lag s now) :=
  decidable_of_iff (∀ job ∈ Job.all, ∀ d ∈ (s job).phase.due, now ≤ d + lag)
    ⟨fun h job => h job job.mem_all, fun h job _ => h job⟩

/-- The client of the tick, if one ends, can be closed. -/
def LoopEvent.Closes : LoopEvent → Prop
  | .wakes _ => True
  | .tickEnds e => e.close ≠ .raised

instance : ∀ e : LoopEvent, Decidable e.Closes
  | .wakes _ => inferInstanceAs (Decidable True)
  | .tickEnds e => inferInstanceAs (Decidable (e.close ≠ .raised))

/-- The event comes in time, on a clock that is in range, and no client fails to close in it. -/
def Punctual (lag : Timedelta) (s : Job → JobLoop) (e : Job × LoopEvent) : Prop :=
  Prompt lag s e.2.now ∧ ClockInRange e.2.now ∧ e.2.Closes

instance (lag : Timedelta) (s : Job → JobLoop) (e : Job × LoopEvent) :
    Decidable (Punctual lag s e) := by
  unfold Punctual; infer_instance

/-- What is known of a loop: its heartbeat is that of the tick under way, or of the one before its
sleep; and it has ended only after 1029 failures in a row. -/
structure LoopKept (lag : Timedelta) (job : Job) (s : JobLoop) : Prop where
  config : s.breaker.config = {}
  ticking : ∀ since, s.phase = .ticking since → s.lastTickAt = some since
  sleeping : ∀ wakesAt, s.phase = .sleeping wakesAt → ∀ t, s.lastTickAt = some t →
    wakesAt ≤ t + jobTickTimeout + lag + job.interval
  ended : s.phase = .ended → 1029 ≤ s.breaker.consecutiveFailures

theorem LoopKept.start (lag : Timedelta) (job : Job) (now : Datetime) :
    LoopKept lag job (startLoops now job) where
  config := rfl
  ticking _ h := by cases h
  sleeping _ _ _ ht := by cases ht
  ended h := by cases h

theorem LoopKept.wakes {lag : Timedelta} (hlag : 0 ≤ lag) {job : Job} {s : JobLoop}
    (hs : LoopKept lag job s) (now : Datetime) :
    LoopKept lag job (loopStep job s (.wakes now)) := by
  unfold loopStep
  dsimp only
  split
  · refine ⟨(canAttempt_config _ _).1.trans hs.config, ?_, ?_, ?_⟩
    · intro since hphase
      split_ifs at hphase
      obtain rfl := LoopPhase.ticking.inj hphase
      rfl
    · intro wakesAt hphase t ht
      split_ifs at hphase
      obtain rfl := LoopPhase.sleeping.inj hphase
      obtain rfl := Option.some.inj ht
      have htimeout : (0 : ℤ) ≤ jobTickTimeout := by decide
      linarith
    · intro hphase
      split_ifs at hphase
  · exact hs

/-- A tick leaves the configuration of the breaker; and where its client closes, it raises only on
the 1029th failure in a row. -/
theorem recordTick_spec {job : Job} {e : TickEnd} {body : Awaited Unit} (hconfig : b.config = {})
    (hclock : ClockInRange e.now) (hclose : e.close ≠ .raised) :
    (recordTick job e body b).2.config = {} ∧ ((recordTick job e body b).1 = .raised →
      1029 ≤ (recordTick job e body b).2.consecutiveFailures) := by
  have hfinally : ∀ result : Awaited Unit,
      (if job.closes then result.finally_ e.close else result) = .raised → result = .raised := by
    intro result h
    split_ifs at h
    · cases hc : e.close with
      | returned u => rwa [hc] at h
      | raised => exact absurd hc hclose
      | cancelled =>
        rw [hc] at h
        cases h
    · exact h
  cases body with
  | returned u =>
    refine ⟨hconfig, fun h => ?_⟩
    have := hfinally _ h
    cases this
  | cancelled =>
    refine ⟨hconfig, fun h => ?_⟩
    have := hfinally _ h
    cases this
  | raised =>
    obtain ⟨hsame, hcount⟩ := recordedFailure_config e.now b
    refine ⟨hsame.trans hconfig, fun h => ?_⟩
    have hraised : (recordedFailure e.now b).1 = .raised := hfinally _ h
    change 1029 ≤ (recordedFailure e.now b).2.consecutiveFailures
    by_contra hlt
    rw [recordedFailure_returns hconfig hclock (by omega)] at hraised
    cases hraised

theorem LoopKept.tickEnds {lag : Timedelta} {job : Job} {s : JobLoop} (hs : LoopKept lag job s)
    {e : TickEnd} (hprompt : ∀ d, s.phase.due = some d → e.now ≤ d + lag)
    (hclock : ClockInRange e.now) (hclose : e.close ≠ .raised) :
    LoopKept lag job (loopStep job s (.tickEnds e)) := by
  cases hphase : s.phase with
  | ticking since =>
    have hrecord : ∀ body, (recordTick job e body s.breaker).2.config = {} ∧
        ((recordTick job e body s.breaker).1 = .raised →
          1029 ≤ (recordTick job e body s.breaker).2.consecutiveFailures) :=
      fun _ => recordTick_spec hs.config hclock hclose
    obtain ⟨hconfig, hended⟩ := hrecord (tickBody job e s.aiPaperTradingBreaker).1
    have hlast := hs.ticking since hphase
    have hend : e.now ≤ since + jobTickTimeout + lag := hprompt _ (by rw [hphase]; rfl)
    simp only [loopStep, hphase]
    refine ⟨hconfig, ?_, ?_, ?_⟩
    · intro since' h
      split_ifs at h
    · intro wakesAt h t ht
      split_ifs at h
      obtain rfl := LoopPhase.sleeping.inj h
      obtain rfl : since = t := Option.some.inj (hlast.symm.trans ht)
      linarith
    · intro h
      split_ifs at h with hraised
      exact hended hraised
  | sleeping wakesAt =>
    simp only [loopStep, hphase]
    exact hs
  | ended =>
    simp only [loopStep, hphase]
    exact hs

/-- What the heartbeat tells: it is younger than a tick under the watchdog, a sleep and the lag
before and after it, as long as the loop goes on; and it ends only after 1029 failures in a row. -/
structure HeartbeatTells (lag : Timedelta) (s : Job → JobLoop) : Prop where
  age : ∀ now, Prompt lag s now → ∀ job, (s job).phase ≠ .ended →
    ∀ seconds, ((getHeartbeat s now).1 job).secondsSinceLastTick = some seconds →
      seconds ≤ Timedelta.totalSeconds (jobTickTimeout + job.interval + 2 * lag)
  ended : ∀ now job, (s job).phase = .ended →
    1029 ≤ ((getHeartbeat s now).1 job).consecutiveFailures

theorem totalSeconds_mono {d d' : Timedelta} (h : d ≤ d') :
    Timedelta.totalSeconds d ≤ Timedelta.totalSeconds d' := by
  have hcast : ((d : ℤ) : ℚ) ≤ ((d' : ℤ) : ℚ) := by exact_mod_cast h
  unfold Timedelta.totalSeconds
  linarith

theorem HeartbeatTells.of_kept {lag : Timedelta} (hlag : 0 ≤ lag) {s : Job → JobLoop}
    (hs : ∀ job, LoopKept lag job (s job)) : HeartbeatTells lag s where
  age now hprompt job hgoes seconds hseconds := by
    simp only [getHeartbeat, heartbeatOf, Option.map_eq_some_iff] at hseconds
    obtain ⟨t, ht, rfl⟩ := hseconds
    refine totalSeconds_mono ?_
    have hinterval : (0 : ℤ) ≤ job.interval := by cases job <;> decide
    cases hphase : (s job).phase with
    | ticking since =>
      have hdue := hprompt job (since + jobTickTimeout) (by rw [hphase]; rfl)
      obtain rfl : since = t := Option.some.inj (((hs job).ticking since hphase).symm.trans ht)
      linarith
    | sleeping wakesAt =>
      have hdue := hprompt job wakesAt (by rw [hphase]; rfl)
      have hsleep := (hs job).sleeping wakesAt hphase t ht
      linarith
    | ended => exact absurd hphase hgoes
  ended _ job := (hs job).ended

/-- **The heartbeat tells whether a loop goes on**, in every run whose events come in time. -/
theorem heartbeat_tells {lag : Timedelta} (hlag : 0 ≤ lag) (start : Datetime)
    {events : List (Job × LoopEvent)}
    (h : Guarded (componentStep loopStep) (Punctual lag) (startLoops start) events) :
    Always (componentStep loopStep) (HeartbeatTells lag) (startLoops start) events := by
  have hkept : Always (componentStep loopStep) (fun s => ∀ job, LoopKept lag job (s job))
      (startLoops start) events := Always.of_components
    (fun s job e hs hC => by
      cases e with
      | wakes now => exact hs.wakes hlag now
      | tickEnds t => exact hs.tickEnds (hC.1 job) hC.2.1 hC.2.2)
    (fun job => LoopKept.start lag job start) h
  exact hkept.mono fun s hs => .of_kept hlag hs

/-- All loops wake at the start; the first to end its tick wakes again, a second late. -/
def punctualTicks : List (Job × LoopEvent) :=
  let at_ (n : ℤ) : Datetime := Timedelta.seconds n
  Job.all.map (fun job => (job, .wakes (at_ 0))) ++
    [(.accountSync, .tickEnds { now := at_ 2, job := .raised }), (.accountSync, .wakes (at_ 33))]

theorem heartbeat_tells_punctual :
    Always (componentStep loopStep) (HeartbeatTells (Timedelta.seconds 1)) (startLoops 0)
      punctualTicks :=
  heartbeat_tells (by decide) 0 (by decide +kernel)

end AlphaOne.Scheduler

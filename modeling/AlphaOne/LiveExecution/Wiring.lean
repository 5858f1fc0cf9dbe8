import AlphaOne.Foundations.Separator
import AlphaOne.LiveExecution.Idempotency
import AlphaOne.Scanner.MultiCoin
import AlphaOne.TelegramSignals.PaperExecution

/-!
# From a valid external signal to the live executor

`services/live_execution/wiring.py`: while automatic trading is enabled, a valid external signal is
made a candidate of the live executor, under the id of the signal.
-/

namespace AlphaOne.Live

open Foundations Scanner TelegramSignals

/-- The text of a direction. -/
def directionText : Side → String
  | .long => "LONG"
  | .short => "SHORT"

/-- The answers to the requests that are made before the executor is called. -/
structure LiveAnswers where
  accountHealthy : Bool
  ticker : TickerResponse
  tickerAt : Datetime
  instrumentMetadata : Option InstrumentMetadata
  /-- The rate of `get_futures_conversion_rate`. -/
  conversionRate : Option ℚ
  dailyLossApproved : Bool
  dailyLossReason : String
  reconciliationOk : Bool
  reconciliationReason : String
  /-- The clock when the gates are evaluated. -/
  now : Datetime
  deriving DecidableEq, Repr

/-- What a call of `maybe_attempt_live_execution` meets with: the answers, unless one of the
requests raises, and the number of statements of the executor that go through; all its statements
are ten. -/
structure LiveEnvironment where
  answers : Option LiveAnswers
  statements : ℕ := 10
  deriving DecidableEq, Repr

/-- The candidate of a signal. -/
def candidateOfSignal (signal : ExternalSignal) (plan : TradePlan)
    (availability : InstrumentAvailability) (answers : LiveAnswers) : LiveExecutionCandidate :=
  { source := "TELEGRAM_EXTERNAL"
    symbol := plan.symbol
    direction := directionText plan.direction
    entryPrice := plan.entryPrice
    stopLoss := some plan.stopLoss
    takeProfit1 := some plan.takeProfit1
    takeProfit2 := signal.takeProfit2
    takeProfit3 := signal.takeProfit3
    signalTimestamp := signal.createdAt
    signalId := some signal.id
    instrument := some availability.instrument
    instrumentEligible := plan.symbol ∈ defaultWhitelist ∧ plan.symbol ∈ researchedSymbols
    instrumentEligibilityReason :=
      if plan.symbol ∈ researchedSymbols then "OK"
      else plan.symbol ++
        " has no validated strategy/eligibility check beyond the scanner whitelist."
    currentMarketPrice := availability.lastPrice
    instrumentMetadata := answers.instrumentMetadata }

/-- What the gates are given. -/
def gateInputs (availability : InstrumentAvailability) (answers : LiveAnswers) : GateInputs :=
  { usdtInrRate := answers.conversionRate
    marketDataHealthy := availability.available && availability.isFresh
    coindcxAccountHealthy := answers.accountHealthy
    dailyLossOk := answers.dailyLossApproved
    dailyLossReason := answers.dailyLossReason
    reconciliationOk := answers.reconciliationOk
    reconciliationReason := answers.reconciliationReason
    now := answers.now }

/-- `process_live_execution_candidate`, as far as its first `statements` statements. -/
def processLiveExecutionCandidate (settings : Settings) (client : OrderClient)
    (candidate : LiveExecutionCandidate) (inputs : GateInputs) (statements : ℕ) (s : LiveStore) :
    LiveStore × ExecutionCall :=
  alone (ExecutionCall.move settings client) { candidate, inputs } s statements

/-- The call has returned. -/
def ExecutionCall.returned (call : ExecutionCall) : Bool :=
  match call.stage with
  | .ended _ => true
  | _ => false

/-- The candidate and the inputs of a signal, when the answers to the requests are there. -/
def liveCall (signal : ExternalSignal) (env : LiveEnvironment) :
    Option (LiveExecutionCandidate × GateInputs) := do
  let plan ← plan? signal
  let answers ← env.answers
  let results ← checkInstrumentAvailability [plan.symbol] answers.ticker answers.tickerAt
  let availability ← results.head?
  pure (candidateOfSignal signal plan availability answers, gateInputs availability answers)

/-- `maybe_attempt_live_execution`: whether it returns, and what it makes of the store. -/
def maybeAttemptLiveExecution (settings : Settings) (client : OrderClient)
    (signal : ExternalSignal) (env : LiveEnvironment) (s : LiveStore) : Bool × LiveStore :=
  if !settings.automaticTradingEnabled then (true, s)
  else
    match liveCall signal env with
    | none => (false, s)
    | some (candidate, inputs) =>
      let (s, call) :=
        processLiveExecutionCandidate settings client candidate inputs env.statements s
      (call.returned, s)

/-! ## The key of a signal -/

/-- The key under which the signal with a UUID is executed. -/
def signalKey (symbol id : String) : String :=
  computeIdempotencyKey "TELEGRAM_EXTERNAL" symbol (some id)

/-- Keys of symbols without a colon differ if the UUIDs do. -/
theorem id_eq_of_signalKey {symbol symbol' id id' : String} (hid : id ≠ "") (hid' : id' ≠ "")
    (hs : ':' ∉ symbol.toList) (hs' : ':' ∉ symbol'.toList)
    (h : signalKey symbol id = signalKey symbol' id') : id = id' := by
  have htext {symbol id : String} (hne : id ≠ "") :
      signalKey symbol id = "TELEGRAM_EXTERNAL" ++ ":" ++ (symbol ++ ":" ++ id) := by
    simp [signalKey, computeIdempotencyKey, Option.filter, hne, String.append_assoc]
  rw [htext hid, htext hid', join_eq_join_iff_of_notMem (by decide) (by decide),
    join_eq_join_iff_of_notMem hs hs'] at h
  exact h.2.2

/-- The executor takes a signal under its UUID. -/
theorem key_of_liveCall {signal : ExternalSignal} {env : LiveEnvironment}
    {candidate : LiveExecutionCandidate} {inputs : GateInputs}
    (h : liveCall signal env = some (candidate, inputs)) :
    ∃ symbol, signal.symbol = some symbol ∧ candidate.key = signalKey symbol signal.id := by
  simp only [liveCall, Option.bind_eq_bind, Option.bind_eq_some_iff, Option.pure_def,
    Option.some.injEq, Prod.mk.injEq] at h
  obtain ⟨plan, hplan, answers, -, results, -, availability, -, rfl, -⟩ := h
  refine ⟨plan.symbol, ?_, rfl⟩
  unfold plan? at hplan
  split at hplan
  · cases hplan
  · simp only [Option.bind_eq_bind, Option.bind_eq_some_iff, Option.pure_def,
      Option.some.injEq] at hplan
    obtain ⟨symbol, hsymbol, -, -, -, -, -, -, -, -, rfl⟩ := hplan
    exact hsymbol

/-! ## The rows a call inserts -/

section

variable (settings : Settings) (client : OrderClient)

/-- A call that has looked its key up and tried to insert it adds no row any more. -/
def ExecutionStage.Past : ExecutionStage → Prop
  | .start | .inserting => False
  | _ => True

theorem past_move {call : ExecutionCall} (h : call.stage.Past) (s : LiveStore) :
    (call.move settings client s).2.stage.Past ∧
      (call.move settings client s).1.footprint.rows = s.footprint.rows := by
  rw [move_footprint]
  unfold ExecutionCall.move
  cases hs : call.stage with
  | start | inserting =>
    rw [hs] at h
    cases h
  | evaluated e report =>
    refine ⟨?_, rfl⟩
    dsimp only
    split <;> trivial
  | attempted e =>
    refine ⟨?_, rfl⟩
    simp only [attemptOrder]
    split <;> trivial
  | _ => exact ⟨trivial, rfl⟩

theorem rows_alone_of_past {call : ExecutionCall} (h : call.stage.Past) (s : LiveStore) (n : ℕ) :
    (alone (ExecutionCall.move settings client) call s n).1.footprint.rows = s.footprint.rows := by
  induction n generalizing call s with
  | zero => rfl
  | succ n ih =>
    obtain ⟨hpast, hrows⟩ := past_move settings client h s
    rw [alone, ih hpast, hrows]

/-- **The row of a call**: with its second statement it inserts one, if there is none under its key.
-/
theorem rows_processLiveExecutionCandidate (candidate : LiveExecutionCandidate)
    (inputs : GateInputs) (n : ℕ) (s : LiveStore) :
    (processLiveExecutionCandidate settings client candidate inputs n s).1.footprint.rows =
      s.footprint.rows ++
        if 2 ≤ n ∧ getExistingExecution candidate.key s = none then [(s.nextId, candidate.key)]
        else [] := by
  unfold processLiveExecutionCandidate
  cases hlookup : getExistingExecution candidate.key s with
  | some e =>
    have hmove : ExecutionCall.move settings client { candidate, inputs } s =
        (s, { candidate, inputs, stage := .ended e }) := by
      simp [ExecutionCall.move, hlookup]
    cases n with
    | zero => simp [alone]
    | succ n =>
      rw [alone, hmove, rows_alone_of_past settings client (by trivial)]
      simp
  | none =>
    have hstart : ExecutionCall.move settings client { candidate, inputs } s =
        (s, { candidate, inputs, stage := .inserting }) := by
      simp [ExecutionCall.move, hlookup]
    have hinsert : ExecutionCall.move settings client
        { candidate, inputs, stage := .inserting } s =
        ({ s with nextId := s.nextId + 1
                  executions := s.executions ++ [receivedExecution candidate s.nextId] },
          { candidate, inputs, stage := .received (receivedExecution candidate s.nextId) }) := by
      simp [ExecutionCall.move, insertExecution_of_none hlookup]
    cases n with
    | zero => simp [alone]
    | succ n =>
      cases n with
      | zero => simp [alone, hstart]
      | succ n =>
        rw [alone, hstart, alone, hinsert, rows_alone_of_past settings client (by trivial)]
        simp [LiveStore.footprint, receivedExecution]

/-- A signal that is offered gets a row if automatic trading is enabled, the requests are answered,
and the executor comes to its second statement. -/
theorem rows_maybeAttemptLiveExecution {signal : ExternalSignal} {env : LiveEnvironment}
    {s : LiveStore} (hnew : ∀ candidate inputs, liveCall signal env = some (candidate, inputs) →
      getExistingExecution candidate.key s = none) :
    (maybeAttemptLiveExecution settings client signal env s).2.footprint.rows =
      s.footprint.rows ++
        if settings.automaticTradingEnabled = true ∧ 2 ≤ env.statements then
          (liveCall signal env).toList.map fun c => (s.nextId, c.1.key)
        else [] := by
  unfold maybeAttemptLiveExecution
  cases hauto : settings.automaticTradingEnabled with
  | false => simp
  | true =>
    cases hcall : liveCall signal env with
    | none => simp
    | some c =>
      obtain ⟨candidate, inputs⟩ := c
      have hrows := rows_processLiveExecutionCandidate settings client candidate inputs
        env.statements s
      simp only [hnew candidate inputs hcall, and_true] at hrows
      simpa using hrows

end

end AlphaOne.Live

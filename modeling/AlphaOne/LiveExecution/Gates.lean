import AlphaOne.LiveExecution.Sizing

/-!
# The gates of live execution

`services/live_execution/gates.py`: every candidate for a real order is put through eighteen gates,
all of which are evaluated and recorded, and is approved only if it passes them all. What the gates
read from the database is a `GateReads`, one field for each of its queries; what the caller has
found out before is a `GateInputs`.

Whether the order contract is verified is a constant of the source, `False`. It is a parameter here,
so that the other gates can be reasoned about; `orderContractVerified` is its value.
-/

namespace AlphaOne.Live

open Foundations Risk

/-- `MAX_ENTRY_DEVIATION_PCT`. -/
def maxEntryDeviationPct : ℚ := 3 / 2

/-- `ORDER_CONTRACT_VERIFIED`. -/
def orderContractVerified : Bool := false

/-- `MAX_SIGNAL_AGE_SECONDS`. -/
def maxSignalAgeSeconds : ℚ := 300

structure LiveExecutionCandidate where
  source : String
  symbol : String
  direction : String
  entryPrice : ℚ
  stopLoss : Option ℚ
  takeProfit1 : Option ℚ
  takeProfit2 : Option ℚ := none
  takeProfit3 : Option ℚ := none
  signalTimestamp : Option Datetime := none
  signalId : Option String := none
  instrument : Option String := none
  instrumentEligible : Bool := false
  instrumentEligibilityReason : String := "Not checked"
  currentMarketPrice : Option ℚ := none
  instrumentMetadata : Option InstrumentMetadata := none
  deriving DecidableEq, Repr

/-- The settings the gates read. -/
structure Settings where
  automaticTradingEnabled : Bool := false
  liveExecutionArmed : Bool := false
  maxOpenPositionsLive : ℤ := 1
  deriving DecidableEq, Repr

/-- What the caller of the gates has found out, and the clock. -/
structure GateInputs where
  usdtInrRate : Option ℚ
  marketDataHealthy : Bool
  coindcxAccountHealthy : Bool
  dailyLossOk : Bool
  dailyLossReason : String
  reconciliationOk : Bool
  reconciliationReason : String
  now : Datetime
  deriving DecidableEq, Repr

/-- What the gates read from the database. -/
structure GateReads where
  emergencyActive : Bool
  openPositions : ℕ
  conflicting : Bool
  budget : DailyTradeBudget
  riskCheck : Except FixedMarginRefusal FixedMarginSizing
  deriving DecidableEq

/-- The reason a gate gives, with the values it is formatted from. -/
inductive GateReason
  /-- `OK` -/
  | ok
  /-- A fixed text, or one the caller supplies. -/
  | text (reason : String)
  /-- `Signal is {age:.0f}s old (max {MAX_SIGNAL_AGE_SECONDS}s)` -/
  | signalAge (age : ℚ)
  /-- `{direction} SL/TP geometry invalid: SL={stop_loss} Entry={entry_price} TP1={take_profit_1}`
  -/
  | geometryInvalid (direction : Side) (stopLoss entryPrice takeProfit1 : ℚ)
  /-- `Unknown direction: {direction!r} (must be LONG or SHORT)` -/
  | unknownDirection (direction : String)
  /-- `{open_positions}/{max_open_positions_live} live positions already open` -/
  | positionsOpen (openPositions : ℕ) (maxOpenPositionsLive : ℤ)
  /-- `AlphaOne already has an open live position on {symbol} -- …` -/
  | conflictingPosition (symbol : String)
  /-- `Current price {price} deviates {deviation_pct:.2f}% from signal entry {entry_price} …` -/
  | entryDeviates (price deviationPct entryPrice : ℚ)
  | sizing (reason : SizingRefusal)
  | fixedMargin (reason : FixedMarginRefusal)
  /-- `{trades_today}/{DAILY_TRADE_MAX} daily entries already used` -/
  | dailyEntriesUsed (tradesToday : ℕ)
  deriving DecidableEq, Repr

structure GateResult where
  name : String
  passed : Bool
  reason : GateReason
  deriving DecidableEq, Repr

structure GateReport where
  results : List GateResult
  deriving DecidableEq, Repr

/-- `all(r.passed for r in results)`. -/
def GateReport.approved (r : GateReport) : Bool := r.results.all GateResult.passed

/-- The first gate that is not passed, with its reason. -/
def GateReport.firstFailure (r : GateReport) : Option GateResult :=
  r.results.find? fun g => !g.passed

def validateSlTpStructure (direction : String) (entryPrice : ℚ) (stopLoss takeProfit1 : Option ℚ) :
    Bool × GateReason :=
  match stopLoss with
  | none => (false, .text "No stop-loss provided -- a live position may never open without one.")
  | some sl =>
    match takeProfit1 with
    | none => (false, .text "No take-profit provided.")
    | some tp =>
      match Side.ofString? direction with
      | some .long =>
        if sl < entryPrice ∧ entryPrice < tp then (true, .ok)
        else (false, .geometryInvalid .long sl entryPrice tp)
      | some .short =>
        if sl > entryPrice ∧ entryPrice > tp then (true, .ok)
        else (false, .geometryInvalid .short sl entryPrice tp)
      | none => (false, .unknownDirection direction)

/-- `SIGNAL_FRESH`. -/
def signalFresh (now : Datetime) : Option Datetime → Bool × GateReason
  | none => (false, .text "No signal timestamp provided")
  | some timestamp =>
    let age := Timedelta.totalSeconds (now - timestamp)
    if 0 ≤ age ∧ age ≤ maxSignalAgeSeconds then (true, .ok) else (false, .signalAge age)

/-- `ENTRY_DEVIATION_OK`. -/
def entryDeviation (entryPrice : ℚ) : Option ℚ → Bool × GateReason
  | none => (false, .text "No current market price provided")
  | some price =>
    if 0 < price ∧ 0 < entryPrice then
      let deviationPct := |price - entryPrice| / entryPrice * 100
      if deviationPct ≤ maxEntryDeviationPct then (true, .ok)
      else (false, .entryDeviates price deviationPct entryPrice)
    else (false, .text "No current market price provided")

/-- The reason of a check that has none of its own. -/
def okOr (passed : Bool) (reason : GateReason) : GateReason := if passed then .ok else reason

/-- The reason of the gate `ORDER_CONTRACT_VERIFIED`. -/
def orderContractReason : String :=
  "CoinDCX's real futures order-creation request contract (parameters, quantity precision, " ++
  "leverage-setting mechanism, native SL/TP attachment) has not been verified against a live " ++
  "account -- see docs/coindcx_api_findings.md and reports/LIVE_EXECUTION_V1_REPORT.txt."

/-- `check_all_live_execution_gates`, on what its queries have returned. -/
def checkAllLiveExecutionGates (settings : Settings) (contractVerified : Bool)
    (candidate : LiveExecutionCandidate) (inputs : GateInputs) (reads : GateReads) : GateReport :=
  let fresh := signalFresh inputs.now candidate.signalTimestamp
  let sl := validateSlTpStructure candidate.direction candidate.entryPrice candidate.stopLoss
    candidate.takeProfit1
  let positionOk : Bool := reads.openPositions < settings.maxOpenPositionsLive
  let deviation := entryDeviation candidate.entryPrice candidate.currentMarketPrice
  let sizing := calculatePrecisionSizedQuantity (some candidate.entryPrice) inputs.usdtInrRate
    candidate.instrumentMetadata
  let dailyOk := reads.budget.canOpenNewEntry
  { results := [
      ⟨"AUTOMATIC_TRADING_ENABLED", settings.automaticTradingEnabled,
        .text "settings.automatic_trading_enabled"⟩,
      ⟨"LIVE_EXECUTION_ARMED", settings.liveExecutionArmed,
        .text "settings.live_execution_armed"⟩,
      ⟨"EMERGENCY_STOP_CLEAR", !reads.emergencyActive,
        okOr (!reads.emergencyActive) (.text "emergency stop is active -- no new entries")⟩,
      ⟨"MARKET_DATA_HEALTHY", inputs.marketDataHealthy,
        okOr inputs.marketDataHealthy (.text "CoinDCX live market data is not LIVE")⟩,
      ⟨"COINDCX_ACCOUNT_HEALTHY", inputs.coindcxAccountHealthy,
        okOr inputs.coindcxAccountHealthy (.text "CoinDCX account status is not OK")⟩,
      ⟨"INSTRUMENT_ELIGIBLE", candidate.instrumentEligible,
        .text candidate.instrumentEligibilityReason⟩,
      ⟨"SIGNAL_FRESH", fresh.1, fresh.2⟩,
      ⟨"VALID_SL", candidate.stopLoss.isSome && sl.1, sl.2⟩,
      ⟨"VALID_TP", candidate.takeProfit1.isSome && sl.1, sl.2⟩,
      ⟨"POSITION_LIMIT_OK", positionOk,
        okOr positionOk (.positionsOpen reads.openPositions settings.maxOpenPositionsLive)⟩,
      ⟨"NO_CONFLICTING_POSITION", !reads.conflicting,
        okOr (!reads.conflicting) (.conflictingPosition candidate.symbol)⟩,
      ⟨"ENTRY_DEVIATION_OK", deviation.1, deviation.2⟩,
      ⟨"QUANTITY_VALID", sizing.isOk,
        match sizing with | .ok _ => .ok | .error reason => .sizing reason⟩,
      ⟨"DAILY_LOSS_LIMIT_OK", inputs.dailyLossOk, .text inputs.dailyLossReason⟩,
      ⟨"RECONCILIATION_OK", inputs.reconciliationOk, .text inputs.reconciliationReason⟩,
      ⟨"RISK_ENGINE_APPROVED", reads.riskCheck.isOk,
        match reads.riskCheck with | .ok _ => .ok | .error reason => .fixedMargin reason⟩,
      ⟨"DAILY_LIMIT_NOT_EXCEEDED", dailyOk,
        okOr dailyOk (.dailyEntriesUsed reads.budget.tradesToday)⟩,
      ⟨"ORDER_CONTRACT_VERIFIED", contractVerified, .text orderContractReason⟩] }

/-! ## The report -/

/-- A report that is not approved names a gate that failed. -/
theorem firstFailure_isSome_iff (r : GateReport) :
    r.firstFailure.isSome = true ↔ r.approved = false := by
  simp [GateReport.firstFailure, GateReport.approved]

end AlphaOne.Live

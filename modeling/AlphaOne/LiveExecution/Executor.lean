import AlphaOne.Foundations.Table
import AlphaOne.LiveExecution.Gates

/-!
# The live executor

`services/live_execution/executor.py` with the idempotency key, the emergency stop and the order
client it uses. A candidate is looked up under its key, inserted, put through the gates, and
decided; every stage is committed to its row of `live_executions`.

The call is cut at its database statements, and an `ExecutionStage` holds its local variables
between two of them. The order client of the source refuses every order; it is a parameter, so that
the path behind it can be followed too.
-/

namespace AlphaOne.Live

open Foundations Risk

inductive LiveExecutionStatus
  | received
  | parsed
  | validated
  | riskApproved
  | executionAttempted
  | exchangeAccepted
  | filled
  | positionOpen
  | partialExit
  | closed
  | rejected
  deriving DecidableEq, Repr

/-- Why a candidate is rejected: `{name}: {reason}` of a gate, or the text of an exception. -/
inductive RejectionReason
  | gate (name : String) (reason : GateReason)
  | orderContractNotVerified (message : String)
  deriving DecidableEq, Repr

/-- A row of `live_executions`. -/
structure LiveExecution where
  id : ℕ
  idempotencyKey : String
  source : String
  signalId : Option String
  symbol : String
  instrument : Option String
  direction : String
  status : LiveExecutionStatus := .received
  rejectionReason : Option RejectionReason := none
  gateResults : Option (List GateResult) := none
  entryPrice : Option ℚ
  stopLoss : Option ℚ
  takeProfit1 : Option ℚ
  takeProfit2 : Option ℚ
  takeProfit3 : Option ℚ
  deriving DecidableEq, Repr

/-- `x or "unknown"`. -/
def orUnknown : Option String → String
  | none => "unknown"
  | some s => if s = "" then "unknown" else s

def computeIdempotencyKey (source symbol : String) (signalId : Option String)
    (strategyOrChannel : Option String := none) (candleTimestamp : Option String := none) :
    String :=
  match signalId.filter (· ≠ "") with
  | some id => source ++ ":" ++ symbol ++ ":" ++ id
  | none =>
    ":".intercalate [source, symbol, orUnknown strategyOrChannel, orUnknown candleTimestamp]

/-- The key under which a candidate is executed. -/
def LiveExecutionCandidate.key (c : LiveExecutionCandidate) : String :=
  computeIdempotencyKey c.source c.symbol c.signalId

/-- The arguments of `submit_futures_order`. -/
structure OrderRequest where
  instrument : String
  side : String
  quantity : ℚ
  leverage : ℤ
  stopLoss : Option ℚ
  takeProfit : Option ℚ
  clientOrderId : String
  deriving DecidableEq, Repr

/-- The order client: whether its contract is verified, and what it does with an order. It returns,
or raises `OrderContractNotVerifiedError`. -/
structure OrderClient where
  contractVerified : Bool
  submitFuturesOrder : OrderRequest → Except String Unit

/-- The message of `OrderContractNotVerifiedError`. -/
def orderContractMessage : String :=
  "CoinDCX's real futures order-creation contract has not been verified against a live account -- " ++
  "real order submission is permanently disabled in this codebase until that verification is done " ++
  "and this function is deliberately rewritten. See reports/LIVE_EXECUTION_V1_REPORT.txt."

/-- `services/live_execution/order_client.py`: the order is always refused. -/
def orderClient : OrderClient :=
  { contractVerified := orderContractVerified
    submitFuturesOrder := fun _ => .error orderContractMessage }

/-- The tables the executor works on, with what it has done so far besides: the keys whose gates
were evaluated and the orders that were attempted. -/
structure LiveStore where
  executions : List LiveExecution := []
  trades : List Trade := []
  /-- The field `active` of the row of `bot_state` under `emergency_stop_active`. -/
  emergencyStop : Option Bool := none
  /-- The next fresh UUID. -/
  nextId : ℕ := 0
  evaluated : List String := []
  attempted : List OrderRequest := []

/-- `get_existing_execution`. -/
def getExistingExecution (key : String) (s : LiveStore) : Option LiveExecution :=
  lookup LiveExecution.idempotencyKey key s.executions

/-- `is_emergency_stop_active`. -/
def isEmergencyStopActive (s : LiveStore) : Bool := s.emergencyStop.getD false

/-- `OPEN_LIVE_STATUSES`. -/
def openLiveStatuses : List LiveExecutionStatus := [.positionOpen, .partialExit]

def countOpenLivePositions (s : LiveStore) : ℕ :=
  s.executions.countP fun e => e.status ∈ openLiveStatuses

def hasConflictingOpenPosition (symbol : String) (s : LiveStore) : Bool :=
  0 < s.executions.countP fun e => e.status ∈ openLiveStatuses ∧ e.symbol = symbol

/-- The row a candidate is inserted with. -/
def receivedExecution (c : LiveExecutionCandidate) (id : ℕ) : LiveExecution :=
  { id
    idempotencyKey := c.key
    source := c.source
    signalId := c.signalId
    symbol := c.symbol
    instrument := c.instrument
    direction := c.direction
    entryPrice := some c.entryPrice
    stopLoss := c.stopLoss
    takeProfit1 := c.takeProfit1
    takeProfit2 := c.takeProfit2
    takeProfit3 := c.takeProfit3 }

/-- The flushed changes of a row. -/
def updateExecution (id : ℕ) (change : LiveExecution → LiveExecution) (s : LiveStore) : LiveStore :=
  { s with executions := s.executions.map fun e => if e.id = id then change e else e }

def LiveExecution.setStatus (status : LiveExecutionStatus) (e : LiveExecution) : LiveExecution :=
  { e with status }

/-- The changes that the report of the gates leads to. -/
def LiveExecution.decide (report : GateReport) (e : LiveExecution) : LiveExecution :=
  if report.approved then
    { e with gateResults := some report.results, status := .riskApproved }
  else
    { e with
      gateResults := some report.results
      status := .rejected
      rejectionReason := report.firstFailure.map fun g => .gate g.name g.reason }

/-- The changes of an order that is refused. -/
def LiveExecution.refuse (message : String) (e : LiveExecution) : LiveExecution :=
  { e with status := .rejected, rejectionReason := some (.orderContractNotVerified message) }

/-- The order of an approved candidate. -/
def orderOf (c : LiveExecutionCandidate) : OrderRequest :=
  { instrument :=
      match c.instrument.filter (· ≠ "") with
      | some instrument => instrument
      | none => c.symbol
    side := if c.direction = "LONG" then "buy" else "sell"
    quantity := 0
    leverage := 10
    stopLoss := c.stopLoss
    takeProfit := c.takeProfit1
    clientOrderId := c.key }

/-! ## The statements of a call -/

/-- How far a call has come. Between `received` and `attempted` it holds the row it has inserted. -/
inductive ExecutionStage
  /-- About to look the key up. -/
  | start
  /-- About to commit the new row. -/
  | inserting
  /-- The insert has met the unique index and is rolled back; about to look the key up again. -/
  | rolledBack (execution : LiveExecution)
  /-- About to commit `PARSED`. -/
  | received (execution : LiveExecution)
  /-- About to evaluate the gates; their first query is the emergency stop. -/
  | parsed (execution : LiveExecution)
  | countingOpen (execution : LiveExecution) (emergencyActive : Bool)
  | readingConflict (execution : LiveExecution) (emergencyActive : Bool) (openPositions : ℕ)
  | readingBudget (execution : LiveExecution) (emergencyActive : Bool) (openPositions : ℕ)
      (conflicting : Bool)
  /-- About to commit the decision. -/
  | evaluated (execution : LiveExecution) (report : GateReport)
  /-- About to commit `EXECUTION_ATTEMPTED`. -/
  | riskApproved (execution : LiveExecution)
  /-- About to submit the order, and to commit its refusal. -/
  | attempted (execution : LiveExecution)
  | ended (execution : LiveExecution)
  deriving DecidableEq, Repr

/-- A call of `process_live_execution_candidate`. -/
structure ExecutionCall where
  candidate : LiveExecutionCandidate
  inputs : GateInputs
  stage : ExecutionStage := .start
  deriving DecidableEq, Repr

/-- The commit of the new row, under the unique index on `idempotency_key`. -/
def insertExecution (c : LiveExecutionCandidate) (s : LiveStore) : LiveStore × ExecutionStage :=
  let execution := receivedExecution c s.nextId
  let s := { s with nextId := s.nextId + 1 }
  match getExistingExecution c.key s with
  | some _ => (s, .rolledBack execution)
  | none => ({ s with executions := s.executions ++ [execution] }, .received execution)

/-- The order is submitted; if it is refused, the refusal is committed. -/
def attemptOrder (client : OrderClient) (c : LiveExecutionCandidate) (execution : LiveExecution)
    (s : LiveStore) : LiveStore × ExecutionStage :=
  let s := { s with attempted := s.attempted ++ [orderOf c] }
  match client.submitFuturesOrder (orderOf c) with
  | .ok () => (s, .ended execution)
  | .error message =>
    (updateExecution execution.id (LiveExecution.refuse message) s,
      .ended (execution.refuse message))

/-- The next statement of a call. -/
def ExecutionCall.move (settings : Settings) (client : OrderClient) (call : ExecutionCall)
    (s : LiveStore) : LiveStore × ExecutionCall :=
  let c := call.candidate
  let (s, stage) : LiveStore × ExecutionStage :=
    match call.stage with
    | .start =>
      match getExistingExecution c.key s with
      | some existing => (s, .ended existing)
      | none => (s, .inserting)
    | .inserting => insertExecution c s
    | .rolledBack execution => (s, .ended ((getExistingExecution c.key s).getD execution))
    | .received e =>
      (updateExecution e.id (LiveExecution.setStatus .parsed) s, .parsed (e.setStatus .parsed))
    | .parsed e =>
      ({ s with evaluated := s.evaluated ++ [c.key] }, .countingOpen e (isEmergencyStopActive s))
    | .countingOpen e emergency => (s, .readingConflict e emergency (countOpenLivePositions s))
    | .readingConflict e emergency openPositions =>
      (s, .readingBudget e emergency openPositions (hasConflictingOpenPosition c.symbol s))
    | .readingBudget e emergencyActive openPositions conflicting =>
      let reads : GateReads :=
        { emergencyActive, openPositions, conflicting
          budget := getDailyTradeBudget s.trades call.inputs.now
          riskCheck := checkFixedMarginTrade s.trades (some c.entryPrice) call.inputs.usdtInrRate
            call.inputs.now }
      (s, .evaluated e
        (checkAllLiveExecutionGates settings client.contractVerified c call.inputs reads))
    | .evaluated e report =>
      let decided := e.decide report
      (updateExecution e.id (LiveExecution.decide report) s,
        if report.approved then .riskApproved decided else .ended decided)
    | .riskApproved e =>
      (updateExecution e.id (LiveExecution.setStatus .executionAttempted) s,
        .attempted (e.setStatus .executionAttempted))
    | .attempted e => attemptOrder client c e s
    | .ended e => (s, .ended e)
  (s, { call with stage })

/-- The calls of a list of candidates, none of them begun. -/
def executionCalls (candidates : List (LiveExecutionCandidate × GateInputs)) : List ExecutionCall :=
  candidates.map fun c => { candidate := c.1, inputs := c.2 }

end AlphaOne.Live

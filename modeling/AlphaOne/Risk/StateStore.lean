import AlphaOne.Risk.Engine
import AlphaOne.Schema.Models

/-!
# The stored risk engine

`services/risk_engine/state_store.py` keeps the engine of the risk dashboard in one row of
`bot_state`, as a whole: a request loads the row into an engine, applies its operation, and writes
the engine back. The two requests that do so are the exit of a manual trade
(`apps/api/routers/journal.py`) and the reset of the hard kill (`apps/api/routers/risk.py`).

The row is `none` until the first save. Times in its value are ISO strings in the source, which
parse back to what they were.
-/

namespace AlphaOne.Risk

/-- The value of the row under `risk_engine_state`. -/
structure RiskPayload where
  initialEquity : ℚ
  tradeDate : ℤ
  config : RiskConfig
  state : RiskState
  deriving DecidableEq, Repr

/-- `_serialize`. -/
def serialize (e : RiskEngine) : RiskPayload :=
  { initialEquity := e.initialEquity
    tradeDate := e.tradeDate
    config := e.config
    state := e.state }

/-- `_deserialize`. -/
def deserialize (payload : RiskPayload) : RiskEngine :=
  { config := payload.config
    state := payload.state
    initialEquity := payload.initialEquity
    tradeDate := payload.tradeDate }

/-- `load_risk_engine` on the row it finds, with its default arguments, on the day `today`. -/
def loadRiskEngine (today : ℤ) : Option RiskPayload → RiskEngine
  | none => RiskEngine.new {} 10000 today
  | some value => deserialize value

@[simp] theorem deserialize_serialize (e : RiskEngine) : deserialize (serialize e) = e := rfl

/-- What a request does to the engine it has loaded. -/
inductive RiskOp
  /-- `exit_manual_trade`, with the trade `record_exit` has returned and the clock. -/
  | exitManualTrade (trade : Trade) (utcnow : Datetime)
  | resetHardKill
  deriving DecidableEq, Repr

/-- A request, on the day `today`. -/
structure RiskRequest where
  op : RiskOp
  today : ℤ
  deriving DecidableEq, Repr

/-- The P&L of a trade in percent of the equity. -/
def equityRelativePnlPct (trade : Trade) (e : RiskEngine) : ℚ :=
  if e.state.currentEquity ≠ 0 then trade.pnl / e.state.currentEquity * 100 else 0

def RiskOp.apply : RiskOp → RiskEngine → RiskEngine
  | .exitManualTrade trade utcnow, e =>
    e.recordTradeResult (equityRelativePnlPct trade e) (trade.exitTime.getD utcnow)
  | .resetHardKill, e => e.resetHardKill

/-- An exit that leaves its trade open does not touch the engine. -/
def RiskOp.touchesEngine : RiskOp → Bool
  | .exitManualTrade trade _ => trade.status = .closed
  | .resetHardKill => true

/-- The row after a request that nobody interrupts. -/
def RiskRequest.perform (row : Option RiskPayload) (request : RiskRequest) : Option RiskPayload :=
  if request.op.touchesEngine then
    some (serialize (request.op.apply (loadRiskEngine request.today row)))
  else row

end AlphaOne.Risk

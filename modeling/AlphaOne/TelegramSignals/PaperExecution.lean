import AlphaOne.Paper.Persistence
import AlphaOne.Risk.FixedMargin

/-!
# Executing an external signal on paper

`services/telegram_signals/paper_execution.py`: the one bridge from a valid external signal to a
paper position. The position goes into the multi-coin book before its row is inserted.
-/

namespace AlphaOne.TelegramSignals

open Foundations Journal Risk Paper

/-- What a valid external signal asks for. -/
structure TradePlan where
  symbol : String
  direction : Side
  entryPrice : ℚ
  stopLoss : ℚ
  takeProfit1 : ℚ
  deriving DecidableEq, Repr

/-- The plan of a valid signal; any other signal has none. -/
def plan? (signal : ExternalSignal) : Option TradePlan :=
  if signal.status ≠ .valid then none
  else do
    let symbol ← signal.symbol
    let direction ← signal.direction
    let entryPrice ← signal.entryPrice
    let stopLoss ← signal.stopLoss
    let takeProfit1 ← signal.takeProfit1
    pure { symbol, direction, entryPrice, stopLoss, takeProfit1 }

/-- Every valid signal has a plan, so that the status alone decides whether there is one. -/
theorem plan?_eq_none_iff (signal : ExternalSignal) :
    plan? signal = none ↔ signal.status ≠ .valid := by
  unfold plan?
  by_cases h : signal.status = .valid
  · obtain ⟨hsymbol, hdirection, hentry, hstop, htarget⟩ := signal.complete h
    obtain ⟨symbol, hsymbol⟩ := Option.isSome_iff_exists.1 hsymbol
    obtain ⟨direction, hdirection⟩ := Option.isSome_iff_exists.1 hdirection
    obtain ⟨entry, hentry⟩ := Option.isSome_iff_exists.1 hentry
    obtain ⟨stop, hstop⟩ := Option.isSome_iff_exists.1 hstop
    obtain ⟨target, htarget⟩ := Option.isSome_iff_exists.1 htarget
    simp [h, hsymbol, hdirection, hentry, hstop, htarget]
  · simp [h]

/-- Why a signal is not executed. -/
inductive ExecutionRefusal
  /-- `Signal status is {status}, not VALID -- never executed.` -/
  | notValid (status : ExternalSignalStatus)
  /-- `An open TELEGRAM_EXTERNAL position already exists on {symbol} ({trade_id}).` -/
  | positionExists (symbol tradeId : String)
  | fixedMargin (reason : FixedMarginRefusal)
  deriving DecidableEq, Repr

/-- A call of `execute_valid_signal`, with what it reads from its environment and how its two
commits end: that of the new trade and that of the signal's trade id. -/
structure ExecuteCall where
  signal : ExternalSignal
  usdtInrRate : Option ℚ
  utcnow : Datetime
  commits : Bool := true
  commitsTradeId : Bool := true
  deriving DecidableEq, Repr

/-- How the call ends, and the state it leaves. -/
structure Executed where
  result : Except DatabaseError (Except ExecutionRefusal PaperPosition)
  tables : Tables
  multiCoinPaperTrader : PaperTrader
  signal : ExternalSignal

/-- The position of an approved plan. -/
def positionOf (call : ExecuteCall) (plan : TradePlan) (sizing : FixedMarginSizing) :
    PaperPosition :=
  { tradeId := "TG-" ++ call.signal.id
    signalId := call.signal.id
    side := plan.direction
    entryPrice := plan.entryPrice
    entryTime := call.signal.createdAt.getD call.utcnow
    stopLoss := plan.stopLoss
    takeProfit1 := some plan.takeProfit1
    takeProfit2 := call.signal.takeProfit2
    takeProfit3 := call.signal.takeProfit3
    quantity := sizing.quantity
    leverage := sizing.leverage
    marketRegime := some "UNKNOWN"
    strategyName := some ("TELEGRAM:" ++ call.signal.sourceChannel) }

/-- The position a call would open: the plan of its signal, when no gate refuses it. -/
def gates (call : ExecuteCall) (db : Tables) :
    Except ExecutionRefusal (TradePlan × PaperPosition) :=
  match plan? call.signal with
  | none => .error (.notValid call.signal.status)
  | some plan =>
    match getOpenPaperTrade plan.symbol (some .telegramExternal) db with
    | some existing => .error (.positionExists plan.symbol existing.tradeId)
    | none =>
      match checkFixedMarginTrade db.trades (some plan.entryPrice) call.usdtInrRate call.utcnow with
      | .error reason => .error (.fixedMargin reason)
      | .ok sizing => .ok (plan, positionOf call plan sizing)

/-- The multi-coin book with a position added. -/
def enter (position : PaperPosition) (trader : PaperTrader) : PaperTrader :=
  { trader with
    positions := upsert PaperPosition.tradeId position trader.positions
    riskEngine := trader.riskEngine.recordPositionOpen }

def executeValidSignal (call : ExecuteCall) (db : Tables) (trader : PaperTrader) : Executed :=
  match gates call db with
  | .error reason => ⟨.ok (.error reason), db, trader, call.signal⟩
  | .ok (plan, position) =>
    let trader := enter position trader
    match persistPaperOpen position plan.symbol .telegramExternal call.commits db with
    | (.error e, db) => ⟨.error e, db, trader, call.signal⟩
    | (.ok _, db) =>
      if call.commitsTradeId then
        ⟨.ok (.ok position), db, trader,
          { call.signal with tradeId := some position.tradeId }⟩
      else ⟨.error .operationalError, db, trader, call.signal⟩

/-! ## What a call does -/

variable {call : ExecuteCall} {db : Tables} {trader : PaperTrader} {plan : TradePlan}
  {position : PaperPosition}

/-- A call that passes the gates finds no open Telegram trade on its symbol and opens a position
named after its signal. -/
theorem gates_ok (h : gates call db = .ok (plan, position)) :
    plan? call.signal = some plan ∧
      getOpenPaperTrade plan.symbol (some .telegramExternal) db = none ∧
      ∃ sizing, position = positionOf call plan sizing := by
  unfold gates at h
  split at h
  · cases h
  · rename_i plan' hplan
    split at h
    · cases h
    · rename_i hopen
      split at h
      · cases h
      · rename_i sizing _
        simp only [Except.ok.injEq, Prod.mk.injEq] at h
        obtain ⟨rfl, rfl⟩ := h
        exact ⟨hplan, hopen, sizing, rfl⟩

theorem executeValidSignal_refused {reason : ExecutionRefusal}
    (h : gates call db = .error reason) :
    executeValidSignal call db trader = ⟨.ok (.error reason), db, trader, call.signal⟩ := by
  simp [executeValidSignal, h]

/-- A call that passes the gates adds its position to the book, recorded or not. -/
theorem executeValidSignal_entered (h : gates call db = .ok (plan, position)) :
    (executeValidSignal call db trader).multiCoinPaperTrader = enter position trader ∧
      (executeValidSignal call db trader).tables =
        (persistPaperOpen position plan.symbol .telegramExternal call.commits db).2 := by
  rcases persistPaperOpen_cases position plan.symbol .telegramExternal call.commits db with
    ⟨-, -, hp⟩ | ⟨-, e, hp⟩
  · simp only [executeValidSignal, h, hp]
    split <;> exact ⟨rfl, rfl⟩
  · simp [executeValidSignal, h, hp]

end AlphaOne.TelegramSignals

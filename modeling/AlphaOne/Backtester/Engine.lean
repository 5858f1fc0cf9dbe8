import AlphaOne.Foundations.Run
import AlphaOne.Risk.Engine
import AlphaOne.Schema.Models
import Mathlib.Data.List.Sort
import Mathlib.Data.Rat.Floor

/-!
# The backtester

`services/backtester/engine.py`: the bar-by-bar simulation of a strategy on one position at a
time. A decision taken on a bar's close is filled at the next bar's open, funding is charged,
the position is managed against the bar's range, and a new decision is asked for.

The strategy is any function of the bars it is shown. Where the source divides by an entry price of
zero it raises; the model goes on with the quotient `0`, so its runs include all of the program's. A
funding interval of zero, by which the source would divide too, is not a specification of an
exchange.
-/

namespace AlphaOne.Backtester

open Foundations Risk

theorem defaultFundingInterval_pos : (0 : ℤ) < 8 := by decide

/-- The parameters of `ExchangeSpec` the backtester and its sanity checks read. -/
structure ExchangeSpec where
  takerFee : ℚ := 4 / 10000
  fundingIntervalHours : ℤ := 8
  slippageBps : ℚ := 1
  maxLeverage : ℤ := 5
  fundingIntervalHours_pos : 0 < fundingIntervalHours := by exact defaultFundingInterval_pos
  deriving DecidableEq, Repr

def ExchangeSpec.slippageRate (spec : ExchangeSpec) : ℚ := spec.slippageBps / 10000

structure BacktestConfig where
  initialCapital : ℚ := 10000
  exchangeSpec : ExchangeSpec := {}
  fundingRateAvg : ℚ := 1 / 10000
  riskConfig : RiskConfig := {}
  deriving DecidableEq, Repr

namespace BacktestConfig

def feeRate (config : BacktestConfig) : ℚ := config.exchangeSpec.takerFee

def slippageRate (config : BacktestConfig) : ℚ := config.exchangeSpec.slippageRate

def fundingIntervalHours (config : BacktestConfig) : ℤ := config.exchangeSpec.fundingIntervalHours

end BacktestConfig

/-- A row of the candle frame. The columns beyond the prices are read by the strategy only. -/
structure Bar (γ : Type*) where
  timestamp : Datetime
  open_ : ℚ
  high : ℚ
  low : ℚ
  close : ℚ
  columns : γ
  deriving DecidableEq, Repr

/-- The keys of a strategy's decision, with the defaults `_open_trade` reads them with. -/
structure Signal where
  signalType : SignalType := .long
  stopLoss : Option ℚ := none
  takeProfit1 : Option ℚ := none
  leverage : ℤ := 1
  positionPct : Option ℚ := none
  marketRegime : String := "UNCERTAIN"
  deriving DecidableEq, Repr

structure FundingEvent where
  timestamp : Datetime
  rate : ℚ
  deriving DecidableEq, Repr

inductive ExitReason
  | stopLoss
  | takeProfit
  | endOfData
  deriving DecidableEq, Repr

structure BacktestTrade where
  /-- The number in `BTEST-{trade_id:06d}`. -/
  tradeId : ℕ
  side : SignalType
  entryPrice : ℚ
  entryTime : Datetime
  exitPrice : Option ℚ := none
  exitTime : Option Datetime := none
  stopLoss : Option ℚ := none
  takeProfit : Option ℚ := none
  quantity : ℚ := 0
  leverage : ℤ := 1
  pnl : ℚ := 0
  pnlPct : ℚ := 0
  fees : ℚ := 0
  funding : ℚ := 0
  rMultiple : ℚ := 0
  exitReason : Option ExitReason := none
  marketRegime : String := ""
  deriving DecidableEq, Repr

structure EquityPoint where
  timestamp : Datetime
  equity : ℚ
  price : ℚ
  deriving DecidableEq, Repr

/-- A level that `if level and …` tests: one that is given and not zero. -/
def level (price : Option ℚ) : Option ℚ := price.filter (· ≠ 0)

/-- `int(x)`: the integer part. -/
def int (x : ℚ) : ℤ := if 0 ≤ x then ⌊x⌋ else ⌈x⌉

section Trade

variable (config : BacktestConfig)

/-- `_open_trade`. -/
def openTrade (risk : RiskEngine) (signal : Signal) (price : ℚ) (timestamp : Datetime)
    (tradeId : ℕ) : BacktestTrade :=
  let leverage := min signal.leverage config.riskConfig.maxLeverage
  let entryPrice :=
    if signal.signalType = .long then price * (1 + config.slippageRate)
    else price * (1 - config.slippageRate)
  let quantity :=
    match signal.positionPct with
    | some positionPct =>
      let notional := risk.state.currentEquity * positionPct * leverage
      if entryPrice > 0 then notional / entryPrice else 0
    | none =>
      match level signal.stopLoss with
      | some stopLoss => risk.calculatePositionSize entryPrice stopLoss leverage
      | none => 0
  { tradeId
    side := signal.signalType
    entryPrice
    entryTime := timestamp
    stopLoss := signal.stopLoss
    takeProfit := signal.takeProfit1
    quantity
    leverage
    fees := entryPrice * quantity * config.feeRate
    marketRegime := signal.marketRegime }

/-- `_calculate_pnl`. -/
def calculatePnl (trade : BacktestTrade) : ℚ :=
  match trade.exitPrice with
  | none => 0
  | some exitPrice =>
    if trade.side = .long then
      (exitPrice - trade.entryPrice) * trade.quantity * trade.leverage
    else
      (trade.entryPrice - exitPrice) * trade.quantity * trade.leverage

/-- `_resolve_stop_fill`: a stop the open has gapped through is filled at the open. -/
def resolveStopFill (openPrice stopLoss : ℚ) (side : SignalType) : ℚ :=
  if side = .long then
    let reference := if openPrice ≤ stopLoss then openPrice else stopLoss
    reference * (1 - config.slippageRate)
  else
    let reference := if openPrice ≥ stopLoss then openPrice else stopLoss
    reference * (1 + config.slippageRate)

/-- `_estimate_flat_funding`. -/
def estimateFlatFunding (trade : BacktestTrade) : ℚ :=
  let fundingPeriods : ℤ :=
    match trade.exitTime with
    | none => 1
    | some exitTime =>
      let hours := Timedelta.totalSeconds (exitTime - trade.entryTime) / 3600
      max 1 (int (hours / config.fundingIntervalHours))
  trade.entryPrice * trade.quantity * config.fundingRateAvg * fundingPeriods

/-- The price and the reason of the exit, if the bar's range touches the stop or the target. The
stop is tested first. -/
def barExit (trade : BacktestTrade) (openPrice high low : ℚ) : Option (ℚ × ExitReason) :=
  if trade.side = .long then
    match (level trade.stopLoss).filter (low ≤ ·) with
    | some stopLoss => some (resolveStopFill config openPrice stopLoss .long, .stopLoss)
    | none =>
      match (level trade.takeProfit).filter (high ≥ ·) with
      | some takeProfit => some (takeProfit * (1 - config.slippageRate), .takeProfit)
      | none => none
  else
    match (level trade.stopLoss).filter (high ≥ ·) with
    | some stopLoss => some (resolveStopFill config openPrice stopLoss .short, .stopLoss)
    | none =>
      match (level trade.takeProfit).filter (low ≤ ·) with
      | some takeProfit => some (takeProfit * (1 + config.slippageRate), .takeProfit)
      | none => none

/-- The books of a trade whose exit price and time are set: the exit fee, the funding where no
real funding was charged, and the P&L net of both. -/
def settle (useRealFunding : Bool) (trade : BacktestTrade) : BacktestTrade :=
  let exitFee := trade.exitPrice.getD 0 * trade.quantity * config.feeRate
  let fees := trade.fees + exitFee
  let funding := if useRealFunding then trade.funding else estimateFlatFunding config trade
  let pnl := calculatePnl trade - (fees + funding)
  { trade with
    fees
    funding
    pnl
    pnlPct :=
      if trade.entryPrice * trade.quantity > 0 then
        pnl / (trade.entryPrice * trade.quantity) * 100
      else 0 }

/-- The R-multiple a trade that leaves on a bar is given. -/
def rMultiple (trade : BacktestTrade) : ℚ :=
  let risk :=
    match level trade.stopLoss with
    | some stopLoss => |trade.entryPrice - stopLoss|
    | none => 1
  if risk > 0 ∧ trade.quantity > 0 then trade.pnl / (risk * trade.quantity) else 0

/-- `_manage_position`: the trade, settled when the bar closes it. The equity gains the P&L of a
trade that was closed. -/
def managePosition (trade : BacktestTrade) (openPrice high low : ℚ) (timestamp : Datetime)
    (useRealFunding : Bool) : BacktestTrade :=
  match barExit config trade openPrice high low with
  | none => trade
  | some (exitPrice, reason) =>
    let closed := settle config useRealFunding
      { trade with
        exitPrice := some exitPrice
        exitTime := some timestamp
        exitReason := some reason }
    { closed with rMultiple := rMultiple closed }

/-- The cost of a funding event to a trade: longs pay a positive rate, shorts receive it. -/
def fundingCost (trade : BacktestTrade) (event : FundingEvent) (markPrice : ℚ) : ℚ :=
  let notional := trade.quantity * markPrice
  if trade.side = .long then notional * event.rate else -notional * event.rate

/-- `_apply_funding_events`: consume the events up to the bar's timestamp, charging the open trade
each one it was exposed to. -/
def applyFundingEvents (barTimestamp : Datetime) (markPrice : ℚ) :
    Option BacktestTrade → List FundingEvent → Option BacktestTrade × List FundingEvent
  | trade, [] => (trade, [])
  | trade, event :: events =>
    if event.timestamp ≤ barTimestamp then
      let charged := trade.map fun t =>
        if t.entryTime < event.timestamp then
          { t with funding := t.funding + fundingCost t event markPrice }
        else t
      applyFundingEvents barTimestamp markPrice charged events
    else (trade, event :: events)

end Trade

/-- The local variables of `run` and the risk engine. `fundingEvents` are the events from
`funding_idx` on. -/
structure State where
  trades : List BacktestTrade := []
  equityCurve : List EquityPoint := []
  equity : ℚ
  openTrade : Option BacktestTrade := none
  pendingSignal : Option Signal := none
  tradeCounter : ℕ := 0
  fundingEvents : List FundingEvent := []
  risk : RiskEngine
  deriving DecidableEq, Repr

/-- A run's inputs: the configuration, the day the risk engine was built on, the strategy and the
funding table. -/
structure Backtest (γ : Type*) where
  config : BacktestConfig := {}
  today : ℤ
  signalFunc : List (Bar γ) → Option Signal
  fundingRates : List FundingEvent := []

namespace Backtest

variable {γ : Type*} (b : Backtest γ)

/-- Funding is charged event by event when a table is given and not empty. -/
def useRealFunding : Bool := !b.fundingRates.isEmpty

/-- The state before the first bar. -/
def init : State :=
  { equity := b.config.initialCapital
    fundingEvents := b.fundingRates.insertionSort fun e f => e.timestamp ≤ f.timestamp
    risk := RiskEngine.new b.config.riskConfig b.config.initialCapital b.today }

/-- Step 1: fill the order decided on the previous bar at this bar's open. -/
def fillPending (bar : Bar γ) (s : State) : State :=
  match s.pendingSignal, s.openTrade with
  | some signal, none =>
    match s.risk.canTrade bar.timestamp with
    | (.ok (), risk) =>
      { s with
        tradeCounter := s.tradeCounter + 1
        openTrade := some (Backtester.openTrade b.config risk signal bar.open_ bar.timestamp
          (s.tradeCounter + 1))
        risk := risk.recordPositionOpen
        pendingSignal := none }
    | (.error _, risk) => { s with risk, pendingSignal := none }
  | _, _ => s

/-- Step 2: charge the funding events up to this bar. -/
def chargeFunding (bar : Bar γ) (s : State) : State :=
  if b.useRealFunding then
    let (openTrade, fundingEvents) :=
      applyFundingEvents bar.timestamp bar.open_ s.openTrade s.fundingEvents
    { s with openTrade, fundingEvents }
  else s

/-- The equity-relative percentage a closed trade is reported to the risk engine with. -/
def equityRelativePnlPct (pnl equityBefore : ℚ) : ℚ :=
  if equityBefore > 0 then pnl / equityBefore * 100 else 0

/-- Step 3: manage the open position against this bar's range. -/
def manage (bar : Bar γ) (s : State) : State :=
  match s.openTrade with
  | none => s
  | some trade =>
    let trade := managePosition b.config trade bar.open_ bar.high bar.low bar.timestamp
      b.useRealFunding
    if trade.exitPrice.isSome then
      { s with
        trades := s.trades ++ [trade]
        equity := s.equity + trade.pnl
        openTrade := none
        risk := s.risk.recordPositionClose.recordTradeResult
          (equityRelativePnlPct trade.pnl s.equity) bar.timestamp }
    else { s with openTrade := some trade }

/-- Step 4: ask for a decision on the bars through this bar's close. -/
def decide (seen : List (Bar γ)) (s : State) : State :=
  match b.signalFunc seen, s.openTrade with
  | some signal, none => { s with pendingSignal := some signal }
  | _, _ => s

def recordEquity (bar : Bar γ) (s : State) : State :=
  { s with equityCurve := s.equityCurve ++ [⟨bar.timestamp, s.equity, bar.close⟩] }

/-- The loop body: one bar, with the bars up to and including it. -/
def step (s : State) (input : Bar γ × List (Bar γ)) : State :=
  let (bar, seen) := input
  recordEquity bar (b.decide seen (b.manage bar (b.chargeFunding bar (b.fillPending bar s))))

/-- The bars `1 … len(df) - 1`, each with the prefix of the frame that ends in it. -/
def bars (df : List (Bar γ)) : List (Bar γ × List (Bar γ)) :=
  (df.zipIdx.map fun p => (p.1, df.take (p.2 + 1))).tail

/-- After the last bar: an open trade is closed at the last close. -/
def finish (df : List (Bar γ)) (s : State) : State :=
  match s.openTrade, df.getLast? with
  | some trade, some last =>
    let equityBefore := (s.equityCurve.getLast?.map EquityPoint.equity).getD b.config.initialCapital
    let closed := settle b.config b.useRealFunding
      { trade with
        exitPrice := some last.close
        exitTime := some last.timestamp
        exitReason := some .endOfData }
    { s with
      trades := s.trades ++ [closed]
      equity := s.equity + closed.pnl
      equityCurve := s.equityCurve ++ [⟨last.timestamp, s.equity + closed.pnl, last.close⟩]
      openTrade := none
      risk := (s.risk.recordTradeResult
        (equityRelativePnlPct closed.pnl equityBefore) last.timestamp).recordPositionClose }
  | _, _ => s

/-- `Backtester.run`, up to the statistics compiled from its trades and its equity curve. -/
def run (df : List (Bar γ)) : State :=
  b.finish df (Foundations.run b.step b.init (bars df))

end Backtest

end AlphaOne.Backtester

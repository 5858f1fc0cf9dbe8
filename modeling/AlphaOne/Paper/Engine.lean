import AlphaOne.Foundations.Rounding
import AlphaOne.Foundations.Table
import AlphaOne.Journal.Pnl
import AlphaOne.Risk.Engine

/-!
# The paper trader

`services/paper_trader/engine.py`: the in-memory book that opens a position for a signal, scales
it out at its targets and closes it at its stop. Logging is left out.

* `PaperPosition`: a position, with the slices its quantity is cut into when it is built.
* `PaperTrader.processCandle`: the stop and the remaining targets of every open position against
  the range of one candle.
* `PaperTrader.openPosition`: the checks a signal passes before a position is opened for it.

A method takes the time it reads as an argument and returns its result with the trader it leaves.
The dictionary of positions is the list of its values, in the order of insertion; its keys are
the trade ids of the values. A position object is shared with the dictionary, so that mutating it
is `put`.
-/

namespace AlphaOne.Paper

open Foundations Journal Risk

/-- `_SLICE_FRACTIONS`, by the number of targets, a number it does not list having one slice. -/
def sliceFractions : ℕ → List ℚ
  | 2 => [1 / 2, 1 / 2]
  | 3 => [2 / 5, 3 / 10, 3 / 10]
  | _ => [1]

structure PaperPosition where
  tradeId : String
  signalId : String
  side : Side
  entryPrice : ℚ
  entryTime : Datetime
  stopLoss : ℚ
  takeProfit1 : Option ℚ
  takeProfit2 : Option ℚ
  takeProfit3 : Option ℚ
  quantity : ℚ
  leverage : ℤ := 1
  marketRegime : Option String := some ""
  strategyName : Option String := some ""
  remainingQuantity : ℚ := quantity
  slices : List ℚ :=
    (sliceFractions [takeProfit1, takeProfit2, takeProfit3].reduceOption.length).map (quantity * ·)
  nextTargetIdx : ℕ := 0
  realizedPnl : ℚ := 0
  realizedFees : ℚ := 0
  deriving DecidableEq, Repr

namespace PaperPosition

def targets (pos : PaperPosition) : List ℚ :=
  [pos.takeProfit1, pos.takeProfit2, pos.takeProfit3].reduceOption

/-- The candle reaches the stop. -/
def StopHit (candle : Candle) (pos : PaperPosition) : Prop :=
  match pos.side with
  | .long => candle.low ≤ pos.stopLoss
  | .short => candle.high ≥ pos.stopLoss

/-- The candle reaches a target. -/
def TargetHit (candle : Candle) (target : ℚ) (pos : PaperPosition) : Prop :=
  match pos.side with
  | .long => candle.high ≥ target
  | .short => candle.low ≤ target

instance (candle : Candle) (pos : PaperPosition) : Decidable (pos.StopHit candle) := by
  unfold StopHit
  split <;> infer_instance

instance (candle : Candle) (target : ℚ) (pos : PaperPosition) :
    Decidable (pos.TargetHit candle target) := by
  unfold TargetHit
  split <;> infer_instance

end PaperPosition

inductive ExitReason
  | stopLoss
  | takeProfit
  deriving DecidableEq, Repr

/-- The text of a reason, as `exit_reason` stores it. -/
def ExitReason.text : ExitReason → String
  | .stopLoss => "stop_loss"
  | .takeProfit => "take_profit"

/-- The entries in which the two kinds of event differ, by `event_type`. -/
inductive EventDetail
  | partialExit (targetIndex : ℕ)
  | exit (entryPrice : ℚ) (entryTime : Datetime) (stopLoss : ℚ) (takeProfit : Option ℚ)
      (leverage : ℤ) (pnlPct rMultiple : ℚ) (exitReason : ExitReason)
      (marketRegime : Option String)
  deriving DecidableEq, Repr

/-- An event that `process_candle` returns. -/
structure PaperEvent where
  tradeId : String
  signalId : String
  side : Side
  exitPrice : ℚ
  exitTime : Datetime
  quantity : ℚ
  pnl : ℚ
  fees : ℚ
  equityAfter : ℚ
  detail : EventDetail
  deriving DecidableEq, Repr

structure PaperTrader where
  riskEngine : RiskEngine
  initialEquity : ℚ
  equity : ℚ
  positions : List PaperPosition := []
  closedTrades : List PaperEvent := []
  tradeCounter : ℕ := 0
  isPaused : Bool := false
  deriving DecidableEq, Repr

/-- `f"PAPER-{n:06d}"`. -/
def paperTradeId (n : ℕ) : String :=
  let digits := Nat.toDigits 10 n
  "PAPER-" ++ String.ofList (List.replicate (6 - digits.length) '0' ++ digits)

namespace PaperTrader

/-- `PaperTrader(risk_config, initial_equity)`, built on the day `today`. -/
def new (riskConfig : RiskConfig) (initialEquity : ℚ) (today : ℤ) : PaperTrader :=
  { riskEngine := RiskEngine.new riskConfig initialEquity today
    initialEquity
    equity := initialEquity }

/-- The effect on the book of mutating the position with the trade id of `pos`. -/
def put (pos : PaperPosition) (t : PaperTrader) : PaperTrader :=
  { t with positions := save PaperPosition.tradeId pos t.positions }

def partialExit (position : PaperPosition) (exitPrice : ℚ) (timestamp : Datetime)
    (targetIdx : ℕ) (t : PaperTrader) : PaperEvent × PaperPosition × PaperTrader :=
  let sliceQty := position.slices.getD targetIdx 0
  let slicePnl := computeSlicePnl position.side position.entryPrice exitPrice sliceQty
    position.leverage
  let position' : PaperPosition :=
    { position with
      remainingQuantity := position.remainingQuantity - sliceQty
      realizedPnl := position.realizedPnl + slicePnl.pnl
      realizedFees := position.realizedFees + slicePnl.fees }
  let t := { t.put position' with equity := t.equity + slicePnl.pnl }
  let result : PaperEvent :=
    { tradeId := position.tradeId
      signalId := position.signalId
      side := position.side
      exitPrice
      exitTime := timestamp
      quantity := sliceQty
      pnl := roundTo slicePnl.pnl 2
      fees := roundTo slicePnl.fees 2
      equityAfter := roundTo t.equity 2
      detail := .partialExit (targetIdx + 1) }
  (result, position', t)

def closeRemaining (position : PaperPosition) (exitPrice : ℚ) (timestamp : Datetime)
    (reason : ExitReason) (now : Datetime) (t : PaperTrader) : PaperEvent × PaperTrader :=
  let qty := position.remainingQuantity
  let slicePnl := computeSlicePnl position.side position.entryPrice exitPrice qty position.leverage
  let equity := t.equity + slicePnl.pnl
  -- the P&L and the fees of the whole trade, its earlier partial exits included
  let totalPnl := position.realizedPnl + slicePnl.pnl
  let totalFees := position.realizedFees + slicePnl.fees
  let originalNotional := position.entryPrice * position.quantity
  let totalPnlPct := if originalNotional > 0 then totalPnl / originalNotional * 100 else 0
  let rMultiple := computeRMultiple position.entryPrice position.stopLoss position.quantity totalPnl
  let result : PaperEvent :=
    { tradeId := position.tradeId
      signalId := position.signalId
      side := position.side
      exitPrice
      exitTime := timestamp
      quantity := qty
      pnl := roundTo totalPnl 2
      fees := roundTo totalFees 2
      equityAfter := roundTo equity 2
      detail := .exit position.entryPrice position.entryTime position.stopLoss
        position.takeProfit1 position.leverage (roundTo totalPnlPct 4) (roundTo rMultiple 2) reason
        position.marketRegime }
  (result,
    { t with
      riskEngine := (t.riskEngine.recordTradeResult totalPnlPct now).recordPositionClose
      equity
      positions := remove PaperPosition.tradeId position.tradeId t.positions
      closedTrades := t.closedTrades ++ [result] })

/-- The `while` loop over the targets that are left, `pos.nextTargetIdx` being the index of the
first of them. -/
def takeProfits (candle : Candle) (now : Datetime) :
    List ℚ → PaperPosition → PaperTrader → List PaperEvent × PaperTrader
  | [], _, t => ([], t)
  | target :: rest, pos, t =>
    if ¬pos.TargetHit candle target then ([], t)
    else if rest = [] then
      let (event, t) := t.closeRemaining pos target candle.timestamp .takeProfit now
      ([event], t)
    else
      let (event, pos, t) := t.partialExit pos target candle.timestamp pos.nextTargetIdx
      let pos := { pos with nextTargetIdx := pos.nextTargetIdx + 1 }
      let (events, t) := takeProfits candle now rest pos (t.put pos)
      (event :: events, t)

/-- The body of the loop of `process_candle`. -/
def processPosition (candle : Candle) (now : Datetime) (pos : PaperPosition) (t : PaperTrader) :
    List PaperEvent × PaperTrader :=
  if pos.StopHit candle then
    let (event, t) := t.closeRemaining pos pos.stopLoss candle.timestamp .stopLoss now
    ([event], t)
  else takeProfits candle now (pos.targets.drop pos.nextTargetIdx) pos t

/-- The loop of `process_candle` over the positions of the book. The risk engine reads the clock
when a trade is closed: `clock` is that reading, by trade id. -/
def processPositions (candle : Candle) (clock : String → Datetime) :
    List PaperPosition → PaperTrader → List PaperEvent × PaperTrader
  | [], t => ([], t)
  | pos :: rest, t =>
    let (events, t) := t.processPosition candle (clock pos.tradeId) pos
    let (more, t) := processPositions candle clock rest t
    (events ++ more, t)

def processCandle (candle : Candle) (clock : String → Datetime) (t : PaperTrader) :
    List PaperEvent × PaperTrader :=
  if t.isPaused then ([], t) else processPositions candle clock t.positions t

/-- The side a signal opens. The trader compares it with `LONG` only, and its caller passes it
signals of the types `LONG` and `SHORT` only. -/
def sideOf (signal : Signal) : Side :=
  match signal.signalType with
  | .long => .long
  | _ => .short

/-- The size of the position a signal is opened with, when it passes the checks of
`open_position` that come after those of the risk engine. -/
def entrySize (signal : Signal) (e : RiskEngine) : Option (ℚ × ℚ × ℤ × ℚ) :=
  match signal.entryPrice, signal.stopLoss, signal.takeProfit1 with
  | some entryPrice, some stopLoss, some _ =>
    let leverage := min 1 e.config.maxLeverage
    let quantity := e.calculatePositionSize entryPrice stopLoss leverage
    if quantity ≤ 0 then none else some (entryPrice, stopLoss, leverage, quantity)
  | _, _, _ => none

def openPosition (signal : Signal) (now : Datetime) (t : PaperTrader) :
    Option PaperPosition × PaperTrader :=
  if t.isPaused then (none, t)
  else
    let (answer, riskEngine) := t.riskEngine.canTrade now
    let t := { t with riskEngine }
    match answer with
    | .error _ => (none, t)
    | .ok () =>
      match entrySize signal t.riskEngine with
      | none => (none, t)
      | some (entryPrice, stopLoss, leverage, quantity) =>
        let tradeCounter := t.tradeCounter + 1
        let position : PaperPosition :=
          { tradeId := paperTradeId tradeCounter
            signalId := signal.signalId
            side := sideOf signal
            entryPrice
            entryTime := signal.timestamp
            stopLoss
            takeProfit1 := signal.takeProfit1
            takeProfit2 := signal.takeProfit2
            takeProfit3 := signal.takeProfit3
            quantity
            leverage
            marketRegime := signal.marketRegime
            strategyName := signal.strategyName }
        (some position,
          { t with
            tradeCounter
            positions := upsert PaperPosition.tradeId position t.positions
            riskEngine := t.riskEngine.recordPositionOpen })

def pause (t : PaperTrader) : PaperTrader := { t with isPaused := true }

def resume (t : PaperTrader) : PaperTrader := { t with isPaused := false }

/-! ## What opening a position does -/

variable {signal : Signal} {now : Datetime} {t : PaperTrader} {position : PaperPosition}

/-- A signal for which nothing is opened changes no more than the daily counters of the risk
engine. -/
theorem openPosition_none (h : (t.openPosition signal now).1 = none) :
    (t.openPosition signal now).2 = t ∨
      (t.openPosition signal now).2 = { t with riskEngine := (t.riskEngine.canTrade now).2 } := by
  revert h
  unfold openPosition
  split
  · exact fun _ => Or.inl rfl
  · dsimp only
    split
    · exact fun _ => Or.inr rfl
    · cases entrySize signal (t.riskEngine.canTrade now).2 with
      | none => exact fun _ => Or.inr rfl
      | some size => simp

/-- What the book and the new position are after a signal for which a position is opened. -/
structure Opened (signal : Signal) (t : PaperTrader) (position : PaperPosition)
    (t' : PaperTrader) : Prop where
  tradeId : position.tradeId = paperTradeId (t.tradeCounter + 1)
  entryTime : position.entryTime = signal.timestamp
  signalId : position.signalId = signal.signalId
  remainingQuantity : position.remainingQuantity = position.quantity
  quantity_pos : 0 < position.quantity
  tradeCounter : t'.tradeCounter = t.tradeCounter + 1
  positions : t'.positions = upsert PaperPosition.tradeId position t.positions
  isPaused : t'.isPaused = t.isPaused

theorem openPosition_some (h : (t.openPosition signal now).1 = some position) :
    Opened signal t position (t.openPosition signal now).2 := by
  revert h
  unfold openPosition
  split
  · simp
  · dsimp only
    split
    · simp
    · cases hsize : entrySize signal (t.riskEngine.canTrade now).2 with
      | none => simp
      | some size =>
        obtain ⟨entryPrice, stopLoss, leverage, quantity⟩ := size
        intro h
        obtain rfl := Option.some.inj h
        refine ⟨rfl, rfl, rfl, rfl, ?_, rfl, rfl, rfl⟩
        unfold entrySize at hsize
        split at hsize
        · dsimp only at hsize
          split at hsize
          · cases hsize
          · rename_i hq
            simp only [Option.some.injEq, Prod.mk.injEq] at hsize
            obtain ⟨-, -, -, rfl⟩ := hsize
            exact not_le.1 hq
        · cases hsize

end PaperTrader

/-! ## Trade ids -/

theorem toList_paperTradeId (n : ℕ) : (paperTradeId n).toList =
    "PAPER-".toList ++
      (List.replicate (6 - (Nat.toDigits 10 n).length) '0' ++ Nat.toDigits 10 n) := by
  simp [paperTradeId]

/-- The digits of a trade id spell the counter it was made from, so no two counters share one. -/
theorem paperTradeId_injective : Function.Injective paperTradeId := by
  intro m n h
  have hdigits : ∀ k, Nat.ofDigitChars 10 ((paperTradeId k).toList.drop 6) 0 = k := by
    intro k
    rw [toList_paperTradeId, List.drop_append_of_le_length (by simp)]
    simp [Nat.ofDigitChars_append, Nat.ofDigitChars_replicate_zero,
      Nat.ofDigitChars_toDigits]
  rw [← hdigits m, ← hdigits n, h]

end AlphaOne.Paper

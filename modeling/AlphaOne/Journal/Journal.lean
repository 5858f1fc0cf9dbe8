import AlphaOne.Foundations.Run
import AlphaOne.Foundations.Table
import AlphaOne.Journal.Pnl

/-!
# The trade journal

`services/trade_journal/journal.py`. A call takes the two journal tables and returns its result
together with the tables it leaves behind, also when it raises. What a call reads from its
environment is an argument: the UUID a new trade is named after, the time of a cancellation.
-/

namespace AlphaOne.Journal

open Foundations

/-- The tables the journal works on. -/
structure Tables where
  trades : List Trade := []
  executions : List TradeExecution := []
  deriving DecidableEq, Repr

/-- What `TradeJournalError` says, with the values its message is formatted from. -/
inductive TradeJournalError
  /-- `side must be LONG or SHORT, got {side!r}` -/
  | badSide (side : String)
  /-- `entry_price and quantity must be positive` -/
  | entryNotPositive
  /-- `no trade with trade_id={trade_id!r}` -/
  | noTrade (tradeId : String)
  /-- `trade {trade_id} is already {status}, cannot record another exit` -/
  | alreadyFinal (tradeId : String) (status : TradeStatus)
  /-- `exit_price and quantity must be positive` -/
  | exitNotPositive
  /-- `cannot exit {quantity} of trade {trade_id}, only {remaining} remains open` -/
  | exceedsRemaining (tradeId : String) (quantity remaining : ℚ)
  /-- `trade {trade_id} is {status}, only an OPEN trade with no exits can be cancelled` -/
  | notCancellable (tradeId : String) (status : TradeStatus)
  deriving DecidableEq, Repr

/-- How a call fails: by its own check, or by the unique index on `trades.trade_id`. -/
inductive Failure
  | tradeJournalError (e : TradeJournalError)
  | integrityError
  deriving DecidableEq, Repr

/-- The absolute tolerance of the remaining-quantity tests. -/
def tolerance : ℚ := 1 / 1000000000

/-- The row of a trade. -/
def Tables.trade? (db : Tables) (tradeId : String) : Option Trade :=
  lookup Trade.tradeId tradeId db.trades

/-- The exit executions of a trade. -/
def Tables.exits (db : Tables) (tradeId : String) : List TradeExecution :=
  db.executions.filter fun e => e.tradeId = tradeId ∧ e.isExit

/-- `_closed_quantity`. -/
def closedQuantity (db : Tables) (tradeId : String) : ℚ :=
  ((db.exits tradeId).map TradeExecution.quantity).sum

/-- `_new_trade_id`, on the ten hex digits of a fresh UUID. -/
def newTradeId (uuidHex : String) : String := "MANUAL-" ++ uuidHex

structure OpenTradeArgs where
  symbol : String
  side : String
  entryPrice : ℚ
  quantity : ℚ
  entryTime : Datetime
  stopLoss : Option ℚ := none
  takeProfit1 : Option ℚ := none
  takeProfit2 : Option ℚ := none
  takeProfit3 : Option ℚ := none
  leverage : ℤ := 1
  signalId : Option String := none
  accountId : Option ℕ := none
  matchedSignalConfidence : Option ℚ := none
  deriving DecidableEq, Repr

def openTrade (args : OpenTradeArgs) (uuidHex : String) (db : Tables) :
    Except Failure Trade × Tables :=
  match Side.ofString? args.side with
  | none => (.error (.tradeJournalError (.badSide args.side)), db)
  | some side =>
    if args.entryPrice ≤ 0 ∨ args.quantity ≤ 0 then
      (.error (.tradeJournalError .entryNotPositive), db)
    else
      let trade : Trade :=
        { tradeId := newTradeId uuidHex
          signalId := args.signalId
          symbol := args.symbol
          side
          status := .open_
          mode := .live
          entryPrice := args.entryPrice
          stopLoss := args.stopLoss
          takeProfit1 := args.takeProfit1
          takeProfit2 := args.takeProfit2
          takeProfit3 := args.takeProfit3
          quantity := args.quantity
          leverage := args.leverage
          entryTime := args.entryTime
          isManualEntry := true
          source := .manual
          matchedSignalConfidence := args.matchedSignalConfidence
          accountId := args.accountId }
      -- the flush meets the unique index on `trade_id` before the entry execution is added
      if (db.trade? trade.tradeId).isSome then (.error .integrityError, db)
      else
        let entry : TradeExecution :=
          { tradeId := trade.tradeId
            executionType := .entry
            price := args.entryPrice
            quantity := args.quantity
            timestamp := args.entryTime }
        (.ok trade, { trades := db.trades ++ [trade], executions := db.executions ++ [entry] })

structure RecordExitArgs where
  tradeId : String
  exitPrice : ℚ
  quantity : ℚ
  timestamp : Datetime
  reason : Option String := none
  note : Option String := none
  deriving DecidableEq, Repr

/-- `trade` after `quantity` more of it is closed, `alreadyClosed` having been closed before. -/
def withExit (trade : Trade) (args : RecordExitArgs) (alreadyClosed : ℚ)
    (isFullClose : Bool) : Trade :=
  let slicePnl :=
    computeSlicePnl trade.side trade.entryPrice args.exitPrice args.quantity trade.leverage
  let totalClosed := alreadyClosed + args.quantity
  let priorExitNotional := trade.exitPrice.getD 0 * alreadyClosed
  let pnl := trade.pnl + slicePnl.pnl
  let exited : Trade :=
    { trade with
      exitPrice := some ((priorExitNotional + args.exitPrice * args.quantity) / totalClosed)
      pnl
      fees := trade.fees + slicePnl.fees
      pnlPct :=
        if trade.entryPrice ≠ 0 ∧ trade.quantity ≠ 0 then
          pnl / (trade.entryPrice * trade.quantity) * 100
        else 0 }
  if isFullClose then
    { exited with
      status := .closed
      exitTime := some args.timestamp
      exitReason := args.reason
      rMultiple :=
        match trade.stopLoss with
        | none => 0
        | some stopLoss =>
          if stopLoss = 0 then 0
          else computeRMultiple trade.entryPrice stopLoss trade.quantity pnl }
  else { exited with status := .partiallyClosed }

/-- Record a full or partial exit. -/
def recordExit (args : RecordExitArgs) (db : Tables) : Except Failure Trade × Tables :=
  match db.trade? args.tradeId with
  | none => (.error (.tradeJournalError (.noTrade args.tradeId)), db)
  | some trade =>
    if trade.status = .closed ∨ trade.status = .cancelled then
      (.error (.tradeJournalError (.alreadyFinal args.tradeId trade.status)), db)
    else if args.exitPrice ≤ 0 ∨ args.quantity ≤ 0 then
      (.error (.tradeJournalError .exitNotPositive), db)
    else
      let alreadyClosed := closedQuantity db args.tradeId
      let remaining := trade.quantity - alreadyClosed
      if args.quantity > remaining + tolerance then
        (.error (.tradeJournalError (.exceedsRemaining args.tradeId args.quantity remaining)), db)
      else
        let isFullClose : Bool := args.quantity ≥ remaining - tolerance
        let execution : TradeExecution :=
          { tradeId := args.tradeId
            executionType := if isFullClose then .exit else .partialExit
            price := args.exitPrice
            quantity := args.quantity
            timestamp := args.timestamp
            note := args.note.map .text }
        let exited := withExit trade args alreadyClosed isFullClose
        (.ok exited,
          { trades := save Trade.tradeId exited db.trades
            executions := db.executions ++ [execution] })

/-- Cancel a trade that never had an exit. -/
def cancelTrade (tradeId : String) (reason : Option String) (utcnow : Datetime) (db : Tables) :
    Except Failure Trade × Tables :=
  match db.trade? tradeId with
  | none => (.error (.tradeJournalError (.noTrade tradeId)), db)
  | some trade =>
    if trade.status ≠ .open_ then
      (.error (.tradeJournalError (.notCancellable tradeId trade.status)), db)
    else
      let cancelled : Trade :=
        { trade with
          status := .cancelled
          -- `reason or "cancelled"`: an empty reason counts as none
          exitReason := some (match reason with
            | none => "cancelled"
            | some r => if r = "" then "cancelled" else r)
          exitTime := some utcnow }
      (.ok cancelled, { db with trades := save Trade.tradeId cancelled db.trades })

/-- `get_open_trades`, of every account when none is given. -/
def getOpenTrades (db : Tables) (accountId : Option ℕ) : List Trade :=
  db.trades.filter fun t => (t.status = .open_ ∨ t.status = .partiallyClosed) ∧
    (accountId = none ∨ t.accountId = accountId)

/-- `set_signal_match`: the signal a trade is linked to, as the user has confirmed it. -/
def setSignalMatch (tradeId signalId : String) (confidence : Option ℚ) (db : Tables) :
    Except Failure Trade × Tables :=
  match db.trade? tradeId with
  | none => (.error (.tradeJournalError (.noTrade tradeId)), db)
  | some trade =>
    let matched : Trade :=
      { trade with signalId := some signalId, matchedSignalConfidence := confidence }
    (.ok matched, { db with trades := save Trade.tradeId matched db.trades })

/-- A call on the journal. -/
inductive Call
  | openTrade (args : OpenTradeArgs) (uuidHex : String)
  | recordExit (args : RecordExitArgs)
  | cancelTrade (tradeId : String) (reason : Option String) (utcnow : Datetime)
  deriving DecidableEq, Repr

/-- What a call returns or raises, and the tables it leaves. -/
def Call.perform : Call → Tables → Except Failure Trade × Tables
  | .openTrade args uuidHex => Journal.openTrade args uuidHex
  | .recordExit args => Journal.recordExit args
  | .cancelTrade tradeId reason utcnow => Journal.cancelTrade tradeId reason utcnow

/-- The tables after one call, whether it returned or raised. -/
def step (db : Tables) (c : Call) : Tables := (c.perform db).2

/-! ## The exits of a trade when an execution is added -/

/-- The entry execution of a new trade is not an exit of any trade. -/
theorem exits_append_entry {db : Tables} {ts : List Trade} {e : TradeExecution}
    (he : e.executionType = .entry) (tradeId : String) :
    Tables.exits ⟨ts, db.executions ++ [e]⟩ tradeId = db.exits tradeId := by
  simp [Tables.exits, List.filter_append, TradeExecution.isExit, he]

theorem exits_append_exit (db : Tables) (ts : List Trade) {e : TradeExecution}
    (he : e.isExit = true) (tradeId : String) :
    Tables.exits ⟨ts, db.executions ++ [e]⟩ tradeId =
      db.exits tradeId ++ if e.tradeId = tradeId then [e] else [] := by
  by_cases h : e.tradeId = tradeId <;> simp [Tables.exits, List.filter_append, he, h]

end AlphaOne.Journal

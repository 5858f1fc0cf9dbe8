import AlphaOne.Journal.Lifecycle
import AlphaOne.Schema.IsoFormat
import Mathlib.Data.Char
import Mathlib.Data.List.Lex
import Mathlib.Data.List.Sort

/-!
# The portfolio reports

`services/portfolio/service.py`: three views of the trades that were closed, wholly or in part.
They read the same rows and never write.

* `getUserActualPerformance`: the totals over the trades of an account.
* `getEquityCurve`: the running total in the order of the exits.
* `getPnlBreakdown`: the totals by day, by week or by month of the exit.
-/

namespace AlphaOne.Portfolio

open Foundations Journal

/-- How a report fails. -/
inductive ReportError
  /-- `'NoneType' object has no attribute …` -/
  | attributeError
  /-- `unknown period {period!r}, expected daily/weekly/monthly` -/
  | valueError (period : String)
  deriving DecidableEq, Repr

/-- `period_key`. The time is that of a column, which may be null. -/
def periodKey (dt : Option Datetime) (period : String) : Except ReportError (List Char) :=
  match period, dt with
  | "daily", some dt => .ok (Date.isoformat dt.date)
  | "weekly", some dt =>
    let iso := CivilDay.isoCalendar (dt.date + epochOrdinal).toNat
    .ok (Nat.toDigits 10 iso.1 ++ '-' :: 'W' :: padded 2 iso.2.toNat)
  | "monthly", some dt => .ok ((Date.isoformat dt.date).take 7)
  | "daily", none | "weekly", none | "monthly", none => .error .attributeError
  | period, _ => .error (.valueError period)

/-- `_CLOSED_STATUSES`. -/
def closedStatuses : List TradeStatus := [.closed, .partiallyClosed]

structure UserPerformance where
  totalTrades : ℕ
  totalPnl : ℚ
  totalFees : ℚ
  totalFunding : ℚ
  winningTrades : ℕ
  losingTrades : ℕ
  winRate : Option ℚ
  averageR : Option ℚ
  profitFactor : Option ℚ
  deriving DecidableEq, Repr

/-- `get_user_actual_performance`, over every account when none is given. -/
def getUserActualPerformance (db : Tables) (accountId : Option ℕ) : UserPerformance :=
  let trades := db.trades.filter fun t =>
    t.status ∈ closedStatuses ∧ (accountId = none ∨ t.accountId = accountId)
  if trades.length = 0 then
    { totalTrades := 0, totalPnl := 0, totalFees := 0, totalFunding := 0
      winRate := none, winningTrades := 0, losingTrades := 0
      averageR := none, profitFactor := none }
  else
    let wins := trades.filter fun t => t.pnl > 0
    let losses := trades.filter fun t => t.pnl < 0
    let grossWin := (wins.map Trade.pnl).sum
    let grossLoss := |(losses.map Trade.pnl).sum|
    let rValues := (trades.map Trade.rMultiple).filter fun r => r ≠ 0
    { totalTrades := trades.length
      totalPnl := (trades.map Trade.pnl).sum
      totalFees := (trades.map Trade.fees).sum
      totalFunding := (trades.map Trade.funding).sum
      winningTrades := wins.length
      losingTrades := losses.length
      winRate := some (wins.length / trades.length)
      averageR := if rValues = [] then none else some (rValues.sum / rValues.length)
      profitFactor := if grossLoss > 0 then some (grossWin / grossLoss) else none }

/-- `ORDER BY exit_time`, which puts the trades without one last. -/
def ExitBefore (s t : Trade) : Prop :=
  match s.exitTime, t.exitTime with
  | some a, some b => a ≤ b
  | none, some _ => False
  | _, none => True

instance : DecidableRel ExitBefore := fun s t => by
  unfold ExitBefore
  split <;> infer_instance

/-- The closed trades of an account, in the order of their exits. -/
def closedTrades (db : Tables) (accountId : ℕ) : List Trade :=
  (db.trades.filter fun t =>
    t.accountId = some accountId ∧ t.status ∈ closedStatuses).insertionSort ExitBefore

structure EquityPoint where
  timestamp : Option Datetime
  equity : ℚ
  tradeId : String
  deriving DecidableEq, Repr

/-- The loop of `get_equity_curve`. -/
def equityLoop : ℚ → List Trade → List EquityPoint
  | _, [] => []
  | running, t :: trades =>
    { timestamp := t.exitTime, equity := running + t.pnl, tradeId := t.tradeId } ::
      equityLoop (running + t.pnl) trades

/-- `get_equity_curve`. -/
def getEquityCurve (db : Tables) (accountId : ℕ) (initialEquity : ℚ := 0) : List EquityPoint :=
  equityLoop initialEquity (closedTrades db accountId)

/-- An entry of the `buckets` of `get_pnl_breakdown`, with its key. -/
structure Bucket where
  period : List Char
  net : ℚ := 0
  fees : ℚ := 0
  funding : ℚ := 0
  trades : ℕ := 0
  deriving DecidableEq, Repr

/-- One turn of the loop over the trades; a missing key starts an empty bucket. -/
def addToBuckets (period : String) (buckets : List Bucket) (t : Trade) :
    Except ReportError (List Bucket) :=
  match periodKey t.exitTime period with
  | .error e => .error e
  | .ok key =>
    let b := (lookup Bucket.period key buckets).getD { period := key }
    .ok (upsert Bucket.period
      { period := key
        net := b.net + t.pnl
        fees := b.fees + t.fees
        funding := b.funding + t.funding
        trades := b.trades + 1 } buckets)

structure PnlPeriod where
  period : List Char
  gross : ℚ
  fees : ℚ
  funding : ℚ
  net : ℚ
  trades : ℕ
  deriving DecidableEq, Repr

def Bucket.toPeriod (b : Bucket) : PnlPeriod :=
  { period := b.period
    gross := b.net + b.fees + b.funding
    fees := b.fees
    funding := b.funding
    net := b.net
    trades := b.trades }

/-- `get_pnl_breakdown`. -/
def getPnlBreakdown (db : Tables) (accountId : ℕ) (period : String := "daily") :
    Except ReportError (List PnlPeriod) :=
  ((closedTrades db accountId).foldlM (addToBuckets period) []).map fun buckets =>
    (buckets.insertionSort fun a b => a.period ≤ b.period).map Bucket.toPeriod

end AlphaOne.Portfolio

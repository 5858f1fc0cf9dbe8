import AlphaOne.Foundations.Rounding
import AlphaOne.Schema.Models
import Mathlib.Algebra.Order.Group.Unbundled.Abs
import Mathlib.Data.List.Sort

/-!
# Model health

`services/model_monitor/monitor.py`: the status that gates new AI paper positions, from the
latest closed AI paper trades and the latest predictions. The figures of the report that no
status depends on are left out, as are its reasons.
-/

namespace AlphaOne.ModelMonitor

open Foundations

inductive ModelHealthStatus
  | healthy
  | warning
  | degraded
  | disabled
  deriving DecidableEq, Repr

def minTradesForEvaluation : ℕ := 15
def lookbackTrades : ℕ := 30
def disabledPfThreshold : ℚ := 2 / 5
def disabledDrawdownPct : ℚ := 25
def degradedPfThreshold : ℚ := 7 / 10
def degradedDrawdownPct : ℚ := 15
def warningPfThreshold : ℚ := 1
def warningDrawdownPct : ℚ := 10
def predictionClassImbalanceWarning : ℚ := 9 / 10
def drawdownReferenceEquity : ℚ := 10000

/-- A closed AI paper trade. -/
def IsClosedAiPaper (t : Trade) : Prop :=
  t.mode = .paper ∧ t.source = .aiPaper ∧ t.status = .closed

instance : DecidablePred IsClosedAiPaper := fun t => by
  unfold IsClosedAiPaper
  infer_instance

/-- The closed AI paper trades the evaluation looks at, latest exit first. -/
def recentTrades (trades : List Trade) : List Trade :=
  ((trades.filter IsClosedAiPaper).insertionSort
    fun a b => b.exitTime.getD 0 ≤ a.exitTime.getD 0).take lookbackTrades

/-- The gross profit over the gross loss, when there is a loss. -/
def profitFactor (trades : List Trade) : Option ℚ :=
  let grossProfit := ((trades.filter fun t => t.pnl > 0).map Trade.pnl).sum
  let grossLoss := |((trades.filter fun t => t.pnl ≤ 0).map Trade.pnl).sum|
  if grossLoss > 0 then some (grossProfit / grossLoss) else none

/-- The deepest drawdown of the equity curve that starts at the reference equity. -/
def maxDrawdown (trades : List Trade) : ℚ :=
  let curve := trades.insertionSort fun a b => a.exitTime.getD 0 ≤ b.exitTime.getD 0
  let (_, _, maxDd) := curve.foldl (fun (equity, peak, maxDd) t =>
      let equity := equity + t.pnl
      let peak := max peak equity
      (equity, peak, if peak > 0 then max maxDd ((peak - equity) / peak * 100) else maxDd))
    (drawdownReferenceEquity, drawdownReferenceEquity, (0 : ℚ))
  maxDd

/-- One class holds at least nine tenths of the latest predictions. -/
def isImbalanced (predictions : List SignalType) : Bool :=
  let recent := predictions.take lookbackTrades
  recent.length ≥ minTradesForEvaluation &&
    recent.any fun s =>
      roundTo (recent.count s / recent.length) 3 ≥ predictionClassImbalanceWarning

/-- `evaluate_model_health`, on the trades of the database and its predictions, latest first. -/
def evaluateModelHealth (trades : List Trade) (predictions : List SignalType) :
    ModelHealthStatus :=
  let trades := recentTrades trades
  let status : ModelHealthStatus :=
    if trades.length < minTradesForEvaluation then .healthy
    else
      let pf := profitFactor trades
      let maxDd := maxDrawdown trades
      if (∃ p ∈ pf, p < disabledPfThreshold) ∨ maxDd ≥ disabledDrawdownPct then .disabled
      else if (∃ p ∈ pf, p < degradedPfThreshold) ∨ maxDd ≥ degradedDrawdownPct then .degraded
      else if (∃ p ∈ pf, p < warningPfThreshold) ∨ maxDd ≥ warningDrawdownPct then .warning
      else .healthy
  if isImbalanced predictions ∧ status = .healthy then .warning else status

end AlphaOne.ModelMonitor

import AlphaOne.Schema.Models
import Mathlib.Algebra.Order.Ring.Rat
import Mathlib.Algebra.Order.Group.Unbundled.Abs
import Mathlib.Tactic.Ring

/-!
# Slice P&L

`services/trade_journal/pnl.py`: the P&L, the fee and the R-multiple shared by the paper trader
and the trade journal.
-/

namespace AlphaOne.Journal

/-- `DEFAULT_FEE_RATE`, the taker fee both sides of a slice are charged. -/
def defaultFeeRate : ℚ := 4 / 10000

structure SlicePnl where
  pnl : ℚ
  fees : ℚ
  pnlPct : ℚ
  deriving DecidableEq, Repr

/-- The P&L of closing `quantity`, fees deducted. -/
def computeSlicePnl (side : Side) (entryPrice exitPrice quantity : ℚ) (leverage : ℤ := 1)
    (feeRate : ℚ := defaultFeeRate) : SlicePnl :=
  let gross := match side with
    | .long => (exitPrice - entryPrice) * quantity * leverage
    | .short => (entryPrice - exitPrice) * quantity * leverage
  let fee := (entryPrice + exitPrice) * quantity * feeRate
  let pnl := gross - fee
  let notional := entryPrice * quantity
  { pnl
    fees := fee
    pnlPct := if notional > 0 then pnl / notional * 100 else 0 }

/-- The total P&L of a trade in units of its initial risk. -/
def computeRMultiple (entryPrice stopLoss quantity totalPnl : ℚ) : ℚ :=
  let risk := |entryPrice - stopLoss|
  if risk ≤ 0 ∨ quantity ≤ 0 then 0 else totalPnl / (risk * quantity)

/-- The P&L of a slice is its directed price move at the leverage, minus its fee. -/
theorem computeSlicePnl_pnl (side : Side) (entry exit qty : ℚ) (lev : ℤ) (rate : ℚ) :
    (computeSlicePnl side entry exit qty lev rate).pnl =
      side.sign * lev * (exit - entry) * qty - (computeSlicePnl side entry exit qty lev rate).fees := by
  cases side <;> simp only [computeSlicePnl, Side.sign] <;> ring

end AlphaOne.Journal

import AlphaOne.Backtester.Engine
import AlphaOne.Foundations.Rounding

/-!
# The results of a backtest

`_compile_results`: the statistics of a run, from its trades and its equity curve, with the amounts
rounded to cents. Whatever the trades are, the statistics agree with each other: the trades are
wins or losses (`totalTrades_eq_split`), the final capital is the initial one and the P&L to a cent
(`abs_finalCapital_sub_le`), and ratios and drawdowns are within their ranges.
-/

namespace AlphaOne.Backtester

open Foundations

/-- The statistics of a run, but for the Sharpe and Sortino ratios, which take square roots. A run
without trades has the defaults. -/
structure BacktestResult where
  trades : List BacktestTrade
  equityCurve : List EquityPoint
  totalPnl : ℚ := 0
  totalPnlPct : ℚ := 0
  totalTrades : ℕ := 0
  winningTrades : ℕ := 0
  losingTrades : ℕ := 0
  winRate : ℚ := 0
  profitFactor : ℚ := 0
  expectancy : ℚ := 0
  averageR : ℚ := 0
  maxDrawdown : ℚ := 0
  maxDrawdownPct : ℚ := 0
  recoveryFactor : ℚ := 0
  averageTradePnl : ℚ := 0
  averageWinningTrade : ℚ := 0
  averageLosingTrade : ℚ := 0
  largestWin : ℚ := 0
  largestLoss : ℚ := 0
  consecutiveWins : ℕ := 0
  consecutiveLosses : ℕ := 0
  totalFees : ℚ := 0
  totalFunding : ℚ := 0
  initialCapital : ℚ
  finalCapital : ℚ
  deriving DecidableEq, Repr

/-- The local variables of the loop over the equity curve. -/
structure Drawdown where
  peak : ℚ
  maxDd : ℚ := 0
  maxDdPct : ℚ := 0
  deriving DecidableEq, Repr

def Drawdown.step (d : Drawdown) (val : ℚ) : Drawdown :=
  let peak := if val > d.peak then val else d.peak
  let dd := peak - val
  let ddPct := if peak > 0 then dd / peak * 100 else 0
  { peak
    maxDd := if dd > d.maxDd then dd else d.maxDd
    maxDdPct := if ddPct > d.maxDdPct then ddPct else d.maxDdPct }

/-- The drawdown of a curve. A run with trades has a curve, and the source reads its first value. -/
def drawdownOf (equityValues : List ℚ) : Drawdown :=
  run Drawdown.step { peak := equityValues.headD 0 } equityValues

/-- The local variables of the loop over the P&L of the trades. -/
structure Streaks where
  maxConsecutiveWins : ℕ := 0
  maxConsecutiveLosses : ℕ := 0
  currentWins : ℕ := 0
  currentLosses : ℕ := 0
  deriving DecidableEq, Repr

def Streaks.step (s : Streaks) (p : ℚ) : Streaks :=
  if p > 0 then
    { s with
      currentWins := s.currentWins + 1
      currentLosses := 0
      maxConsecutiveWins := max s.maxConsecutiveWins (s.currentWins + 1) }
  else
    { s with
      currentLosses := s.currentLosses + 1
      currentWins := 0
      maxConsecutiveLosses := max s.maxConsecutiveLosses (s.currentLosses + 1) }

def winnersOf (pnls : List ℚ) : List ℚ := pnls.filter (· > 0)

def losersOf (pnls : List ℚ) : List ℚ := pnls.filter (· ≤ 0)

/-- The gross loss that the profit factor divides by, one where no trade lost. -/
def grossLossOf (losers : List ℚ) : ℚ := if losers.isEmpty then 1 else |losers.sum|

/-- `_compile_results`. -/
def compileResults (config : BacktestConfig) (trades : List BacktestTrade)
    (equityCurve : List EquityPoint) : BacktestResult :=
  if trades.isEmpty then
    { trades
      equityCurve
      initialCapital := config.initialCapital
      finalCapital := config.initialCapital }
  else
    let pnls := trades.map BacktestTrade.pnl
    let winners := winnersOf pnls
    let losers := losersOf pnls
    let totalPnl := pnls.sum
    let wins := winners.length
    let losses := losers.length
    let total := wins + losses
    let grossProfit := winners.sum
    let grossLoss := grossLossOf losers
    let drawdown := drawdownOf (equityCurve.map EquityPoint.equity)
    let streaks := run Streaks.step {} pnls
    { trades
      equityCurve
      totalPnl := roundTo totalPnl 2
      totalPnlPct := roundTo (totalPnl / config.initialCapital * 100) 2
      totalTrades := total
      winningTrades := wins
      losingTrades := losses
      winRate := if total > 0 then roundTo (wins / total * 100) 2 else 0
      profitFactor := if grossLoss > 0 then roundTo (grossProfit / grossLoss) 2 else 0
      expectancy := if total > 0 then roundTo (totalPnl / total) 2 else 0
      averageR := roundTo ((trades.map BacktestTrade.rMultiple).sum / trades.length) 2
      maxDrawdown := roundTo drawdown.maxDd 2
      maxDrawdownPct := roundTo drawdown.maxDdPct 2
      recoveryFactor := if drawdown.maxDd > 0 then roundTo (totalPnl / drawdown.maxDd) 2 else 0
      averageTradePnl := if total > 0 then roundTo (totalPnl / total) 2 else 0
      averageWinningTrade := if wins > 0 then roundTo (grossProfit / wins) 2 else 0
      averageLosingTrade := if losses > 0 then roundTo (-grossLoss / losses) 2 else 0
      largestWin := roundTo (pnls.max?.getD 0) 2
      largestLoss := roundTo (pnls.min?.getD 0) 2
      consecutiveWins := streaks.maxConsecutiveWins
      consecutiveLosses := streaks.maxConsecutiveLosses
      totalFees := roundTo (trades.map BacktestTrade.fees).sum 2
      totalFunding := roundTo (trades.map BacktestTrade.funding).sum 2
      initialCapital := config.initialCapital
      finalCapital := roundTo (config.initialCapital + totalPnl) 2 }

/-- `Backtester.run`, with the statistics it returns. -/
def Backtest.result {γ : Type*} (b : Backtest γ) (df : List (Bar γ)) : BacktestResult :=
  compileResults b.config (b.run df).trades (b.run df).equityCurve

/-! ## The two loops -/

/-- The drawdowns do not fall below what they start from. -/
theorem drawdownOf_nonneg (equityValues : List ℚ) :
    0 ≤ (drawdownOf equityValues).maxDd ∧ 0 ≤ (drawdownOf equityValues).maxDdPct := by
  have hstep (d : Drawdown) (val : ℚ) (h : 0 ≤ d.maxDd ∧ 0 ≤ d.maxDdPct) :
      0 ≤ (d.step val).maxDd ∧ 0 ≤ (d.step val).maxDdPct := by
    unfold Drawdown.step
    dsimp only
    refine ⟨?_, ?_⟩
    · rw [← max_def_lt]
      exact le_max_of_le_left h.1
    · rw [← max_def_lt]
      exact le_max_of_le_left h.2
  exact (Always.of_step hstep ⟨le_rfl, le_rfl⟩ equityValues).last

/-! ## The statistics -/

section Statistics

variable (config : BacktestConfig) (trades : List BacktestTrade) (equityCurve : List EquityPoint)

@[simp] theorem compileResults_trades :
    (compileResults config trades equityCurve).trades = trades := by
  unfold compileResults
  split <;> rfl

@[simp] theorem compileResults_equityCurve :
    (compileResults config trades equityCurve).equityCurve = equityCurve := by
  unfold compileResults
  split <;> rfl

@[simp] theorem compileResults_initialCapital :
    (compileResults config trades equityCurve).initialCapital = config.initialCapital := by
  unfold compileResults
  split <;> rfl

theorem profitFactor_nonneg : 0 ≤ (compileResults config trades equityCurve).profitFactor := by
  unfold compileResults
  split
  · exact le_rfl
  · dsimp only
    split
    · rename_i hloss
      have hprofit : 0 ≤ (winnersOf (trades.map BacktestTrade.pnl)).sum :=
        List.sum_nonneg fun p hp => (of_decide_eq_true (List.mem_filter.1 hp).2).le
      exact roundTo_nonneg (div_nonneg hprofit hloss.le) 2
    · exact le_rfl

theorem winRate_range : 0 ≤ (compileResults config trades equityCurve).winRate ∧
    (compileResults config trades equityCurve).winRate ≤ 100 := by
  unfold compileResults
  split
  · norm_num
  · dsimp only
    split
    · rename_i htotal
      generalize (winnersOf (trades.map BacktestTrade.pnl)).length = wins at htotal ⊢
      generalize (losersOf (trades.map BacktestTrade.pnl)).length = losses at htotal ⊢
      have hpos : (0 : ℚ) < (wins + losses : ℕ) := by exact_mod_cast htotal
      have hshare : (wins : ℚ) / (wins + losses : ℕ) ≤ 1 :=
        (div_le_one hpos).2 (by exact_mod_cast Nat.le_add_right wins losses)
      refine ⟨roundTo_nonneg (by positivity) 2, ?_⟩
      calc roundTo (wins / (wins + losses : ℕ) * 100) 2
          ≤ roundTo 100 2 := roundTo_mono (by linarith) 2
        _ = 100 := by decide +kernel
    · norm_num

theorem maxDrawdown_nonneg : 0 ≤ (compileResults config trades equityCurve).maxDrawdown ∧
    0 ≤ (compileResults config trades equityCurve).maxDrawdownPct := by
  unfold compileResults
  split
  · exact ⟨le_rfl, le_rfl⟩
  · obtain ⟨hdd, hpct⟩ := drawdownOf_nonneg (equityCurve.map EquityPoint.equity)
    exact ⟨roundTo_nonneg hdd 2, roundTo_nonneg hpct 2⟩

/-- **The final capital**: the two roundings are half a cent or less off each. -/
theorem abs_finalCapital_sub_le :
    |(compileResults config trades equityCurve).finalCapital -
      (config.initialCapital + (compileResults config trades equityCurve).totalPnl)| ≤ 1 / 100 := by
  unfold compileResults
  split
  · norm_num
  · dsimp only
    generalize (trades.map BacktestTrade.pnl).sum = totalPnl
    have hfinal := abs_le.1 (abs_roundTo_sub_le (config.initialCapital + totalPnl) 2)
    have htotal := abs_le.1 (abs_roundTo_sub_le totalPnl 2)
    norm_num at hfinal htotal
    rw [abs_le]
    constructor <;> linarith

theorem totalTrades_eq_split : (compileResults config trades equityCurve).totalTrades =
    (compileResults config trades equityCurve).winningTrades +
      (compileResults config trades equityCurve).losingTrades := by
  unfold compileResults
  split <;> rfl

/-- Every trade wins or loses. -/
theorem totalTrades_eq_length :
    (compileResults config trades equityCurve).totalTrades = trades.length := by
  unfold compileResults
  split
  · rename_i hnone
    rw [List.isEmpty_iff.1 hnone]
    rfl
  · have hsplit (pnls : List ℚ) : (winnersOf pnls).length + (losersOf pnls).length =
        pnls.length := by
      have hcount := List.length_eq_countP_add_countP (· > 0) (l := pnls)
      simp only [List.countP_eq_length_filter, gt_iff_lt, decide_eq_true_eq, not_lt] at hcount
      exact hcount.symm
    dsimp only
    rw [hsplit, List.length_map]

theorem totalFees_nonneg (h : ∀ t ∈ trades, 0 ≤ t.fees) :
    0 ≤ (compileResults config trades equityCurve).totalFees := by
  unfold compileResults
  split
  · exact le_rfl
  · exact roundTo_nonneg (List.sum_nonneg (by simpa using h)) 2

end Statistics

end AlphaOne.Backtester

import AlphaOne.Backtester.Accounting
import Mathlib.Tactic.FieldSimp

/-!
# How often leverage counts in a backtest

A leveraged order is sized with its leverage, and `calculate_position_size` caps its notional at the
equity times the leverage. The P&L of the trade is multiplied by the leverage once more, so that the
cap bounds the exposure only where the notional stays within the equity itself.
`gross_le_cap_iff` says exactly for which signals it does.
-/

namespace AlphaOne.Backtester

open Foundations Risk

/-! ## The gross P&L of a trade -/

/-- The gross P&L of a trade that leaves at a price. -/
def grossPnl (t : BacktestTrade) (exitPrice : ℚ) : ℚ :=
  calculatePnl { t with exitPrice := some exitPrice }

theorem abs_grossPnl (t : BacktestTrade) (exitPrice : ℚ) :
    |grossPnl t exitPrice| = |exitPrice - t.entryPrice| * |t.quantity| * |(t.leverage : ℚ)| := by
  unfold grossPnl calculatePnl
  dsimp only
  split
  · rw [abs_mul, abs_mul]
  · rw [abs_mul, abs_mul, abs_sub_comm]

/-- **What the bound on the exposure says**: the notional of the quantity is within the equity, or
the price has not moved. -/
theorem abs_grossPnl_le_iff {t : BacktestTrade} {exitPrice equity : ℚ} (hentry : 0 < t.entryPrice)
    (hleverage : 1 ≤ t.leverage) :
    |grossPnl t exitPrice| ≤
        equity * t.leverage * |exitPrice - t.entryPrice| / t.entryPrice ↔
      exitPrice = t.entryPrice ∨ |t.quantity * t.entryPrice| ≤ equity := by
  have hL : (0 : ℚ) < t.leverage := by exact_mod_cast hleverage
  rw [abs_grossPnl, abs_of_pos hL, le_div_iff₀ hentry, abs_mul, abs_of_pos hentry]
  by_cases hmove : exitPrice = t.entryPrice
  · simp [hmove]
  · have hmoved : 0 < |exitPrice - t.entryPrice| := abs_pos.2 (sub_ne_zero.2 hmove)
    have hfactor : 0 < |exitPrice - t.entryPrice| * t.leverage := mul_pos hmoved hL
    have hleft : |exitPrice - t.entryPrice| * |t.quantity| * t.leverage * t.entryPrice =
        |exitPrice - t.entryPrice| * t.leverage * (|t.quantity| * t.entryPrice) := by ring
    have hright : equity * t.leverage * |exitPrice - t.entryPrice| =
        |exitPrice - t.entryPrice| * t.leverage * equity := by ring
    rw [or_iff_right hmove, hleft, hright, mul_le_mul_iff_right₀ hfactor]

/-! ## The size of an order -/

/-- The part of the equity that the notional of an order is. -/
def notionalShare (config : RiskConfig) (signal : Signal) (entryPrice : ℚ) : ℚ :=
  match signal.positionPct with
  | some positionPct => positionPct * signal.leverage
  | none =>
    match level signal.stopLoss with
    | none => 0
    | some stopLoss =>
      if entryPrice = stopLoss then 0
      else
        min (config.riskPerTradePct / 100 * signal.leverage * entryPrice / |entryPrice - stopLoss|)
          signal.leverage

variable {config : BacktestConfig} {e : RiskEngine} {signal : Signal} {price : ℚ}
  {timestamp : Datetime} {id : ℕ}

theorem openTrade_leverage (hmax : signal.leverage ≤ config.riskConfig.maxLeverage) :
    (openTrade config e signal price timestamp id).leverage = signal.leverage :=
  min_eq_left hmax

/-- **The notional of an order**: its share of the equity. -/
theorem openTrade_notional (hconfig : e.config = config.riskConfig)
    (hmax : signal.leverage ≤ config.riskConfig.maxLeverage) (hequity : 0 ≤ e.state.currentEquity)
    (hentry : 0 < (openTrade config e signal price timestamp id).entryPrice) :
    (openTrade config e signal price timestamp id).quantity *
        (openTrade config e signal price timestamp id).entryPrice =
      e.state.currentEquity * notionalShare config.riskConfig signal
        (openTrade config e signal price timestamp id).entryPrice := by
  unfold openTrade at hentry ⊢
  dsimp only at hentry ⊢
  generalize (if signal.signalType = .long then price * (1 + config.slippageRate)
    else price * (1 - config.slippageRate)) = entryPrice at hentry ⊢
  unfold notionalShare
  rw [min_eq_left hmax]
  cases hpct : signal.positionPct with
  | some positionPct =>
    dsimp only
    rw [if_pos hentry, div_mul_cancel₀ _ hentry.ne', mul_assoc]
  | none =>
    dsimp only
    cases hlevel : level signal.stopLoss with
    | none => ring
    | some stopLoss =>
      unfold RiskEngine.calculatePositionSize
      dsimp only
      rw [hconfig, min_eq_left hmax]
      by_cases hstop : entryPrice = stopLoss
      · simp [hstop]
      · have hrisk : 0 < |entryPrice - stopLoss| := abs_pos.2 (sub_ne_zero.2 hstop)
        rw [if_neg hrisk.ne', if_neg hstop, min_mul_of_nonneg _ _ hentry.le,
          mul_min_of_nonneg _ _ hequity]
        congr 1
        · ring
        · rw [div_mul_cancel₀ _ hentry.ne']

/-- The signals whose notional stays within the equity: a fraction that is one at most after the
leverage; a stop so far that risking the percentage takes no more, the leverage included; or no
leverage. -/
def CountsLeverageOnce (config : RiskConfig) (signal : Signal) (entryPrice : ℚ) : Prop :=
  match signal.positionPct with
  | some positionPct => |positionPct| * signal.leverage ≤ 1
  | none =>
    match level signal.stopLoss with
    | none => True
    | some stopLoss =>
      entryPrice = stopLoss ∨
        |config.riskPerTradePct| / 100 * signal.leverage * entryPrice ≤ |entryPrice - stopLoss| ∨
        signal.leverage = 1 ∧ 0 ≤ config.riskPerTradePct

instance (config : RiskConfig) (signal : Signal) (entryPrice : ℚ) :
    Decidable (CountsLeverageOnce config signal entryPrice) := by
  unfold CountsLeverageOnce
  split
  · infer_instance
  · split <;> infer_instance

/-- A stop-sized notional is within the equity if the risk sizes it so, or if it is capped there. -/
theorem abs_min_le_one_iff {pct leverage entryPrice distance : ℚ} (hentry : 0 < entryPrice)
    (hdistance : 0 < distance) (hleverage : 1 ≤ leverage) :
    |min (pct / 100 * leverage * entryPrice / distance) leverage| ≤ 1 ↔
      |pct| / 100 * leverage * entryPrice ≤ distance ∨ leverage = 1 ∧ 0 ≤ pct := by
  have hL : 0 < leverage := by linarith
  have hsized : |pct| / 100 * leverage * entryPrice ≤ distance ↔
      |pct / 100 * leverage * entryPrice / distance| ≤ 1 := by
    rw [abs_div, abs_mul, abs_mul, abs_div, abs_of_pos hL, abs_of_pos hentry,
      abs_of_pos hdistance, div_le_one hdistance]
    norm_num
  rw [hsized]
  constructor
  · intro h
    rcases le_total (pct / 100 * leverage * entryPrice / distance) leverage with hle | hle
    · rw [min_eq_left hle] at h
      exact Or.inl h
    · rw [min_eq_right hle, abs_of_pos hL] at h
      have hpos : 0 < pct / 100 * leverage * entryPrice / distance := hL.trans_le hle
      have hfactor : pct / 100 * leverage * entryPrice / distance =
          pct * (leverage * entryPrice / (100 * distance)) := by ring
      rw [hfactor, mul_pos_iff_of_pos_right (by positivity)] at hpos
      exact Or.inr ⟨le_antisymm h hleverage, hpos.le⟩
  · rintro (h | ⟨rfl, hpct⟩)
    · rw [abs_le] at h ⊢
      exact ⟨le_min h.1 (by linarith), (min_le_left _ _).trans h.2⟩
    · have hnonneg : 0 ≤ pct / 100 * 1 * entryPrice / distance := by positivity
      rw [abs_of_nonneg (le_min hnonneg zero_le_one)]
      exact min_le_right _ _

theorem abs_notionalShare_le_one_iff {config : RiskConfig} {entryPrice : ℚ}
    (hentry : 0 < entryPrice) (hleverage : 1 ≤ signal.leverage) :
    |notionalShare config signal entryPrice| ≤ 1 ↔
      CountsLeverageOnce config signal entryPrice := by
  have hL : (1 : ℚ) ≤ signal.leverage := by exact_mod_cast hleverage
  have hL0 : (0 : ℚ) < signal.leverage := by linarith
  unfold notionalShare CountsLeverageOnce
  cases signal.positionPct with
  | some positionPct => simp only [abs_mul, abs_of_pos hL0]
  | none =>
    dsimp only
    cases level signal.stopLoss with
    | none => simp
    | some stopLoss =>
      dsimp only
      by_cases hstop : entryPrice = stopLoss
      · simp [hstop]
      · rw [if_neg hstop, or_iff_right hstop]
        exact_mod_cast abs_min_le_one_iff hentry (abs_pos.2 (sub_ne_zero.2 hstop)) hL

/-- **The cap bounds the exposure of a trade if and only if its leverage counts once**: for every
signal, entry and exit, the gross P&L is within the equity times the leverage times the relative
move of the price exactly if the price has not moved, there is no equity, or the equity is positive
and the signal is one whose notional stays within it. -/
theorem gross_le_cap_iff (config : BacktestConfig) (e : RiskEngine) (signal : Signal) (price : ℚ)
    (timestamp : Datetime) (id : ℕ) (exitPrice : ℚ) (hconfig : e.config = config.riskConfig)
    (hleverage : 1 ≤ signal.leverage) (hmax : signal.leverage ≤ config.riskConfig.maxLeverage)
    (hentry : 0 < (openTrade config e signal price timestamp id).entryPrice) :
    let t := openTrade config e signal price timestamp id
    |grossPnl t exitPrice| ≤
        e.state.currentEquity * signal.leverage * |exitPrice - t.entryPrice| / t.entryPrice ↔
      exitPrice = t.entryPrice ∨ e.state.currentEquity = 0 ∨
        0 < e.state.currentEquity ∧
          CountsLeverageOnce config.riskConfig signal t.entryPrice := by
  intro t
  have hL : t.leverage = signal.leverage := openTrade_leverage hmax
  have hbound : |grossPnl t exitPrice| ≤
        e.state.currentEquity * t.leverage * |exitPrice - t.entryPrice| / t.entryPrice ↔
      exitPrice = t.entryPrice ∨ |t.quantity * t.entryPrice| ≤ e.state.currentEquity :=
    abs_grossPnl_le_iff hentry (hL ▸ hleverage)
  rw [hL] at hbound
  rw [hbound]
  refine or_congr_right ?_
  rcases lt_trichotomy e.state.currentEquity 0 with hneg | hzero | hpos
  · have hnot : ¬|t.quantity * t.entryPrice| ≤ e.state.currentEquity :=
      not_le.2 (hneg.trans_le (abs_nonneg _))
    exact iff_of_false hnot fun h => h.elim hneg.ne fun h => absurd h.1 hneg.not_gt
  · have hnotional := openTrade_notional hconfig hmax hzero.ge hentry
    rw [hnotional, hzero]
    simp
  · have hnotional := openTrade_notional hconfig hmax hpos.le hentry
    rw [hnotional, abs_mul, abs_of_pos hpos, mul_le_iff_le_one_right hpos,
      abs_notionalShare_le_one_iff hentry hleverage, or_iff_right hpos.ne', and_iff_right hpos]

section Example

/-- An order for all of the equity. -/
def fullSignal (leverage : ℤ) : Signal := { positionPct := some 1, leverage }

/-- Without leverage the exposure is within the equity. -/
theorem gross_le_cap_unleveraged :
    let t := openTrade {} (.new {} 10000 0) (fullSignal 1) 100 0 1
    |grossPnl t 110| ≤ 10000 * (1 : ℤ) * |110 - t.entryPrice| / t.entryPrice :=
  (gross_le_cap_iff {} (.new {} 10000 0) (fullSignal 1) 100 0 1 110 rfl (by decide) (by decide)
    (by decide +kernel)).mpr (by decide +kernel)

/-- At twofold leverage it is four times the equity, twice the cap. -/
theorem gross_exceeds_cap :
    let t := openTrade {} (.new {} 10000 0) (fullSignal 2) 100 0 1
    |grossPnl t 110| = 2 * (10000 * (2 : ℤ) * |110 - t.entryPrice| / t.entryPrice) ∧
      ¬|grossPnl t 110| ≤ 10000 * (2 : ℤ) * |110 - t.entryPrice| / t.entryPrice := by
  decide +kernel

end Example

end AlphaOne.Backtester

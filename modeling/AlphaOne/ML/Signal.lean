import AlphaOne.ML.Labeling

/-!
# Signals of a trained model

`ml/signal.py`: the strategy that trades the predictions of a calibrated model in a backtest. It
trades the side the model prefers, if its probability and its expected value are high enough, with a
stop and a target at the ATR multiples the labels were computed with, from the close of the bar.
-/

namespace AlphaOne.ML

open Backtester

structure MLSignalConfig where
  probabilityThreshold : ℚ := 45 / 100
  minExpectedValueR : ℚ := 15 / 100
  costHaircutR : ℚ := 5 / 100
  leverage : ℤ := 1
  deriving DecidableEq, Repr

/-- `expected_value_r`. -/
def expectedValueR (pFavorable rewardR riskR costHaircutR : ℚ) : ℚ :=
  pFavorable * rewardR - (1 - pFavorable) * riskR - costHaircutR

/-- A row of `predict_proba`. -/
structure Proba where
  short : ℚ
  noTrade : ℚ
  long : ℚ
  deriving DecidableEq, Repr

/-- The arguments of `make_ml_signal_func`. The model and the scaler are fitted objects of a
library, here any functions of a row. -/
structure MLModel where
  predictProba : List ℚ → Proba
  featureCols : List String
  barrierConfig : TripleBarrierConfig := {}
  signalConfig : MLSignalConfig := {}
  scaler : Option (List ℚ → List ℚ) := none

/-- The dictionary that the strategy answers. -/
structure MLSignal where
  signalType : SignalType
  stopLoss : ℚ
  takeProfit1 : ℚ
  takeProfit2 : ℚ
  takeProfit3 : ℚ
  leverage : ℤ
  longProbability : ℚ
  shortProbability : ℚ
  noTradeProbability : ℚ
  deriving DecidableEq, Repr

/-- What the backtester reads of the answer. -/
def MLSignal.toSignal (s : MLSignal) : Backtester.Signal where
  signalType := s.signalType
  stopLoss := some s.stopLoss
  takeProfit1 := some s.takeProfit1
  leverage := s.leverage

namespace MLModel

variable (m : MLModel)

def rewardR : ℚ := m.barrierConfig.tpAtrMultiple / m.barrierConfig.slAtrMultiple

/-- Whether a side's expected value is high enough. -/
def WorthTrading (p : ℚ) : Prop :=
  m.signalConfig.minExpectedValueR ≤ expectedValueR p m.rewardR 1 m.signalConfig.costHaircutR

instance (p : ℚ) : Decidable (m.WorthTrading p) := inferInstanceAs (Decidable (_ ≤ _))

/-- `best_side`. -/
def bestSide (proba : Proba) : Option SignalType :=
  if proba.long ≥ m.signalConfig.probabilityThreshold ∧ proba.long > proba.short then
    if m.WorthTrading proba.long then some .long else none
  else if proba.short ≥ m.signalConfig.probabilityThreshold ∧ proba.short > proba.long then
    if m.WorthTrading proba.short then some .short else none
  else none

/-- The signal of a side, from the close and the ATR of the bar. The second and the third target are
for the paper trader. -/
def signalAt (proba : Proba) (entryPrice a : ℚ) (side : SignalType) : MLSignal :=
  let barrier := m.barrierConfig
  let sign : ℚ := if side = .long then 1 else -1
  { signalType := side
    stopLoss :=
      if side = .long then entryPrice - barrier.slAtrMultiple * a
      else entryPrice + barrier.slAtrMultiple * a
    takeProfit1 := entryPrice + sign * barrier.tpAtrMultiple * a
    takeProfit2 := entryPrice + sign * barrier.tpAtrMultiple * (3 / 2) * a
    takeProfit3 := entryPrice + sign * barrier.tpAtrMultiple * 2 * a
    leverage := m.signalConfig.leverage
    longProbability := proba.long
    shortProbability := proba.short
    noTradeProbability := proba.noTrade }

/-- `_signal`, the function that `make_ml_signal_func` returns. -/
def signal (d : List (Bar Columns)) : Option MLSignal :=
  if d.length < 2 then none
  else do
    let row ← d.getLast?
    let features ← m.featureCols.mapM row.columns
    let a ← row.columns m.barrierConfig.atrCol
    if a ≤ 0 then none
    else
      let proba := m.predictProba ((m.scaler.getD id) features)
      (m.bestSide proba).map (m.signalAt proba row.close a)

/-- The backtest of the strategy. -/
def backtest (config : BacktestConfig) (today : ℤ) (fundingRates : List FundingEvent) :
    Backtest Columns where
  config
  today
  signalFunc d := (m.signal d).map MLSignal.toSignal
  fundingRates

variable {m}

/-- **What a signal says of its bar**: the bar has a positive ATR, and the signal is that of a long
or a short side, from the bar's close. -/
theorem signal_eq_some {d : List (Bar Columns)} {s : MLSignal} (h : m.signal d = some s) :
    ∃ row a proba side, d.getLast? = some row ∧ row.columns m.barrierConfig.atrCol = some a ∧
      0 < a ∧ (side = .long ∨ side = .short) ∧ s = m.signalAt proba row.close a side := by
  unfold signal at h
  split_ifs at h with hlen
  simp only [Option.bind_eq_bind, Option.bind_eq_some_iff] at h
  obtain ⟨row, hrow, features, -, a, ha, h⟩ := h
  split_ifs at h with hpos
  obtain ⟨side, hside, rfl⟩ := Option.map_eq_some_iff.1 h
  refine ⟨row, a, _, side, hrow, ha, not_le.1 hpos, ?_, rfl⟩
  unfold bestSide at hside
  split_ifs at hside
  · exact Or.inl (Option.some.inj hside).symm
  · exact Or.inr (Option.some.inj hside).symm

end MLModel

end AlphaOne.ML

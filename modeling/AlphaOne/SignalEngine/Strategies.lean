import AlphaOne.FeatureEngine.Indicators
import AlphaOne.SignalEngine.LiveSignal

/-!
# The production strategies

The strategies of the registry that the live engine evaluates: S05 (`BaselineStrategy`, with the
signal function of `ml/evaluation/baselines.py`) and S06, V3_KAMA and V3_RANGE
(`RuleBasedMultiStrategy`, with the pairs of `ml/evaluation/multi_strategy_signals.py`). A strategy
prepares a frame, candle by candle, with the columns its signal function reads, and the signal
function decides from the last rows. The columns that no signal function reads are left out.

A backtest prepares the whole history once and shows the signal function the rows so far
(`backtestDecision`); the live engine prepares the candles it has loaded. Since every column is
causal, the two agree on one history: `backtestDecision_eq`.
-/

namespace AlphaOne.SignalEngine

open Foundations FeatureEngine

/-- The keys of a signal function's decision. -/
structure RawSignal where
  signalType : SignalType
  leverage : ℚ := 1
  stopLoss : Option ℚ
  takeProfit1 : Option ℚ
  takeProfit2 : Option ℚ := none
  takeProfit3 : Option ℚ := none
  deriving DecidableEq, Repr

/-- A candle of a prepared frame. -/
structure PreparedRow (γ : Type) where
  candle : Candle
  columns : γ
  deriving DecidableEq, Repr

variable {γ : Type}

/-- The frame with its columns. -/
def prepare (columns : List Candle → List γ) (df : List Candle) : List (PreparedRow γ) :=
  List.zipWith PreparedRow.mk df (columns df)

theorem causal_prepare {columns : List Candle → List γ} (h : Causal columns) :
    Causal (prepare columns) :=
  causal_id.zipWith h _

/-! ## Stops and targets -/

/-- `_default_sl_tp`. -/
def defaultSlTp (entryPrice atrVal : ℚ) : SignalType → ℚ × ℚ
  | .long => (entryPrice - 2 * atrVal, entryPrice + 3 * atrVal)
  | _ => (entryPrice + 2 * atrVal, entryPrice - 3 * atrVal)

/-- A signal with the levels of `_default_sl_tp`. -/
def defaultSignal (entry atrVal : ℚ) (side : SignalType) : RawSignal :=
  let (sl, tp) := defaultSlTp entry atrVal side
  { signalType := side, stopLoss := some sl, takeProfit1 := some tp }

/-- A signal with the levels of `_atr_sl_tp`, at the default multiples. -/
def atrSlTp (entry atrVal : ℚ) (side : SignalType) : RawSignal :=
  match side with
  | .long =>
    { signalType := side
      stopLoss := some (entry - 2 * atrVal)
      takeProfit1 := some (entry + 3 / 2 * atrVal)
      takeProfit2 := some (entry + 5 / 2 * atrVal)
      takeProfit3 := some (entry + 7 / 2 * atrVal) }
  | _ =>
    { signalType := side
      stopLoss := some (entry + 2 * atrVal)
      takeProfit1 := some (entry - 3 / 2 * atrVal)
      takeProfit2 := some (entry - 5 / 2 * atrVal)
      takeProfit3 := some (entry - 7 / 2 * atrVal) }

/-! ## S05: Donchian channel and ADX -/

structure BaselineColumns where
  atr14 : Option ℚ
  adx14 : Option ℚ
  donchianHigh20 : Option ℚ
  donchianLow20 : Option ℚ
  deriving DecidableEq, Repr

/-- The highs of a frame. -/
def highs (df : List Candle) : Series := df.map fun c => some c.high

/-- The lows of a frame. -/
def lows (df : List Candle) : Series := df.map fun c => some c.low

/-- `_precompute_indicators`. -/
def precomputeIndicators (df : List Candle) : List BaselineColumns :=
  List.zipWith (fun (atr14, adx14) (donchianHigh20, donchianLow20) =>
      { atr14, adx14, donchianHigh20, donchianLow20 })
    ((atr df 14).zip (adx df 14))
    ((rolling 20 maxOf (highs df)).zip (rolling 20 minOf (lows df)))

/-- `trend_following_signal_func`. -/
def trendFollowingSignal (breakoutPeriod : ℕ) (adxThreshold : ℚ)
    (df : List (PreparedRow BaselineColumns)) : Option RawSignal :=
  if df.length < breakoutPeriod + 20 then none
  else do
    let last ← back df 0
    let prev ← back df 1
    let adx14 ← last.columns.adx14
    let atr14 ← last.columns.atr14
    if atr14 ≤ 0 ∨ adx14 < adxThreshold then none
    else do
      let high ← prev.columns.donchianHigh20
      let low ← prev.columns.donchianLow20
      let entry := last.candle.close
      if entry > high then some (defaultSignal entry atr14 .long)
      else if entry < low then some (defaultSignal entry atr14 .short)
      else none

/-! ## S06: Supertrend -/

structure SupertrendColumns where
  stLine : Option ℚ
  stDir : Direction
  atr14 : Option ℚ
  deriving DecidableEq, Repr

/-- `precompute_supertrend`, with its default parameters. -/
def precomputeSupertrend (df : List Candle) : List SupertrendColumns :=
  List.zipWith (fun st atr14 => { stLine := st.line, stDir := st.direction, atr14 })
    (supertrend df 10 3) (atr df 14)

/-- A signal that is stopped at the supertrend line. -/
def flipSignal (entry atrVal : ℚ) (stLine : Option ℚ) (side : SignalType) : RawSignal :=
  match side with
  | .long =>
    { signalType := side
      stopLoss := stLine
      takeProfit1 := some (entry + 3 / 2 * atrVal)
      takeProfit2 := some (entry + 5 / 2 * atrVal)
      takeProfit3 := some (entry + 4 * atrVal) }
  | _ =>
    { signalType := side
      stopLoss := stLine
      takeProfit1 := some (entry - 3 / 2 * atrVal)
      takeProfit2 := some (entry - 5 / 2 * atrVal)
      takeProfit3 := some (entry - 4 * atrVal) }

/-- `supertrend_signal_func`. -/
def supertrendSignal (df : List (PreparedRow SupertrendColumns)) : Option RawSignal :=
  if df.length < 15 then none
  else do
    let last ← back df 0
    let prev ← back df 1
    let atr14 ← last.columns.atr14
    if atr14 ≤ 0 then none
    else
      let entry := last.candle.close
      match prev.columns.stDir, last.columns.stDir with
      | .down, .up => some (flipSignal entry atr14 last.columns.stLine .long)
      | .up, .down => some (flipSignal entry atr14 last.columns.stLine .short)
      | _, _ => none

/-! ## V3_KAMA: adaptive moving average -/

structure KamaColumns where
  kama : Option ℚ
  atr14 : Option ℚ
  deriving DecidableEq, Repr

/-- `precompute_kama_trend`. -/
def precomputeKamaTrend (period : ℕ) (df : List Candle) : List KamaColumns :=
  List.zipWith KamaColumns.mk (kama df period 2 30) (atr df 14)

/-- `kama_trend_signal_func`. -/
def kamaTrendSignal (flatBars : ℕ) (df : List (PreparedRow KamaColumns)) : Option RawSignal :=
  if df.length < 40 then none
  else do
    let last ← back df 0
    let prev ← back df 1
    let lastKama ← last.columns.kama
    let prevKama ← prev.columns.kama
    let atr14 ← last.columns.atr14
    if atr14 ≤ 0 ∨ df.length < flatBars + 1 then none
    else do
      let flat ← back df flatBars
      let flatKama ← flat.columns.kama
      let entry := last.candle.close
      let kamaSlope := lastKama - flatKama
      if prev.candle.close ≤ prevKama ∧ entry > lastKama ∧ kamaSlope > 0 then
        some (atrSlTp entry atr14 .long)
      else if prev.candle.close ≥ prevKama ∧ entry < lastKama ∧ kamaSlope < 0 then
        some (atrSlTp entry atr14 .short)
      else none

/-! ## V3_RANGE: range expansion -/

structure RangeColumns where
  trRatio : Option ℚ
  rangeHigh : Option ℚ
  rangeLow : Option ℚ
  atr14 : Option ℚ
  deriving DecidableEq, Repr

/-- `precompute_range_expansion_breakout`. -/
def precomputeRangeExpansionBreakout (rangePeriod : ℕ) (df : List Candle) : List RangeColumns :=
  let tr := trueRanges df
  List.zipWith (fun (trRatio, atr14) (rangeHigh, rangeLow) =>
      { trRatio, rangeHigh, rangeLow, atr14 })
    ((safeDiv tr (rolling 20 meanOf tr)).zip (atr df 14))
    ((rolling rangePeriod maxOf (highs df)).zip (rolling rangePeriod minOf (lows df)))

/-- `range_expansion_breakout_signal_func`. -/
def rangeExpansionBreakoutSignal (trRatioMult : ℚ) (df : List (PreparedRow RangeColumns)) :
    Option RawSignal :=
  if df.length < 30 then none
  else do
    let last ← back df 0
    let prev ← back df 1
    let trRatio ← last.columns.trRatio
    let _ ← last.columns.rangeHigh
    let _ ← last.columns.rangeLow
    let prevHigh ← prev.columns.rangeHigh
    let prevLow ← prev.columns.rangeLow
    let atr14 ← last.columns.atr14
    let entry := last.candle.close
    if atr14 ≤ 0 ∨ trRatio < trRatioMult then none
    else if entry > prevHigh then some (atrSlTp entry atr14 .long)
    else if entry < prevLow then some (atrSlTp entry atr14 .short)
    else none

/-! ## The registry -/

/-- A pair of `precompute` and `signal_func`. -/
structure StrategyPair where
  Columns : Type
  precompute : List Candle → List Columns
  signalFunc : List (PreparedRow Columns) → Option RawSignal

/-- The decision of a pair on a frame. -/
def StrategyPair.decide (s : StrategyPair) (df : List Candle) : Option RawSignal :=
  s.signalFunc (prepare s.precompute df)

/-- `StrategySignal` without a setup. -/
def noTradeSignal (strategyName : String) : StrategySignal :=
  { signalType := .noTrade, strategyName }

/-- `BaselineStrategy.generate`: two of the targets are dropped. -/
def baselineGenerate (s : StrategyPair) (df : List Candle) : StrategySignal :=
  match s.decide df with
  | none => noTradeSignal baselineName
  | some raw =>
    { signalType := raw.signalType
      entryPrice := (back df 0).map Candle.close
      stopLoss := raw.stopLoss
      takeProfit1 := raw.takeProfit1
      strategyName := baselineName }

/-- `RuleBasedMultiStrategy.generate`. -/
def ruleBasedGenerate (strategyId : String) (s : StrategyPair) (df : List Candle) :
    StrategySignal :=
  match s.decide df with
  | none => noTradeSignal strategyId
  | some raw =>
    { signalType := raw.signalType
      entryPrice := (back df 0).map Candle.close
      stopLoss := raw.stopLoss
      takeProfit1 := raw.takeProfit1
      takeProfit2 := raw.takeProfit2
      takeProfit3 := raw.takeProfit3
      strategyName := strategyId }

/-- The pair of `BaselineStrategy`. -/
def s05Pair : StrategyPair :=
  ⟨BaselineColumns, precomputeIndicators, trendFollowingSignal 20 25⟩

/-- `MULTI_STRATEGIES["S06_SUPERTREND_ATR_4H"]`. -/
def s06Pair : StrategyPair := ⟨SupertrendColumns, precomputeSupertrend, supertrendSignal⟩

/-- `MULTI_STRATEGIES["V3_KAMA_TREND_4H"]`. -/
def kamaPair : StrategyPair := ⟨KamaColumns, precomputeKamaTrend 10, kamaTrendSignal 3⟩

/-- `MULTI_STRATEGIES["V3_RANGE_EXPANSION_4H"]`. -/
def rangePair : StrategyPair :=
  ⟨RangeColumns, precomputeRangeExpansionBreakout 20, rangeExpansionBreakoutSignal 2⟩

/-- An entry of the registry that is production eligible. -/
def eligible (strategyId : String) (generate : List Candle → StrategySignal) :
    StrategyDefinition :=
  { strategyId, timeframe := "4h", productionStatus := .productionEligible
    strategy := .single generate }

def s05 : StrategyDefinition := eligible "S05_DONCHIAN_ADX_4H" (baselineGenerate s05Pair)

def s06 : StrategyDefinition :=
  eligible "S06_SUPERTREND_ATR_4H" (ruleBasedGenerate "S06_SUPERTREND_ATR_4H" s06Pair)

def v3Kama : StrategyDefinition :=
  eligible "V3_KAMA_TREND_4H" (ruleBasedGenerate "V3_KAMA_TREND_4H" kamaPair)

def v3Range : StrategyDefinition :=
  eligible "V3_RANGE_EXPANSION_4H" (ruleBasedGenerate "V3_RANGE_EXPANSION_4H" rangePair)

/-- The production eligible entries of `MULTI_STRATEGY_REGISTRY`, in its order. -/
def productionRegistry : List StrategyDefinition := [s05, s06, v3Kama, v3Range]

/-! ## Backtests -/

/-- What a backtest over the whole history decides at the bar `t`: the columns are precomputed once,
and the signal function is shown the rows so far. -/
def backtestDecision (s : StrategyPair) (history : List Candle) (t : ℕ) : Option RawSignal :=
  s.signalFunc ((prepare s.precompute history).take (t + 1))

/-- The columns of a pair do not look ahead. -/
def StrategyPair.IsCausal (s : StrategyPair) : Prop := Causal s.precompute

theorem causal_highs : Causal highs := causal_map _

theorem causal_lows : Causal lows := causal_map _

theorem s05Pair_causal : s05Pair.IsCausal :=
  ((causal_atr 14).zipWith (causal_adx 14) _).zipWith
    (((causal_rolling _ _).comp causal_highs).zipWith ((causal_rolling _ _).comp causal_lows) _) _

theorem s06Pair_causal : s06Pair.IsCausal := (causal_supertrend 10 3).zipWith (causal_atr 14) _

theorem kamaPair_causal : kamaPair.IsCausal := (causal_kama 10 2 30).zipWith (causal_atr 14) _

theorem rangePair_causal : rangePair.IsCausal :=
  ((causal_trueRanges.zipWith ((causal_rolling _ _).comp causal_trueRanges) _).zipWith
    (causal_atr 14) _).zipWith
    (((causal_rolling _ _).comp causal_highs).zipWith ((causal_rolling _ _).comp causal_lows) _) _

/-- **Precomputing is no look-ahead**: a backtest decides at every bar as the strategy does on the
history up to it. -/
theorem backtestDecision_eq {s : StrategyPair} (hs : s.IsCausal) (history : List Candle) (t : ℕ) :
    backtestDecision s history t = s.decide (history.take (t + 1)) := by
  rw [backtestDecision, ← (causal_prepare hs).take, StrategyPair.decide]

end AlphaOne.SignalEngine

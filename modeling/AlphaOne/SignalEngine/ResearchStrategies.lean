import AlphaOne.FeatureEngine.Columns
import AlphaOne.SignalEngine.Geometry
import Mathlib.Data.Nat.Sqrt

/-!
# The research strategies

The other strategies of `ml/evaluation/multi_strategy_signals.py`, which the registry keeps without
trading them: S01 to S04 on 15m candles, S07 to S09, S11, S12 and V3_HMA. Each is a pair of
`precompute` and `signal_func` as those of the production strategies are; S10 reads a second series
beside its own.

None of their columns looks ahead either (`research_no_look_ahead`).
-/

namespace AlphaOne.SignalEngine

open Foundations FeatureEngine

/-- The closes of a frame. -/
def closes (df : List Candle) : Series := df.map fun c => some c.close

/-- `_atr_sl_tp`, at any multiples. -/
def atrSlTpAt (slMult : ℚ) (tpMults : ℚ × ℚ × ℚ) (entry atrVal : ℚ) (side : SignalType) :
    RawSignal :=
  match side with
  | .long =>
    { signalType := side
      stopLoss := some (entry - slMult * atrVal)
      takeProfit1 := some (entry + tpMults.1 * atrVal)
      takeProfit2 := some (entry + tpMults.2.1 * atrVal)
      takeProfit3 := some (entry + tpMults.2.2 * atrVal) }
  | _ =>
    { signalType := side
      stopLoss := some (entry + slMult * atrVal)
      takeProfit1 := some (entry - tpMults.1 * atrVal)
      takeProfit2 := some (entry - tpMults.2.1 * atrVal)
      takeProfit3 := some (entry - tpMults.2.2 * atrVal) }

/-! ## S01: momentum breakout -/

structure MomentumColumns where
  atr14 : Option ℚ
  rangeHigh : Option ℚ
  rangeLow : Option ℚ
  volSma20 : Option ℚ
  deriving DecidableEq, Repr

/-- `precompute_momentum_breakout`. -/
def precomputeMomentumBreakout (lookback : ℕ) (df : List Candle) : List MomentumColumns :=
  List.zipWith (fun (atr14, volSma20) (rangeHigh, rangeLow) =>
      { atr14, rangeHigh, rangeLow, volSma20 })
    ((atr df 14).zip (sma (df.map fun c => some c.volume) 20))
    ((rolling lookback maxOf (highs df)).zip (rolling lookback minOf (lows df)))

/-- `momentum_breakout_signal_func`. -/
def momentumBreakoutSignal (lookback : ℕ) (volumeMult : ℚ) (atrLookback : ℕ)
    (df : List (PreparedRow MomentumColumns)) : Option RawSignal :=
  if df.length < lookback + atrLookback + 5 then none
  else do
    let last ← back df 0
    let prev ← back df 1
    let prevHigh ← prev.columns.rangeHigh
    let prevLow ← prev.columns.rangeLow
    let atr14 ← last.columns.atr14
    let volSma20 ← last.columns.volSma20
    if atr14 ≤ 0 ∨ volSma20 ≤ 0 then none
    else do
      let earlier ← back df atrLookback
      let earlierAtr ← earlier.columns.atr14
      let entry := last.candle.close
      if ¬(atr14 > earlierAtr ∧ last.candle.volume > volumeMult * volSma20) then none
      else if entry > prevHigh then some (atrSlTp entry atr14 .long)
      else if entry < prevLow then some (atrSlTp entry atr14 .short)
      else none

/-! ## S02: EMA pullback -/

structure PullbackColumns where
  ema20 : Option ℚ
  ema50 : Option ℚ
  atr14 : Option ℚ
  rsi14 : Option ℚ
  deriving DecidableEq, Repr

/-- `precompute_ema_pullback`. -/
def precomputeEmaPullback (df : List Candle) : List PullbackColumns :=
  List.zipWith (fun (ema20, ema50) (atr14, rsi14) => { ema20, ema50, atr14, rsi14 })
    ((ema (closes df) 20).zip (ema (closes df) 50)) ((atr df 14).zip (rsi (closes df) 14))

/-- `ema_pullback_signal_func`. -/
def emaPullbackSignal (rsiFloor rsiCeiling : ℚ) (df : List (PreparedRow PullbackColumns)) :
    Option RawSignal :=
  if df.length < 55 then none
  else do
    let last ← back df 0
    let prev ← back df 1
    let lastEma20 ← last.columns.ema20
    let lastEma50 ← last.columns.ema50
    let atr14 ← last.columns.atr14
    let rsi14 ← last.columns.rsi14
    let prevEma20 ← prev.columns.ema20
    let _ ← prev.columns.ema50
    let _ ← prev.columns.atr14
    let _ ← prev.columns.rsi14
    let entry := last.candle.close
    if atr14 ≤ 0 then none
    else if lastEma20 > lastEma50 ∧ (prev.candle.low ≤ prevEma20 ∧
        prev.candle.close ≥ prevEma20 * (999 / 1000)) ∧ entry > lastEma20 ∧ rsi14 > rsiFloor then
      some (atrSlTp entry atr14 .long)
    else if lastEma20 < lastEma50 ∧ (prev.candle.high ≥ prevEma20 ∧
        prev.candle.close ≤ prevEma20 * (1001 / 1000)) ∧ entry < lastEma20 ∧
        rsi14 < rsiCeiling then
      some (atrSlTp entry atr14 .short)
    else none

/-! ## S03: VWAP reversion -/

/-- `x.groupby(session).cumsum()` at each row, where a session is a day. -/
def sessionSums (get : Candle → ℚ) (df : List Candle) : Series :=
  (states (fun seen c => c :: seen) [] df).map fun seen =>
    seen.head?.map fun c =>
      ((seen.filter fun d => d.timestamp.date = c.timestamp.date).map get).sum

/-- `vwap_session`. -/
def vwapSession (df : List Candle) : Series :=
  safeDiv (sessionSums (fun c => (c.high + c.low + c.close) / 3 * c.volume) df)
    (sessionSums Candle.volume df)

structure VwapColumns where
  vwap : Option ℚ
  atr14 : Option ℚ
  deriving DecidableEq, Repr

/-- `precompute_vwap_reversion`. -/
def precomputeVwapReversion (df : List Candle) : List VwapColumns :=
  List.zipWith VwapColumns.mk (vwapSession df) (atr df 14)

/-- `vwap_reversion_signal_func`. -/
def vwapReversionSignal (deviationAtrMult : ℚ) (df : List (PreparedRow VwapColumns)) :
    Option RawSignal :=
  if df.length < 30 then none
  else do
    let last ← back df 0
    let prev ← back df 1
    let lastVwap ← last.columns.vwap
    let atr14 ← last.columns.atr14
    let prevVwap ← prev.columns.vwap
    let entry := last.candle.close
    let deviation := entry - lastVwap
    let prevDeviation := prev.candle.close - prevVwap
    let threshold := deviationAtrMult * atr14
    if atr14 ≤ 0 then none
    else if deviation < -threshold ∧ deviation > prevDeviation then
      some
        { signalType := .long
          stopLoss := some (entry - 3 / 2 * atr14)
          takeProfit1 := some lastVwap
          takeProfit2 := some (lastVwap + 1 / 2 * atr14) }
    else if deviation > threshold ∧ deviation < prevDeviation then
      some
        { signalType := .short
          stopLoss := some (entry + 3 / 2 * atr14)
          takeProfit1 := some lastVwap
          takeProfit2 := some (lastVwap - 1 / 2 * atr14) }
    else none

/-! ## S04: RSI and Bollinger bands -/

structure RsiBollingerColumns where
  rsi14 : Option ℚ
  bbUpper : Option ℚ
  bbMid : Option ℚ
  bbLower : Option ℚ
  atr14 : Option ℚ
  deriving DecidableEq, Repr

/-- `precompute_rsi_bollinger`. -/
def precomputeRsiBollinger (np : Numpy) (df : List Candle) : List RsiBollingerColumns :=
  let bb := bollingerBands np (closes df)
  List.zipWith (fun (rsi14, atr14) (bbUpper, bbMid, bbLower) =>
      { rsi14, bbUpper, bbMid, bbLower, atr14 })
    ((rsi (closes df) 14).zip (atr df 14)) (bb.upper.zip (bb.mid.zip bb.lower))

/-- `rsi_bollinger_signal_func`. -/
def rsiBollingerSignal (rsiOversold rsiOverbought : ℚ)
    (df : List (PreparedRow RsiBollingerColumns)) : Option RawSignal :=
  if df.length < 25 then none
  else do
    let last ← back df 0
    let prev ← back df 1
    let _ ← last.columns.rsi14
    let upper ← last.columns.bbUpper
    let mid ← last.columns.bbMid
    let lower ← last.columns.bbLower
    let atr14 ← last.columns.atr14
    let prevRsi ← prev.columns.rsi14
    let prevUpper ← prev.columns.bbUpper
    let _ ← prev.columns.bbMid
    let prevLower ← prev.columns.bbLower
    let _ ← prev.columns.atr14
    let entry := last.candle.close
    if atr14 ≤ 0 then none
    else if prev.candle.close < prevLower ∧ entry ≥ lower ∧ prevRsi < rsiOversold then
      some
        { signalType := .long
          stopLoss := some (min prev.candle.low (entry - 3 / 2 * atr14))
          takeProfit1 := some mid
          takeProfit2 := some upper }
    else if prev.candle.close > prevUpper ∧ entry ≤ upper ∧ prevRsi > rsiOverbought then
      some
        { signalType := .short
          stopLoss := some (max prev.candle.high (entry + 3 / 2 * atr14))
          takeProfit1 := some mid
          takeProfit2 := some lower }
    else none

/-! ## S07: MACD momentum -/

structure MacdColumns where
  macd : Option ℚ
  macdSignal : Option ℚ
  ema50 : Option ℚ
  ema200 : Option ℚ
  atr14 : Option ℚ
  deriving DecidableEq, Repr

/-- `precompute_macd_momentum`. -/
def precomputeMacdMomentum (df : List Candle) : List MacdColumns :=
  let macd := macd (closes df)
  List.zipWith (fun (macd, macdSignal) (ema50, ema200, atr14) =>
      { macd, macdSignal, ema50, ema200, atr14 })
    (macd.line.zip macd.signal)
    ((ema (closes df) 50).zip ((ema (closes df) 200).zip (atr df 14)))

/-- `macd_momentum_signal_func`. -/
def macdMomentumSignal (df : List (PreparedRow MacdColumns)) : Option RawSignal :=
  if df.length < 210 then none
  else do
    let last ← back df 0
    let prev ← back df 1
    let lastMacd ← last.columns.macd
    let lastSignal ← last.columns.macdSignal
    let ema50 ← last.columns.ema50
    let ema200 ← last.columns.ema200
    let atr14 ← last.columns.atr14
    let prevMacd ← prev.columns.macd
    let prevSignal ← prev.columns.macdSignal
    let _ ← prev.columns.ema50
    let _ ← prev.columns.ema200
    let _ ← prev.columns.atr14
    let entry := last.candle.close
    if atr14 ≤ 0 then none
    else if ema50 > ema200 ∧ prevMacd ≤ prevSignal ∧ lastMacd > lastSignal then
      some (atrSlTp entry atr14 .long)
    else if ema50 < ema200 ∧ prevMacd ≥ prevSignal ∧ lastMacd < lastSignal then
      some (atrSlTp entry atr14 .short)
    else none

/-! ## S08: EMA structure and ADX -/

structure EmaStructureColumns where
  ema9 : Option ℚ
  ema20 : Option ℚ
  ema50 : Option ℚ
  adx14 : Option ℚ
  atr14 : Option ℚ
  deriving DecidableEq, Repr

/-- `precompute_ema_structure`. -/
def precomputeEmaStructure (df : List Candle) : List EmaStructureColumns :=
  List.zipWith (fun (ema9, ema20) (ema50, adx14, atr14) => { ema9, ema20, ema50, adx14, atr14 })
    ((ema (closes df) 9).zip (ema (closes df) 20))
    ((ema (closes df) 50).zip ((adx df 14).zip (atr df 14)))

/-- `ema_structure_adx_signal_func`. -/
def emaStructureAdxSignal (adxThreshold : ℚ) (df : List (PreparedRow EmaStructureColumns)) :
    Option RawSignal :=
  if df.length < 55 then none
  else do
    let last ← back df 0
    let prev ← back df 1
    let ema9 ← last.columns.ema9
    let ema20 ← last.columns.ema20
    let ema50 ← last.columns.ema50
    let adx14 ← last.columns.adx14
    let atr14 ← last.columns.atr14
    let _ ← prev.columns.ema9
    let prevEma20 ← prev.columns.ema20
    let _ ← prev.columns.ema50
    let _ ← prev.columns.adx14
    let _ ← prev.columns.atr14
    let entry := last.candle.close
    if atr14 ≤ 0 ∨ adx14 < adxThreshold then none
    else if (ema9 > ema20 ∧ ema20 > ema50) ∧ prev.candle.low ≤ prevEma20 ∧ entry > ema20 then
      some (atrSlTp entry atr14 .long)
    else if (ema9 < ema20 ∧ ema20 < ema50) ∧ prev.candle.high ≥ prevEma20 ∧ entry < ema20 then
      some (atrSlTp entry atr14 .short)
    else none

/-! ## S09: volatility breakout -/

/-- `rank(pct=True)` of the latest entry of a window; entries that are equal share their ranks. -/
def rankPct (recent : List ℚ) : ℚ :=
  match recent with
  | [] => 0
  | x :: _ =>
    ((recent.filter (· < x)).length + ((recent.filter (· = x)).length + 1) / 2) / recent.length

structure VolatilityColumns where
  bbUpper : Option ℚ
  bbLower : Option ℚ
  bbWidthPctile : Option ℚ
  atr14 : Option ℚ
  deriving DecidableEq, Repr

/-- `precompute_atr_volatility_breakout`. -/
def precomputeAtrVolatilityBreakout (np : Numpy) (df : List Candle) : List VolatilityColumns :=
  let bb := bollingerBands np (closes df)
  let width := safeDiv (zipOp (· - ·) bb.upper bb.lower) bb.mid
  List.zipWith (fun (bbUpper, bbLower) (bbWidthPctile, atr14) =>
      { bbUpper, bbLower, bbWidthPctile, atr14 })
    (bb.upper.zip bb.lower) ((rolling 50 rankPct width).zip (atr df 14))

/-- `atr_volatility_breakout_signal_func`. -/
def atrVolatilityBreakoutSignal (squeezePctile : ℚ) (atrLookback : ℕ)
    (df : List (PreparedRow VolatilityColumns)) : Option RawSignal :=
  if df.length < 55 then none
  else do
    let last ← back df 0
    let prev ← back df 1
    let upper ← last.columns.bbUpper
    let lower ← last.columns.bbLower
    let _ ← last.columns.bbWidthPctile
    let atr14 ← last.columns.atr14
    let _ ← prev.columns.bbUpper
    let _ ← prev.columns.bbLower
    let prevPctile ← prev.columns.bbWidthPctile
    let _ ← prev.columns.atr14
    if atr14 ≤ 0 ∨ df.length < atrLookback + 1 then none
    else do
      let earlier ← back df atrLookback
      let earlierAtr ← earlier.columns.atr14
      let entry := last.candle.close
      if ¬(prevPctile ≤ squeezePctile ∧ atr14 > earlierAtr) then none
      else if entry > upper then some (atrSlTp entry atr14 .long)
      else if entry < lower then some (atrSlTp entry atr14 .short)
      else none

/-! ## S11: z-score reversion -/

structure ZscoreColumns where
  zscore : Option ℚ
  atr14 : Option ℚ
  deriving DecidableEq, Repr

/-- `precompute_zscore_reversion`. -/
def precomputeZscoreReversion (np : Numpy) (period : ℕ) (df : List Candle) :
    List ZscoreColumns :=
  List.zipWith ZscoreColumns.mk
    (safeDiv (zipOp (· - ·) (closes df) (rolling period meanOf (closes df)))
      (rollingStd np period (closes df)))
    (atr df 14)

/-- The levels of S11. -/
def zscoreLevels (entry atrVal : ℚ) (side : SignalType) : RawSignal :=
  atrSlTpAt (3 / 2) (1, 2, 3) entry atrVal side

/-- `zscore_reversion_signal_func`. -/
def zscoreReversionSignal (zEntry : ℚ) (df : List (PreparedRow ZscoreColumns)) :
    Option RawSignal :=
  if df.length < 55 then none
  else do
    let last ← back df 0
    let prev ← back df 1
    let lastZ ← last.columns.zscore
    let prevZ ← prev.columns.zscore
    let atr14 ← last.columns.atr14
    let entry := last.candle.close
    if atr14 ≤ 0 then none
    else if prevZ < -zEntry ∧ lastZ > prevZ then some (zscoreLevels entry atr14 .long)
    else if prevZ > zEntry ∧ lastZ < prevZ then some (zscoreLevels entry atr14 .short)
    else none

/-! ## S12: structure retest -/

structure SwingColumns where
  swingHigh : Option ℚ
  swingLow : Option ℚ
  atr14 : Option ℚ
  deriving DecidableEq, Repr

/-- `precompute_structure_retest`. -/
def precomputeStructureRetest (swingPeriod : ℕ) (df : List Candle) : List SwingColumns :=
  List.zipWith (fun atr14 (swingHigh, swingLow) => { swingHigh, swingLow, atr14 })
    (atr df 14)
    ((rolling swingPeriod maxOf (highs df)).zip (rolling swingPeriod minOf (lows df)))

/-- `df.iloc[-(n + 1):-1]`, the latest row first. -/
def rowsBefore {α : Type} (n : ℕ) (df : List α) : List α := (df.reverse.drop 1).take n

/-- `structure_retest_signal_func`. -/
def structureRetestSignal (lookbackBreak : ℕ) (retestAtrMult : ℚ)
    (df : List (PreparedRow SwingColumns)) : Option RawSignal :=
  if df.length < lookbackBreak + 30 then none
  else do
    let last ← back df 0
    let atr14 ← last.columns.atr14
    let level ← back df (lookbackBreak + 1)
    let swingHigh ← level.columns.swingHigh
    let swingLow ← level.columns.swingLow
    let window := rowsBefore lookbackBreak df
    let entry := last.candle.close
    if atr14 ≤ 0 then none
    else if window.any (fun row => row.candle.close > swingHigh) ∧ 0 ≤ entry - swingHigh ∧
        entry - swingHigh ≤ retestAtrMult * atr14 then
      some (atrSlTp entry atr14 .long)
    else if window.any (fun row => row.candle.close < swingLow) ∧ 0 ≤ swingLow - entry ∧
        swingLow - entry ≤ retestAtrMult * atr14 then
      some (atrSlTp entry atr14 .short)
    else none

/-! ## V3_HMA: Hull moving average -/

/-- The weighted mean of a window, whose latest entry has the weight of its length. -/
def weightedMean (recent : List ℚ) : ℚ :=
  ((recent.zipIdx.map fun (x, i) => (recent.length - i : ℚ) * x).sum) /
    (recent.length * (recent.length + 1) / 2)

/-- `wma`. -/
def wma (xs : Series) (period : ℕ) : Series := rolling period weightedMean xs

/-- `int(round(n ** 0.5))` -/
def roundSqrt (n : ℕ) : ℕ :=
  if n ≤ n.sqrt * n.sqrt + n.sqrt then n.sqrt else n.sqrt + 1

/-- `hma`. -/
def hma (xs : Series) (period : ℕ) : Series :=
  wma (zipOp (fun fast slow => 2 * fast - slow) (wma xs (max 1 (period / 2))) (wma xs period))
    (max 1 (roundSqrt period))

structure HmaColumns where
  hma : Option ℚ
  atr14 : Option ℚ
  deriving DecidableEq, Repr

/-- `precompute_hma_trend`. -/
def precomputeHmaTrend (period : ℕ) (df : List Candle) : List HmaColumns :=
  List.zipWith HmaColumns.mk (hma (closes df) period) (atr df 14)

/-- `hma_trend_signal_func`. -/
def hmaTrendSignal (df : List (PreparedRow HmaColumns)) : Option RawSignal :=
  if df.length < 40 then none
  else do
    let last ← back df 0
    let prev ← back df 1
    let lastHma ← last.columns.hma
    let prevHma ← prev.columns.hma
    let atr14 ← last.columns.atr14
    let entry := last.candle.close
    if atr14 ≤ 0 then none
    else if prev.candle.close ≤ prevHma ∧ entry > lastHma ∧ lastHma > prevHma then
      some (atrSlTp entry atr14 .long)
    else if prev.candle.close ≥ prevHma ∧ entry < lastHma ∧ ¬lastHma > prevHma then
      some (atrSlTp entry atr14 .short)
    else none

/-! ## The registry -/

/-- `MULTI_STRATEGIES["S01_MOMENTUM_BREAKOUT_15M"]`. -/
def s01Pair : StrategyPair :=
  ⟨MomentumColumns, precomputeMomentumBreakout 20, momentumBreakoutSignal 20 (3 / 2) 5⟩

/-- `MULTI_STRATEGIES["S02_EMA_PULLBACK_15M"]`. -/
def s02Pair : StrategyPair := ⟨PullbackColumns, precomputeEmaPullback, emaPullbackSignal 40 60⟩

/-- `MULTI_STRATEGIES["S03_VWAP_REVERSION_15M"]`. -/
def s03Pair : StrategyPair :=
  ⟨VwapColumns, precomputeVwapReversion, vwapReversionSignal (5 / 2)⟩

/-- `MULTI_STRATEGIES["S04_RSI_BB_15M"]`. -/
def s04Pair (np : Numpy) : StrategyPair :=
  ⟨RsiBollingerColumns, precomputeRsiBollinger np, rsiBollingerSignal 30 70⟩

/-- `MULTI_STRATEGIES["S07_MACD_MOMENTUM_4H"]`. -/
def s07Pair : StrategyPair := ⟨MacdColumns, precomputeMacdMomentum, macdMomentumSignal⟩

/-- `MULTI_STRATEGIES["S08_EMA_ADX_4H"]`. -/
def s08Pair : StrategyPair :=
  ⟨EmaStructureColumns, precomputeEmaStructure, emaStructureAdxSignal 20⟩

/-- `MULTI_STRATEGIES["S09_ATR_BREAKOUT_4H"]`. -/
def s09Pair (np : Numpy) : StrategyPair :=
  ⟨VolatilityColumns, precomputeAtrVolatilityBreakout np, atrVolatilityBreakoutSignal (1 / 4) 3⟩

/-- `MULTI_STRATEGIES["S11_ZSCORE_REVERSION_15M"]`. -/
def s11Pair (np : Numpy) : StrategyPair :=
  ⟨ZscoreColumns, precomputeZscoreReversion np 50, zscoreReversionSignal 2⟩

/-- `MULTI_STRATEGIES["S12_STRUCTURE_RETEST_4H"]`. -/
def s12Pair : StrategyPair :=
  ⟨SwingColumns, precomputeStructureRetest 20, structureRetestSignal 8 (3 / 4)⟩

/-- `MULTI_STRATEGIES["V3_HMA_TREND_4H"]`. -/
def hmaPair : StrategyPair := ⟨HmaColumns, precomputeHmaTrend 15, hmaTrendSignal⟩

/-- The pairs of `MULTI_STRATEGIES` that read one series, and that of S05. -/
def strategyPairs (np : Numpy) : List StrategyPair :=
  [s01Pair, s02Pair, s03Pair, s04Pair np, s05Pair, s06Pair, s07Pair, s08Pair, s09Pair np,
    s11Pair np, s12Pair, kamaPair, rangePair, hmaPair]

/-! ## The columns are causal -/

section Causal

variable (np : Numpy)

theorem causal_closes : Causal closes := causal_map _

theorem causal_sma (period : ℕ) : Causal (fun xs => sma xs period) := causal_rolling _ _

theorem causal_safeDiv {α : Type} {f g : List α → Series} (hf : Causal f) (hg : Causal g) :
    Causal (fun xs => safeDiv (f xs) (g xs)) := hf.zipWith hg _

theorem causal_zipOp {α : Type} {f g : List α → Series} (hf : Causal f) (hg : Causal g)
    (op : ℚ → ℚ → ℚ) : Causal (fun xs => zipOp op (f xs) (g xs)) := hf.zipWith hg _

theorem causal_rsi (period : ℕ) : Causal (fun xs => rsi xs period) := by
  have hmean : ∀ part : Option ℚ → Option ℚ,
      Causal fun xs => ewm (1 / period) true period ((diff 1 xs).map part) := fun _ =>
    (causal_ewm _ _ _).comp ((causal_map _).comp (causal_diff _))
  exact (causal_map _).comp (causal_safeDiv (hmean _) (hmean _))

theorem causal_macdLine : Causal (fun xs => (macd xs).line) :=
  causal_zipOp (causal_ema 12) (causal_ema 26) _

theorem causal_macdSignal : Causal (fun xs => (macd xs).signal) :=
  (causal_ema 9).comp causal_macdLine

theorem causal_rollingStd (w : ℕ) : Causal (rollingStd np w) :=
  (causal_map _).comp (causal_rolling _ _)

theorem causal_bbUpper : Causal (fun xs => (bollingerBands np xs).upper) :=
  causal_zipOp (causal_sma 20) (causal_rollingStd np 20) _

theorem causal_bbLower : Causal (fun xs => (bollingerBands np xs).lower) :=
  causal_zipOp (causal_sma 20) (causal_rollingStd np 20) _

theorem causal_sessionSums (get : Candle → ℚ) : Causal (sessionSums get) :=
  (causal_map _).comp (causal_states _ _)

theorem causal_wma (period : ℕ) : Causal (fun xs => wma xs period) := causal_rolling _ _

theorem causal_hma (period : ℕ) : Causal (fun xs => hma xs period) :=
  (causal_wma _).comp (causal_zipOp (causal_wma _) (causal_wma _) _)

theorem causal_rangeBounds (w : ℕ) : Causal (fun df : List Candle =>
    (rolling w maxOf (highs df)).zip (rolling w minOf (lows df))) :=
  ((causal_rolling _ _).comp causal_highs).zipWith ((causal_rolling _ _).comp causal_lows) _

theorem s01Pair_causal : s01Pair.IsCausal :=
  ((causal_atr 14).zipWith ((causal_sma 20).comp (causal_map _)) _).zipWith
    (causal_rangeBounds 20) _

theorem s02Pair_causal : s02Pair.IsCausal :=
  (((causal_ema 20).comp causal_closes).zipWith ((causal_ema 50).comp causal_closes) _).zipWith
    ((causal_atr 14).zipWith ((causal_rsi 14).comp causal_closes) _) _

theorem s03Pair_causal : s03Pair.IsCausal :=
  (causal_safeDiv (causal_sessionSums _) (causal_sessionSums _)).zipWith (causal_atr 14) _

theorem s04Pair_causal : (s04Pair np).IsCausal :=
  (((causal_rsi 14).comp causal_closes).zipWith (causal_atr 14) _).zipWith
    (((causal_bbUpper np).comp causal_closes).zipWith
      (((causal_sma 20).comp causal_closes).zipWith ((causal_bbLower np).comp causal_closes) _) _) _

theorem s07Pair_causal : s07Pair.IsCausal :=
  ((causal_macdLine.comp causal_closes).zipWith (causal_macdSignal.comp causal_closes) _).zipWith
    (((causal_ema 50).comp causal_closes).zipWith
      (((causal_ema 200).comp causal_closes).zipWith (causal_atr 14) _) _) _

theorem s08Pair_causal : s08Pair.IsCausal :=
  (((causal_ema 9).comp causal_closes).zipWith ((causal_ema 20).comp causal_closes) _).zipWith
    (((causal_ema 50).comp causal_closes).zipWith ((causal_adx 14).zipWith (causal_atr 14) _) _) _

theorem s09Pair_causal : (s09Pair np).IsCausal := by
  have hupper := (causal_bbUpper np).comp causal_closes
  have hlower := (causal_bbLower np).comp causal_closes
  have hwidth := causal_safeDiv (causal_zipOp hupper hlower (· - ·))
    ((causal_sma 20).comp causal_closes)
  exact (hupper.zipWith hlower _).zipWith
    (((causal_rolling 50 rankPct).comp hwidth).zipWith (causal_atr 14) _) _

theorem s11Pair_causal : (s11Pair np).IsCausal :=
  (causal_safeDiv (causal_zipOp causal_closes ((causal_rolling 50 meanOf).comp causal_closes) _)
    ((causal_rollingStd np 50).comp causal_closes)).zipWith (causal_atr 14) _

theorem s12Pair_causal : s12Pair.IsCausal := (causal_atr 14).zipWith (causal_rangeBounds 20) _

theorem hmaPair_causal : hmaPair.IsCausal :=
  ((causal_hma 15).comp causal_closes).zipWith (causal_atr 14) _

theorem strategyPairs_causal {s : StrategyPair} (hs : s ∈ strategyPairs np) : s.IsCausal := by
  simp only [strategyPairs, List.mem_cons, List.not_mem_nil, or_false] at hs
  rcases hs with rfl | rfl | rfl | rfl | rfl | rfl | rfl | rfl | rfl | rfl | rfl | rfl | rfl | rfl
  exacts [s01Pair_causal, s02Pair_causal, s03Pair_causal, s04Pair_causal np, s05Pair_causal,
    s06Pair_causal, s07Pair_causal, s08Pair_causal, s09Pair_causal np, s11Pair_causal np,
    s12Pair_causal, kamaPair_causal, rangePair_causal, hmaPair_causal]

end Causal

/-- **No strategy looks ahead.** In a backtest over a whole history, whose columns are computed
once, each strategy decides at every bar what it decides on the candles up to it. -/
theorem research_no_look_ahead (np : Numpy) (history : List Candle) (t : ℕ) :
    ∀ s ∈ strategyPairs np, backtestDecision s history t = s.decide (history.take (t + 1)) :=
  fun _ hs => backtestDecision_eq (strategyPairs_causal np hs) history t

/-- V3_HMA buys the breakout, whatever the market does after it. -/
theorem research_no_look_ahead_breakout :
    (backtestDecision hmaPair (fallen 45 ++ [breakoutCandle, wickCandle]) 65).map
      RawSignal.signalType = some .long := by
  rw [research_no_look_ahead ⟨fun _ => none, fun _ => none⟩
    (fallen 45 ++ [breakoutCandle, wickCandle]) 65 hmaPair (by simp [strategyPairs])]
  decide +kernel

end AlphaOne.SignalEngine

import AlphaOne.Foundations.Rounding
import AlphaOne.ML.Signal
import AlphaOne.SignalEngine.RegimeDetector

/-!
# The signal engine

`services/signal_engine/engine.py`: a prediction of a model becomes a signal where the model is sure
of a side, the market is calm, and its trend is not against the side. The levels lie at multiples of
the ATR around the entry price, rounded to cents.

* `determineSignalType_eq_iff`: when a side is signalled.
* `generateSignal_sound`: what a signal answers, on any frame.

What the caller passes through to the output (the names, the symbol and the version) and the time of
the call are left out.
-/

namespace AlphaOne.SignalEngine

open Foundations FeatureEngine

inductive SignalQuality
  | low
  | medium
  | high
  deriving DecidableEq, Repr

/-- `bucket_signal_quality`. -/
def bucketSignalQuality (confidence : ℚ) : SignalQuality :=
  if confidence ≥ 70 / 100 then .high
  else if confidence ≥ 55 / 100 then .medium
  else .low

/-- The prices of a signal with its ratio of reward to risk. -/
structure SignalLevels where
  entryPrice : ℚ
  stopLoss : ℚ
  takeProfit1 : ℚ
  takeProfit2 : ℚ
  takeProfit3 : ℚ
  riskReward : ℚ
  deriving DecidableEq, Repr

structure SignalOutput where
  signalType : SignalType
  confidence : ℚ
  longProbability : ℚ
  shortProbability : ℚ
  noTradeProbability : ℚ
  levels : Option SignalLevels
  marketRegime : Regime
  reasoning : String
  quality : SignalQuality
  deriving DecidableEq, Repr

/-- `SignalEngine` -/
structure Engine where
  predictionThreshold : ℚ := 55 / 100
  deriving DecidableEq, Repr

/-- The format `.1%` of a number that is not negative. -/
def percent (x : ℚ) : String :=
  let tenths := (roundHalfEven (x * 1000)).toNat
  toString (tenths / 10) ++ "." ++ toString (tenths % 10) ++ "%"

namespace Engine

/-- `_determine_signal_type`. -/
def determineSignalType (engine : Engine) (proba : ML.Proba) (regime : Regime) : SignalType :=
  if proba.noTrade > 1 / 2 then .noTrade
  else if proba.long < engine.predictionThreshold ∧ proba.short < engine.predictionThreshold then
    .noTrade
  else if |proba.long - proba.short| < 15 / 100 then .noTrade
  else if regime = .highVolatility ∨ regime = .uncertain ∨ regime = .postLiquidation then .noTrade
  else if proba.long > proba.short ∧ proba.long ≥ engine.predictionThreshold then
    if regime = .trendingBearish then .noTrade else .long
  else if proba.short > proba.long ∧ proba.short ≥ engine.predictionThreshold then
    if regime = .trendingBullish then .noTrade else .short
  else .noTrade

/-- `atr_val`: the last value of the column that is there. -/
def atrVal (df : Frame) (entryPrice : ℚ) : ℚ :=
  let recentAtr := ((df.column "atr_14").map (List.filterMap id)).getD []
  let atr := recentAtr.getLast?.getD 100
  if atr ≤ 0 then entryPrice * (1 / 100) else atr

/-- `_calculate_levels`. -/
def calculateLevels (entryPrice : ℚ) (signalType : SignalType) (df : Frame) : SignalLevels :=
  let atr := atrVal df entryPrice
  let sign : ℚ := if signalType = .long then 1 else -1
  let stopLoss := entryPrice - sign * (2 * atr)
  let takeProfit1 := entryPrice + sign * (2 * atr)
  let risk := |entryPrice - stopLoss|
  let reward := |takeProfit1 - entryPrice|
  { entryPrice := roundTo entryPrice 2
    stopLoss := roundTo stopLoss 2
    takeProfit1 := roundTo takeProfit1 2
    takeProfit2 := roundTo (entryPrice + sign * (3 * atr)) 2
    takeProfit3 := roundTo (entryPrice + sign * (5 * atr)) 2
    riskReward := if risk > 0 then roundTo (reward / risk) 2 else 0 }

/-- `regime.startswith("TRENDING")` -/
def trending (regime : Regime) : Bool := regime = .trendingBullish ∨ regime = .trendingBearish

/-- `_generate_reasoning`. -/
def generateReasoning (signalType : SignalType) (proba : ML.Proba) (regime : Regime) (df : Frame) :
    String :=
  if signalType = .noTrade then
    let reasons :=
      (if proba.long < 2 / 5 ∧ proba.short < 2 / 5 then
        ["Low probability for both directions"] else []) ++
      (if regime = .highVolatility ∨ regime = .uncertain then
        ["Market regime is " ++ regime.value] else [])
    "NO TRADE: " ++
      "; ".intercalate (if reasons = [] then ["Signal confidence below threshold"] else reasons)
  else
    let rsi := MarketRegimeDetector.latest df "rsi_14"
    let macdBullish := MarketRegimeDetector.latest df "macd_bullish"
    let direction := if signalType = .long then "LONG" else "SHORT"
    let probability := if signalType = .long then proba.long else proba.short
    let reasons :=
      (if trending regime then ["Market in " ++ regime.value ++ " trend"] else []) ++
      (if signalType = .long ∧ rsi.any (· < 65) then ["RSI not overbought"]
        else if signalType = .short ∧ rsi.any (· > 35) then ["RSI not oversold"] else []) ++
      (if signalType = .long ∧ macdBullish = some 1 then ["MACD bullish"]
        else if signalType = .short ∧ macdBullish = some 0 then ["MACD bearish"] else []) ++
      ["Model " ++ direction ++ " probability: " ++ percent probability]
    direction ++ " because: " ++ "; ".intercalate reasons

/-- `generate_signal`. -/
def generateSignal (engine : Engine) (mlPrediction : ML.Proba) (df : Frame) (entryPrice : ℚ) :
    SignalOutput :=
  let regime := MarketRegimeDetector.detect df
  let confidence := max mlPrediction.long mlPrediction.short
  let signalType := engine.determineSignalType mlPrediction regime
  { signalType
    confidence := roundTo confidence 4
    longProbability := roundTo mlPrediction.long 4
    shortProbability := roundTo mlPrediction.short 4
    noTradeProbability := roundTo mlPrediction.noTrade 4
    levels :=
      if signalType = .long ∨ signalType = .short then
        some (calculateLevels entryPrice signalType df)
      else none
    marketRegime := regime
    reasoning := generateReasoning signalType mlPrediction regime df
    quality := bucketSignalQuality confidence }

/-! ## When a side is signalled -/

/-- The probability of a side, and that of the other one. -/
def sideProbability (proba : ML.Proba) (side : SignalType) : ℚ :=
  if side = .long then proba.long else proba.short

def otherProbability (proba : ML.Proba) (side : SignalType) : ℚ :=
  if side = .long then proba.short else proba.long

/-- The trend against a side. -/
def opposingTrend (side : SignalType) : Regime :=
  if side = .long then .trendingBearish else .trendingBullish

/-- A prediction warrants a signal of a side in a regime. -/
structure Warrants (engine : Engine) (proba : ML.Proba) (regime : Regime)
    (side : SignalType) : Prop where
  tradable : proba.noTrade ≤ 1 / 2
  sure : engine.predictionThreshold ≤ sideProbability proba side
  margin : 15 / 100 ≤ sideProbability proba side - otherProbability proba side
  calm : regime ≠ .highVolatility ∧ regime ≠ .uncertain ∧ regime ≠ .postLiquidation
  trend : regime ≠ opposingTrend side

variable {engine : Engine} {proba : ML.Proba} {regime : Regime} {side : SignalType}

/-- **A side is signalled exactly if the prediction warrants it.** -/
theorem determineSignalType_eq_iff (hside : side = .long ∨ side = .short) :
    engine.determineSignalType proba regime = side ↔ Warrants engine proba regime side := by
  constructor
  · intro h
    unfold determineSignalType at h
    split_ifs at h with hno hlow hmargin hregime hlong hbear hshort hbull <;> subst h
    · simp at hside
    · simp at hside
    · simp at hside
    · simp at hside
    · simp at hside
    · rw [abs_of_pos (sub_pos.2 hlong.1)] at hmargin
      exact ⟨not_lt.1 hno, hlong.2, not_lt.1 hmargin, by tauto, hbear⟩
    · simp at hside
    · rw [abs_sub_comm, abs_of_pos (sub_pos.2 hshort.1)] at hmargin
      exact ⟨not_lt.1 hno, hshort.2, not_lt.1 hmargin, by tauto, hbull⟩
    · simp at hside
  · rintro ⟨htradable, hsure, hmargin, hcalm, htrend⟩
    have hquiet :
        ¬(regime = .highVolatility ∨ regime = .uncertain ∨ regime = .postLiquidation) := by
      tauto
    rcases hside with rfl | rfl
    · simp only [sideProbability, otherProbability, opposingTrend, if_true] at hsure hmargin htrend
      have hmore : proba.short < proba.long := by linarith
      rw [determineSignalType, if_neg (not_lt.2 htradable),
        if_neg fun h => absurd h.1 (not_lt.2 hsure),
        if_neg (not_lt.2 (hmargin.trans (le_abs_self _))), if_neg hquiet,
        if_pos ⟨hmore, hsure⟩, if_neg htrend]
    · simp only [sideProbability, otherProbability, opposingTrend, reduceCtorEq, if_false]
        at hsure hmargin htrend
      have hmore : proba.long < proba.short := by linarith
      rw [determineSignalType, if_neg (not_lt.2 htradable),
        if_neg fun h => absurd h.2 (not_lt.2 hsure),
        if_neg (not_lt.2 (hmargin.trans ((abs_sub_comm proba.long proba.short) ▸ le_abs_self _))),
        if_neg hquiet, if_neg fun h => absurd h.1 hmore.not_gt, if_pos ⟨hmore, hsure⟩,
        if_neg htrend]

/-- No other signal is answered. -/
theorem determineSignalType_cases (engine : Engine) (proba : ML.Proba) (regime : Regime) :
    engine.determineSignalType proba regime = .long ∨
      engine.determineSignalType proba regime = .short ∨
      engine.determineSignalType proba regime = .noTrade := by
  unfold determineSignalType
  split_ifs <;> simp

/-! ## The levels of a signal -/

/-- A price is at another one or, for a side, ahead of it. -/
def Ahead (side : SignalType) (x y : ℚ) : Prop := if side = .long then x ≤ y else y ≤ x

/-- The levels lie in the order that a side is stopped or takes its profits in. -/
structure LevelsOrdered (side : SignalType) (levels : SignalLevels) : Prop where
  stop : Ahead side levels.stopLoss levels.entryPrice
  first : Ahead side levels.entryPrice levels.takeProfit1
  second : Ahead side levels.takeProfit1 levels.takeProfit2
  third : Ahead side levels.takeProfit2 levels.takeProfit3

theorem atrVal_pos {df : Frame} {entryPrice : ℚ} (hentry : 0 < entryPrice) :
    0 < atrVal df entryPrice := by
  unfold atrVal
  dsimp only
  split
  · positivity
  · exact not_le.1 ‹_›

/-- Rounding keeps prices apart that are more than a cent apart. -/
theorem roundTo_lt {x y : ℚ} (h : 1 / 100 < y - x) : roundTo x 2 < roundTo y 2 := by
  have hx := abs_le.1 (abs_roundTo_sub_le x 2)
  have hy := abs_le.1 (abs_roundTo_sub_le y 2)
  norm_num at hx hy
  linarith

variable {df : Frame} {entryPrice : ℚ}

theorem calculateLevels_ordered (hside : side = .long ∨ side = .short) (hentry : 0 < entryPrice) :
    LevelsOrdered side (calculateLevels entryPrice side df) := by
  have hatr : 0 < atrVal df entryPrice := atrVal_pos hentry
  rcases hside with rfl | rfl
  · constructor <;> simp only [Ahead, calculateLevels, if_true] <;>
      exact roundTo_mono (by linarith) 2
  · constructor <;> simp only [Ahead, calculateLevels, reduceCtorEq, if_false] <;>
      exact roundTo_mono (by linarith) 2

theorem riskReward_eq (hentry : 0 < entryPrice) :
    (calculateLevels entryPrice side df).riskReward = 1 := by
  have hatr : 0 < atrVal df entryPrice := atrVal_pos hentry
  have hone : roundTo 1 2 = 1 := roundTo_of_decimals (n := 100) (by norm_num)
  have hequal : ∀ sign : ℚ, |entryPrice + sign * (2 * atrVal df entryPrice) - entryPrice| =
      |entryPrice - (entryPrice - sign * (2 * atrVal df entryPrice))| := by
    intro sign
    rw [add_sub_cancel_left, sub_sub_cancel]
  have hrisk : ∀ sign : ℚ, sign ≠ 0 →
      0 < |entryPrice - (entryPrice - sign * (2 * atrVal df entryPrice))| := by
    intro sign hsign
    rw [sub_sub_cancel]
    exact abs_pos.2 (mul_ne_zero hsign (by positivity))
  have hsign : (if side = .long then (1 : ℚ) else -1) ≠ 0 := by
    split <;> norm_num
  rw [calculateLevels]
  dsimp only
  rw [if_pos (hrisk _ hsign), hequal, div_self (hrisk _ hsign).ne', hone]

/-- The stop and the first target do not round onto the entry price. -/
theorem calculateLevels_apart (hside : side = .long ∨ side = .short)
    (hatr : 1 / 200 < atrVal df entryPrice) :
    let levels := calculateLevels entryPrice side df
    levels.stopLoss ≠ levels.entryPrice ∧ levels.entryPrice ≠ levels.takeProfit1 := by
  rcases hside with rfl | rfl
  · simp only [calculateLevels, if_true]
    exact ⟨(roundTo_lt (by linarith)).ne, (roundTo_lt (by linarith)).ne⟩
  · simp only [calculateLevels, reduceCtorEq, if_false]
    exact ⟨(roundTo_lt (by linarith)).ne', (roundTo_lt (by linarith)).ne'⟩

/-- A frame of less than 50 rows warrants nothing. -/
theorem Warrants.rows (h : Warrants engine proba (MarketRegimeDetector.detect df) side) :
    50 ≤ df.candles.length := by
  by_contra hrows
  refine h.calm.2.1 ?_
  rw [MarketRegimeDetector.detect, if_pos (not_le.1 hrows)]

/-- **What a signal answers**, on any frame and for any prediction: a side is signalled exactly if
the prediction warrants it in the regime of the frame. A side has its levels in order, of which the
first target is as far away as the stop; these do not round onto the entry price where the ATR is
above half a cent. No levels are given without a side. -/
theorem generateSignal_sound (engine : Engine) (proba : ML.Proba) (df : Frame)
    (hside : side = .long ∨ side = .short) (hentry : 0 < entryPrice) :
    let out := engine.generateSignal proba df entryPrice
    (out.signalType = side ↔
      Warrants engine proba (MarketRegimeDetector.detect df) side) ∧
    (out.signalType = side → 50 ≤ df.candles.length ∧
      ∃ levels, out.levels = some levels ∧ LevelsOrdered side levels ∧ levels.riskReward = 1 ∧
        (1 / 200 < atrVal df entryPrice → levels.stopLoss ≠ levels.entryPrice ∧
          levels.entryPrice ≠ levels.takeProfit1)) ∧
    (out.signalType = .long ∨ out.signalType = .short ∨
      out.signalType = .noTrade ∧ out.levels = none) := by
  intro out
  have hiff : out.signalType = side ↔ Warrants engine proba (MarketRegimeDetector.detect df) side :=
    determineSignalType_eq_iff hside
  refine ⟨hiff, fun h => ⟨(hiff.1 h).rows, calculateLevels entryPrice side df, ?_,
    calculateLevels_ordered hside hentry, riskReward_eq hentry,
    calculateLevels_apart hside⟩, ?_⟩
  · have hsignal : engine.determineSignalType proba (MarketRegimeDetector.detect df) = side := h
    show (if _ then _ else _) = _
    rw [hsignal, if_pos hside]
  · rcases determineSignalType_cases engine proba (MarketRegimeDetector.detect df) with h | h | h
    · exact Or.inl h
    · exact Or.inr (Or.inl h)
    · refine Or.inr (Or.inr ⟨h, ?_⟩)
      show (if _ then _ else _) = _
      rw [h, if_neg (by simp)]

section Example

/-- A frame of 50 rows in a strong upward trend. -/
def trendingFrame : Frame where
  candles := List.replicate 50
    { timestamp := 0, timeframe := "1h", open_ := 100, high := 101, low := 99, close := 100,
      volume := 1 }
  columns := [("atr_14", List.replicate 50 (some 1)), ("adx_14", List.replicate 50 (some 30)),
    ("ema_50", List.replicate 50 (some 101)), ("ema_200", List.replicate 50 (some 99))]

theorem generateSignal_sound_trending :
    (generateSignal {} ⟨1 / 10, 1 / 5, 7 / 10⟩ trendingFrame 100).reasoning =
        "LONG because: Market in TRENDING_BULLISH trend; Model LONG probability: 70.0%" ∧
      ∃ levels, (generateSignal {} ⟨1 / 10, 1 / 5, 7 / 10⟩ trendingFrame 100).levels = some levels ∧
        LevelsOrdered .long levels ∧ levels.stopLoss ≠ levels.entryPrice := by
  refine ⟨by decide +kernel, ?_⟩
  obtain ⟨-, levels, hlevels, hordered, -, hapart⟩ :=
    (generateSignal_sound {} ⟨1 / 10, 1 / 5, 7 / 10⟩ trendingFrame
      (Or.inl rfl : SignalType.long = .long ∨ SignalType.long = .short)
      (by norm_num : (0 : ℚ) < 100)).2.1 (by decide +kernel)
  exact ⟨levels, hlevels, hordered, (hapart (by decide +kernel)).1⟩

end Example

end Engine

end AlphaOne.SignalEngine

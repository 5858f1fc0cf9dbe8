import AlphaOne.FeatureEngine.Frame

/-!
# Market regimes

`detect_regime_series` of `services/signal_engine/regime.py`: the regime at every row of a frame,
from the indicator columns the frame has.
-/

namespace AlphaOne.SignalEngine

open Foundations FeatureEngine

/-- `MarketRegimeDetector.REGIMES`. -/
inductive Regime
  | trendingBullish
  | trendingBearish
  | ranging
  | highVolatility
  | lowVolatility
  | breakout
  | postLiquidation
  | uncertain
  deriving DecidableEq, Repr

/-- The regimes, in the order of the dictionary. -/
def Regime.all : List Regime :=
  [.trendingBullish, .trendingBearish, .ranging, .highVolatility, .lowVolatility, .breakout,
    .postLiquidation, .uncertain]

def Regime.value : Regime → String
  | .trendingBullish => "TRENDING_BULLISH"
  | .trendingBearish => "TRENDING_BEARISH"
  | .ranging => "RANGING"
  | .highVolatility => "HIGH_VOLATILITY"
  | .lowVolatility => "LOW_VOLATILITY"
  | .breakout => "BREAKOUT"
  | .postLiquidation => "POST_LIQUIDATION"
  | .uncertain => "UNCERTAIN"

/-- `vol_regime`. -/
inductive VolRegime
  | high
  | low
  | normal
  deriving DecidableEq, Repr

/-- `trend_regime`. -/
inductive TrendRegime
  | bullish
  | bearish
  | none_
  deriving DecidableEq, Repr

/-- Whether an entry of a column passes a test; a NaN and a missing column do not. -/
def passes (p : ℚ → Bool) (column : Option Series) (i : ℕ) : Bool :=
  (((column.bind (·[i]?)).join).map p).getD false

/-- Whether two entries of a row are related; with a NaN they are not. -/
def related (r : ℚ → ℚ → Bool) (xs ys : Option Series) (i : ℕ) : Bool :=
  (((xs.bind (·[i]?)).join).bind fun x => ((ys.bind (·[i]?)).join).map (r x)).getD false

section Detect

variable (df : Frame)

/-- The regime of the ATR against its mean over 20 rows. -/
def atrRegime (i : ℕ) : VolRegime :=
  let atr := df.column "atr_14"
  let mean := atr.map (rolling 20 meanOf)
  if related (fun a m => a > m * 2) atr mean i then .high
  else if related (fun a m => a < m * (1 / 2)) atr mean i then .low
  else .normal

/-- `vol_regime` of a row: the ratio of two realized volatilities, and where one is missing, the
ATR. -/
def volRegime (i : ℕ) : VolRegime :=
  match df.column "realized_vol_10", df.column "realized_vol_50" with
  | some vol10, some vol50 =>
    match (vol10[i]?).join, (vol50[i]?).join with
    | some v10, some v50 =>
      let ratio := v10 / max v50 (1 / 100)
      if ratio > 3 / 2 then .high else if ratio < 3 / 5 then .low else .normal
    | _, _ => atrRegime df i
  | _, _ => atrRegime df i

/-- `trend_regime` of a row: the means under a strong ADX, or else the structure. -/
def trendRegime (i : ℕ) : TrendRegime :=
  let ema50 := df.column "ema_50"
  let ema200 := df.column "ema_200"
  let strong := passes (· > 25) (df.column "adx_14") i
  if related (· > ·) ema50 ema200 i && strong then .bullish
  else if related (· < ·) ema50 ema200 i && strong then .bearish
  else if (df.column "uptrend").isSome && (df.column "downtrend").isSome then
    if passes (· = 1) (df.column "uptrend") i then .bullish
    else if passes (· = 1) (df.column "downtrend") i then .bearish
    else .none_
  else .none_

/-- `post_liq` of a row. -/
def isPostLiquidation (i : ℕ) : Bool :=
  passes (· > 0) ((df.column "liq_spike").map (rolling 5 List.sum)) i

/-- `is_ranging` of a row. -/
def isRanging (i : ℕ) : Bool :=
  passes (· < 20) (df.column "adx_14") i || passes (· = 1) (df.column "consolidation") i

/-- `is_breakout` of a row. -/
def isBreakout (i : ℕ) : Bool :=
  let width := df.column "bb_width"
  related (· < ·) width (width.map (rolling 20 (quantileOf (1 / 5)))) i

/-- The regime of a row; the first 49 rows are uncertain. -/
def detectRegime (i : ℕ) : Regime :=
  if i < 49 then .uncertain
  else
    match volRegime df i with
    | .high => if isPostLiquidation df i then .postLiquidation else .highVolatility
    | .low => if isBreakout df i then .breakout else .lowVolatility
    | .normal =>
      match trendRegime df i with
      | .bullish => .trendingBullish
      | .bearish => .trendingBearish
      | .none_ => if isRanging df i then .ranging else .uncertain

/-- `detect_regime_series`. -/
def detectRegimeSeries : List Regime := (List.range df.candles.length).map (detectRegime df)

end Detect

end AlphaOne.SignalEngine

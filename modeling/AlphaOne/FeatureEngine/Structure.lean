import AlphaOne.FeatureEngine.Frame

/-!
# Market structure

`services/feature_engine/structure.py`. A swing is a high or a low that is the extreme of the bars
around it; it is stamped on the bar that confirms it, `lookback` bars later. A trend is up when the
last swing high and the last swing low are both above the ones before them.
-/

namespace AlphaOne.FeatureEngine

open Foundations

/-- `_detect_swings` of one side: a bar whose window of `2 * lookback + 1` bars is full confirms the
swing at the centre of the window, if that is the extreme; otherwise the entry is zero. -/
def detectSwings (extreme : List ℚ → ℚ) (lookback : ℕ) (xs : List ℚ) : List ℚ :=
  (windows (2 * lookback + 1) xs).map fun recent =>
    match recent[lookback]? with
    | some center =>
      if recent.length = 2 * lookback + 1 ∧ center = extreme recent then center else 0
    | none => 0

/-- The body of the loop of `_detect_swings`, at the centre `i` of a window. -/
def swingStep (extreme : List ℚ → ℚ) (lookback : ℕ) (xs out : List ℚ) (i : ℕ) : List ℚ :=
  let confirmIdx := i + lookback
  let window := (xs.drop (i - lookback)).take (2 * lookback + 1)
  match xs[i]? with
  | some center => if center = extreme window then out.set confirmIdx center else out
  | none => out

/-- `_detect_swings` of one side as the source writes it: the loop over the centres of the windows,
on a column of zeros. -/
def swingLoop (extreme : List ℚ → ℚ) (lookback : ℕ) (xs : List ℚ) : List ℚ :=
  (List.range' lookback (xs.length - 2 * lookback)).foldl (swingStep extreme lookback xs)
    (List.replicate xs.length 0)

/-- The last two swings of a side. -/
structure Swings where
  last : Option ℚ := none
  prev : Option ℚ := none
  deriving DecidableEq, Repr

/-- A swing that is confirmed replaces the last one. -/
def Swings.step (s : Swings) (swing : ℚ) : Swings :=
  if swing > 0 then { last := some swing, prev := s.last } else s

/-- The columns `higher_…` and `lower_…` of a side. -/
def swingColumn (r : ℚ → ℚ → Bool) (swings : List ℚ) : Series :=
  (states Swings.step {} swings).map fun s =>
    some (match s.last, s.prev with
      | some last, some prev => if r last prev then 1 else 0
      | _, _ => 0)

/-- Whether two columns of integers are both `1`. -/
def bothOne (xs ys : Series) : Series := compareColumns (fun a b => a = 1 ∧ b = 1) xs ys

/-- `break_of_structure`: `1` where the first mean crosses above the second, `-1` where below. -/
def breakOfStructure (ema50 ema200 : Series) : Series :=
  let prev50 := shift 1 ema50
  let prev200 := shift 1 ema200
  let crossUp := bothOne (compareColumns (· > ·) ema50 ema200)
    (compareColumns (· ≤ ·) prev50 prev200)
  let crossDown := bothOne (compareColumns (· < ·) ema50 ema200)
    (compareColumns (· ≥ ·) prev50 prev200)
  zipOp (· - ·) crossUp crossDown

/-- `detect_market_structure`. -/
def detectMarketStructure (lookback : ℕ) (df : Frame) : Frame :=
  let close := df.prices Candle.close
  let high := df.prices Candle.high
  let low := df.prices Candle.low
  let swingHighs := detectSwings maxOf lookback (df.candles.map Candle.high)
  let swingLows := detectSwings minOf lookback (df.candles.map Candle.low)
  let higherHigh := swingColumn (· > ·) swingHighs
  let higherLow := swingColumn (· > ·) swingLows
  let lowerHigh := swingColumn (· < ·) swingHighs
  let lowerLow := swingColumn (· < ·) swingLows
  let recentHigh := rolling 20 maxOf high
  let recentLow := rolling 20 minOf low
  df.assign
    [("swing_high", swingHighs.map some), ("swing_low", swingLows.map some),
      ("higher_high", higherHigh), ("higher_low", higherLow),
      ("lower_high", lowerHigh), ("lower_low", lowerLow),
      ("uptrend", bothOne higherHigh higherLow), ("downtrend", bothOne lowerHigh lowerLow),
      ("break_of_structure",
        match df.column "ema_50", df.column "ema_200" with
        | some ema50, some ema200 => breakOfStructure ema50 ema200
        | _, _ => df.candles.map fun _ => some 0),
      ("near_resistance",
        compareColumns (fun c h => c ≥ h * (995 / 1000) ∧ c ≤ h) close recentHigh),
      ("near_support",
        compareColumns (fun c l => c ≤ l * (1005 / 1000) ∧ c ≥ l) close recentLow),
      ("consolidation",
        testColumn (· < 3 / 100) (safeDiv (zipOp (· - ·) recentHigh recentLow) close)),
      ("donchian_position_20",
        safeDiv (zipOp (· - ·) close recentLow) (zipOp (· - ·) recentHigh recentLow))]

end AlphaOne.FeatureEngine

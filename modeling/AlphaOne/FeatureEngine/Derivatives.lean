import AlphaOne.FeatureEngine.Frame

/-!
# Derivatives columns

`services/feature_engine/derivatives.py`. A series with times of its own is joined to the candles by
time: each candle is given the last reading at or before its own timestamp. Without a series its
columns are zero. Liquidations are not among the inputs of the feature sets; their columns are zero.
-/

namespace AlphaOne.FeatureEngine

open Foundations

/-- A reading of a series. -/
structure Reading where
  timestamp : Datetime
  value : ℚ
  deriving DecidableEq, Repr

/-- The last entry at or before a time, of entries in time order; the source's `merge_asof` with
`direction="backward"`. -/
def asof {α : Type*} (entries : List (Datetime × α)) (time : Datetime) : Option α :=
  ((entries.filter (·.1 ≤ time)).getLast?).map Prod.snd

/-- There is an entry at or before a time exactly when some entry is. -/
theorem asof_isSome {α : Type*} (entries : List (Datetime × α)) (time : Datetime) :
    (asof entries time).isSome ↔ ∃ e ∈ entries, e.1 ≤ time := by
  simp [asof]

theorem mem_of_asof {α : Type*} {entries : List (Datetime × α)} {time : Datetime} {a : α}
    (h : asof entries time = some a) : ∃ e ∈ entries, e.2 = a := by
  obtain ⟨e, he, rfl⟩ := Option.map_eq_some_iff.1 h
  exact ⟨e, List.mem_of_mem_filter (List.mem_of_getLast? he), rfl⟩

/-- `_asof_merge_value`. The result is in time order. -/
def asofMergeValue (df : Frame) (source : List Reading) : Series :=
  let left := (df.candles.map Candle.timestamp).insertionSort (· ≤ ·)
  let right := source.insertionSort fun a b => a.timestamp ≤ b.timestamp
  left.map (asof (right.map fun r => (r.timestamp, r.value)))

/-- The correlation of two windows of one length, when both deviate. -/
def correlationOf (np : Numpy) (pairs : List (ℚ × ℚ)) : Option ℚ := do
  let xs := pairs.map Prod.fst
  let ys := pairs.map Prod.snd
  let covariance := (pairs.map fun p => (p.1 - meanOf xs) * (p.2 - meanOf ys)).sum /
    (pairs.length - 1)
  let deviation ← np.sqrt (varianceOf xs * varianceOf ys)
  if deviation = 0 then none else some (covariance / deviation)

/-- `xs.rolling(w).corr(ys)`: a window with a NaN is not full. -/
def rollingCorr (np : Numpy) (w : ℕ) (xs ys : Series) : Series :=
  (windows w (List.zipWith (Option.map₂ Prod.mk) xs ys)).map fun recent =>
    if recent.length = w ∧ recent.all Option.isSome then
      correlationOf np (recent.filterMap id)
    else none

/-- Columns of zeros. -/
def zeroColumns (df : Frame) (names : List String) : List (String × Series) :=
  names.map fun name => (name, df.candles.map fun _ => some 0)

/-- The columns of the funding rates. -/
def fundingColumns (df : Frame) : Option (List Reading) → List (String × Series)
  | some (r :: rates) =>
    let fundingRate := asofMergeValue df (r :: rates)
    [("funding_rate", fundingRate), ("funding_rate_sma_8", rolling 8 meanOf fundingRate),
      ("funding_extreme_high", testColumn (· > 1 / 1000) fundingRate),
      ("funding_extreme_low", testColumn (· < -(1 / 1000)) fundingRate),
      ("funding_trend", diff 3 fundingRate)]
  | _ => zeroColumns df
    ["funding_rate", "funding_rate_sma_8", "funding_extreme_high", "funding_extreme_low",
      "funding_trend"]

/-- The columns of the open interest. -/
def openInterestColumns (np : Numpy) (df : Frame) : Option (List Reading) → List (String × Series)
  | some (r :: readings) =>
    let openInterest := asofMergeValue df (r :: readings)
    let oiChange := pctChange 1 openInterest
    [("open_interest", openInterest), ("oi_change", oiChange),
      ("oi_change_sma", rolling 10 meanOf oiChange), ("oi_acceleration", diff 1 oiChange),
      ("price_oi_corr", rollingCorr np 20 (df.prices Candle.close) openInterest)]
  | _ => zeroColumns df
    ["open_interest", "oi_change", "oi_change_sma", "oi_acceleration", "price_oi_corr"]

/-- `compute_derivatives_features`. -/
def computeDerivativesFeatures (np : Numpy) (df : Frame)
    (fundingRates openInterest : Option (List Reading)) : Frame :=
  df.assign (fundingColumns df fundingRates ++ openInterestColumns np df openInterest ++
    zeroColumns df ["long_liquidations", "short_liquidations", "liq_spike"])

/-- The columns are the same whatever the readings are. -/
theorem map_fst_fundingColumns (df : Frame) (rates : Option (List Reading)) :
    (fundingColumns df rates).map Prod.fst =
      ["funding_rate", "funding_rate_sma_8", "funding_extreme_high", "funding_extreme_low",
        "funding_trend"] := by
  rcases rates with _ | _ | _ <;> rfl

theorem map_fst_openInterestColumns (np : Numpy) (df : Frame) (readings : Option (List Reading)) :
    (openInterestColumns np df readings).map Prod.fst =
      ["open_interest", "oi_change", "oi_change_sma", "oi_acceleration", "price_oi_corr"] := by
  rcases readings with _ | _ | _ <;> rfl

end AlphaOne.FeatureEngine

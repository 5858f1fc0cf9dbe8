import AlphaOne.FeatureEngine.Causality
import AlphaOne.FeatureEngine.Engine
import AlphaOne.Foundations.Timeline

/-!
# The engine is causal

Every group of the feature engine's columns says of the first rows of a frame in time order what it
says of them on the whole frame (`computeFeatures_take`). This is what the leakage tests of the
repository check on samples, by comparing the columns of a frame with those of its beginning.
-/

namespace AlphaOne.FeatureEngine

open Foundations

section Take

variable (np : Numpy) (k : ℕ)

/-! ## The indicators -/

theorem ema_take (xs : Series) (period : ℕ) : ema (xs.take k) period = (ema xs period).take k :=
  (causal_ema period).take xs k

theorem sma_take (xs : Series) (period : ℕ) : sma (xs.take k) period = (sma xs period).take k :=
  (causal_rolling period meanOf).take xs k

theorem rsi_take (xs : Series) (period : ℕ) : rsi (xs.take k) period = (rsi xs period).take k := by
  unfold rsi
  simp only [(causal_diff 1).take, List.map_take, (causal_ewm _ _ _).take, safeDiv_take]

theorem macd_take (xs : Series) : macd (xs.take k) =
    { line := (macd xs).line.take k
      signal := (macd xs).signal.take k
      histogram := (macd xs).histogram.take k } := by
  unfold macd
  simp only [ema_take, zipOp_take]

theorem directionalIndex_take (movement : ℚ × ℚ → ℚ) (cs : List Candle) (period : ℕ) :
    directionalIndex movement (cs.take k) period =
      (directionalIndex movement cs period).take k := by
  unfold directionalIndex
  simp only [(causal_withPrevious _ _).take, (causal_atr period).take, List.map_take, ema_take,
    safeDiv_take]

theorem rollingStd_take (w : ℕ) (xs : Series) :
    rollingStd np w (xs.take k) = (rollingStd np w xs).take k := by
  unfold rollingStd
  rw [(causal_rolling w varianceOf).take, List.map_take]

theorem bollingerBands_take (xs : Series) : bollingerBands np (xs.take k) =
    { upper := (bollingerBands np xs).upper.take k
      mid := (bollingerBands np xs).mid.take k
      lower := (bollingerBands np xs).lower.take k } := by
  unfold bollingerBands
  simp only [sma_take, rollingStd_take, zipOp_take]

theorem cumsum_take (xs : Series) : cumsum (xs.take k) = (cumsum xs).take k :=
  ((causal_map _).comp (causal_states _ _)).take xs k

theorem pctChange_take (j : ℕ) (xs : Series) :
    pctChange j (xs.take k) = (pctChange j xs).take k := by
  unfold pctChange
  rw [(causal_shift j).take, safeDiv_take, List.map_take]

theorem sign_take (xs : Series) : sign (xs.take k) = (sign xs).take k := List.map_take ..

theorem relativeTo_take (xs level : Series) :
    relativeTo (xs.take k) (level.take k) = (relativeTo xs level).take k := by
  unfold relativeTo
  rw [zipOp_take, safeDiv_take]

theorem vwap_take (df : Frame) : vwap (df.take k) = (vwap df).take k := by
  unfold vwap
  simp only [prices_take, cumsum_take, safeDiv_take]

/-! ## The groups -/

theorem computeTechnicalIndicators_take (df : Frame) :
    computeTechnicalIndicators np (df.take k) = (computeTechnicalIndicators np df).take k := by
  have hcandles : (df.take k).candles = df.candles.take k := rfl
  unfold computeTechnicalIndicators
  rw [assign_take]
  simp only [hcandles, prices_take, ema_take, sma_take, rsi_take, macd_take,
    (causal_atr _).take, (causal_adx _).take, directionalIndex_take, bollingerBands_take, zipOp_take,
    safeDiv_take, vwap_take, relativeTo_take, compareColumns_take, testColumn_take, roc, momentum,
    pctChange_take, (causal_diff _).take, List.map_take, List.map_cons, List.map_nil]

theorem obv_take (df : Frame) : obv (df.take k) = (obv df).take k := by
  unfold obv
  simp only [prices_take, (causal_diff 1).take, sign_take, zipOp_take, List.map_take, cumsum_take]

theorem computeVolumeFeatures_take (df : Frame) :
    computeVolumeFeatures (df.take k) = (computeVolumeFeatures df).take k := by
  unfold computeVolumeFeatures
  rw [assign_take]
  simp only [prices_take, sma_take, safeDiv_take, (causal_shift _).take, compareColumns_take,
    zipOp_take, (causal_diff _).take, sign_take, List.take_zipWith, pctChange_take, testColumn_take,
    obv_take, (causal_rolling _ _).take, List.map_cons, List.map_nil]

theorem computeVolatilityFeatures_take (df : Frame) :
    computeVolatilityFeatures np (df.take k) = (computeVolatilityFeatures np df).take k := by
  have hcandles : (df.take k).candles = df.candles.take k := rfl
  unfold computeVolatilityFeatures realizedVol
  rw [assign_take]
  simp only [hcandles, prices_take, pctChange_take, rollingStd_take, List.map_take,
    (causal_shift _).take, safeDiv_take, sma_take, compareColumns_take, List.map_cons, List.map_nil]

/-! ## Readings -/

theorem zeroColumns_take (df : Frame) (names : List String) :
    zeroColumns (df.take k) names = (zeroColumns df names).map fun c => (c.1, c.2.take k) := by
  have hcandles : (df.take k).candles = df.candles.take k := rfl
  unfold zeroColumns
  rw [List.map_map, hcandles]
  simp only [List.map_take, Function.comp_def]

/-- On a frame in time order the readings are joined row by row. -/
theorem asofMergeValue_take {df : Frame} (source : List Reading)
    (hsorted : df.candles.Pairwise fun a b => a.timestamp ≤ b.timestamp) :
    asofMergeValue (df.take k) source = (asofMergeValue df source).take k := by
  have htimes : (df.candles.map Candle.timestamp).Pairwise (· ≤ ·) := List.pairwise_map.2 hsorted
  have hcandles : (df.take k).candles = df.candles.take k := rfl
  unfold asofMergeValue
  rw [hcandles, List.map_take, (htimes.sublist (List.take_sublist k _)).insertionSort_eq,
    htimes.insertionSort_eq]
  simp only [List.map_take]

theorem causal_rollingCorr {xs ys : Series} (w : ℕ) :
    rollingCorr np w (xs.take k) (ys.take k) = (rollingCorr np w xs ys).take k := by
  unfold rollingCorr
  rw [← List.take_zipWith, (causal_windows w).take, List.map_take]

theorem computeDerivativesFeatures_take {df : Frame} (funding openInterest : Option (List Reading))
    (hsorted : df.candles.Pairwise fun a b => a.timestamp ≤ b.timestamp) :
    computeDerivativesFeatures np (df.take k) funding openInterest =
      (computeDerivativesFeatures np df funding openInterest).take k := by
  have hfunding : fundingColumns (df.take k) funding =
      (fundingColumns df funding).map fun c => (c.1, c.2.take k) := by
    rcases funding with _ | _ | ⟨r, rates⟩
    · exact zeroColumns_take k df _
    · exact zeroColumns_take k df _
    · simp only [fundingColumns, asofMergeValue_take k _ hsorted, (causal_rolling _ _).take,
        testColumn_take, (causal_diff _).take, List.map_cons, List.map_nil]
  have hinterest : openInterestColumns np (df.take k) openInterest =
      (openInterestColumns np df openInterest).map fun c => (c.1, c.2.take k) := by
    rcases openInterest with _ | _ | ⟨r, readings⟩
    · exact zeroColumns_take k df _
    · exact zeroColumns_take k df _
    · simp only [openInterestColumns, asofMergeValue_take k _ hsorted, pctChange_take, prices_take,
        causal_rollingCorr, (causal_rolling _ _).take, (causal_diff _).take, List.map_cons,
        List.map_nil]
  unfold computeDerivativesFeatures
  rw [assign_take, hfunding, hinterest, zeroColumns_take, List.map_append, List.map_append]

end Take

/-- **The features of the first rows are the first rows of the features.** -/
theorem computeFeatures_take (np : Numpy) {df : List Candle}
    (funding openInterest : Option (List Reading)) {k : ℕ} (hne : (sortValues df).take k ≠ []) :
    computeFeatures np ((sortValues df).take k) funding openInterest =
      (computeFeatures np df funding openInterest).take k := by
  have hsorted : (sortValues df).Pairwise fun a b => a.timestamp ≤ b.timestamp :=
    byKey_sorted Candle.timestamp df
  have hsame : sortValues ((sortValues df).take k) = (sortValues df).take k :=
    (hsorted.sublist (List.take_sublist k _)).insertionSort_eq
  have hdf : df ≠ [] := by
    rintro rfl
    exact hne (by simp [sortValues])
  have hframe : ({ candles := (sortValues df).take k } : Frame) =
      ({ candles := sortValues df } : Frame).take k := rfl
  rw [computeFeatures, computeFeatures, if_neg hne, if_neg hdf]
  dsimp only
  rw [hsame, hframe, computeTechnicalIndicators_take, detectMarketStructure_take,
    computeVolumeFeatures_take, computeDerivativesFeatures_take, computeVolatilityFeatures_take]
  exact hsorted

end AlphaOne.FeatureEngine

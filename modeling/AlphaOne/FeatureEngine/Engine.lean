import AlphaOne.FeatureEngine.Columns
import AlphaOne.FeatureEngine.Derivatives
import AlphaOne.FeatureEngine.Structure

/-!
# The feature engine

`FeatureEngine.compute_features`: the candles in time order with the columns of all groups. The
names of the columns do not depend on the data (`columnNames_computeFeatures`).
-/

namespace AlphaOne.FeatureEngine

/-- `df.sort_values("timestamp")`. -/
def sortValues (df : List Candle) : List Candle :=
  df.insertionSort fun a b => a.timestamp ≤ b.timestamp

/-- `FeatureEngine.compute_features`. An empty frame gets no columns. -/
def computeFeatures (np : Numpy) (df : List Candle)
    (fundingRates openInterest : Option (List Reading)) : Frame :=
  if df = [] then { candles := [] }
  else
    let technical := computeTechnicalIndicators np { candles := sortValues df }
    let structured := computeVolumeFeatures (detectMarketStructure 5 technical)
    let derived := computeDerivativesFeatures np structured fundingRates openInterest
    computeVolatilityFeatures np derived

/-- The names of the engine's columns. -/
def featureNames : List String :=
  ["ema_9", "ema_20", "ema_50", "ema_100", "ema_200", "sma_20", "sma_50", "rsi_14", "rsi_7", "macd",
    "macd_signal", "macd_histogram", "atr_14", "atr_7", "plus_di_14", "minus_di_14", "adx_14",
    "bb_upper", "bb_mid", "bb_lower", "bb_width", "bb_pct", "vwap", "price_vs_ema9",
    "price_vs_ema20", "price_vs_ema50", "price_vs_ema200", "price_vs_vwap", "ema9_above_ema20",
    "ema20_above_ema50", "ema50_above_ema200", "rsi_overbought", "rsi_oversold", "macd_bullish",
    "roc_10", "momentum_10", "swing_high", "swing_low", "higher_high", "higher_low", "lower_high",
    "lower_low", "uptrend", "downtrend", "break_of_structure", "near_resistance", "near_support",
    "consolidation", "donchian_position_20", "volume_sma_20", "volume_sma_50", "relative_volume",
    "volume_change", "volume_spike", "volume_dry", "obv", "volume_price_divergence",
    "buy_sell_volume_ratio", "funding_rate", "funding_rate_sma_8", "funding_extreme_high",
    "funding_extreme_low", "funding_trend", "open_interest", "oi_change", "oi_change_sma",
    "oi_acceleration", "price_oi_corr", "long_liquidations", "short_liquidations", "liq_spike",
    "returns", "log_returns", "realized_vol_10", "realized_vol_20", "realized_vol_50",
    "vol_ratio_short_long", "high_low_range", "range_sma_20", "range_expanding",
    "range_contracting", "garman_klass_vol"]

variable (np : Numpy) {df : List Candle} (funding openInterest : Option (List Reading))

/-- **The columns of the engine** are the same for every frame that is not empty. -/
theorem columnNames_computeFeatures (h : df ≠ []) :
    (computeFeatures np df funding openInterest).columnNames = featureNames := by
  rw [computeFeatures, if_neg h]
  dsimp only
  unfold computeVolatilityFeatures computeDerivativesFeatures
  simp only [Frame.columnNames, Frame.assign, List.map_append, map_fst_fundingColumns,
    map_fst_openInterestColumns]
  rfl

/-- The rows of the engine are the candles in time order. -/
theorem candles_computeFeatures :
    (computeFeatures np df funding openInterest).candles = sortValues df := by
  unfold computeFeatures
  split_ifs with h
  · rw [h]
    rfl
  · rfl

/-- The comparison of the two means is a column of the engine. -/
theorem column_ema20_above_ema50 (h : df ≠ []) :
    (computeFeatures np df funding openInterest).column "ema20_above_ema50" =
      some (compareColumns (· > ·)
        (ema ((sortValues df).map fun c => some c.close) 20)
        (ema ((sortValues df).map fun c => some c.close) 50)) := by
  rw [computeFeatures, if_neg h]
  dsimp only
  unfold computeVolatilityFeatures computeDerivativesFeatures computeVolumeFeatures
    detectMarketStructure
  dsimp only
  rw [column_assign_of_notMem (by simp), column_assign_of_notMem, column_assign_of_notMem (by simp),
    column_assign_of_notMem (by simp)]
  · simp [computeTechnicalIndicators, Frame.column, Frame.assign, Frame.prices,
      List.lookup_cons]
  · simp [map_fst_fundingColumns, map_fst_openInterestColumns, zeroColumns]

end AlphaOne.FeatureEngine

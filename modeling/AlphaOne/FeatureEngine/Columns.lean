import AlphaOne.FeatureEngine.Frame

/-!
# Technical, volume and volatility columns

`compute_technical_indicators`, `compute_volume_features` and `compute_volatility_features`. Some
columns read a window of fixed length, some are recursive (the exponentially weighted ones) and some
cumulative (`vwap`, `obv`), so that they depend on where the frame starts.

The columns that belong to no feature group and that no other column reads are left out.
-/

namespace AlphaOne.FeatureEngine

open Foundations

/-! ## Technical indicators -/

/-- `sma`. -/
def sma (xs : Series) (period : ℕ) : Series := rolling period meanOf xs

/-- `rsi`: the first row has neither a gain nor a loss. -/
def rsi (xs : Series) (period : ℕ) : Series :=
  let delta := diff 1 xs
  let gain : Series := delta.map fun d => some (max (d.getD 0) 0)
  let loss : Series := delta.map fun d => some (-min (d.getD 0) 0)
  let avgGain := ewm (1 / period) true period gain
  let avgLoss := ewm (1 / period) true period loss
  (safeDiv avgGain avgLoss).map (Option.map fun rs => 100 - 100 / (1 + rs))

/-- The columns of `macd`. -/
structure Macd where
  line : Series
  signal : Series
  histogram : Series

/-- `macd`, with its default periods. -/
def macd (xs : Series) : Macd :=
  let line := zipOp (· - ·) (ema xs 12) (ema xs 26)
  let signal := ema line 9
  { line, signal, histogram := zipOp (· - ·) line signal }

/-- `plus_di` and `minus_di` of `directional_indicators`, by the movement they read. -/
def directionalIndex (movement : ℚ × ℚ → ℚ) (cs : List Candle) (period : ℕ) : Series :=
  let dm : Series := (withPrevious directionalMovement none cs).map fun m => some (movement m)
  (safeDiv (ema dm period) (atr cs period)).map (Option.map (100 * ·))

/-- The columns of `bollinger_bands`. -/
structure BollingerBands where
  upper : Series
  mid : Series
  lower : Series

/-- `bollinger_bands`, with its default parameters. -/
def bollingerBands (np : Numpy) (xs : Series) : BollingerBands :=
  let mid := sma xs 20
  let std := rollingStd np 20 xs
  { upper := zipOp (fun m s => m + 2 * s) mid std
    mid
    lower := zipOp (fun m s => m - 2 * s) mid std }

/-- `vwap`, over the whole frame. -/
def vwap (df : Frame) : Series :=
  let tpVol : Series := df.prices fun c => (c.high + c.low + c.close) / 3 * c.volume
  safeDiv (cumsum tpVol) (cumsum (df.prices Candle.volume))

/-- `roc`. -/
def roc (xs : Series) (period : ℕ) : Series := (pctChange period xs).map (Option.map (· * 100))

/-- `momentum`. -/
def momentum (xs : Series) (period : ℕ) : Series := diff period xs

/-- The distance of a price from a level, relative to the level. -/
def relativeTo (xs level : Series) : Series := safeDiv (zipOp (· - ·) xs level) level

/-- `compute_technical_indicators`. -/
def computeTechnicalIndicators (np : Numpy) (df : Frame) : Frame :=
  let close := df.prices Candle.close
  let cs := df.candles
  let macd := macd close
  let bb := bollingerBands np close
  let width := zipOp (· - ·) bb.upper bb.lower
  let vwap := vwap df
  df.assign
    [("ema_9", ema close 9), ("ema_20", ema close 20), ("ema_50", ema close 50),
      ("ema_100", ema close 100), ("ema_200", ema close 200),
      ("sma_20", sma close 20), ("sma_50", sma close 50),
      ("rsi_14", rsi close 14), ("rsi_7", rsi close 7),
      ("macd", macd.line), ("macd_signal", macd.signal), ("macd_histogram", macd.histogram),
      ("atr_14", atr cs 14), ("atr_7", atr cs 7),
      ("plus_di_14", directionalIndex Prod.fst cs 14),
      ("minus_di_14", directionalIndex Prod.snd cs 14), ("adx_14", adx cs 14),
      ("bb_upper", bb.upper), ("bb_mid", bb.mid), ("bb_lower", bb.lower),
      ("bb_width", safeDiv width bb.mid),
      ("bb_pct", safeDiv (zipOp (· - ·) close bb.lower) width),
      ("vwap", vwap),
      ("price_vs_ema9", relativeTo close (ema close 9)),
      ("price_vs_ema20", relativeTo close (ema close 20)),
      ("price_vs_ema50", relativeTo close (ema close 50)),
      ("price_vs_ema200", relativeTo close (ema close 200)),
      ("price_vs_vwap", relativeTo close vwap),
      ("ema9_above_ema20", compareColumns (· > ·) (ema close 9) (ema close 20)),
      ("ema20_above_ema50", compareColumns (· > ·) (ema close 20) (ema close 50)),
      ("ema50_above_ema200", compareColumns (· > ·) (ema close 50) (ema close 200)),
      ("rsi_overbought", testColumn (· > 70) (rsi close 14)),
      ("rsi_oversold", testColumn (· < 30) (rsi close 14)),
      ("macd_bullish", compareColumns (· > ·) macd.line macd.signal),
      ("roc_10", roc close 10), ("momentum_10", momentum close 10)]

/-! ## Volume -/

/-- `obv`: a row without a direction adds nothing. -/
def obv (df : Frame) : Series :=
  cumsum ((zipOp (· * ·) (sign (diff 1 (df.prices Candle.close))) (df.prices Candle.volume)).map
    fun x => some (x.getD 0))

/-- `compute_volume_features`. -/
def computeVolumeFeatures (df : Frame) : Frame :=
  let close := df.prices Candle.close
  let volume := df.prices Candle.volume
  let relativeVolume := safeDiv volume (sma volume 20)
  let priceUp := compareColumns (· > ·) close (shift 1 close)
  let volumeOnUp := zipOp (· * ·) volume priceUp
  let volumeOnDown := zipOp (fun v up => v * (1 - up)) volume priceUp
  -- Two directions of which one is a NaN are different, also when both are.
  let divergence : Series := List.zipWith
    (fun p v => some (if p = v ∧ p.isSome then 0 else 1))
    (sign (diff 5 close)) (sign (diff 5 volume))
  df.assign
    [("volume_sma_20", sma volume 20), ("volume_sma_50", sma volume 50),
      ("relative_volume", relativeVolume), ("volume_change", pctChange 1 volume),
      ("volume_spike", testColumn (· > 2) relativeVolume),
      ("volume_dry", testColumn (· < 1 / 2) relativeVolume),
      ("obv", obv df), ("volume_price_divergence", divergence),
      ("buy_sell_volume_ratio",
        safeDiv (rolling 20 List.sum volumeOnUp) (rolling 20 List.sum volumeOnDown))]

/-! ## Volatility -/

/-- `realized_vol` over a window: the deviation of the returns, for a year of hours. -/
def realizedVol (np : Numpy) (returns : Series) (w : ℕ) : Series :=
  (rollingStd np w returns).map fun std => std.bind fun s => (np.sqrt (365 * 24)).map (s * ·)

/-- `garman_klass_vol` of a candle. -/
def garmanKlassVol (np : Numpy) (c : Candle) : Option ℚ := do
  let range ← if c.low = 0 then none else np.log (c.high / c.low)
  let body ← if c.open_ = 0 then none else np.log (c.close / c.open_)
  let two ← np.log 2
  np.sqrt (1 / 2 * range ^ 2 - (2 * two - 1) * body ^ 2)

/-- `compute_volatility_features`. -/
def computeVolatilityFeatures (np : Numpy) (df : Frame) : Frame :=
  let close := df.prices Candle.close
  let returns := pctChange 1 close
  let realizedVol10 := realizedVol np returns 10
  let realizedVol50 := realizedVol np returns 50
  let highLowRange := safeDiv (df.prices fun c => c.high - c.low) close
  let rangeSma20 := sma highLowRange 20
  df.assign
    [("returns", returns), ("log_returns", (safeDiv close (shift 1 close)).map (·.bind np.log)),
      ("realized_vol_10", realizedVol10), ("realized_vol_20", realizedVol np returns 20),
      ("realized_vol_50", realizedVol50),
      ("vol_ratio_short_long", safeDiv realizedVol10 realizedVol50),
      ("high_low_range", highLowRange), ("range_sma_20", rangeSma20),
      ("range_expanding", compareColumns (fun x m => x > m * (3 / 2)) highLowRange rangeSma20),
      ("range_contracting", compareColumns (fun x m => x < m * (1 / 2)) highLowRange rangeSma20),
      ("garman_klass_vol", df.candles.map (garmanKlassVol np))]

end AlphaOne.FeatureEngine

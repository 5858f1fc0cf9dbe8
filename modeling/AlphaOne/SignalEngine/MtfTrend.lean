import AlphaOne.ML.DailyTrend
import AlphaOne.SignalEngine.UnitFree

/-!
# S10: the multi-timeframe trend

`mtf_trend_signal_func` of `ml/evaluation/multi_strategy_signals.py` and `MTFTrendStrategy` of
`multi_strategy.py`, the one strategy that reads the daily candles beside its own.

A backtest gives it the daily candles of the whole history, a live run those there are so far.
`mtf_no_look_ahead` says that it decides the same on both, whatever the candle of the current day
says in either. Of a frame it reads the columns of the 4h candles, which are causal, and one entry
of the daily trend, that of the last row. The candle of the current day has to be there in both or
in neither, since `attach_daily_trend_filter` posts the trend of the day before on it.

S10 relates prices to means and extremes of prices of the same series, so either series may be in
another currency (`mtf_in_any_currency`). A chart that is upside down is another matter: a day that
closes at its mean counts as a day down on both.
-/

namespace AlphaOne.SignalEngine

open Foundations FeatureEngine
open ML (ClosedBy DailyRow DaysApart Inside barAt closedRows_congr dailyRows precomputeMtfTrend
  sameClosed_of_forall trendAt trendAt_before trendAt_eq trendUp)

/-- `df.iloc[-1 - k][name]`; `none` is a NaN. -/
def iloc (df : Frame) (k : ℕ) (name : String) : Option ℚ := ((df.column name).bind (back · k)).join

/-- `mtf_trend_signal_func`. -/
def mtfTrendSignal (breakoutPeriod : ℕ) (adxThreshold : ℚ) (df : Frame) : Option RawSignal :=
  if df.candles.length < breakoutPeriod + 20 then none
  else do
    let last ← back df.candles 0
    let adx14 ← iloc df 0 "_adx_14"
    let atr14 ← iloc df 0 "_atr_14"
    let prevHigh ← iloc df 1 "_donchian_high"
    let prevLow ← iloc df 1 "_donchian_low"
    let dailyTrendUp ← iloc df 0 "_daily_trend_up"
    let entry := last.close
    if atr14 ≤ 0 ∨ adx14 < adxThreshold then none
    else if dailyTrendUp ≠ 0 ∧ entry > prevHigh then some (atrSlTp entry atr14 .long)
    else if dailyTrendUp = 0 ∧ entry < prevLow then some (atrSlTp entry atr14 .short)
    else none

/-- The `StrategySignal` of a decision at an entry price. -/
def strategySignalAt (strategyId : String) (entry : Option ℚ) : Option RawSignal → StrategySignal
  | none => noTradeSignal strategyId
  | some raw =>
    { signalType := raw.signalType
      entryPrice := entry
      stopLoss := raw.stopLoss
      takeProfit1 := raw.takeProfit1
      takeProfit2 := raw.takeProfit2
      takeProfit3 := raw.takeProfit3
      strategyName := strategyId }

/-- `MTFTrendStrategy.generate_with_daily`. -/
def generateWithDaily (strategyId : String) (df4h df1d : List Candle) : StrategySignal :=
  let prepared := precomputeMtfTrend df4h df1d 20
  strategySignalAt strategyId ((back prepared.candles 0).map Candle.close)
    (mtfTrendSignal 20 20 prepared)

/-- The entry of `MULTI_STRATEGY_REGISTRY`. -/
def s10 : StrategyDefinition where
  strategyId := "S10_MTF_TREND_4H"
  timeframe := "4h"
  productionStatus := .researchOnly
  strategy := .mtfTrend (generateWithDaily "S10_MTF_TREND_4H")

/-- What a backtest over the whole history decides at the bar `t`. -/
def mtfBacktestDecision (df4h df1d : List Candle) (t : ℕ) : Option RawSignal :=
  mtfTrendSignal 20 20 ((precomputeMtfTrend df4h df1d 20).take (t + 1))

/-- Two daily series say the same at a time: they agree on the bars whose day has closed, and on
whether the bar of the current day is there. -/
structure SameDays (t : Datetime) (df1d df1d' : List Candle) : Prop where
  closed : ∀ row, ClosedBy t row → (row ∈ dailyRows df1d ↔ row ∈ dailyRows df1d')
  current : (∃ row ∈ dailyRows df1d, Inside t row) ↔ ∃ row ∈ dailyRows df1d', Inside t row

/-! ## What the signal reads -/

section Columns

variable {df4h df1d df1d' live : List Candle} {t : ℕ} {bar : Candle}

/-- The columns that `precompute_mtf_trend` computes from the candles alone. -/
def mtfColumns : List (String × (List Candle → Series)) :=
  [("_donchian_high", fun df => rolling 20 maxOf (highs df)),
    ("_donchian_low", fun df => rolling 20 minOf (lows df)),
    ("_adx_14", fun df => adx df 14), ("_atr_14", fun df => atr df 14)]

theorem mtfColumns_causal {column : String × (List Candle → Series)}
    (hcolumn : column ∈ mtfColumns) : Causal column.2 := by
  simp only [mtfColumns, List.mem_cons, List.not_mem_nil, or_false] at hcolumn
  rcases hcolumn with rfl | rfl | rfl | rfl
  · exact (causal_rolling 20 maxOf).comp causal_highs
  · exact (causal_rolling 20 minOf).comp causal_lows
  · exact causal_adx 14
  · exact causal_atr 14

theorem column_mtfTrend (df4h df1d : List Candle) {column : String × (List Candle → Series)}
    (hcolumn : column ∈ mtfColumns) :
    (precomputeMtfTrend df4h df1d 20).column column.1 = some (column.2 (sortValues df4h)) := by
  simp only [mtfColumns, List.mem_cons, List.not_mem_nil, or_false] at hcolumn
  rcases hcolumn with rfl | rfl | rfl | rfl <;> rfl

theorem column_dailyTrendUp (df4h df1d : List Candle) :
    (precomputeMtfTrend df4h df1d 20).column "_daily_trend_up" =
      some ((sortValues df4h).map fun c => trendAt 50 df1d c.timestamp) := rfl

/-- A column of the candles is the same on the first rows of a history and on these rows alone. -/
theorem iloc_take (hlive : sortValues live = (sortValues df4h).take (t + 1)) (k : ℕ)
    {column : String × (List Candle → Series)} (hcolumn : column ∈ mtfColumns) :
    iloc ((precomputeMtfTrend df4h df1d 20).take (t + 1)) k column.1 =
      iloc (precomputeMtfTrend live df1d' 20) k column.1 := by
  rw [iloc, iloc, column_take, column_mtfTrend df4h df1d hcolumn,
    column_mtfTrend live df1d' hcolumn, hlive, (mtfColumns_causal hcolumn).take, Option.map_some]

/-- The signal reads of a frame its candles, these columns and the last entry of the daily trend. -/
theorem mtfTrendSignal_congr (breakoutPeriod : ℕ) (adxThreshold : ℚ) {df df' : Frame}
    (hcandles : df.candles = df'.candles)
    (hcolumns : ∀ column ∈ mtfColumns, ∀ k, iloc df k column.1 = iloc df' k column.1)
    (htrend : iloc df 0 "_daily_trend_up" = iloc df' 0 "_daily_trend_up") :
    mtfTrendSignal breakoutPeriod adxThreshold df =
      mtfTrendSignal breakoutPeriod adxThreshold df' := by
  simp only [mtfColumns, List.forall_mem_cons] at hcolumns
  obtain ⟨hhigh, hlow, hadx, hatr, -⟩ := hcolumns
  simp only [mtfTrendSignal, hcandles, hhigh, hlow, hadx, hatr, htrend]

/-- The last of the first rows. -/
theorem back_take {α : Type*} {xs : List α} {x : α} (h : xs[t]? = some x) :
    back (xs.take (t + 1)) 0 = some x := by
  rw [List.take_add_one, h, Option.toList_some, back_concat_zero]

/-- The last entry of a column that has an entry for each candle. -/
theorem iloc_map {df : Frame} {name : String} {get : Candle → Option ℚ}
    (hcolumn : df.column name = some (df.candles.map get)) (hlast : back df.candles 0 = some bar) :
    iloc df 0 name = get bar := by
  rw [iloc, hcolumn, Option.bind_some, back_map, hlast]
  rfl

/-- Daily series that say the same at a time have the same trend then. -/
theorem trendAt_congr {time : Datetime} (h : DaysApart df1d) (h' : DaysApart df1d')
    (hsame : SameDays time df1d df1d') (emaPeriod : ℕ) :
    trendAt emaPeriod df1d time = trendAt emaPeriod df1d' time := by
  rw [trendAt_eq emaPeriod h, trendAt_eq emaPeriod h', closedRows_congr h h' hsame.closed]
  simp only [hsame.current]

end Columns

/-- **S10 does not look ahead.** A backtest over the whole history, whose columns and daily trend
are computed once, decides at every bar what `generate_with_daily` says of the candles up to it,
with any daily series that says the same at the time of the bar. -/
theorem mtf_no_look_ahead (strategyId : String) (df4h df1d live df1d' : List Candle) (t : ℕ)
    (bar : Candle) (hbar : (sortValues df4h)[t]? = some bar)
    (hlive : sortValues live = (sortValues df4h).take (t + 1))
    (h : DaysApart df1d) (h' : DaysApart df1d') (hsame : SameDays bar.timestamp df1d df1d') :
    generateWithDaily strategyId live df1d' =
      strategySignalAt strategyId (some bar.close) (mtfBacktestDecision df4h df1d t) := by
  have hlast : back (sortValues live) 0 = some bar := by rw [hlive, back_take hbar]
  -- the two frames have the daily trend of their own series at the last bar
  have hnow : iloc (precomputeMtfTrend live df1d' 20) 0 "_daily_trend_up" =
      trendAt 50 df1d' bar.timestamp := iloc_map (column_dailyTrendUp live df1d') hlast
  have hcolumn : ((precomputeMtfTrend df4h df1d 20).take (t + 1)).column "_daily_trend_up" =
      some (((sortValues df4h).take (t + 1)).map fun c => trendAt 50 df1d c.timestamp) := by
    rw [column_take, column_dailyTrendUp, Option.map_some, List.map_take]
  have hfirst : back ((precomputeMtfTrend df4h df1d 20).take (t + 1)).candles 0 = some bar :=
    back_take hbar
  have hthen : iloc ((precomputeMtfTrend df4h df1d 20).take (t + 1)) 0 "_daily_trend_up" =
      trendAt 50 df1d bar.timestamp := iloc_map hcolumn hfirst
  have hdecision : mtfTrendSignal 20 20 (precomputeMtfTrend live df1d' 20) =
      mtfBacktestDecision df4h df1d t := by
    refine mtfTrendSignal_congr 20 20 hlive (fun column hcolumn k => ?_) ?_
    · exact (iloc_take hlive k hcolumn).symm
    · rw [hnow, hthen, trendAt_congr h h' hsame]
  have hclose : (back (precomputeMtfTrend live df1d' 20).candles 0).map Candle.close =
      some bar.close := congrArg (Option.map Candle.close) hlast
  rw [generateWithDaily, hdecision, hclose]

section Example

/-- The 4h candles of a market that rises by one in each of them. -/
def risingBars : List Candle :=
  (List.range 44).map fun i =>
    { timestamp := Timedelta.hours (4 * i)
      timeframe := "4h"
      open_ := 100 + i
      high := 100 + i + 1 / 2
      low := 100 + i - 1 / 2
      close := 100 + i
      volume := 1 }

/-- The days of that market which have closed. -/
def risingDays : List Candle := (List.range 7).map fun i => barAt i 0 (105 + 6 * i)

/-- The next 4h candle, in which the market falls. -/
def fallingBar : Candle := { barAt 7 8 50 with timeframe := "4h" }

/-- At four o'clock of the eighth day S10 buys, though the history has the fall of that day. -/
theorem mtf_no_look_ahead_rising :
    (generateWithDaily "S10_MTF_TREND_4H" risingBars (risingDays ++ [barAt 7 0 147])).signalType =
      .long := by
  rw [mtf_no_look_ahead "S10_MTF_TREND_4H" (risingBars ++ [fallingBar])
    (risingDays ++ [barAt 7 0 50, barAt 8 0 40]) risingBars (risingDays ++ [barAt 7 0 147]) 43
    (risingBars.getLast (by decide)) (by decide +kernel) (by decide +kernel)
    (by unfold DaysApart; decide +kernel) (by unfold DaysApart; decide +kernel)
    ⟨sameClosed_of_forall (by decide +kernel) (by decide +kernel), by decide +kernel⟩]
  decide +kernel

end Example

/-! ## Other prices -/

section Prices

variable (T T' : PriceMap)

theorem sortValues_map (df : List Candle) :
    sortValues (df.map T.candle) = (sortValues df).map T.candle :=
  (List.map_insertionSort _ _ T.candle df fun _ _ _ _ => Iff.rfl).symm

/-- An entry of a column on a changed chart. -/
theorem iloc_follows (name : String) {F : List Candle → Series} (hF : (name, F) ∈ mtfColumns)
    {f : ℚ → ℚ} (hf : Carries T.candle (Option.map f) F F) (df4h df1d df1d' : List Candle) (k : ℕ) :
    iloc (precomputeMtfTrend (df4h.map T.candle) df1d' 20) k name =
      (iloc (precomputeMtfTrend df4h df1d 20) k name).map f := by
  rw [iloc, iloc, column_mtfTrend _ df1d' hF, column_mtfTrend df4h df1d hF,
    Option.bind_some, Option.bind_some, sortValues_map]
  show (back (F ((sortValues df4h).map T.candle)) k).join = _
  rw [hf, back_map]
  rcases back (F (sortValues df4h)) k with _ | entry <;> rfl

/-- A comparison that a change of the prices keeps. -/
theorem compareColumns_map {r : ℚ → ℚ → Bool} {f : ℚ → ℚ} (h : ∀ a b, r (f a) (f b) = r a b)
    (xs ys : Series) : compareColumns r (xs.map (Option.map f)) (ys.map (Option.map f)) =
      compareColumns r xs ys := by
  rw [compareColumns, compareColumns, List.zipWith_map]
  congr 1
  funext x y
  rcases x with _ | a <;> rcases y with _ | b <;> simp [h]

theorem trendUp_map (hT : 0 < T.scale) {emaPeriod : ℕ} (h : 0 < emaPeriod)
    (daily : List DailyRow) :
    trendUp emaPeriod (daily.map (Prod.map id T.price)) = trendUp emaPeriod daily := by
  have hclose : (daily.map (Prod.map id T.price)).map (fun row => some row.2) =
      (daily.map fun row => some row.2).map (Option.map T.price) := by
    rw [List.map_map, List.map_map]
    rfl
  have hema := carries_ema_price T h (daily.map fun row => some row.2)
  dsimp only at hema
  rw [trendUp, trendUp, hclose, hema]
  exact compareColumns_map (fun a b => by simp [T.price_lt_price_of_pos hT]) _ _

/-- The daily trend compares prices with their own mean. -/
theorem trendAt_map (hT : 0 < T.scale) {emaPeriod : ℕ} (h : 0 < emaPeriod) (df1d : List Candle)
    (time : Datetime) : trendAt emaPeriod (df1d.map T.candle) time = trendAt emaPeriod df1d time := by
  have hrows : dailyRows (df1d.map T.candle) = (dailyRows df1d).map (Prod.map id T.price) := by
    rw [dailyRows, dailyRows, List.map_map, List.map_map]
    rfl
  have hsorted : byKey Prod.fst ((dailyRows df1d).map (Prod.map id T.price)) =
      (byKey Prod.fst (dailyRows df1d)).map (Prod.map id T.price) :=
    (List.map_insertionSort _ _ (Prod.map id T.price) (dailyRows df1d) fun _ _ _ _ => Iff.rfl).symm
  rw [trendAt_before, trendAt_before, hrows, hsorted, List.filter_map, trendUp_map T hT h]
  rfl

/-- The signal on a frame whose entries have changed with the prices. -/
theorem mtfTrendSignal_map (hT : 0 < T.scale) (breakoutPeriod : ℕ) (adxThreshold : ℚ)
    {df df' : Frame} (hcandles : df'.candles = df.candles.map T.candle)
    (hadx : iloc df' 0 "_adx_14" = iloc df 0 "_adx_14")
    (hatr : iloc df' 0 "_atr_14" = (iloc df 0 "_atr_14").map T.range)
    (hhigh : iloc df' 1 "_donchian_high" = (iloc df 1 "_donchian_high").map T.price)
    (hlow : iloc df' 1 "_donchian_low" = (iloc df 1 "_donchian_low").map T.price)
    (htrend : iloc df' 0 "_daily_trend_up" = iloc df 0 "_daily_trend_up") :
    mtfTrendSignal breakoutPeriod adxThreshold df' =
      (mtfTrendSignal breakoutPeriod adxThreshold df).map (signalOn T) := by
  unfold mtfTrendSignal
  rw [hcandles, List.length_map, hadx, htrend]
  refine gate_follows T Iff.rfl fun _ => bind_follows T (back_map ..) fun last _ =>
    bind_same T fun adx14 _ => bind_follows T hatr fun a _ => bind_follows T hhigh fun high _ =>
    bind_follows T hlow fun low _ => bind_same T fun trend _ => gate_follows T (by simp) fun _ =>
      levels_follow_of_pos T hT levelsFollow_atrSlTp last.close a ?_ ?_
  · simp only [gt_iff_lt, T.candle_close, T.price_lt_price_of_pos hT]
  · simp only [T.candle_close, T.price_lt_price_of_pos hT]

/-- A `StrategySignal` on a changed chart. -/
def strategySignalOn (signal : StrategySignal) : StrategySignal :=
  { signal with
    signalType := sideOn T signal.signalType
    entryPrice := signal.entryPrice.map T.price
    stopLoss := signal.stopLoss.map T.price
    takeProfit1 := signal.takeProfit1.map T.price
    takeProfit2 := signal.takeProfit2.map T.price
    takeProfit3 := signal.takeProfit3.map T.price }

theorem strategySignalAt_map (strategyId : String) (entry : Option ℚ) (raw : Option RawSignal) :
    strategySignalAt strategyId (entry.map T.price) (raw.map (signalOn T)) =
      strategySignalOn T (strategySignalAt strategyId entry raw) := by
  rcases raw with _ | raw <;> rfl

end Prices

/-- **S10 in any currency.** On 4h candles in another currency, and daily candles in a third, S10
gives the signal it gives on the candles, with its prices in the currency of the 4h candles. -/
theorem mtf_in_any_currency (T T' : PriceMap) (hT : 0 < T.scale) (hT' : 0 < T'.scale)
    (strategyId : String) (df4h df1d : List Candle) :
    generateWithDaily strategyId (df4h.map T.candle) (df1d.map T'.candle) =
      strategySignalOn T (generateWithDaily strategyId df4h df1d) := by
  have hcandles : (precomputeMtfTrend (df4h.map T.candle) (df1d.map T'.candle) 20).candles =
      (precomputeMtfTrend df4h df1d 20).candles.map T.candle := sortValues_map T df4h
  have hmax : Carries T.candle (Option.map T.price) (fun df => rolling 20 maxOf (highs df))
      (fun df => rolling 20 maxOf (highs df)) :=
    (carries_rolling fun l hl => maxOf_map (price_monotone T hT)
      (ne_nil_of_length (by decide) hl)).comp (carries_highs_of_pos T hT)
  have hmin : Carries T.candle (Option.map T.price) (fun df => rolling 20 minOf (lows df))
      (fun df => rolling 20 minOf (lows df)) :=
    (carries_rolling fun l hl => minOf_map (price_monotone T hT)
      (ne_nil_of_length (by decide) hl)).comp (carries_lows_of_pos T hT)
  have hatr : Carries T.candle (Option.map T.range) (fun df => atr df 14) (fun df => atr df 14) :=
    carries_atr T (by decide)
  have hadx : Carries T.candle (Option.map id) (fun df => adx df 14) (fun df => adx df 14) := by
    rw [Option.map_id]
    exact carries_adx T (by decide)
  have htrend : (precomputeMtfTrend (df4h.map T.candle) (df1d.map T'.candle) 20).column
      "_daily_trend_up" = (precomputeMtfTrend df4h df1d 20).column "_daily_trend_up" := by
    rw [column_dailyTrendUp, column_dailyTrendUp, sortValues_map, List.map_map]
    refine congrArg some (List.map_congr_left fun c _ => ?_)
    exact trendAt_map T' hT' (by decide) df1d c.timestamp
  have hclose : (back ((precomputeMtfTrend df4h df1d 20).candles.map T.candle) 0).map Candle.close =
      ((back (precomputeMtfTrend df4h df1d 20).candles 0).map Candle.close).map T.price := by
    rw [back_map, Option.map_map, Option.map_map]
    rfl
  have hsignal : mtfTrendSignal 20 20
      (precomputeMtfTrend (df4h.map T.candle) (df1d.map T'.candle) 20) =
        (mtfTrendSignal 20 20 (precomputeMtfTrend df4h df1d 20)).map (signalOn T) := by
    refine mtfTrendSignal_map T hT 20 20 hcandles ?_
      (iloc_follows T "_atr_14" (by simp [mtfColumns]) hatr df4h df1d _ 0)
      (iloc_follows T "_donchian_high" (by simp [mtfColumns]) hmax df4h df1d _ 1)
      (iloc_follows T "_donchian_low" (by simp [mtfColumns]) hmin df4h df1d _ 1)
      (by rw [iloc, iloc, htrend])
    rw [iloc_follows T "_adx_14" (by simp [mtfColumns]) hadx df4h df1d _ 0, Option.map_id_apply]
  rw [generateWithDaily, generateWithDaily, hsignal, hcandles, hclose, strategySignalAt_map]

/-- Prices in rupees. -/
def rupees : PriceMap := rescale (k := 83) (by norm_num)

/-- Prices in cents. -/
def cents : PriceMap := rescale (k := 100) (by norm_num)

/-- The signal of the rising market in rupees, with its days in cents. -/
theorem mtf_in_any_currency_rupees :
    (generateWithDaily "S10_MTF_TREND_4H" (risingBars.map rupees.candle)
      ((risingDays ++ [barAt 7 0 147]).map cents.candle)).entryPrice = some (83 * 143) := by
  rw [mtf_in_any_currency rupees cents (by decide +kernel) (by decide +kernel)]
  decide +kernel

end AlphaOne.SignalEngine

import AlphaOne.FeatureEngine.Engine
import AlphaOne.FeatureEngine.LastRow
import AlphaOne.Foundations.Timeline

/-!
# The daily trend of a 4h bar

`attach_daily_trend_filter` and `precompute_mtf_trend` of `ml/evaluation/multi_strategy_signals.py`.
The trend of a day is posted on the row of the next daily bar, and a 4h bar reads the last row that
starts strictly before it.

`trendAt_eq` says which bar that comes to. When the series has the bar of the day the 4h bar lies
in, it is the last bar whose day has closed; and when that bar is missing, the one before it. So the
closed bars determine the trend together with the presence of the current one, of which no price is
read (`attachDailyTrendFilter_congr`).
-/

namespace AlphaOne.ML

open Foundations FeatureEngine

/-- A row of `df_1d[["timestamp", "close"]]`. -/
abbrev DailyRow := Datetime × ℚ

/-- The rows of the daily series. -/
def dailyRows (df1d : List Candle) : List DailyRow := df1d.map fun c => (c.timestamp, c.close)

/-- `daily["close"] > daily["_daily_ema"]`. -/
def trendUp (emaPeriod : ℕ) (daily : List DailyRow) : Series :=
  let close : Series := daily.map fun row => some row.2
  compareColumns (· > ·) close (ema close emaPeriod)

/-- `daily["_daily_trend_up"]`. -/
def dailyTrendUp (emaPeriod : ℕ) (daily : List DailyRow) : Series :=
  shift 1 (trendUp emaPeriod daily)

/-- `daily_lookup`: the rows that have a trend. -/
def dailyLookup (emaPeriod : ℕ) (df1d : List Candle) : List (Datetime × ℚ) :=
  let daily := byKey Prod.fst (dailyRows df1d)
  byKey Prod.fst ((daily.zip (dailyTrendUp emaPeriod daily)).filterMap fun row =>
    row.2.map (row.1.1, ·))

/-- `merge_asof` with `direction="backward"` and without exact matches, for one time. -/
def asofBefore {α : Type*} (entries : List (Datetime × α)) (time : Datetime) : Option α :=
  ((entries.filter (·.1 < time)).getLast?).map Prod.snd

/-- `attach_daily_trend_filter`. -/
def attachDailyTrendFilter (df4h df1d : List Candle) (emaPeriod : ℕ) : Frame :=
  let df := sortValues df4h
  Frame.assign { candles := df }
    [("_daily_trend_up",
      df.map fun c => asofBefore (dailyLookup emaPeriod df1d) c.timestamp)]

/-- `precompute_mtf_trend`. -/
def precomputeMtfTrend (df4h df1d : List Candle) (breakoutPeriod : ℕ) : Frame :=
  let df := attachDailyTrendFilter df4h df1d 50
  df.assign
    [("_donchian_high", rolling breakoutPeriod maxOf (df.prices Candle.high)),
      ("_donchian_low", rolling breakoutPeriod minOf (df.prices Candle.low)),
      ("_adx_14", adx df.candles 14), ("_atr_14", atr df.candles 14)]

/-- The daily bars start at least a day apart, in whatever order they come. -/
def DaysApart (df1d : List Candle) : Prop :=
  df1d.Pairwise fun a b => Timedelta.days 1 ≤ |b.timestamp - a.timestamp|

/-- The day of a bar has closed. -/
def ClosedBy (t : Datetime) (row : DailyRow) : Prop := row.1 + Timedelta.days 1 ≤ t

instance (t : Datetime) (row : DailyRow) : Decidable (ClosedBy t row) :=
  inferInstanceAs (Decidable (_ ≤ _))

/-- A time lies in the day of a bar, after its start. -/
def Inside (t : Datetime) (row : DailyRow) : Prop := row.1 < t ∧ ¬ClosedBy t row

instance (t : Datetime) (row : DailyRow) : Decidable (Inside t row) :=
  inferInstanceAs (Decidable (_ ∧ _))

/-! ## The trend at a time -/

/-- The bars whose day has closed, in time order. -/
def closedRows (t : Datetime) (df1d : List Candle) : List DailyRow :=
  (byKey Prod.fst (dailyRows df1d)).filter (ClosedBy t ·)

/-- The trend that `attach_daily_trend_filter` gives a time. -/
def trendAt (emaPeriod : ℕ) (df1d : List Candle) (t : Datetime) : Option ℚ :=
  asofBefore (dailyLookup emaPeriod df1d) t

variable {emaPeriod : ℕ} {df1d df1d' : List Candle} {t : Datetime}

theorem causal_trendUp (emaPeriod : ℕ) : Causal (trendUp emaPeriod) := by
  have hclose : Causal fun daily : List DailyRow => daily.map fun row => some row.2 := causal_map _
  exact hclose.zipWith ((causal_ema emaPeriod).comp hclose) _

theorem causal_dailyTrendUp (emaPeriod : ℕ) : Causal (dailyTrendUp emaPeriod) :=
  (causal_shift 1).comp (causal_trendUp emaPeriod)

theorem DaysApart.rows (h : DaysApart df1d) :
    (dailyRows df1d).Pairwise fun a b => Timedelta.days 1 ≤ |b.1 - a.1| := List.pairwise_map.2 h

/-- The trend is never a NaN. -/
theorem back_trendUp {daily : List DailyRow} {k : ℕ} (h : k < daily.length) :
    ∃ x, back (trendUp emaPeriod daily) k = some (some x) := by
  have hlength : (trendUp emaPeriod daily).length = daily.length :=
    (causal_trendUp emaPeriod).length daily
  have hk : k < (trendUp emaPeriod daily).reverse.length := by
    rw [List.length_reverse, hlength]
    exact h
  have hmem : (trendUp emaPeriod daily).reverse[k] ∈ trendUp emaPeriod daily :=
    List.mem_reverse.1 (List.getElem_mem hk)
  obtain ⟨x, hx⟩ := Option.isSome_iff_exists.1 (isSome_of_mem_compareColumns hmem)
  exact ⟨x, by rw [back, List.getElem?_eq_getElem hk, hx]⟩

/-- The rows with a trend, up to a row. -/
def lookupOf (emaPeriod : ℕ) (daily : List DailyRow) : List (Datetime × ℚ) :=
  (daily.zip (dailyTrendUp emaPeriod daily)).filterMap fun row => row.2.map (row.1.1, ·)

/-- The last row with a trend has the trend of the row before it. -/
theorem getLast?_lookupOf (emaPeriod : ℕ) (daily : List DailyRow) :
    ((lookupOf emaPeriod daily).getLast?).map Prod.snd =
      (back (trendUp emaPeriod daily) 1).join := by
  rcases List.eq_nil_or_concat daily with rfl | ⟨pre, row, rfl⟩
  · rfl
  rw [List.concat_eq_append]
  obtain ⟨y, hy⟩ := (causal_dailyTrendUp emaPeriod).concat pre row
  have hlength := (causal_dailyTrendUp emaPeriod).length pre
  have hne : trendUp emaPeriod (pre ++ [row]) ≠ [] := by
    rw [← List.length_pos_iff, (causal_trendUp emaPeriod).length]
    simp
  have hlast := back_shift (k := 1) hne
  rw [← dailyTrendUp, hy, back_concat_zero] at hlast
  obtain rfl : y = _ := Option.some.inj hlast
  rw [lookupOf, hy, List.zip_append hlength.symm, List.filterMap_append]
  rcases List.eq_nil_or_concat pre with rfl | ⟨pre', row', rfl⟩
  · -- the first bar has no trend of the day before
    have hnone : back (trendUp emaPeriod ([] ++ [row])) 1 = none := by
      rw [back, List.getElem?_eq_none_iff, List.length_reverse, (causal_trendUp emaPeriod).length]
      simp
    rw [hnone]
    rfl
  · obtain ⟨x, hx⟩ : ∃ x, back (trendUp emaPeriod (pre'.concat row' ++ [row])) 1 = some (some x) :=
      back_trendUp (by simp)
    rw [hx]
    simp

/-- The rows with a trend before a time are those of the bars before it. -/
theorem trendAt_before (emaPeriod : ℕ) (df1d : List Candle) (t : Datetime) :
    trendAt emaPeriod df1d t =
      (back (trendUp emaPeriod ((byKey Prod.fst (dailyRows df1d)).filter (·.1 < t))) 1).join := by
  set daily := byKey Prod.fst (dailyRows df1d) with hdaily
  have hsorted : daily.Pairwise fun a b => a.1 ≤ b.1 := byKey_sorted Prod.fst _
  have hprefix : daily.Pairwise fun a b => decide (b.1 < t) → decide (a.1 < t) :=
    hsorted.imp fun hab hb => by
      rw [decide_eq_true_eq] at hb ⊢
      exact lt_of_le_of_lt hab hb
  have hrows : (daily.zip (dailyTrendUp emaPeriod daily)).Pairwise fun a b => a.1.1 ≤ b.1.1 := by
    have hfst : (daily.zip (dailyTrendUp emaPeriod daily)).map Prod.fst = daily :=
      List.map_fst_zip ((causal_dailyTrendUp emaPeriod).length daily).ge
    rw [← hfst, List.pairwise_map] at hsorted
    exact hsorted
  have hlookup : byKey Prod.fst (lookupOf emaPeriod daily) = lookupOf emaPeriod daily := by
    refine List.Pairwise.insertionSort_eq (hrows.filterMap _ ?_)
    simp only [Option.map_eq_some_iff]
    rintro a b hab _ ⟨x, -, rfl⟩ _ ⟨y, -, rfl⟩
    exact hab
  have hfilter : (lookupOf emaPeriod daily).filter (fun e => decide (e.1 < t)) =
      lookupOf emaPeriod (daily.filter (·.1 < t)) := by
    rw [lookupOf, lookupOf, ← (causal_dailyTrendUp emaPeriod).zip_filter hprefix,
      List.filter_filterMap, List.filterMap_filter]
    refine List.filterMap_congr fun row _ => ?_
    rcases row with ⟨⟨start, close⟩, _ | x⟩
    · simp
    · by_cases hstart : start < t <;> simp [hstart, Option.filter]
  rw [trendAt, asofBefore, dailyLookup, ← hdaily, ← lookupOf, hlookup, hfilter,
    getLast?_lookupOf]

/-! ## Which bar it is -/

/-- The bars before a time are those whose day has closed and the one the time is inside of. -/
theorem DaysApart.before_eq (h : DaysApart df1d) :
    (∃ row ∈ dailyRows df1d, Inside t row ∧
      (byKey Prod.fst (dailyRows df1d)).filter (·.1 < t) = closedRows t df1d ++ [row]) ∨
    (∀ row ∈ dailyRows df1d, ¬Inside t row) ∧
      (byKey Prod.fst (dailyRows df1d)).filter (·.1 < t) = closedRows t df1d := by
  have hday : (0 : ℤ) < Timedelta.days 1 := by decide
  rcases filter_started (t := t) (byKey_apart h.rows) (p := fun row => decide (row.1 < t))
    (fun a _ ha => (of_decide_eq_true ha).le) (fun a _ ha => decide_eq_true (by linarith)) with
    ⟨row, hrow, hstarted, hopen, heq⟩ | ⟨hall, heq⟩
  · exact .inl ⟨row, (mem_byKey _).1 hrow, ⟨of_decide_eq_true hstarted, not_le.2 hopen⟩, heq⟩
  · exact .inr ⟨fun row hrow hinside =>
      hinside.2 (hall row ((mem_byKey _).2 hrow) (decide_eq_true hinside.1)), heq⟩

/-- **The trend at a time** is that of the last bar whose day has closed, when the series has the
bar of the current day, and else that of the bar before. -/
theorem trendAt_eq (emaPeriod : ℕ) (h : DaysApart df1d) : trendAt emaPeriod df1d t =
    (back (trendUp emaPeriod (closedRows t df1d))
      (if ∃ row ∈ dailyRows df1d, Inside t row then 0 else 1)).join := by
  rw [trendAt_before]
  rcases h.before_eq (t := t) with ⟨row, hrow, hopen, hbefore⟩ | ⟨hnone, hbefore⟩
  · obtain ⟨y, hy⟩ := (causal_trendUp emaPeriod).concat (closedRows t df1d) row
    rw [hbefore, if_pos ⟨row, hrow, hopen⟩, hy, back_concat_succ]
  · rw [hbefore, if_neg fun ⟨row, hrow, hopen⟩ => hnone row hrow hopen]

/-- The closed bars of two series are the same. -/
theorem closedRows_congr (h : DaysApart df1d) (h' : DaysApart df1d')
    (hclosed : ∀ row, ClosedBy t row → (row ∈ dailyRows df1d ↔ row ∈ dailyRows df1d')) :
    closedRows t df1d = closedRows t df1d' :=
  filter_byKey_congr Prod.fst (apart_ne (by decide) h.rows) (apart_ne (by decide) h'.rows)
    fun row hrow => hclosed row (of_decide_eq_true hrow)

/-- The entry of a row is the trend at its time. -/
theorem entry_attachDailyTrendFilter (emaPeriod : ℕ) {df4h : List Candle} {i : ℕ} {c : Candle}
    (hrow : (sortValues df4h)[i]? = some c) :
    (attachDailyTrendFilter df4h df1d emaPeriod).entry i "_daily_trend_up" =
      trendAt emaPeriod df1d c.timestamp := by
  have hlookup : (attachDailyTrendFilter df4h df1d emaPeriod).column "_daily_trend_up" =
      some ((sortValues df4h).map fun c => trendAt emaPeriod df1d c.timestamp) := rfl
  rw [Frame.entry, hlookup, Option.bind_some, List.getElem?_map, hrow]
  rfl

/-- **The daily trend does not look ahead**: two series that agree on the bars whose day has closed
by the time of a 4h bar, and on whether the bar of the current day is there, give it the same
trend. -/
theorem attachDailyTrendFilter_congr (df4h df1d df1d' : List Candle) (emaPeriod : ℕ)
    (h : DaysApart df1d) (h' : DaysApart df1d') (i : ℕ) (c : Candle)
    (hrow : (sortValues df4h)[i]? = some c)
    (hclosed : ∀ row, ClosedBy c.timestamp row → (row ∈ dailyRows df1d ↔ row ∈ dailyRows df1d'))
    (hcurrent : (∃ row ∈ dailyRows df1d, Inside c.timestamp row) ↔
      ∃ row ∈ dailyRows df1d', Inside c.timestamp row) :
    (attachDailyTrendFilter df4h df1d emaPeriod).entry i "_daily_trend_up" =
      (attachDailyTrendFilter df4h df1d' emaPeriod).entry i "_daily_trend_up" := by
  rw [entry_attachDailyTrendFilter emaPeriod hrow, entry_attachDailyTrendFilter emaPeriod hrow,
    trendAt_eq emaPeriod h, trendAt_eq emaPeriod h', closedRows_congr h h' hclosed]
  simp only [hcurrent]

section Example

/-- A bar of a day, by its hour. -/
def barAt (day hour : ℤ) (close : ℚ) : Candle where
  timestamp := Timedelta.days day + Timedelta.hours hour
  timeframe := "1d"
  open_ := close
  high := close
  low := close
  close := close
  volume := 1

/-- Two days have closed. -/
def twoDays : List Candle := [barAt 0 0 100, barAt 1 0 110]

/-- The same days, and the one that has begun. -/
def threeDays : List Candle := twoDays ++ [barAt 2 0 100]

theorem sameClosed_of_forall (h : ∀ row ∈ dailyRows df1d, ClosedBy t row → row ∈ dailyRows df1d')
    (h' : ∀ row ∈ dailyRows df1d', ClosedBy t row → row ∈ dailyRows df1d) (row : DailyRow)
    (hclosed : ClosedBy t row) : row ∈ dailyRows df1d ↔ row ∈ dailyRows df1d' :=
  ⟨fun hrow => h row hrow hclosed, fun hrow => h' row hrow hclosed⟩

/-- **The current bar decides which day is read**: at four o'clock of the third day the series
without its bar gives the trend of the first day, and the series with it that of the second. -/
theorem attachDailyTrendFilter_current :
    (attachDailyTrendFilter [barAt 2 4 100] twoDays 50).entry 0 "_daily_trend_up" = some 0 ∧
      (attachDailyTrendFilter [barAt 2 4 100] threeDays 50).entry 0 "_daily_trend_up" = some 1 ∧
      ¬∀ (df4h df1d df1d' : List Candle) (emaPeriod : ℕ), DaysApart df1d → DaysApart df1d' →
        ∀ (i : ℕ) (c : Candle), (sortValues df4h)[i]? = some c →
        (∀ row, ClosedBy c.timestamp row → (row ∈ dailyRows df1d ↔ row ∈ dailyRows df1d')) →
        (attachDailyTrendFilter df4h df1d emaPeriod).entry i "_daily_trend_up" =
          (attachDailyTrendFilter df4h df1d' emaPeriod).entry i "_daily_trend_up" := by
  have hwithout : (attachDailyTrendFilter [barAt 2 4 100] twoDays 50).entry 0 "_daily_trend_up" =
      some 0 := by decide +kernel
  have hwith : (attachDailyTrendFilter [barAt 2 4 100] threeDays 50).entry 0 "_daily_trend_up" =
      some 1 := by decide +kernel
  refine ⟨hwithout, hwith, fun h => ?_⟩
  have hsame := h [barAt 2 4 100] twoDays threeDays 50 (by unfold DaysApart; decide +kernel)
    (by unfold DaysApart; decide +kernel) 0 (barAt 2 4 100) rfl
    (sameClosed_of_forall (by decide +kernel) (by decide +kernel))
  rw [hwithout, hwith] at hsame
  simp at hsame

/-- Whatever the third day closes at, and whatever comes after it, the trend is that of the second
day. -/
theorem attachDailyTrendFilter_congr_threeDays :
    (attachDailyTrendFilter [barAt 2 4 100] threeDays 50).entry 0 "_daily_trend_up" =
      (attachDailyTrendFilter [barAt 2 4 100] [barAt 3 0 80, barAt 2 0 90, barAt 1 0 110,
        barAt 0 0 100] 50).entry 0 "_daily_trend_up" :=
  attachDailyTrendFilter_congr _ _ _ _ (by unfold DaysApart; decide +kernel)
    (by unfold DaysApart; decide +kernel) 0 (barAt 2 4 100) rfl
    (sameClosed_of_forall (by decide +kernel) (by decide +kernel))
    (by decide +kernel)

end Example

end AlphaOne.ML

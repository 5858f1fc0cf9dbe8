import AlphaOne.DataQuality.Validator

/-!
# What a report says of a frame

The figures of a report are computed one by one from the sorted frame. The rows without their
repetitions and the candles that are missing make up the candles that are expected, as soon as there
are two timestamps (`missingCount_add_distinct`); for one timestamp none is expected. The coverage
takes all rows, so that a repeated candle makes up for a missing one; and since the frame is sorted
first, no row is ever out of order.

* `report_facts`: the figures, by what the frame holds.
* `tells_truth_iff`: the frames of which a report tells the truth.
-/

namespace AlphaOne.DataQuality

open Foundations

/-- The timestamps lie on the grid of the timeframe. -/
def OnGrid (interval : Timedelta) (df : List Candle) : Prop :=
  ∃ origin, ∀ row ∈ df, interval ∣ row.timestamp - origin

/-- The number of different timestamps. -/
def distinct (df : List Candle) : ℕ := (timestamps df).toFinset.card

/-- The points of the grid from the first timestamp to the last. -/
def gridPoints (interval : Timedelta) (df : List Candle) : ℤ :=
  (maxTimestamp df - minTimestamp df) / interval + 1

/-- A report tells the truth: its counts add up, the coverage is the share of the expected candles
that are there, in percent and to four digits, and is full only if none is missing, and the rows out
of order are counted as they were given. -/
structure TellsTruth (df : List Candle) (report : DataQualityReport) : Prop where
  counts : (report.rowCount : ℤ) - report.duplicateCount + report.missingCount =
    report.expectedRowCount
  coverage : report.coveragePct = roundTo ((distinct df : ℤ) / report.expectedRowCount * 100) 4
  full : report.coveragePct = 100 → report.missingCount = 0
  order : report.outOfOrderCount = descents (timestamps df)

/-- The rows are given in order and have two timestamps or more; no timestamp is repeated, or none
is missing, or the grid is so long that the repetitions do not show in the coverage; and none is
missing, or the grid is not so long that what is missing does not show. -/
structure Reportable (interval : Timedelta) (df : List Candle) : Prop where
  sorted : (timestamps df).Pairwise (· ≤ ·)
  two : 2 ≤ distinct df
  repeated : (timestamps df).Nodup ∨ (distinct df : ℤ) = gridPoints interval df ∨
    roundTo ((min (df.length : ℤ) (gridPoints interval df) : ℤ) / gridPoints interval df * 100) 4 =
      roundTo ((distinct df : ℤ) / gridPoints interval df * 100) 4
  full : (distinct df : ℤ) = gridPoints interval df ∨
    gridPoints interval df < 2000000 * (gridPoints interval df - distinct df)

/-! ## First and last -/

variable {df : List Candle} {interval : Timedelta} {timeframe : String}

theorem timeframe_pos (h : timeframeToTimedelta timeframe = some interval) : 0 < interval := by
  unfold timeframeToTimedelta at h
  split at h <;> first | (obtain rfl := Option.some.inj h; decide) | cases h

theorem timestamps_ne_nil (h : df ≠ []) : timestamps df ≠ [] := by
  simpa [timestamps] using h

theorem isLeast_minTimestamp (h : df ≠ []) : IsLeast {t | t ∈ timestamps df} (minTimestamp df) := by
  rw [minTimestamp]
  cases hmin : (timestamps df).min? with
  | none => exact absurd (List.min?_eq_none_iff.1 hmin) (timestamps_ne_nil h)
  | some t => exact List.min?_eq_some_iff.1 hmin

theorem isGreatest_maxTimestamp (h : df ≠ []) :
    IsGreatest {t | t ∈ timestamps df} (maxTimestamp df) := by
  rw [maxTimestamp]
  cases hmax : (timestamps df).max? with
  | none => exact absurd (List.max?_eq_none_iff.1 hmax) (timestamps_ne_nil h)
  | some t => exact List.max?_eq_some_iff.1 hmax

/-- Sorting moves neither the first timestamp nor the last. -/
theorem extremes_sortValues (h : df ≠ []) :
    minTimestamp (sortValues df) = minTimestamp df ∧
      maxTimestamp (sortValues df) = maxTimestamp df := by
  have hset : {t | t ∈ timestamps (sortValues df)} = {t | t ∈ timestamps df} :=
    Set.ext fun t => mem_timestamps_sortValues
  have hmin := isLeast_minTimestamp (sortValues_ne_nil h)
  have hmax := isGreatest_maxTimestamp (sortValues_ne_nil h)
  rw [hset] at hmin hmax
  exact ⟨hmin.unique (isLeast_minTimestamp h), hmax.unique (isGreatest_maxTimestamp h)⟩

theorem distinct_sortValues (df : List Candle) : distinct (sortValues df) = distinct df := by
  rw [distinct, distinct, List.toFinset_eq_of_perm _ _ (timestamps_sortValues_perm df)]

/-- There are two timestamps exactly when the last is after the first. -/
theorem two_le_distinct_iff (h : df ≠ []) : 2 ≤ distinct df ↔ minTimestamp df < maxTimestamp df := by
  have hmin := isLeast_minTimestamp h
  have hmax := isGreatest_maxTimestamp h
  rw [distinct, ← Nat.lt_iff_add_one_le, Finset.one_lt_card]
  constructor
  · rintro ⟨s, hs, t, ht, hst⟩
    rw [List.mem_toFinset] at hs ht
    by_contra hle
    have hs' : s = minTimestamp df := le_antisymm ((hmax.2 hs).trans (not_lt.1 hle)) (hmin.2 hs)
    have ht' : t = minTimestamp df := le_antisymm ((hmax.2 ht).trans (not_lt.1 hle)) (hmin.2 ht)
    exact hst (hs'.trans ht'.symm)
  · intro hlt
    exact ⟨_, List.mem_toFinset.2 hmin.1, _, List.mem_toFinset.2 hmax.1, hlt.ne⟩

/-! ## Gaps -/

theorem roundHalfEven_intCast (n : ℤ) : roundHalfEven n = n := by
  simp [roundHalfEven]

/-- On the grid, a gap is as long as the points of the grid that are skipped. -/
theorem missing_gapBetween (hpos : 0 < interval) {x y : Datetime} (hle : x ≤ y)
    (hgrid : interval ∣ y - x) :
    ((gapBetween interval (x, y)).map Gap.missingCandles).getD 0 = absent interval x y := by
  obtain ⟨q, hq⟩ := hgrid
  have hposQ : (0 : ℚ) < interval := by exact_mod_cast hpos
  have hdelta : (y - x : ℤ) = interval * q := hq
  have hquot : ((interval * q : ℤ) : ℚ) / interval = (q : ℤ) := by
    push_cast
    exact mul_div_cancel_left₀ _ hposQ.ne'
  have hsteps : interval * q / interval = q := Int.mul_ediv_cancel_left q hpos.ne'
  have hnonneg : 0 ≤ q := by
    by_contra hneg
    have := mul_neg_of_pos_of_neg hpos (not_le.1 hneg)
    linarith
  simp only [gapBetween, absent, hdelta, hquot, hsteps, roundHalfEven_intCast]
  have hwide : ((interval * q : ℤ) : ℚ) > interval * (3 / 2) ↔ 2 ≤ q := by
    push_cast
    rw [gt_iff_lt, mul_lt_mul_iff_right₀ hposQ]
    constructor
    · intro hlt
      have : (1 : ℚ) < q := by linarith
      have : (1 : ℤ) < q := by exact_mod_cast this
      omega
    · intro htwo
      have : (2 : ℚ) ≤ q := by exact_mod_cast htwo
      linarith
  by_cases htwo : 2 ≤ q
  · have hxy : x ≠ y := by
      rintro rfl
      have : interval * q = 0 := by linarith
      rcases mul_eq_zero.1 this with hzero | hzero
      · exact hpos.ne' hzero
      · linarith
    rw [if_pos (hwide.2 htwo), if_pos (by omega), if_neg hxy]
    rfl
  · rw [if_neg fun hgt => htwo (hwide.1 hgt)]
    rcases (show q = 0 ∨ q = 1 by omega) with rfl | rfl
    · rw [if_pos (by linarith)]
      rfl
    · rw [if_neg (by rintro rfl; linarith)]
      rfl

/-- The missing candles are those that are skipped between neighbours. -/
theorem sum_missingCandles (pairs : List (Datetime × Datetime)) :
    ((pairs.filterMap (gapBetween interval)).map Gap.missingCandles).sum =
      (pairs.map fun p => ((gapBetween interval p).map Gap.missingCandles).getD 0).sum := by
  induction pairs with
  | nil => rfl
  | cons p pairs ih =>
    rw [List.filterMap_cons, List.map_cons, List.sum_cons, ← ih]
    cases gapBetween interval p with
    | none => exact (Int.zero_add _).symm
    | some gap => rfl

theorem mem_neighbours {ts : List Datetime} {p : Datetime × Datetime} (h : p ∈ neighbours ts) :
    p.1 ∈ ts ∧ p.2 ∈ ts :=
  ⟨(List.of_mem_zip h).1, List.mem_of_mem_tail (List.of_mem_zip h).2⟩

theorem le_of_mem_neighbours {ts : List Datetime} (hsorted : ts.Pairwise (· ≤ ·))
    {p : Datetime × Datetime} (h : p ∈ neighbours ts) : p.1 ≤ p.2 := by
  have hnone := List.countP_eq_zero.1 (descents_eq_zero_iff.2 hsorted) p h
  simpa using hnone

/-- On a grid the differences of timestamps are whole intervals. -/
theorem OnGrid.interval_dvd (h : OnGrid interval df) {s t : Datetime} (hs : s ∈ timestamps df)
    (ht : t ∈ timestamps df) : interval ∣ t - s := by
  obtain ⟨origin, horigin⟩ := h
  obtain ⟨r, hr, rfl⟩ := List.mem_map.1 hs
  obtain ⟨r', hr', rfl⟩ := List.mem_map.1 ht
  have hsub := dvd_sub (horigin r' hr') (horigin r hr)
  rwa [sub_sub_sub_cancel_right] at hsub

/-- **The candles that are missing and those that are there make up the grid.** -/
theorem missingCount_add_distinct (hne : df ≠ [])
    (hknown : timeframeToTimedelta timeframe = some interval) (hgrid : OnGrid interval df) :
    ((checkGaps (sortValues df) timeframe).map Gap.missingCandles).sum + distinct df =
      gridPoints interval df := by
  have hpos := timeframe_pos hknown
  set ts := timestamps (sortValues df) with hts
  have hsorted : ts.Pairwise (· ≤ ·) := timestamps_sortValues_sorted df
  have hdvd : ∀ s ∈ ts, ∀ t ∈ ts, interval ∣ t - s := fun s hs t ht =>
    hgrid.interval_dvd (mem_timestamps_sortValues.1 hs) (mem_timestamps_sortValues.1 ht)
  have hgaps : checkGaps (sortValues df) timeframe =
      (neighbours ts).filterMap (gapBetween interval) := by
    rw [checkGaps, hknown]
    dsimp only
    rw [← hts, List.Pairwise.insertionSort_eq hsorted]
    split_ifs with hshort
    · have hlength : ts.length < 2 := by rwa [hts, timestamps, List.length_map]
      have hnil : neighbours ts = [] := by
        rw [neighbours, ← List.length_eq_zero_iff, List.length_zip, List.length_tail]
        omega
      rw [hnil, List.filterMap_nil]
    · rfl
  have hmissing : (neighbours ts).map (fun p =>
      ((gapBetween interval p).map Gap.missingCandles).getD 0) =
      (neighbours ts).map fun p => absent interval p.1 p.2 := by
    refine List.map_congr_left fun p hp => ?_
    obtain ⟨h1, h2⟩ := mem_neighbours hp
    exact missing_gapBetween hpos (le_of_mem_neighbours hsorted hp) (hdvd _ h1 _ h2)
  have hcount := sum_absent_add_card hsorted hdvd
    (isLeast_minTimestamp (sortValues_ne_nil hne)) (isGreatest_maxTimestamp (sortValues_ne_nil hne))
  rw [hgaps, sum_missingCandles, hmissing, ← distinct_sortValues, distinct, ← hts, hcount,
    (extremes_sortValues hne).1, (extremes_sortValues hne).2, gridPoints]

/-! ## The figures -/

section Figures

variable (symbol : String) (asOf : Option Datetime)

/-- **The figures of a report**, for a frame on the grid whose period is that of its rows. -/
theorem report_facts (hne : df ≠ []) (hknown : timeframeToTimedelta timeframe = some interval)
    (hgrid : OnGrid interval df) :
    let report := validateCandles df symbol timeframe none none asOf
    report.rowCount = df.length ∧ report.duplicateCount + distinct df = df.length ∧
      report.missingCount + distinct df = gridPoints interval df ∧
      report.expectedRowCount = (if 2 ≤ distinct df then gridPoints interval df else 0) ∧
      report.outOfOrderCount = 0 := by
  intro report
  obtain ⟨hmin, hmax⟩ := extremes_sortValues hne
  simp only [report, validateCandles, if_neg hne, Option.getD_none, hmin, hmax]
  refine ⟨length_sortValues df, ?_, missingCount_add_distinct hne hknown hgrid, ?_,
    checkOrdering_sortValues df⟩
  · have hcount := repeats_add_card (timestamps (sortValues df))
    rw [timestamps, List.length_map, length_sortValues] at hcount
    rw [← distinct_sortValues df]
    exact hcount
  · rw [computeExpectedRowCount, hknown]
    dsimp only
    rw [gridPoints]
    by_cases htwo : 2 ≤ distinct df
    · rw [if_pos htwo, if_neg (not_le.2 ((two_le_distinct_iff hne).1 htwo))]
    · rw [if_neg htwo, if_pos (not_lt.1 fun hlt => htwo ((two_le_distinct_iff hne).2 hlt))]

end Figures

/-! ## Full coverage -/

/-- A percentage is rounded to a hundred from half of the last digit below it. -/
theorem roundTo_eq_hundred_iff {x : ℚ} (hx : x ≤ 100) :
    roundTo x 4 = 100 ↔ 100 - 1 / 20000 ≤ x := by
  constructor
  · intro hround
    have hnear := (abs_le.1 (abs_roundTo_sub_le x 4)).2
    rw [hround] at hnear
    norm_num at hnear ⊢
    linarith
  · intro hle
    have hlower : roundTo (100 - 1 / 20000) 4 = 100 := by decide +kernel
    have hupper : roundTo 100 4 = 100 := by decide +kernel
    refine le_antisymm ?_ ?_
    · calc roundTo x 4 ≤ roundTo 100 4 := roundTo_mono hx 4
        _ = 100 := hupper
    · calc (100 : ℚ) = roundTo (100 - 1 / 20000) 4 := hlower.symm
        _ ≤ roundTo x 4 := roundTo_mono hle 4

/-- A share is rounded to a hundred percent when at most one in two million is missing. -/
theorem roundTo_share_eq_hundred_iff {k G : ℤ} (hG : 0 < G) (hk : k ≤ G) :
    roundTo (k / G * 100) 4 = 100 ↔ 2000000 * (G - k) ≤ G := by
  have hGQ : (0 : ℚ) < G := by exact_mod_cast hG
  have hkQ : (k : ℚ) ≤ G := by exact_mod_cast hk
  have hshare : (k : ℚ) / G * 100 ≤ 100 := by
    have := (div_le_one hGQ).2 hkQ
    linarith
  rw [roundTo_eq_hundred_iff hshare, ← @Int.cast_le ℚ]
  push_cast
  rw [div_mul_eq_mul_div, le_div_iff₀ hGQ]
  constructor <;> intro h <;> linarith

/-- No count of missing candles is negative. -/
theorem missingCandles_pos {gap : Gap} (h : gap ∈ checkGaps df timeframe) :
    0 < gap.missingCandles := by
  unfold checkGaps at h
  split at h
  · cases h
  · split at h
    · cases h
    · obtain ⟨p, -, hgap⟩ := List.mem_filterMap.1 h
      simp only [gapBetween] at hgap
      split_ifs at hgap with hwide hmissing
      obtain rfl := Option.some.inj hgap
      exact hmissing

theorem distinct_le_gridPoints (hne : df ≠ [])
    (hknown : timeframeToTimedelta timeframe = some interval) (hgrid : OnGrid interval df) :
    (distinct df : ℤ) ≤ gridPoints interval df := by
  have hcount := missingCount_add_distinct hne hknown hgrid
  have hnonneg : 0 ≤ ((checkGaps (sortValues df) timeframe).map Gap.missingCandles).sum := by
    refine List.sum_nonneg fun m hm => ?_
    obtain ⟨gap, hgap, rfl⟩ := List.mem_map.1 hm
    exact (missingCandles_pos hgap).le
  linarith

theorem distinct_pos (hne : df ≠ []) : 0 < distinct df :=
  Finset.card_pos.2 ⟨minTimestamp df, List.mem_toFinset.2 (isLeast_minTimestamp hne).1⟩

/-! ## The truth -/

/-- The coverage is that of the different timestamps, if repetitions leave it alone. -/
theorem Reportable.coverage (h : Reportable interval df)
    (hk : (distinct df : ℤ) ≤ gridPoints interval df)
    (hle : (distinct df : ℤ) ≤ df.length) :
    roundTo ((min (df.length : ℤ) (gridPoints interval df) : ℤ) / gridPoints interval df * 100) 4 =
      roundTo ((distinct df : ℤ) / gridPoints interval df * 100) 4 := by
  rcases h.repeated with hnodup | hcomplete | hsame
  · have hlength : (df.length : ℤ) = distinct df := by
      rw [distinct, List.toFinset_card_of_nodup hnodup, timestamps, List.length_map]
    rw [hlength, min_eq_left hk]
  · have hfull : gridPoints interval df ≤ df.length := by linarith
    rw [min_eq_right hfull, hcomplete]
  · exact hsame

/-- **Of which frames a report tells the truth.** For every frame with rows on the grid of a known
timeframe, the counts add up, the coverage is the share of the candles that are there and the rows
out of order are counted exactly when the rows are given in order, have two timestamps, and
repetitions and rounding leave the coverage alone. -/
theorem tells_truth_iff (df : List Candle) (hne : df ≠ []) (symbol timeframe : String)
    (interval : Timedelta) (hknown : timeframeToTimedelta timeframe = some interval)
    (hgrid : OnGrid interval df) (asOf : Option Datetime) :
    TellsTruth df (validateCandles df symbol timeframe none none asOf) ↔
      Reportable interval df := by
  obtain ⟨hrows, hduplicates, hmissing, hexpected, horder⟩ :=
    report_facts symbol asOf hne hknown hgrid
  have hk := distinct_le_gridPoints hne hknown hgrid
  have hone : (0 : ℤ) < distinct df := by exact_mod_cast distinct_pos hne
  have hG : 0 < gridPoints interval df := hone.trans_le hk
  have hduplicatesZ : ((validateCandles df symbol timeframe none none asOf).duplicateCount : ℤ) +
      distinct df = df.length := by exact_mod_cast hduplicates
  generalize validateCandles df symbol timeframe none none asOf = report at *
  have hcounts : (report.rowCount : ℤ) - report.duplicateCount + report.missingCount =
      gridPoints interval df := by rw [hrows]; linarith
  constructor
  · intro h
    have htwo : 2 ≤ distinct df := by
      by_contra hnot
      have hcount := h.counts
      rw [hexpected, if_neg hnot] at hcount
      linarith
    rw [if_pos htwo] at hexpected
    have hcoverage := h.coverage
    rw [hexpected] at hcoverage
    refine ⟨descents_eq_zero_iff.1 (h.order.symm.trans horder), htwo, .inr (.inr ?_), ?_⟩
    · rw [← hcoverage, DataQualityReport.coveragePct, hexpected, if_neg (not_le.2 hG), hrows]
    · by_contra hnot
      obtain ⟨hsome, hlong⟩ := not_or.1 hnot
      have hfull := h.full
        (hcoverage.trans ((roundTo_share_eq_hundred_iff hG hk).2 (not_lt.1 hlong)))
      exact hsome (by linarith)
  · intro h
    rw [if_pos h.two] at hexpected
    have hcoverage : report.coveragePct =
        roundTo ((distinct df : ℤ) / gridPoints interval df * 100) 4 := by
      rw [DataQualityReport.coveragePct, hexpected, if_neg (not_le.2 hG), hrows]
      exact h.coverage hk (by linarith)
    refine ⟨hcounts.trans hexpected.symm, by rw [hexpected]; exact hcoverage, fun hfull => ?_, ?_⟩
    · rcases h.full with hcomplete | hlong
      · linarith
      · rw [hcoverage] at hfull
        have := (roundTo_share_eq_hundred_iff hG hk).1 hfull
        linarith
    · rw [horder, descents_eq_zero_iff.2 h.sorted]

/-- A candle of the hour `n`. -/
def hourlyCandle (n : ℕ) : Candle where
  timestamp := n * Timedelta.hours 1
  timeframe := "1h"
  open_ := 1
  high := 1
  low := 1
  close := 1
  volume := 1

theorem onGrid_hourlyCandle (hours : List ℕ) :
    OnGrid (Timedelta.hours 1) (hours.map hourlyCandle) := by
  refine ⟨0, fun row hrow => ?_⟩
  obtain ⟨n, -, rfl⟩ := List.mem_map.1 hrow
  exact ⟨n, by rw [hourlyCandle, sub_zero, mul_comm]⟩

theorem tells_truth_two_candles :
    TellsTruth [hourlyCandle 0, hourlyCandle 1]
      (validateCandles [hourlyCandle 0, hourlyCandle 1] "BTC/USDT" "1h" none none none) := by
  have hdistinct : distinct [hourlyCandle 0, hourlyCandle 1] = 2 := by decide
  have hpoints : gridPoints (Timedelta.hours 1) [hourlyCandle 0, hourlyCandle 1] = 2 := by decide
  have hgrid : OnGrid (Timedelta.hours 1) [hourlyCandle 0, hourlyCandle 1] :=
    onGrid_hourlyCandle [0, 1]
  refine (tells_truth_iff _ (List.cons_ne_nil _ _) "BTC/USDT" "1h" _ rfl hgrid none).2
    ⟨by decide, hdistinct.ge, .inl (by decide), .inl ?_⟩
  rw [hdistinct, hpoints]
  rfl

/-- **A repeated candle hides a missing one**: of the three hours the middle one is missing, and
the coverage is full; the rows are given backwards, and none is out of order. -/
theorem missing_candle_covered :
    let df := [hourlyCandle 2, hourlyCandle 0, hourlyCandle 0]
    let report := validateCandles df "BTC/USDT" "1h" none none none
    (report.coveragePct = 100 ∧ report.missingCount = 1 ∧ report.outOfOrderCount = 0 ∧
      descents (timestamps df) = 1) ∧
    ¬∀ (df : List Candle) (symbol timeframe : String) (interval : Timedelta), df ≠ [] →
      timeframeToTimedelta timeframe = some interval → OnGrid interval df →
      ∀ asOf, TellsTruth df (validateCandles df symbol timeframe none none asOf) := by
  intro df report
  have hfigures : report.coveragePct = 100 ∧ report.missingCount = 1 ∧
      report.outOfOrderCount = 0 ∧ descents (timestamps df) = 1 := by decide +kernel
  refine ⟨hfigures, fun h => ?_⟩
  have htruth := h df "BTC/USDT" "1h" _ (List.cons_ne_nil _ _) rfl
    (onGrid_hourlyCandle [2, 0, 0]) none
  have hmissing := htruth.full hfigures.1
  rw [hfigures.2.1] at hmissing
  exact absurd hmissing one_ne_zero

end AlphaOne.DataQuality

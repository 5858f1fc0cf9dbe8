import AlphaOne.FeatureEngine.EngineCausality
import AlphaOne.FeatureEngine.LastRow
import AlphaOne.SignalEngine.Regime
import Mathlib.Algebra.BigOperators.Group.List.Lemmas
import Mathlib.Algebra.Order.BigOperators.Group.List

/-!
# A high volatility in the last row

When `detect_regime_series` finds the last of some candles in `HIGH_VOLATILITY`, said of the candles
themselves (`HighVolatility`): of their last fifty returns, or where one of these is missing, of
their true ranges.

A further bar can always bring a high volatility about (`exists_highVolatility`), and
`StaysHigh` is when none can end it.
-/

namespace AlphaOne.SignalEngine

open Foundations FeatureEngine

section Defs

variable (np : Numpy)

/-- The returns of some candles, with a NaN for the first. -/
def returnsOf (rows : List Candle) : Series := pctChange 1 (rows.map fun c => some c.close)

/-- The realized volatility of some returns. -/
def volatilityOf (returns : List ℚ) : Option ℚ :=
  (np.sqrt (varianceOf returns)).bind fun std => (np.sqrt (365 * 24)).map (std * ·)

/-- The realized volatility of the ten last of some returns is more than one and a half times that
of all, which counts as one percent at least. -/
def Volatile (returns : List ℚ) : Prop :=
  ∃ v10 ∈ volatilityOf np (returns.take 10), ∃ v50 ∈ volatilityOf np returns,
    3 / 2 < v10 / max v50 (1 / 100)

/-- The last ATR is more than twice the mean of the last twenty. -/
def AtrDoubled (rows : List Candle) : Prop :=
  ∃ atrs ∈ lastEntries 20 (atr rows 14), ∃ a ∈ atrs.head?, meanOf atrs * 2 < a

/-- The last of some candles is in a high volatility: by the last fifty returns, or where one is
missing, by the ATR. -/
def HighVolatility (rows : List Candle) : Prop :=
  match lastEntries 50 (returnsOf rows) with
  | some returns => Volatile np returns
  | none => AtrDoubled rows

/-- A bar that has not moved from the last close. -/
def quietBar (p : Candle) : Candle := { p with open_ := p.close, high := p.close, low := p.close }

/-- The volatility is high after every further bar: whatever the return of it, or where returns are
missing, even if it has no range. -/
def StaysHigh (rows : List Candle) : Prop :=
  ∃ p ∈ rows.getLast?,
    match lastEntries 49 (returnsOf rows) with
    | some returns => if p.close = 0 then AtrDoubled (rows ++ [quietBar p])
        else ∀ x, Volatile np (x :: returns)
    | none => AtrDoubled (rows ++ [quietBar p])

/-- `np.sqrt` is right to one percent at least. -/
structure AccurateSqrt : Prop where
  accurate : ∀ x, 0 ≤ x →
    ∃ s ∈ np.sqrt x, 0 ≤ s ∧ 99 / 100 * x ≤ s ^ 2 ∧ s ^ 2 ≤ 101 / 100 * x

end Defs

variable {np : Numpy}

/-! ## Volatilities -/

section Volatility

/-- The squares about a number, from the squares and the sum. -/
theorem sum_sq_sub (xs : List ℚ) (m : ℚ) : (xs.map fun x => (x - m) ^ 2).sum =
    (xs.map (· ^ 2)).sum - 2 * m * xs.sum + xs.length * m ^ 2 := by
  induction xs with
  | nil => simp
  | cons x xs ih =>
    simp only [List.map_cons, List.sum_cons, List.length_cons, ih]
    push_cast
    ring

theorem sum_sq_nonneg (f : ℚ → ℚ) (xs : List ℚ) : 0 ≤ (xs.map fun x => f x ^ 2).sum :=
  List.sum_nonneg fun y hy => by
    obtain ⟨x, -, rfl⟩ := List.mem_map.1 hy
    exact sq_nonneg _

theorem varianceOf_nonneg (xs : List ℚ) : 0 ≤ varianceOf xs := by
  rcases xs with _ | ⟨x, xs⟩
  · simp [varianceOf]
  · refine div_nonneg (sum_sq_nonneg (· - meanOf (x :: xs)) _) ?_
    rw [List.length_cons]
    push_cast
    linarith [Nat.cast_nonneg (α := ℚ) xs.length]

/-- The variance is no more than the squares. -/
theorem varianceOf_mul_le (xs : List ℚ) (h : 1 < xs.length) :
    varianceOf xs * (xs.length - 1) ≤ (xs.map (· ^ 2)).sum := by
  have hlength : (1 : ℚ) < xs.length := by exact_mod_cast h
  have hmean : xs.sum = meanOf xs * xs.length := by
    rw [meanOf, div_mul_cancel₀ _ (by linarith)]
  rw [varianceOf, div_mul_cancel₀ _ (by linarith), sum_sq_sub, hmean]
  nlinarith [sq_nonneg (meanOf xs)]

/-- A single deviation is no more than the variance. -/
theorem sq_le_varianceOf_mul (x : ℚ) {xs : List ℚ} (h : xs ≠ []) :
    (x - meanOf (x :: xs)) ^ 2 ≤ varianceOf (x :: xs) * xs.length := by
  have hlength : (0 : ℚ) < xs.length := by exact_mod_cast List.length_pos_iff.2 h
  have hvariance : varianceOf (x :: xs) * xs.length =
      ((x :: xs).map fun y => (y - meanOf (x :: xs)) ^ 2).sum := by
    rw [varianceOf, List.length_cons, Nat.cast_succ, add_sub_cancel_right,
      div_mul_cancel₀ _ hlength.ne']
  rw [hvariance, List.map_cons, List.sum_cons]
  exact le_add_of_nonneg_right (sum_sq_nonneg (· - meanOf (x :: xs)) xs)

theorem abs_sum_le (xs : List ℚ) : |xs.sum| ≤ (xs.map (|·|)).sum := by
  induction xs with
  | nil => simp
  | cons x xs ih => exact (abs_add_le x xs.sum).trans (add_le_add_right ih |x|)

theorem sum_sq_le (xs : List ℚ) : (xs.map (· ^ 2)).sum ≤ (xs.map (|·|)).sum ^ 2 := by
  induction xs with
  | nil => simp
  | cons x xs ih =>
    have hnonneg : 0 ≤ (xs.map (|·|)).sum := (abs_nonneg _).trans (abs_sum_le xs)
    simp only [List.map_cons, List.sum_cons]
    nlinarith [abs_nonneg x, sq_abs x, mul_nonneg (abs_nonneg x) hnonneg]

/-- A realized volatility is about the root of the variance. -/
theorem AccurateSqrt.volatility (h : AccurateSqrt np) (returns : List ℚ) :
    ∃ v ∈ volatilityOf np returns, 0 ≤ v ∧ 98 / 100 * (8760 * varianceOf returns) ≤ v ^ 2 ∧
      v ^ 2 ≤ 103 / 100 * (8760 * varianceOf returns) := by
  have hvariance := varianceOf_nonneg returns
  obtain ⟨s, hs, hs0, hlow, hhigh⟩ := h.accurate _ hvariance
  obtain ⟨y, hy, hy0, hylow, hyhigh⟩ := h.accurate (365 * 24) (by norm_num)
  refine ⟨s * y, ?_, mul_nonneg hs0 hy0, ?_, ?_⟩
  · rw [Option.mem_def] at *
    simp [volatilityOf, hs, hy]
  · rw [mul_pow]
    nlinarith [mul_le_mul hlow hylow (by positivity) (by positivity)]
  · rw [mul_pow]
    nlinarith [mul_le_mul hhigh hyhigh (by positivity) (by positivity)]

/-- **Some next return is violent enough**, whatever the returns before it. -/
theorem exists_volatile (h : AccurateSqrt np) {returns : List ℚ} (hlength : returns.length = 49) :
    ∃ x, Volatile np (x :: returns) := by
  set size := (returns.map (|·|)).sum with hsize
  have hsize0 : 0 ≤ size := (abs_nonneg _).trans (abs_sum_le returns)
  set x := 10 * size + 1 with hx
  refine ⟨x, ?_⟩
  obtain ⟨v10, hv10, hv10nonneg, hv10low, -⟩ := h.volatility ((x :: returns).take 10)
  obtain ⟨v50, hv50, hv50nonneg, -, hv50high⟩ := h.volatility (x :: returns)
  refine ⟨v10, hv10, v50, hv50, ?_⟩
  have hlast : |(returns.take 9).sum| ≤ size := by
    refine (abs_sum_le _).trans ?_
    rw [hsize, List.map_take]
    refine (List.take_sublist 9 _).sum_le_sum fun y hy => ?_
    obtain ⟨r, -, rfl⟩ := List.mem_map.1 hy
    exact abs_nonneg r
  have hvar10 : 88 / 1000 * x ^ 2 ≤ varianceOf ((x :: returns).take 10) := by
    have hnine : (returns.take 9).length = 9 := by rw [List.length_take, hlength]; rfl
    have hdeviation := sq_le_varianceOf_mul x
      (List.ne_nil_of_length_pos (by rw [hnine]; norm_num) : returns.take 9 ≠ [])
    have hfar : 89 / 100 * x ≤ x - meanOf (x :: returns.take 9) := by
      rw [meanOf, List.sum_cons, List.length_cons, hnine]
      push_cast
      linarith [(abs_le.1 hlast).2]
    rw [hnine] at hdeviation
    push_cast at hdeviation
    rw [List.take_succ_cons]
    nlinarith [mul_le_mul hfar hfar (by positivity) (by linarith)]
  have hvar50 : varianceOf (x :: returns) ≤ 21 / 1000 * x ^ 2 := by
    have hsquares := varianceOf_mul_le (x :: returns) (by rw [List.length_cons, hlength]; norm_num)
    have hrest := sum_sq_le returns
    rw [List.length_cons, hlength, List.map_cons, List.sum_cons] at hsquares
    push_cast at hsquares
    nlinarith
  have hlarge : 1 ≤ x ^ 2 := one_le_pow₀ (by linarith)
  rw [lt_div_iff₀ (lt_max_of_lt_right (by norm_num))]
  rcases max_choice v50 (1 / 100) with hmax | hmax
  · rw [hmax]
    by_contra hnot
    have hsq := pow_le_pow_left₀ hv10nonneg (not_lt.1 hnot) 2
    linarith
  · rw [hmax]
    by_contra hnot
    have hsq := pow_le_pow_left₀ hv10nonneg (not_lt.1 hnot) 2
    linarith

end Volatility

/-! ## The regime of the last row -/

section LastRow

variable {rows : List Candle} (funding openInterest : Option (List Reading))

theorem column_atr (h : rows ≠ []) : (computeFeatures np rows funding openInterest).column
    "atr_14" = some (atr (sortValues rows) 14) := by
  rw [computeFeatures, if_neg h]
  dsimp only
  unfold computeVolatilityFeatures computeDerivativesFeatures computeVolumeFeatures
    detectMarketStructure
  dsimp only
  rw [column_assign_of_notMem (by simp), column_assign_of_notMem, column_assign_of_notMem (by simp),
    column_assign_of_notMem (by simp)]
  · simp [computeTechnicalIndicators, Frame.column, Frame.assign, List.lookup_cons]
  · simp [map_fst_fundingColumns, map_fst_openInterestColumns, zeroColumns]

theorem column_liqSpike (h : rows ≠ []) : (computeFeatures np rows funding openInterest).column
    "liq_spike" = some ((sortValues rows).map fun _ => some 0) := by
  rw [computeFeatures, if_neg h]
  dsimp only
  unfold computeVolatilityFeatures computeDerivativesFeatures
  dsimp only
  rw [column_assign_of_notMem (by simp), column_assign]
  · rw [List.lookup_append, lookup_eq_none, Option.none_or]
    · rfl
    · simp [map_fst_fundingColumns, map_fst_openInterestColumns]
  · change "liq_spike" ∉ featureNames.take 58
    decide

/-- The realized volatilities are columns of the engine. -/
theorem column_realizedVol (np : Numpy) (h : rows ≠ []) :
    (computeFeatures np rows funding openInterest).column "realized_vol_10" =
      some (realizedVol np (returnsOf (sortValues rows)) 10) ∧
    (computeFeatures np rows funding openInterest).column "realized_vol_50" =
      some (realizedVol np (returnsOf (sortValues rows)) 50) := by
  have hnames : ∀ name, name ∉ featureNames.take 71 → name ∉
      (computeDerivativesFeatures np (computeVolumeFeatures (detectMarketStructure 5
        (computeTechnicalIndicators np { candles := sortValues rows }))) funding
        openInterest).columnNames := by
    intro name hname
    unfold computeDerivativesFeatures
    simp only [Frame.columnNames, Frame.assign, List.map_append, map_fst_fundingColumns,
      map_fst_openInterestColumns]
    exact hname
  rw [computeFeatures, if_neg h]
  dsimp only
  unfold computeVolatilityFeatures
  dsimp only
  rw [column_assign (hnames _ (by decide)), column_assign (hnames _ (by decide))]
  exact ⟨rfl, rfl⟩

variable {df : Frame} {i : ℕ}

/-- The entry of a rolling column in the last row. -/
theorem rolling_last (k : ℕ) (agg : List ℚ → ℚ) {xs : Series} (h : xs ≠ []) :
    (rolling k agg xs)[xs.length - 1]? = some ((lastEntries k xs).map agg) := by
  have hback := back_rolling k agg h
  have hlength : (rolling k agg xs).length = xs.length := (causal_rolling k agg).length xs
  have hpos : 0 < xs.length := List.length_pos_iff.2 h
  rwa [back, List.getElem?_reverse (by omega), hlength, Nat.sub_zero] at hback

/-- Without liquidations there is no time after them. -/
theorem isPostLiquidation_eq_false (h : rows ≠ []) :
    isPostLiquidation (computeFeatures np rows funding openInterest) i = false := by
  unfold isPostLiquidation passes
  rw [column_liqSpike funding openInterest h, Option.map_some, Option.bind_some, rolling,
    List.getElem?_map, getElem?_windows]
  split_ifs with hi
  · rw [Option.map_some, Option.join_some]
    split_ifs
    · simp
    · rfl
  · rfl

theorem atrRegime_eq_high_iff (hsorted : sortValues rows = rows) (h : rows ≠ []) :
    atrRegime (computeFeatures np rows funding openInterest) (rows.length - 1) = .high ↔
      AtrDoubled rows := by
  have hlength : (atr rows 14).length = rows.length := (causal_atr 14).length rows
  have hne : atr rows 14 ≠ [] := by
    rw [← List.length_pos_iff, hlength]
    exact List.length_pos_iff.2 h
  have hmean := rolling_last 20 meanOf hne
  unfold atrRegime related AtrDoubled
  rw [column_atr funding openInterest h, hsorted]
  simp only [Option.map_some, Option.bind_some]
  rw [← hlength, hmean]
  rcases hlast : lastEntries 20 (atr rows 14) with _ | atrs
  · rcases (atr rows 14)[(atr rows 14).length - 1]? with _ | _ | a <;> simp
  · obtain ⟨hrecent, hfull⟩ := lastEntries_eq_some_iff.1 hlast
    obtain ⟨a, atrs, rfl⟩ := List.exists_cons_of_length_pos (hfull ▸ (by norm_num : 0 < 20))
    have hentry : (atr rows 14)[(atr rows 14).length - 1]? = some (some a) := by
      have hback : (atr rows 14).reverse[0]? = some (some a) := by
        rw [← List.getElem?_take_of_lt (by norm_num : 0 < 20), hrecent]
        rfl
      rwa [List.getElem?_reverse (List.length_pos_iff.2 hne), Nat.sub_zero] at hback
    rw [hentry]
    simp only [Option.join_some, Option.bind_some, Option.map_some, Option.getD_some]
    split_ifs with hhigh hlow
    · simpa using hhigh
    · simpa using hhigh
    · simpa using hhigh

/-- A realized volatility in the last row. -/
theorem realizedVol_last (np : Numpy) (w : ℕ) {xs : Series} (h : xs ≠ []) :
    ((realizedVol np xs w)[xs.length - 1]?).join =
      (lastEntries w xs).bind (volatilityOf np) := by
  rw [realizedVol, rollingStd, List.getElem?_map, List.getElem?_map, rolling_last w _ h]
  cases lastEntries w xs <;> rfl

theorem volRegime_eq_high_iff (hnp : AccurateSqrt np) (hsorted : sortValues rows = rows)
    (h : rows ≠ []) :
    volRegime (computeFeatures np rows funding openInterest) (rows.length - 1) = .high ↔
      HighVolatility np rows := by
  have hlength : (returnsOf rows).length = rows.length := by
    rw [returnsOf, (causal_pctChange 1).length, List.length_map]
  have hne : returnsOf rows ≠ [] := by
    rw [← List.length_pos_iff, hlength]
    exact List.length_pos_iff.2 h
  obtain ⟨hvol10, hvol50⟩ := column_realizedVol funding openInterest np h
  have hlast10 := realizedVol_last np 10 hne
  have hlast50 := realizedVol_last np 50 hne
  rw [hlength] at hlast10 hlast50
  rw [volRegime, hvol10, hvol50, hsorted, HighVolatility]
  dsimp only
  rw [hlast10, hlast50]
  rcases hreturns : lastEntries 50 (returnsOf rows) with _ | returns
  · rw [Option.bind_none, ← atrRegime_eq_high_iff funding openInterest hsorted h]
    rcases (lastEntries 10 (returnsOf rows)).bind (volatilityOf np) with _ | v10 <;> rfl
  · obtain ⟨v10, hv10, -⟩ := hnp.volatility (returns.take 10)
    obtain ⟨v50, hv50, -⟩ := hnp.volatility returns
    rw [lastEntries_take hreturns (by norm_num : 10 ≤ 50), Option.bind_some, Option.bind_some]
    rw [Option.mem_def] at hv10 hv50
    simp only [Volatile, hv10, hv50, Option.mem_some_iff, exists_eq_left']
    split_ifs with hhigh hlow
    · simpa using hhigh
    · simpa using hhigh
    · simpa using hhigh

/-- **From the fiftieth row on**, the last row is in a high volatility if its candles say so. -/
theorem detectRegime_eq_highVolatility_iff (hnp : AccurateSqrt np)
    (hsorted : sortValues rows = rows) (hmany : 50 ≤ rows.length) :
    detectRegime (computeFeatures np rows funding openInterest) (rows.length - 1) =
      .highVolatility ↔ HighVolatility np rows := by
  have hne : rows ≠ [] := List.ne_nil_of_length_pos (by omega)
  rw [← volRegime_eq_high_iff funding openInterest hnp hsorted hne, detectRegime,
    if_neg (by omega), isPostLiquidation_eq_false funding openInterest hne]
  cases volRegime (computeFeatures np rows funding openInterest) (rows.length - 1) with
  | high => simp
  | low =>
    dsimp only
    split_ifs <;> simp
  | normal =>
    dsimp only
    cases trendRegime (computeFeatures np rows funding openInterest) (rows.length - 1) with
    | bullish => simp
    | bearish => simp
    | none_ =>
      dsimp only
      split_ifs <;> simp

end LastRow

/-! ## A further bar -/

section FurtherBar

variable {rows : List Candle} {p c : Candle}

theorem returnsOf_concat (rows : List Candle) (p c : Candle) :
    returnsOf (rows ++ [p] ++ [c]) =
      returnsOf (rows ++ [p]) ++ [if p.close = 0 then none else some (c.close / p.close - 1)] := by
  simp only [returnsOf, List.map_append, List.map_cons, List.map_nil]
  exact pctChange_concat _ _ _

/-- The larger the true range of a further bar, the sooner the ATR is doubled. -/
theorem atrDoubled_concat_iff (hlength : 33 ≤ (rows ++ [p]).length) :
    ∃ w a s, 0 < w ∧ ∀ c, AtrDoubled (rows ++ [p] ++ [c]) ↔
      s < 9 * ((w * a + trueRange (some p) c) / (w + 1)) := by
  obtain ⟨w, a, hw, hatr⟩ := atr_concat rows p (by omega)
  obtain ⟨atrs, hatrs⟩ := lastEntries_atr 19 (by omega : 13 + 19 ≤ (rows ++ [p]).length)
  refine ⟨w, a, atrs.sum, hw, fun c => ?_⟩
  set latest := (w * a + trueRange (some p) c) / (w + 1)
  have hmean : meanOf (latest :: atrs) = (latest + atrs.sum) / 20 := by
    rw [meanOf, List.sum_cons, List.length_cons, length_lastEntries hatrs]
    norm_num
  simp only [AtrDoubled, hatr c, lastEntries_concat, hatrs, Option.bind_some, Option.map_some,
    Option.mem_some_iff, exists_eq_left', List.head?_cons]
  constructor <;> intro h <;> linarith

theorem trueRange_nonneg (p c : Candle) : 0 ≤ trueRange (some p) c :=
  le_max_of_le_right (le_max_of_le_left (abs_nonneg _))

theorem trueRange_quietBar (p : Candle) : trueRange (some p) (quietBar p) = 0 := by
  simp [trueRange, quietBar]

/-- After a bar without a range the ATR is doubled only if it is after every bar. -/
theorem atrDoubled_quietBar_iff (hlength : 33 ≤ (rows ++ [p]).length) (t : Datetime) :
    AtrDoubled (rows ++ [p] ++ [quietBar p]) ↔
      ∀ c, c.timestamp = t → AtrDoubled (rows ++ [p] ++ [c]) := by
  obtain ⟨w, a, s, hw, hiff⟩ := atrDoubled_concat_iff hlength
  constructor
  · intro hquiet c _
    rw [hiff, trueRange_quietBar] at hquiet
    rw [hiff]
    refine hquiet.trans_le (mul_le_mul_of_nonneg_left ?_ (by norm_num))
    exact div_le_div_of_nonneg_right (by linarith [trueRange_nonneg p c]) (by linarith)
  · intro hall
    have hquiet := hall { quietBar p with timestamp := t } rfl
    rwa [hiff] at hquiet ⊢

/-- **When no bar can end a high volatility.** -/
theorem staysHigh_iff (hlength : 33 ≤ (rows ++ [p]).length) (t : Datetime) :
    StaysHigh np (rows ++ [p]) ↔
      ∀ c, c.timestamp = t → HighVolatility np (rows ++ [p] ++ [c]) := by
  have hlast : (rows ++ [p]).getLast? = some p := List.getLast?_concat
  have hquiet := atrDoubled_quietBar_iff hlength t
  simp only [StaysHigh, hlast, Option.mem_some_iff, exists_eq_left', HighVolatility,
    returnsOf_concat, lastEntries_concat]
  rcases lastEntries 49 (returnsOf (rows ++ [p])) with _ | returns
  · simpa using hquiet
  · by_cases hzero : p.close = 0
    · simpa [hzero] using hquiet
    · simp only [if_neg hzero, Option.bind_some, Option.map_some]
      constructor
      · exact fun hall c _ => hall _
      · intro hall x
        -- a bar with this return
        have hbar := hall { p with timestamp := t, close := p.close * (x + 1) } rfl
        rwa [mul_div_cancel_left₀ _ hzero, add_sub_cancel_right] at hbar

/-- **Some bar brings a high volatility about**, whatever the bars before it. -/
theorem exists_highVolatility (hnp : AccurateSqrt np) (hlength : 33 ≤ (rows ++ [p]).length)
    (t : Datetime) : ∃ c, c.timestamp = t ∧ HighVolatility np (rows ++ [p] ++ [c]) := by
  obtain ⟨w, a, s, hw, hiff⟩ := atrDoubled_concat_iff hlength
  -- a range so wide that the ATR is above the sum of the others
  set range := (w + 1) * |s| + w * |a| + (w + 1) with hrange
  have hwide : AtrDoubled (rows ++ [p] ++ [{ p with timestamp := t, low := 0, high := range }]) := by
    rw [hiff]
    have htrue : range ≤ trueRange (some p) { p with timestamp := t, low := 0, high := range } := by
      refine le_max_of_le_left ?_
      dsimp only
      rw [sub_zero]
    have hpart : |s| + 1 ≤
        (w * a + trueRange (some p) { p with timestamp := t, low := 0, high := range }) /
          (w + 1) := by
      rw [le_div_iff₀ (by linarith)]
      have hback : -(w * |a|) ≤ w * a := by
        rw [← mul_neg]
        exact mul_le_mul_of_nonneg_left (neg_abs_le a) hw.le
      linarith
    linarith [le_abs_self s, abs_nonneg s]
  simp only [HighVolatility, returnsOf_concat, lastEntries_concat]
  rcases hreturns : lastEntries 49 (returnsOf (rows ++ [p])) with _ | returns
  · exact ⟨_, rfl, by simpa using hwide⟩
  · by_cases hzero : p.close = 0
    · exact ⟨_, rfl, by simpa [hzero] using hwide⟩
    · obtain ⟨x, hx⟩ := exists_volatile hnp (length_lastEntries hreturns)
      refine ⟨{ p with timestamp := t, close := p.close * (x + 1) }, rfl, ?_⟩
      rw [if_neg hzero, Option.bind_some, Option.map_some, mul_div_cancel_left₀ _ hzero,
        add_sub_cancel_right]
      exact hx

end FurtherBar

end AlphaOne.SignalEngine

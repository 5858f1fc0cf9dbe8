import AlphaOne.FeatureEngine.Causality
import AlphaOne.SignalEngine.Regime

/-!
# The two regime detectors

`MarketRegimeDetector` of `services/signal_engine/regime.py` looks at the last rows of a frame, and
`detect_regime_series` is documented as its equivalent at every row. They part at two places. The
detector leaves missing values out of its windows, where the rolling windows of the series are empty
until they are full; and a ratio of volatilities that is neither high nor low sends the detector on
to the ATR, where the series has its answer.

`detectRegimeSeries_eq_iff` is the exact condition, row by row. The trend is the same in both
(`detectTrendRegime_eq`).
-/

namespace AlphaOne.SignalEngine

open Foundations FeatureEngine

namespace MarketRegimeDetector

section Detect

variable (df : Frame)

/-- `latest[name]`, when the frame has the column and its last entry is no NaN. -/
def latest (name : String) : Option ℚ := ((df.column name).bind List.getLast?).join

/-- `df[name].tail(k)`, without a column no rows. -/
def recentRows (k : ℕ) (name : String) : Series :=
  ((df.column name).map fun xs => xs.drop (xs.length - k)).getD []

/-- `df[name].tail(k).dropna()`. -/
def recentValues (k : ℕ) (name : String) : List ℚ := (recentRows df k name).filterMap id

/-- The second half of `_detect_volatility_regime`: the ATR against its mean. -/
def recentAtrRegime : VolRegime :=
  let atrVals := recentValues df 20 "atr_14"
  match atrVals.getLast? with
  | none => .normal
  | some currentAtr =>
    if currentAtr > meanOf atrVals * 2 then .high
    else if currentAtr < meanOf atrVals * (1 / 2) then .low
    else .normal

/-- `_detect_volatility_regime`. -/
def detectVolatilityRegime : VolRegime :=
  match latest df "realized_vol_10", latest df "realized_vol_50" with
  | some vol10, some vol50 =>
    let ratio := vol10 / max vol50 (1 / 100)
    if ratio > 3 / 2 then .high else if ratio < 3 / 5 then .low else recentAtrRegime df
  | _, _ => recentAtrRegime df

/-- `_detect_trend_regime`. -/
def detectTrendRegime : TrendRegime :=
  let strong := (latest df "adx_14").any (· > 25)
  let ofMeans : TrendRegime :=
    match latest df "ema_50", latest df "ema_200" with
    | some ema50, some ema200 =>
      if ema50 > ema200 then if strong then .bullish else .none_
      else if ema50 < ema200 then if strong then .bearish else .none_
      else .none_
    | _, _ => .none_
  if ofMeans ≠ .none_ then ofMeans
  else if (df.column "uptrend").isSome && (df.column "downtrend").isSome then
    if latest df "uptrend" = some 1 then .bullish
    else if latest df "downtrend" = some 1 then .bearish
    else .none_
  else .none_

/-- `_is_ranging`. -/
def isRanging : Bool :=
  (recentValues df 20 "adx_14").getLast?.any (· < 20) || latest df "consolidation" = some 1

/-- `_is_post_liquidation`: a sum leaves missing values out. -/
def isPostLiquidation : Bool := (recentValues df 5 "liq_spike").sum > 0

/-- `_is_breakout_imminent`. -/
def isBreakoutImminent : Bool :=
  let bbWidths := recentValues df 20 "bb_width"
  bbWidths.getLast?.any (· < quantileOf (1 / 5) bbWidths)

/-- `MarketRegimeDetector.detect`. -/
def detect : Regime :=
  if df.candles.length < 50 then .uncertain
  else
    match detectVolatilityRegime df with
    | .high => if isPostLiquidation df then .postLiquidation else .highVolatility
    | .low => if isBreakoutImminent df then .breakout else .lowVolatility
    | .normal =>
      match detectTrendRegime df with
      | .bullish => .trendingBullish
      | .bearish => .trendingBearish
      | .none_ => if isRanging df then .ranging else .uncertain

/-! ## Where they agree -/

/-- The last `k` rows of a column are there and have no NaN. -/
def Complete (k : ℕ) (name : String) : Prop :=
  (recentRows df k name).length = k ∧ (recentRows df k name).all Option.isSome

instance (k : ℕ) (name : String) : Decidable (Complete df k name) :=
  inferInstanceAs (Decidable (_ ∧ _))

/-- A realized volatility is missing in the last row. -/
def RatioMissing : Prop :=
  latest df "realized_vol_10" = none ∨ latest df "realized_vol_50" = none

/-- The ratio of the realized volatilities is high or low. -/
def RatioDecides : Prop :=
  ∃ vol10 ∈ latest df "realized_vol_10", ∃ vol50 ∈ latest df "realized_vol_50",
    vol10 / max vol50 (1 / 100) > 3 / 2 ∨ vol10 / max vol50 (1 / 100) < 3 / 5

/-- The volatility regimes agree: the ratio decides, or the ATR has nothing to say, or the ratio is
missing and no ATR is. -/
def VolatilityAgrees : Prop :=
  RatioDecides df ∨ recentAtrRegime df = .normal ∨ RatioMissing df ∧ Complete df 20 "atr_14"

/-- What each of the volatility regimes is refined by agrees. -/
def RefinementAgrees : Prop :=
  match detectVolatilityRegime df with
  | .high => Complete df 5 "liq_spike" ∨ ¬isPostLiquidation df
  | .low => Complete df 20 "bb_width" ∨ ¬isBreakoutImminent df
  | .normal => detectTrendRegime df ≠ .none_ ∨ (latest df "adx_14").isSome ∨
      latest df "consolidation" = some 1 ∨ ¬isRanging df

instance : Decidable (RatioMissing df) := inferInstanceAs (Decidable (_ ∨ _))

instance : Decidable (RefinementAgrees df) := by
  unfold RefinementAgrees
  split <;> infer_instance

/-- The detectors agree on the last row of a frame. -/
def Agrees : Prop := df.candles.length < 50 ∨ VolatilityAgrees df ∧ RefinementAgrees df

end Detect

end MarketRegimeDetector

/-- The columns of a frame are as long as the frame. -/
def Rectangular (df : Frame) : Prop :=
  ∀ name, ∀ xs ∈ df.column name, xs.length = df.candles.length

/-! ## The rows up to a row -/

open MarketRegimeDetector

variable {df : Frame} {i : ℕ}

theorem quantileOf_reverse (q : ℚ) (xs : List ℚ) : quantileOf q xs.reverse = quantileOf q xs := by
  have hsort : xs.reverse.insertionSort (· ≤ ·) = xs.insertionSort (· ≤ ·) :=
    ((List.perm_insertionSort _ _).trans
      ((List.reverse_perm xs).trans (List.perm_insertionSort _ _).symm)).eq_of_pairwise'
      (List.pairwise_insertionSort _ _) (List.pairwise_insertionSort _ _)
  rw [quantileOf, quantileOf, hsort, List.length_reverse]

theorem meanOf_reverse (xs : List ℚ) : meanOf xs.reverse = meanOf xs := by
  rw [meanOf, meanOf, List.sum_reverse, List.length_reverse]

/-- The last entry of the first rows of a column. -/
theorem getLast?_take_succ {α : Type} {xs : List α} (hi : i < xs.length) :
    (xs.take (i + 1)).getLast? = xs[i]? := by
  rw [List.getLast?_eq_getElem?, List.length_take, Nat.min_eq_left (by omega), Nat.add_sub_cancel,
    List.getElem?_take_of_lt (Nat.lt_succ_self i)]

section Rows

variable (hrect : Rectangular df) (hi : i < df.candles.length)

include hrect hi

theorem latest_take (name : String) : latest (df.take (i + 1)) name = df.entry i name := by
  rw [latest, column_take, Frame.entry]
  cases hcol : df.column name with
  | none => rfl
  | some xs =>
    have hlength := hrect name xs hcol
    rw [Option.map_some, Option.bind_some, Option.bind_some, getLast?_take_succ (by omega)]

/-- A rolling column at a row is its window over the rows up to it, when that has no NaN. -/
theorem rolling_entry {k : ℕ} (hk : 0 < k) {agg : List ℚ → ℚ}
    (hagg : ∀ xs, agg xs.reverse = agg xs) (name : String) :
    (((df.column name).map (rolling k agg)).bind (·[i]?)).join =
      if Complete (df.take (i + 1)) k name then some (agg (recentValues (df.take (i + 1)) k name))
      else none := by
  have hcomplete : Complete (df.take (i + 1)) k name ↔
      (recentRows (df.take (i + 1)) k name).length = k ∧
        (recentRows (df.take (i + 1)) k name).all Option.isSome := Iff.rfl
  have hrows : recentRows (df.take (i + 1)) k name = ((df.column name).map fun xs =>
      ((xs.take (i + 1)).reverse.take k).reverse).getD [] := by
    rw [recentRows, column_take, Option.map_map]
    simp only [Function.comp_def, List.take_reverse, List.reverse_reverse]
  cases hcol : df.column name with
  | none =>
    rw [hcol] at hrows
    rw [if_neg (by simp [hcomplete, hrows, hk.ne]), Option.map_none, Option.bind_none]
    rfl
  | some xs =>
    have hlength := hrect name xs hcol
    rw [hcol, Option.map_some, Option.getD_some] at hrows
    rw [Option.map_some, Option.bind_some, rolling, List.getElem?_map, getElem?_windows,
      if_pos (by omega), Option.map_some, Option.join_some]
    simp only [hcomplete, recentValues, hrows, List.length_reverse, List.all_reverse,
      List.filterMap_reverse, hagg]

end Rows

section Latest

variable {k : ℕ} {name : String} {x : ℚ}

/-- The last entry, when it is no NaN, is the last value of a window. -/
theorem getLast?_recentValues (hk : 0 < k) (h : latest df name = some x) :
    (recentValues df k name).getLast? = some x := by
  unfold latest at h
  unfold recentValues recentRows
  cases hcol : df.column name with
  | none => simp [hcol] at h
  | some xs =>
    have hlast : xs.getLast? = some (some x) := by simpa [hcol, Option.join_eq_some_iff] using h
    obtain ⟨ys, rfl⟩ := List.getLast?_eq_some_iff.1 hlast
    rw [Option.map_some, Option.getD_some, List.drop_append_of_le_length (by simp; omega),
      List.filterMap_append]
    simp

/-- A window without a NaN ends in an entry. -/
theorem latest_of_complete (hk : 0 < k) (h : Complete df k name) :
    ∃ x, latest df name = some x := by
  obtain ⟨hlength, hall⟩ := h
  unfold recentRows at hlength hall
  unfold latest
  cases hcol : df.column name with
  | none => simp [hcol, hk.ne] at hlength
  | some xs =>
    rw [hcol, Option.map_some, Option.getD_some] at hlength hall
    rcases List.eq_nil_or_concat xs with rfl | ⟨ys, y, rfl⟩
    · simp [hk.ne] at hlength
    · rw [List.concat_eq_append, List.drop_append_of_le_length (by simp; omega),
        List.all_append] at hall
      have hy : y.isSome := by simpa using (Bool.and_eq_true_iff.1 hall).2
      obtain ⟨z, rfl⟩ := Option.isSome_iff_exists.1 hy
      exact ⟨z, by simp⟩

end Latest

section Parity

variable (hrect : Rectangular df) (hi : i < df.candles.length)

include hrect hi

/-! ## The checks of the series -/

theorem atrRegime_eq : atrRegime df i =
    if Complete (df.take (i + 1)) 20 "atr_14" then recentAtrRegime (df.take (i + 1))
    else .normal := by
  have hentry : (((df.column "atr_14").bind (·[i]?)).join) = latest (df.take (i + 1)) "atr_14" :=
    (latest_take hrect hi "atr_14").symm
  have hmean := rolling_entry hrect hi (by decide : 0 < 20) meanOf_reverse "atr_14"
  unfold atrRegime related
  dsimp only
  rw [hentry, hmean]
  by_cases hcomplete : Complete (df.take (i + 1)) 20 "atr_14"
  · obtain ⟨x, hx⟩ := latest_of_complete (by decide) hcomplete
    rw [if_pos hcomplete, if_pos hcomplete, hx, recentAtrRegime,
      getLast?_recentValues (by decide) hx]
    simp
  · rw [if_neg hcomplete, if_neg hcomplete]
    cases latest (df.take (i + 1)) "atr_14" <;> simp

theorem isPostLiquidation_eq : SignalEngine.isPostLiquidation df i =
    (decide (Complete (df.take (i + 1)) 5 "liq_spike") &&
      MarketRegimeDetector.isPostLiquidation (df.take (i + 1))) := by
  have hsum := rolling_entry hrect hi (by decide : 0 < 5) (fun xs => List.sum_reverse xs)
    "liq_spike"
  unfold SignalEngine.isPostLiquidation passes MarketRegimeDetector.isPostLiquidation
  rw [hsum]
  by_cases hcomplete : Complete (df.take (i + 1)) 5 "liq_spike" <;> simp [hcomplete]

theorem isBreakout_eq : isBreakout df i =
    (decide (Complete (df.take (i + 1)) 20 "bb_width") &&
      isBreakoutImminent (df.take (i + 1))) := by
  have hentry : (((df.column "bb_width").bind (·[i]?)).join) =
      latest (df.take (i + 1)) "bb_width" := (latest_take hrect hi "bb_width").symm
  have hquantile := rolling_entry hrect hi (by decide : 0 < 20) (quantileOf_reverse (1 / 5))
    "bb_width"
  unfold isBreakout related isBreakoutImminent
  dsimp only
  rw [hentry, hquantile]
  by_cases hcomplete : Complete (df.take (i + 1)) 20 "bb_width"
  · obtain ⟨x, hx⟩ := latest_of_complete (by decide) hcomplete
    rw [if_pos hcomplete, hx, getLast?_recentValues (by decide) hx]
    simp [hcomplete]
  · rw [if_neg hcomplete]
    cases latest (df.take (i + 1)) "bb_width" <;> simp [hcomplete]

theorem isRanging_eq : SignalEngine.isRanging df i =
    ((latest (df.take (i + 1)) "adx_14").any (· < 20) ||
      decide (latest (df.take (i + 1)) "consolidation" = some 1)) := by
  have hadx : (((df.column "adx_14").bind (·[i]?)).join) = latest (df.take (i + 1)) "adx_14" :=
    (latest_take hrect hi "adx_14").symm
  have hconsolidation : (((df.column "consolidation").bind (·[i]?)).join) =
      latest (df.take (i + 1)) "consolidation" := (latest_take hrect hi "consolidation").symm
  unfold SignalEngine.isRanging passes
  rw [hadx, hconsolidation]
  cases latest (df.take (i + 1)) "adx_14" <;>
    cases latest (df.take (i + 1)) "consolidation" <;> simp

/-- **The trend is the same in both detectors.** -/
theorem detectTrendRegime_eq : trendRegime df i = detectTrendRegime (df.take (i + 1)) := by
  have hentry : ∀ name, (((df.column name).bind (·[i]?)).join) = latest (df.take (i + 1)) name :=
    fun name => (latest_take hrect hi name).symm
  have hcolumn : ∀ name, ((df.take (i + 1)).column name).isSome = (df.column name).isSome := by
    intro name
    rw [column_take, Option.isSome_map]
  have hone : ∀ x : Option ℚ,
      ((x.map fun y => decide (y = 1)).getD false = true) = (x = some 1) := by
    intro x
    cases x <;> simp
  unfold trendRegime related passes detectTrendRegime
  simp only [hentry, hcolumn, hone]
  rcases latest (df.take (i + 1)) "ema_50" with _ | a <;>
    rcases latest (df.take (i + 1)) "ema_200" with _ | b <;>
    rcases latest (df.take (i + 1)) "adx_14" with _ | adx <;>
    grind

theorem volRegime_eq : volRegime df i =
    match latest (df.take (i + 1)) "realized_vol_10", latest (df.take (i + 1)) "realized_vol_50" with
    | some vol10, some vol50 =>
      if vol10 / max vol50 (1 / 100) > 3 / 2 then .high
      else if vol10 / max vol50 (1 / 100) < 3 / 5 then .low
      else .normal
    | _, _ =>
      if Complete (df.take (i + 1)) 20 "atr_14" then recentAtrRegime (df.take (i + 1))
      else .normal := by
  rw [latest_take hrect hi, latest_take hrect hi, ← atrRegime_eq hrect hi, volRegime]
  unfold Frame.entry
  cases df.column "realized_vol_10" with
  | none => rfl
  | some vol10 =>
    cases df.column "realized_vol_50" with
    | none =>
      rw [Option.bind_some, Option.bind_none, Option.join_none]
      cases (vol10[i]?).join <;> rfl
    | some vol50 => rfl

/-- The volatility regimes are the same exactly when they agree. -/
theorem volRegime_eq_iff : volRegime df i = detectVolatilityRegime (df.take (i + 1)) ↔
    VolatilityAgrees (df.take (i + 1)) := by
  rw [volRegime_eq hrect hi, detectVolatilityRegime]
  unfold VolatilityAgrees RatioDecides RatioMissing
  cases hten : latest (df.take (i + 1)) "realized_vol_10" with
  | none => by_cases hcomplete : Complete (df.take (i + 1)) 20 "atr_14" <;> simp [hcomplete, eq_comm]
  | some vol10 =>
    cases hfifty : latest (df.take (i + 1)) "realized_vol_50" with
    | none =>
      by_cases hcomplete : Complete (df.take (i + 1)) 20 "atr_14" <;> simp [hcomplete, eq_comm]
    | some vol50 =>
      dsimp only
      split_ifs with hhigh hlow
      · exact iff_of_true rfl (.inl ⟨vol10, rfl, vol50, rfl, .inl hhigh⟩)
      · exact iff_of_true rfl (.inl ⟨vol10, rfl, vol50, rfl, .inr hlow⟩)
      · -- the detector goes on to the ATR, and the series does not
        constructor
        · exact fun heq => .inr (.inl heq.symm)
        · rintro (⟨a, ha, b, hb, hratio⟩ | hnormal | ⟨hnone | hnone, -⟩)
          · obtain rfl : vol10 = a := Option.some.inj ha
            obtain rfl : vol50 = b := Option.some.inj hb
            exact absurd hratio (not_or.2 ⟨hhigh, hlow⟩)
          · exact hnormal.symm
          · cases hnone
          · cases hnone

end Parity

/-! ## The regime -/

/-- The regime of the results of all checks. -/
def refine (vol : VolRegime) (postLiquidation breakout : Bool) (trend : TrendRegime)
    (ranging : Bool) : Regime :=
  match vol with
  | .high => if postLiquidation then .postLiquidation else .highVolatility
  | .low => if breakout then .breakout else .lowVolatility
  | .normal =>
    match trend with
    | .bullish => .trendingBullish
    | .bearish => .trendingBearish
    | .none_ => if ranging then .ranging else .uncertain

/-- Different volatility regimes are refined to different regimes. -/
theorem refine_eq_iff {vol vol' : VolRegime} {liq liq' breakout breakout' ranging ranging' : Bool}
    {trend : TrendRegime} :
    refine vol liq breakout trend ranging = refine vol' liq' breakout' trend ranging' ↔
      vol = vol' ∧ match vol' with
        | .high => liq = liq'
        | .low => breakout = breakout'
        | .normal => trend ≠ .none_ ∨ ranging = ranging' := by
  cases vol <;> cases vol' <;> cases trend <;> simp only [refine] <;> grind

/-- **When the series is the detector**: at a row of a frame of which the columns are as long as the
frame, `detect_regime_series` gives what `MarketRegimeDetector` gives on the rows up to it if and
only if these rows agree on the volatility and on what refines it. -/
theorem detectRegimeSeries_eq_iff (df : Frame) (hrect : Rectangular df) (i : ℕ)
    (hi : i < df.candles.length) :
    (detectRegimeSeries df)[i]? = some (detect (df.take (i + 1))) ↔ Agrees (df.take (i + 1)) := by
  have hlength : (df.take (i + 1)).candles.length = i + 1 := by
    rw [Frame.take, List.length_take, Nat.min_eq_left hi]
  have hrow : (detectRegimeSeries df)[i]? = some (detectRegime df i) := by
    simp [detectRegimeSeries, hi]
  rw [hrow, Option.some_inj, Agrees, hlength]
  by_cases hearly : i < 49
  · have hseries : detectRegime df i = .uncertain := if_pos hearly
    have hdetect : detect (df.take (i + 1)) = .uncertain := if_pos (by omega)
    simp only [hseries, hdetect, show i + 1 < 50 by omega, true_or]
  · have hseries : detectRegime df i = refine (volRegime df i)
        (SignalEngine.isPostLiquidation df i) (isBreakout df i) (trendRegime df i)
        (SignalEngine.isRanging df i) := if_neg hearly
    have hdetect : detect (df.take (i + 1)) = refine (detectVolatilityRegime (df.take (i + 1)))
        (MarketRegimeDetector.isPostLiquidation (df.take (i + 1)))
        (isBreakoutImminent (df.take (i + 1))) (detectTrendRegime (df.take (i + 1)))
        (MarketRegimeDetector.isRanging (df.take (i + 1))) := if_neg (by omega)
    rw [hseries, hdetect, detectTrendRegime_eq hrect hi, refine_eq_iff, volRegime_eq_iff hrect hi,
      or_iff_right (by omega : ¬i + 1 < 50)]
    refine and_congr_right fun _ => ?_
    rw [RefinementAgrees, isPostLiquidation_eq hrect hi, isBreakout_eq hrect hi,
      isRanging_eq hrect hi]
    cases detectVolatilityRegime (df.take (i + 1)) with
    | high =>
      dsimp only
      cases MarketRegimeDetector.isPostLiquidation (df.take (i + 1)) <;> simp
    | low =>
      dsimp only
      cases isBreakoutImminent (df.take (i + 1)) <;> simp
    | normal =>
      dsimp only
      refine or_congr_right ?_
      unfold MarketRegimeDetector.isRanging
      cases hadx : latest (df.take (i + 1)) "adx_14" with
      | none => cases (recentValues (df.take (i + 1)) 20 "adx_14").getLast? <;> simp <;> grind
      | some adx =>
        have hlast := getLast?_recentValues (k := 20) (by decide) hadx
        simp [hlast]

section Example

/-- Fifty candles with a steady ratio of the volatilities. -/
def fiftyRows (columns : List (String × Series)) : Frame where
  candles := (List.range 50).map fun hour =>
    { timestamp := 3600000000 * hour, timeframe := "1h", open_ := 100, high := 101, low := 99
      close := 100, volume := 1 }
  columns := columns

/-- A complete frame in which the last ATR is three times the others. -/
def atrJumps : Frame :=
  fiftyRows [("realized_vol_10", List.replicate 50 (some (1 / 50))),
    ("realized_vol_50", List.replicate 50 (some (1 / 50))),
    ("atr_14", List.replicate 49 (some 1) ++ [some 3])]

theorem rectangular_fiftyRows {columns : List (String × Series)}
    (h : ∀ c ∈ columns, c.2.length = 50) : Rectangular (fiftyRows columns) := by
  intro name xs hxs
  have hlength : (fiftyRows columns).candles.length = 50 := by simp [fiftyRows]
  obtain ⟨before, after, hcolumns, -⟩ := List.lookup_eq_some_iff.1 hxs
  have hmem : (name, xs) ∈ (fiftyRows columns).columns := by simp [hcolumns]
  rw [hlength]
  exact h (name, xs) hmem

/-- **The series misses the jump**: the detector finds a high volatility, and the series, in which
the ratio is normal, is uncertain. -/
theorem atrJumps_regimes :
    (detectRegimeSeries atrJumps)[49]? = some .uncertain ∧
      detect (atrJumps.take 50) = .highVolatility ∧
      ¬∀ df : Frame, Rectangular df → ∀ i < df.candles.length,
        (detectRegimeSeries df)[i]? = some (detect (df.take (i + 1))) := by
  have hseries : (detectRegimeSeries atrJumps)[49]? = some .uncertain := by decide +kernel
  have hdetect : detect (atrJumps.take 50) = .highVolatility := by decide +kernel
  refine ⟨hseries, hdetect, fun h => ?_⟩
  have hsame := h atrJumps (rectangular_fiftyRows (by decide +kernel)) 49 (by decide +kernel)
  rw [hseries, hdetect] at hsame
  cases hsame

/-- Without the volatilities both see the jump. -/
theorem detectRegimeSeries_eq_of_atr :
    let df := fiftyRows [("atr_14", List.replicate 49 (some 1) ++ [some 3])]
    (detectRegimeSeries df)[49]? = some (detect (df.take 50)) :=
  (detectRegimeSeries_eq_iff _ (rectangular_fiftyRows (by decide +kernel)) 49
    (by decide +kernel)).2 (.inr ⟨.inr (.inr (by decide +kernel)), by decide +kernel⟩)

end Example

end AlphaOne.SignalEngine

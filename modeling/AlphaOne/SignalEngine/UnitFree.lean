import AlphaOne.SignalEngine.NoBias
import Mathlib.Algebra.BigOperators.Ring.List
import Mathlib.Data.Rat.Sqrt

/-!
# Decisions in any currency

Prices in another currency are the prices times a rate. Every strategy of the registry that reads one
series decides in one currency what it decides in another, with its levels converted
(`decisions_in_any_currency`): besides the strategies without a bias, whose charts may also be
shifted and turned over, S02 and S09, which relate prices to zero, and those that favour a side.

`np.sqrt` is any function that the root of a product of a square is a multiple for.
-/

namespace AlphaOne.SignalEngine

open Foundations FeatureEngine

/-- `np.sqrt` takes a square factor out of the root. -/
def ScalesSqrt (np : Numpy) : Prop :=
  ∀ k x, 0 < k → np.sqrt (k ^ 2 * x) = (np.sqrt x).map (k * ·)

/-! ## Columns -/

section Columns

variable (T : PriceMap) {np : Numpy}

theorem meanOf_map_price {l : List ℚ} (h : l ≠ []) : meanOf (l.map T.price) = T.price (meanOf l) :=
  meanOf_map_affine T.scale T.shift h

theorem carries_mean {w : ℕ} (hw : 0 < w) : Carries (Option.map T.price) (Option.map T.price)
    (rolling w meanOf) (rolling w meanOf) :=
  carries_rolling fun _ hl => meanOf_map_price T (ne_nil_of_length hw hl)

theorem varianceOf_map {l : List ℚ} (h : l ≠ []) :
    varianceOf (l.map T.price) = T.scale ^ 2 * varianceOf l := by
  have hterm : ∀ x, (T.price x - T.price (meanOf l)) ^ 2 = T.scale ^ 2 * (x - meanOf l) ^ 2 := by
    intro x
    rw [T.price_sub_price, PriceMap.move, mul_pow]
  have hsum := sum_map_affine (T.scale ^ 2) 0 (l.map fun x => (x - meanOf l) ^ 2)
  simp only [List.map_map, mul_zero, add_zero] at hsum
  rw [varianceOf, varianceOf, meanOf_map_price T h, List.map_map, List.length_map,
    show (fun x => (x - T.price (meanOf l)) ^ 2) ∘ T.price =
      (fun x => T.scale ^ 2 * x) ∘ fun x => (x - meanOf l) ^ 2 from funext hterm, hsum,
    mul_div_assoc]

theorem carries_std (hnp : ScalesSqrt np) {w : ℕ} (hw : 0 < w) :
    Carries (Option.map T.price) (Option.map T.range) (rollingStd np w) (rollingStd np w) := by
  have hvariance : Carries (Option.map T.price) (Option.map fun x => |T.scale| ^ 2 * x)
      (rolling w varianceOf) (rolling w varianceOf) := carries_rolling fun l hl => by
    rw [varianceOf_map T (ne_nil_of_length hw hl), sq_abs]
  refine (carries_map fun x => ?_).comp hvariance
  cases x with
  | none => rfl
  | some x => exact hnp |T.scale| x T.abs_scale_pos

/-- The RSI is a ratio of gains to losses. -/
theorem rsi_map (hT : 0 < T.scale) {period : ℕ} (h : 0 < period) (xs : Series) :
    rsi (xs.map (Option.map T.price)) period = rsi xs period := by
  have hmove : ∀ d : Option ℚ, (d.map T.move).getD 0 = T.range (d.getD 0) := by
    intro d
    rw [T.range_of_pos hT]
    cases d <;> simp [PriceMap.move]
  have hzero : T.range 0 = 0 := by simp
  have hpart : ∀ part : ℚ → ℚ, (∀ x, part (T.range x) = T.range (part x)) →
      Carries (Option.map T.price) (Option.map T.range)
        (fun xs => ewm (1 / period) true period ((diff 1 xs).map fun d => some (part (d.getD 0))))
        (fun xs => ewm (1 / period) true period
          ((diff 1 xs).map fun d => some (part (d.getD 0)))) := by
    intro part heq
    refine (carries_ewm_scaled |T.scale| (wilderAlpha_bounds h).1 (wilderAlpha_bounds h).2 _ _).comp
      (Carries.comp (h := Option.map T.move) (carries_map fun d => ?_)
        (carries_diff 1 T.price_sub_price))
    rw [hmove, heq]
    rfl
  have hgain := hpart (fun x => max x 0) fun x => by rw [T.range_max, hzero]
  have hloss := hpart (fun x => -min x 0) fun x => by
    rw [PriceMap.range, PriceMap.range, mul_neg, mul_min_of_nonneg _ _ (abs_nonneg _), mul_zero]
  have hratio := carries_safeDiv (j := id) hgain hloss T.range_eq_zero_iff
    (fun a b _ => mul_div_mul_left a b T.abs_scale_pos.ne') xs
  rw [Option.map_id, List.map_id] at hratio
  exact congrArg (List.map (Option.map fun rs => 100 - 100 / (1 + rs))) hratio

theorem carries_rsi (hT : 0 < T.scale) {period : ℕ} (h : 0 < period) :
    Carries T.candle id (fun df => rsi (closes df) period) (fun df => rsi (closes df) period) :=
  carries_same T fun df =>
    (congrArg (rsi · period) (carries_closes T df)).trans (rsi_map T hT h (closes df))

theorem carries_bbUpper (hnp : ScalesSqrt np) (hT : 0 < T.scale) :
    Carries (Option.map T.price) (Option.map T.price)
      (fun xs => (bollingerBands np xs).upper) (fun xs => (bollingerBands np xs).upper) :=
  carries_zipOp (carries_mean T (by decide)) (carries_std T hnp (by decide)) fun m s => by
    rw [T.range_of_pos hT]
    simp only [PriceMap.price, PriceMap.move]
    ring

theorem carries_bbLower (hnp : ScalesSqrt np) (hT : 0 < T.scale) :
    Carries (Option.map T.price) (Option.map T.price)
      (fun xs => (bollingerBands np xs).lower) (fun xs => (bollingerBands np xs).lower) :=
  carries_zipOp (carries_mean T (by decide)) (carries_std T hnp (by decide)) fun m s => by
    rw [T.range_of_pos hT]
    simp only [PriceMap.price, PriceMap.move]
    ring

/-! ### Supertrend -/

def bandsOn (b : Bands) : Bands where
  upper := T.price b.upper
  lower := T.price b.lower

def supertrendOn (s : SupertrendState) : SupertrendState where
  bands := s.bands.map (bandsOn T)
  direction := s.direction
  close := T.price s.close

theorem basicBands_map (hT : 0 < T.scale) (multiplier : ℚ) (c : Candle) (a : ℚ) :
    basicBands multiplier (T.candle c) (T.range a) = bandsOn T (basicBands multiplier c a) := by
  simp only [basicBands, bandsOn, T.candle_high_of_pos hT, T.candle_low_of_pos hT,
    T.range_of_pos hT, PriceMap.price, PriceMap.move, Bands.mk.injEq]
  constructor <;> ring

theorem nextBands_map (hT : 0 < T.scale) (basic prev : Bands) (prevClose : ℚ) :
    nextBands (bandsOn T basic) (bandsOn T prev) (T.price prevClose) =
      bandsOn T (nextBands basic prev prevClose) := by
  simp only [nextBands, bandsOn, gt_iff_lt, T.price_lt_price_of_pos hT, Bands.mk.injEq]
  constructor <;> split_ifs <;> rfl

theorem nextDirection_map (hT : 0 < T.scale) (b : Bands) (close : ℚ) (d : Direction) :
    nextDirection (bandsOn T b) (T.price close) d = nextDirection b close d := by
  cases d <;> simp only [nextDirection, bandsOn, gt_iff_lt, T.price_lt_price_of_pos hT]

theorem supertrendStep_map (hT : 0 < T.scale) (multiplier : ℚ) (s : SupertrendState)
    (x : Candle × Option ℚ) :
    supertrendStep multiplier (supertrendOn T s) (Prod.map T.candle (Option.map T.range) x) =
      supertrendOn T (supertrendStep multiplier s x) := by
  obtain ⟨c, a⟩ := x
  obtain ⟨bands, direction, close⟩ := s
  cases a with
  | none => rfl
  | some a =>
    simp only [supertrendStep, supertrendOn, Prod.map, Option.map_some, T.candle_close,
      basicBands_map T hT]
    cases bands with
    | none => rfl
    | some prev => simp only [Option.map_some, nextBands_map T hT, nextDirection_map T hT]

theorem line_supertrendOn (s : SupertrendState) :
    (supertrendOn T s).line = s.line.map T.price := by
  obtain ⟨bands, direction, close⟩ := s
  cases bands <;> cases direction <;> rfl

/-! ### Prices that have the same zero -/

variable (hT : 0 < T.scale) (hshift : T.shift = 0)

include hshift in
theorem price_eq_move : T.price = T.move := by
  funext x
  rw [PriceMap.price, PriceMap.move, hshift, add_zero]

include hT in
theorem range_eq_move : T.range = T.move := funext (T.range_of_pos hT)

include hT hshift in
theorem carries_supertrend {period : ℕ} (h : 0 < period) (multiplier : ℚ) :
    Carries T.candle (supertrendOn T) (fun df => supertrend df period multiplier)
      (fun df => supertrend df period multiplier) := by
  have hstart : supertrendOn T {} = {} := by
    simp [supertrendOn, price_eq_move T hshift, PriceMap.move]
  have hstates := carries_states (supertrendStep_map T hT multiplier) {}
  rw [hstart] at hstates
  exact hstates.comp ((carries_id T.candle).zip (carries_atr T h))

theorem weightedMean_map (a : ℚ) (l : List ℚ) :
    weightedMean (l.map fun x => a * x) = a * weightedMean l := by
  rw [weightedMean, weightedMean, List.length_map, List.zipIdx_map, List.map_map, ← mul_div_assoc,
    ← List.sum_map_mul_left]
  refine congrArg (· / _) (congrArg List.sum (List.map_congr_left fun p _ => ?_))
  obtain ⟨x, i⟩ := p
  simp only [Function.comp_apply, Prod.map_apply, id_eq]
  ring

include hshift in
theorem carries_wma (period : ℕ) : Carries (Option.map T.price) (Option.map T.price)
    (fun xs => wma xs period) (fun xs => wma xs period) := by
  rw [price_eq_move T hshift]
  exact carries_rolling fun l _ => weightedMean_map T.scale l

include hshift in
theorem carries_hma (period : ℕ) : Carries (Option.map T.price) (Option.map T.price)
    (fun xs => hma xs period) (fun xs => hma xs period) := by
  refine (carries_wma T hshift _).comp
    (carries_zipOp (carries_wma T hshift _) (carries_wma T hshift _) fun fast slow => ?_)
  simp only [price_eq_move T hshift, PriceMap.move]
  ring

include hT hshift in
/-- The width of the bands is relative to the price. -/
theorem carries_bbWidth {np : Numpy} (hnp : ScalesSqrt np) :
    Carries T.candle id
      (fun df => let bb := bollingerBands np (closes df)
        safeDiv (zipOp (· - ·) bb.upper bb.lower) bb.mid)
      (fun df => let bb := bollingerBands np (closes df)
        safeDiv (zipOp (· - ·) bb.upper bb.lower) bb.mid) := by
  have hspread := carries_zipOp ((carries_bbUpper T hnp hT).comp (carries_closes T))
    ((carries_bbLower T hnp hT).comp (carries_closes T)) T.price_sub_price
  have hratio := carries_safeDiv (j := id) hspread
    ((carries_mean T (by decide : 0 < 20)).comp (carries_closes T))
    (fun b => by simp [price_eq_move T hshift, PriceMap.move, T.scale_ne])
    (fun a b _ => by
      rw [price_eq_move T hshift]
      exact mul_div_mul_left a b T.scale_ne)
  rwa [Option.map_id] at hratio

end Columns

/-! ## The strategies -/

section Strategies

variable (T : PriceMap) (hT : 0 < T.scale) (hshift : T.shift = 0)

include hT in
/-- Levels that follow the chart, for a choice that does. -/
theorem levels_follow_of_pos {levels : ℚ → ℚ → SignalType → RawSignal} (h : LevelsFollow levels)
    (entry a : ℚ) {p q p' q' : Prop} [Decidable p] [Decidable q] [Decidable p'] [Decidable q']
    (hp : p' ↔ p) (hq : q' ↔ q) :
    (if p' then some (levels (T.price entry) (T.range a) .long)
      else if q' then some (levels (T.price entry) (T.range a) .short) else none) =
      (if p then some (levels entry a .long)
        else if q then some (levels entry a .short) else none).map (signalOn T) := by
  have hlong := h T entry a .long (Or.inl rfl)
  have hshort := h T entry a .short (Or.inr rfl)
  rw [sideOn_long_of_pos T hT] at hlong
  rw [sideOn_short_of_pos T hT] at hshort
  exact sides_follow T hp hq hlong hshort

/-! ### S02 -/

def pullbackOn (c : PullbackColumns) : PullbackColumns where
  ema20 := c.ema20.map T.price
  ema50 := c.ema50.map T.price
  atr14 := c.atr14.map T.range
  rsi14 := c.rsi14

include hT in
theorem carries_pullback :
    Carries T.candle (pullbackOn T) precomputeEmaPullback precomputeEmaPullback := by
  have hema : ∀ {period : ℕ}, 0 < period → Carries T.candle (Option.map T.price)
      (fun df => ema (closes df) period) (fun df => ema (closes df) period) :=
    fun h => (carries_ema_price T h).comp (carries_closes T)
  exact ((hema (by decide : 0 < 20)).zip (hema (by decide : 0 < 50))).zipWith
    ((carries_atr T (by decide : 0 < 14)).zip (carries_rsi T hT (by decide : 0 < 14)))
    fun _ _ => rfl

include hT hshift in
theorem emaPullbackSignal_map (rsiFloor rsiCeiling : ℚ)
    (rows : List (PreparedRow PullbackColumns)) :
    emaPullbackSignal rsiFloor rsiCeiling (rows.map (rowOn T (pullbackOn T))) =
      (emaPullbackSignal rsiFloor rsiCeiling rows).map (signalOn T) := by
  have htolerance : ∀ x r : ℚ, T.price x * r = T.price (x * r) := by
    intro x r
    simp only [price_eq_move T hshift, PriceMap.move]
    ring
  unfold emaPullbackSignal
  rw [List.length_map]
  refine gate_follows T Iff.rfl fun _ => bind_follows T (back_map ..) fun last _ =>
    bind_follows T (back_map ..) fun prev _ => bind_follows T rfl fun lastEma20 _ =>
    bind_follows T rfl fun lastEma50 _ => bind_follows T rfl fun a _ =>
    bind_same T fun rsi14 _ => bind_follows T rfl fun prevEma20 _ =>
    bind_follows T rfl fun _ _ => bind_follows T rfl fun _ _ => bind_same T fun _ _ =>
    gate_follows T (by simp) fun _ =>
      levels_follow_of_pos T hT levelsFollow_atrSlTp last.candle.close a ?_ ?_
  · simp only [rowOn, htolerance, gt_iff_lt, ge_iff_le, T.candle_close, T.candle_low_of_pos hT,
      T.price_lt_price_of_pos hT, T.price_le_price_of_pos hT]
  · simp only [rowOn, htolerance, ge_iff_le, T.candle_close, T.candle_high_of_pos hT,
      T.price_lt_price_of_pos hT, T.price_le_price_of_pos hT]

/-! ### S04 -/

variable {np : Numpy} (hnp : ScalesSqrt np)

def rsiBollingerOn (c : RsiBollingerColumns) : RsiBollingerColumns where
  rsi14 := c.rsi14
  bbUpper := c.bbUpper.map T.price
  bbMid := c.bbMid.map T.price
  bbLower := c.bbLower.map T.price
  atr14 := c.atr14.map T.range

include hT hnp in
theorem carries_rsiBollinger : Carries T.candle (rsiBollingerOn T) (precomputeRsiBollinger np)
    (precomputeRsiBollinger np) := by
  have hbands := ((carries_bbUpper T hnp hT).comp (carries_closes T)).zip
    (((carries_mean T (by decide : 0 < 20)).comp (carries_closes T)).zip
      ((carries_bbLower T hnp hT).comp (carries_closes T)))
  exact ((carries_rsi T hT (by decide : 0 < 14)).zip
    (carries_atr T (by decide : 0 < 14))).zipWith hbands fun _ _ => rfl

include hT in
theorem rsiBollingerSignal_map (rsiOversold rsiOverbought : ℚ)
    (rows : List (PreparedRow RsiBollingerColumns)) :
    rsiBollingerSignal rsiOversold rsiOverbought (rows.map (rowOn T (rsiBollingerOn T))) =
      (rsiBollingerSignal rsiOversold rsiOverbought rows).map (signalOn T) := by
  have hbelow : ∀ entry a : ℚ, T.price entry - 3 / 2 * T.range a =
      T.price (entry - 3 / 2 * a) := by
    intro entry a
    simp only [range_eq_move T hT, PriceMap.price, PriceMap.move]
    ring
  have habove : ∀ entry a : ℚ, T.price entry + 3 / 2 * T.range a =
      T.price (entry + 3 / 2 * a) := by
    intro entry a
    simp only [range_eq_move T hT, PriceMap.price, PriceMap.move]
    ring
  unfold rsiBollingerSignal
  rw [List.length_map]
  refine gate_follows T Iff.rfl fun _ => bind_follows T (back_map ..) fun last _ =>
    bind_follows T (back_map ..) fun prev _ => bind_same T fun _ _ =>
    bind_follows T rfl fun upper _ => bind_follows T rfl fun mid _ =>
    bind_follows T rfl fun lower _ => bind_follows T rfl fun a _ => bind_same T fun prevRsi _ =>
    bind_follows T rfl fun prevUpper _ => bind_follows T rfl fun _ _ =>
    bind_follows T rfl fun prevLower _ => bind_follows T rfl fun _ _ =>
    gate_follows T (by simp) fun _ => sides_follow T ?_ ?_ ?_ ?_
  · simp only [rowOn, ge_iff_le, T.candle_close, T.price_lt_price_of_pos hT,
      T.price_le_price_of_pos hT]
  · simp only [rowOn, gt_iff_lt, T.candle_close, T.price_lt_price_of_pos hT,
      T.price_le_price_of_pos hT]
  · simp only [rowOn, signalOn, sideOn_long_of_pos T hT, T.candle_close, T.candle_low_of_pos hT,
      hbelow, ← (price_monotone T hT).map_min, Option.map_some, Option.map_none]
  · simp only [rowOn, signalOn, sideOn_short_of_pos T hT, T.candle_close, T.candle_high_of_pos hT,
      habove, ← (price_monotone T hT).map_max, Option.map_some, Option.map_none]

/-! ### S06 -/

def supertrendColumnsOn (c : SupertrendColumns) : SupertrendColumns where
  stLine := c.stLine.map T.price
  stDir := c.stDir
  atr14 := c.atr14.map T.range

include hT hshift in
theorem carries_supertrendColumns :
    Carries T.candle (supertrendColumnsOn T) precomputeSupertrend precomputeSupertrend := by
  refine (carries_supertrend T hT hshift (by decide : 0 < 10) 3).zipWith
    (carries_atr T (by decide : 0 < 14)) fun s a => ?_
  rw [line_supertrendOn]
  rfl

include hT in
theorem flipSignal_map (entry a : ℚ) (line : Option ℚ) {side : SignalType} (h : IsTrade side) :
    flipSignal (T.price entry) (T.range a) (line.map T.price) side =
      signalOn T (flipSignal entry a line side) := by
  rcases h with rfl | rfl
  · simp only [flipSignal, signalOn, sideOn_long_of_pos T hT, Option.map_some,
      range_eq_move T hT, PriceMap.price, PriceMap.move]
    congr 2 <;> ring
  · simp only [flipSignal, signalOn, sideOn_short_of_pos T hT, Option.map_some,
      range_eq_move T hT, PriceMap.price, PriceMap.move]
    congr 2 <;> ring

include hT in
theorem supertrendSignal_map (rows : List (PreparedRow SupertrendColumns)) :
    supertrendSignal (rows.map (rowOn T (supertrendColumnsOn T))) =
      (supertrendSignal rows).map (signalOn T) := by
  unfold supertrendSignal
  rw [List.length_map]
  refine gate_follows T Iff.rfl fun _ => bind_follows T (back_map ..) fun last _ =>
    bind_follows T (back_map ..) fun prev _ => bind_follows T rfl fun a _ =>
    gate_follows T (by simp) fun _ => ?_
  simp only [rowOn, supertrendColumnsOn, T.candle_close]
  cases prev.columns.stDir <;> cases last.columns.stDir
  · rfl
  · exact congrArg some (flipSignal_map T hT _ a _ (Or.inr rfl))
  · exact congrArg some (flipSignal_map T hT _ a _ (Or.inl rfl))
  · rfl

/-! ### S09 -/

def volatilityOn (c : VolatilityColumns) : VolatilityColumns where
  bbUpper := c.bbUpper.map T.price
  bbLower := c.bbLower.map T.price
  bbWidthPctile := c.bbWidthPctile
  atr14 := c.atr14.map T.range

include hT hshift hnp in
theorem carries_volatility : Carries T.candle (volatilityOn T)
    (precomputeAtrVolatilityBreakout np) (precomputeAtrVolatilityBreakout np) := by
  have hbands := ((carries_bbUpper T hnp hT).comp (carries_closes T)).zip
    ((carries_bbLower T hnp hT).comp (carries_closes T))
  have hpctile : Carries id id (rolling 50 rankPct) (rolling 50 rankPct) := fun xs => by
    rw [List.map_id, List.map_id]
  exact hbands.zipWith ((hpctile.comp (carries_bbWidth T hT hshift hnp)).zip
    (carries_atr T (by decide : 0 < 14))) fun _ _ => rfl

include hT in
theorem atrVolatilityBreakoutSignal_map (squeezePctile : ℚ) (atrLookback : ℕ)
    (rows : List (PreparedRow VolatilityColumns)) :
    atrVolatilityBreakoutSignal squeezePctile atrLookback (rows.map (rowOn T (volatilityOn T))) =
      (atrVolatilityBreakoutSignal squeezePctile atrLookback rows).map (signalOn T) := by
  unfold atrVolatilityBreakoutSignal
  rw [List.length_map]
  refine gate_follows T Iff.rfl fun _ => bind_follows T (back_map ..) fun last _ =>
    bind_follows T (back_map ..) fun prev _ => bind_follows T rfl fun upper _ =>
    bind_follows T rfl fun lower _ => bind_same T fun _ _ => bind_follows T rfl fun a _ =>
    bind_follows T rfl fun _ _ => bind_follows T rfl fun _ _ => bind_same T fun prevPctile _ =>
    bind_follows T rfl fun _ _ => gate_follows T (by simp) fun _ =>
    bind_follows T (back_map ..) fun earlier _ => bind_follows T rfl fun earlierAtr _ =>
    gate_follows T (by simp) fun _ =>
      levels_follow_of_pos T hT levelsFollow_atrSlTp last.candle.close a ?_ ?_
  · simp only [rowOn, gt_iff_lt, T.candle_close, T.price_lt_price_of_pos hT]
  · simp only [rowOn, T.candle_close, T.price_lt_price_of_pos hT]

/-! ### S11 -/

def zscoreOn (c : ZscoreColumns) : ZscoreColumns where
  zscore := c.zscore
  atr14 := c.atr14.map T.range

include hT hnp in
/-- A z-score is a ratio of moves. -/
theorem carries_zscore {period : ℕ} (h : 0 < period) : Carries T.candle (zscoreOn T)
    (precomputeZscoreReversion np period) (precomputeZscoreReversion np period) := by
  have hmove := carries_zipOp (carries_closes T) ((carries_mean T h).comp (carries_closes T))
    T.price_sub_price
  have hratio := carries_safeDiv (j := id) hmove ((carries_std T hnp h).comp (carries_closes T))
    T.range_eq_zero_iff fun a b _ => by
      rw [range_eq_move T hT]
      exact mul_div_mul_left a b T.scale_ne
  exact hratio.zipWith (carries_atr T (by decide : 0 < 14)) fun z _ => by
    cases z <;> rfl

theorem levelsFollow_zscoreLevels : LevelsFollow zscoreLevels := by
  rintro T entry a side (rfl | rfl)
  all_goals
    rcases T.sign with h | h
    · simp only [sideOn, if_pos h, zscoreLevels, atrSlTpAt, signalOn, Option.map_some,
        T.range_of_pos h, PriceMap.price, PriceMap.move]
      congr 2 <;> ring
    · simp only [sideOn, if_neg h.not_gt, zscoreLevels, atrSlTpAt, signalOn, Option.map_some,
        T.range_of_neg h, PriceMap.price, PriceMap.move]
      congr 2 <;> ring

include hT in
theorem zscoreReversionSignal_map (zEntry : ℚ) (rows : List (PreparedRow ZscoreColumns)) :
    zscoreReversionSignal zEntry (rows.map (rowOn T (zscoreOn T))) =
      (zscoreReversionSignal zEntry rows).map (signalOn T) := by
  unfold zscoreReversionSignal
  rw [List.length_map]
  exact gate_follows T Iff.rfl fun _ => bind_follows T (back_map ..) fun last _ =>
    bind_follows T (back_map ..) fun prev _ => bind_same T fun _ _ => bind_same T fun _ _ =>
    bind_follows T rfl fun a _ => gate_follows T (by simp) fun _ =>
      levels_follow_of_pos T hT levelsFollow_zscoreLevels last.candle.close a Iff.rfl Iff.rfl

/-! ### S12 -/

def swingOn (c : SwingColumns) : SwingColumns where
  swingHigh := c.swingHigh.map T.price
  swingLow := c.swingLow.map T.price
  atr14 := c.atr14.map T.range

include hT in
theorem carries_swing {period : ℕ} (h : 0 < period) : Carries T.candle (swingOn T)
    (precomputeStructureRetest period) (precomputeStructureRetest period) := by
  refine (carries_atr T (by decide : 0 < 14)).zipWith (carries_bounds T h) fun a b => ?_
  simp only [upperOn, lowerOn, if_pos hT]
  rfl

include hT in
theorem structureRetestSignal_map (lookbackBreak : ℕ) (retestAtrMult : ℚ)
    (rows : List (PreparedRow SwingColumns)) :
    structureRetestSignal lookbackBreak retestAtrMult (rows.map (rowOn T (swingOn T))) =
      (structureRetestSignal lookbackBreak retestAtrMult rows).map (signalOn T) := by
  have hbefore : rowsBefore lookbackBreak (rows.map (rowOn T (swingOn T))) =
      (rowsBefore lookbackBreak rows).map (rowOn T (swingOn T)) := by
    simp [rowsBefore, List.map_take]
  have hmult : ∀ a, retestAtrMult * T.range a = T.move (retestAtrMult * a) := by
    intro a
    simp only [range_eq_move T hT, PriceMap.move]
    ring
  have hmove_nonneg : ∀ x, 0 ≤ T.move x ↔ 0 ≤ x := fun x => mul_nonneg_iff_of_pos_left hT
  have hmove_le : ∀ x y, T.move x ≤ T.move y ↔ x ≤ y := fun x y => mul_le_mul_iff_of_pos_left hT
  unfold structureRetestSignal
  rw [List.length_map, hbefore]
  refine gate_follows T Iff.rfl fun _ => bind_follows T (back_map ..) fun last _ =>
    bind_follows T rfl fun a _ => bind_follows T (back_map ..) fun level _ =>
    bind_follows T rfl fun swingHigh _ => bind_follows T rfl fun swingLow _ =>
    gate_follows T (by simp) fun _ =>
      levels_follow_of_pos T hT levelsFollow_atrSlTp last.candle.close a ?_ ?_
  · simp only [rowOn, gt_iff_lt, T.candle_close, T.price_sub_price, hmult, hmove_nonneg, hmove_le,
      List.any_map, Function.comp_def, T.price_lt_price_of_pos hT]
  · simp only [rowOn, T.candle_close, T.price_sub_price, hmult, hmove_nonneg, hmove_le,
      List.any_map, Function.comp_def, T.price_lt_price_of_pos hT]

/-! ### V3_HMA -/

def hmaOn (c : HmaColumns) : HmaColumns where
  hma := c.hma.map T.price
  atr14 := c.atr14.map T.range

include hshift in
theorem carries_hmaTrend (period : ℕ) :
    Carries T.candle (hmaOn T) (precomputeHmaTrend period) (precomputeHmaTrend period) :=
  ((carries_hma T hshift period).comp (carries_closes T)).zipWith
    (carries_atr T (by decide : 0 < 14)) fun _ _ => rfl

include hT in
theorem hmaTrendSignal_map (rows : List (PreparedRow HmaColumns)) :
    hmaTrendSignal (rows.map (rowOn T (hmaOn T))) = (hmaTrendSignal rows).map (signalOn T) := by
  unfold hmaTrendSignal
  rw [List.length_map]
  refine gate_follows T Iff.rfl fun _ => bind_follows T (back_map ..) fun last _ =>
    bind_follows T (back_map ..) fun prev _ => bind_follows T rfl fun lastHma _ =>
    bind_follows T rfl fun prevHma _ => bind_follows T rfl fun a _ =>
    gate_follows T (by simp) fun _ =>
      levels_follow_of_pos T hT levelsFollow_atrSlTp last.candle.close a ?_ ?_
  · simp only [rowOn, gt_iff_lt, T.candle_close, T.price_lt_price_of_pos hT,
      T.price_le_price_of_pos hT]
  · simp only [rowOn, gt_iff_lt, ge_iff_le, T.candle_close, T.price_lt_price_of_pos hT,
      T.price_le_price_of_pos hT]

end Strategies

/-! ## Decisions in another currency -/

/-- Prices in another currency. -/
def rescale {k : ℚ} (hk : 0 < k) : PriceMap := ⟨k, 0, hk.ne'⟩

/-- **Decisions in any currency.** Each strategy decides on prices in another currency what it
decides on the prices, with its levels in the other currency. -/
theorem decisions_in_any_currency (np : Numpy) (hnp : ScalesSqrt np) (k : ℚ) (hk : 0 < k)
    (df : List Candle) (hdf : ∀ c ∈ df, c.low ≤ c.high) :
    ∀ s ∈ strategyPairs np, s.decide (df.map (rescale hk).candle) =
      (s.decide df).map (signalOn (rescale hk)) := by
  intro s hs
  have hshift : (rescale hk).shift = 0 := rfl
  generalize hT : rescale hk = T at hshift
  have hscale : 0 < T.scale := hT ▸ hk
  simp only [strategyPairs, List.mem_cons, List.not_mem_nil, or_false] at hs
  rcases hs with rfl | rfl | rfl | rfl | rfl | rfl | rfl | rfl | rfl | rfl | rfl | rfl | rfl | rfl
  · exact decide_follows T (carries_momentum T)
      (momentumBreakoutSignal_map T _ _ _ _ (ordered_momentum hdf))
  · exact decide_follows T (carries_pullback T hscale)
      (emaPullbackSignal_map T hscale hshift _ _ _)
  · exact decide_follows T (carries_vwap T) (vwapReversionSignal_map T (by norm_num) _)
  · exact decide_follows T (carries_rsiBollinger T hscale hnp)
      (rsiBollingerSignal_map T hscale _ _ _)
  · exact decide_follows T (carries_baseline T)
      (trendFollowingSignal_map T _ _ _ (ordered_baseline hdf))
  · exact decide_follows T (carries_supertrendColumns T hscale hshift)
      (supertrendSignal_map T hscale _)
  · exact decide_follows T (carries_macd T) (macdMomentumSignal_map T _)
  · exact decide_follows T (carries_emaStructure T) (emaStructureAdxSignal_map T _ _)
  · exact decide_follows T (carries_volatility T hscale hshift hnp)
      (atrVolatilityBreakoutSignal_map T hscale _ _ _)
  · exact decide_follows T (carries_zscore T hscale hnp (by decide))
      (zscoreReversionSignal_map T hscale _ _)
  · exact decide_follows T (carries_swing T hscale (by decide))
      (structureRetestSignal_map T hscale _ _ _)
  · exact decide_follows T (carries_kamaTrend T _) (kamaTrendSignal_map T _ _)
  · exact decide_follows T (carries_range T)
      (rangeExpansionBreakoutSignal_map T _ _ (ordered_range hdf))
  · exact decide_follows T (carries_hmaTrend T hshift _) (hmaTrendSignal_map T hscale _)

/-- The roots that are rational. -/
def rationalRoots : Numpy where
  sqrt x := if IsSquare x then some (Rat.sqrt x) else none
  log _ := none

theorem scalesSqrt_rationalRoots : ScalesSqrt rationalRoots := by
  intro k x hk
  have hsquare : IsSquare (k ^ 2 * x) ↔ IsSquare x := by
    constructor
    · rintro ⟨r, hr⟩
      refine ⟨r / k, ?_⟩
      field_simp
      linarith
    · rintro ⟨r, rfl⟩
      exact ⟨k * r, by ring⟩
  simp only [rationalRoots, hsquare]
  split_ifs with h
  · obtain ⟨r, rfl⟩ := h
    rw [Option.map_some, show k ^ 2 * (r * r) = k * r * (k * r) by ring, Rat.sqrt_eq, Rat.sqrt_eq,
      abs_mul, abs_of_pos hk]
  · rfl

/-- V3_HMA buys the breakout in rupees too, with its stop at 83 times the stop in dollars. -/
theorem decisions_in_any_currency_rupees :
    ((hmaPair.decide ((fallen 45 ++ [breakoutCandle]).map
      (rescale (k := 83) (by decide +kernel)).candle)).bind RawSignal.stopLoss).any
        (fun stop => 83 * 111 < stop ∧ stop < 83 * 112) = true := by
  rw [decisions_in_any_currency rationalRoots scalesSqrt_rationalRoots 83 (by decide +kernel)
    (fallen 45 ++ [breakoutCandle]) (by decide +kernel) hmaPair (by simp [strategyPairs])]
  decide +kernel

end AlphaOne.SignalEngine

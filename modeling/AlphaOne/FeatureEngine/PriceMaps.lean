import AlphaOne.FeatureEngine.Columns
import AlphaOne.Foundations.Transport
import Mathlib.Tactic.FieldSimp

/-!
# Indicators in other units

A candle in another currency has its prices times a rate, and a chart turned upside down has them
negated, with the highs and the lows exchanged: both are a `PriceMap`, `p ↦ scale * p + shift`. The
indicators follow such a change: averages of prices as prices, ranges by the size of the scale, and
ratios of ranges not at all.
-/

namespace AlphaOne.FeatureEngine

open Foundations

/-- A change of the prices. -/
structure PriceMap where
  scale : ℚ
  shift : ℚ
  scale_ne : scale ≠ 0

namespace PriceMap

variable (T : PriceMap)

/-- A price, or an average of prices. -/
def price (x : ℚ) : ℚ := T.scale * x + T.shift

/-- A difference of prices. -/
def move (x : ℚ) : ℚ := T.scale * x

/-- A distance of prices. -/
def range (x : ℚ) : ℚ := |T.scale| * x

/-- A change with a negative scale exchanges the high and the low of a candle. -/
def candle (c : Candle) : Candle :=
  { c with
    open_ := T.price c.open_
    high := if 0 < T.scale then T.price c.high else T.price c.low
    low := if 0 < T.scale then T.price c.low else T.price c.high
    close := T.price c.close }

@[simp] theorem candle_close (c : Candle) : (T.candle c).close = T.price c.close := rfl

@[simp] theorem candle_volume (c : Candle) : (T.candle c).volume = c.volume := rfl

@[simp] theorem candle_timestamp (c : Candle) : (T.candle c).timestamp = c.timestamp := rfl

theorem candle_high_of_pos (h : 0 < T.scale) (c : Candle) :
    (T.candle c).high = T.price c.high := if_pos h

theorem candle_low_of_pos (h : 0 < T.scale) (c : Candle) :
    (T.candle c).low = T.price c.low := if_pos h

theorem candle_high_of_neg (h : T.scale < 0) (c : Candle) :
    (T.candle c).high = T.price c.low := if_neg h.not_gt

theorem candle_low_of_neg (h : T.scale < 0) (c : Candle) :
    (T.candle c).low = T.price c.high := if_neg h.not_gt

theorem sign : 0 < T.scale ∨ T.scale < 0 := T.scale_ne.lt_or_gt.symm

theorem price_sub_price (x y : ℚ) : T.price x - T.price y = T.move (x - y) := by
  simp only [price, move]
  ring

theorem abs_move (x : ℚ) : |T.move x| = T.range |x| := by rw [move, range, abs_mul]

theorem range_of_pos (h : 0 < T.scale) (x : ℚ) : T.range x = T.move x := by
  rw [range, move, abs_of_pos h]

theorem range_of_neg (h : T.scale < 0) (x : ℚ) : T.range x = T.move (-x) := by
  rw [range, move, abs_of_neg h]
  ring

theorem abs_scale_pos : 0 < |T.scale| := abs_pos.2 T.scale_ne

theorem range_max (x y : ℚ) : T.range (max x y) = max (T.range x) (T.range y) :=
  mul_max_of_nonneg x y (abs_nonneg T.scale)

@[simp] theorem range_eq_zero_iff (x : ℚ) : T.range x = 0 ↔ x = 0 := by
  simp [range, T.scale_ne]

@[simp] theorem range_pos_iff (x : ℚ) : 0 < T.range x ↔ 0 < x := by
  simp [range, mul_pos_iff_of_pos_left T.abs_scale_pos]

@[simp] theorem range_nonpos_iff (x : ℚ) : T.range x ≤ 0 ↔ x ≤ 0 := by
  rw [← not_lt, range_pos_iff, not_lt]

@[simp] theorem range_lt_range_iff (x y : ℚ) : T.range x < T.range y ↔ x < y :=
  mul_lt_mul_iff_of_pos_left T.abs_scale_pos

theorem price_lt_price_of_pos (h : 0 < T.scale) (x y : ℚ) : T.price x < T.price y ↔ x < y := by
  rw [price, price, add_lt_add_iff_right]
  exact mul_lt_mul_iff_of_pos_left h

theorem price_lt_price_of_neg (h : T.scale < 0) (x y : ℚ) : T.price x < T.price y ↔ y < x := by
  rw [price, price, add_lt_add_iff_right]
  exact mul_lt_mul_left_of_neg h

theorem price_le_price_of_pos (h : 0 < T.scale) (x y : ℚ) : T.price x ≤ T.price y ↔ x ≤ y := by
  rw [← not_lt, price_lt_price_of_pos T h, not_lt]

theorem price_le_price_of_neg (h : T.scale < 0) (x y : ℚ) : T.price x ≤ T.price y ↔ y ≤ x := by
  rw [← not_lt, price_lt_price_of_neg T h, not_lt]

theorem move_lt_move_of_pos (h : 0 < T.scale) (x y : ℚ) : T.move x < T.move y ↔ x < y :=
  mul_lt_mul_iff_of_pos_left h

theorem move_lt_move_of_neg (h : T.scale < 0) (x y : ℚ) : T.move x < T.move y ↔ y < x :=
  mul_lt_mul_left_of_neg h

end PriceMap

/-! ## Operations on columns -/

section Columns

variable {α α' : Type} {g : α → α'} {f f₁ f₂ j : ℚ → ℚ} {F K : List α → Series}
  {F' K' : List α' → Series}

theorem carries_zipOp {op op' : ℚ → ℚ → ℚ} (hF : Carries g (Option.map f₁) F F')
    (hK : Carries g (Option.map f₂) K K') (heq : ∀ a b, op' (f₁ a) (f₂ b) = j (op a b)) :
    Carries g (Option.map j) (fun xs => zipOp op (F xs) (K xs))
      (fun xs => zipOp op' (F' xs) (K' xs)) := by
  refine hF.zipWith hK fun x y => ?_
  cases x with
  | none => rfl
  | some a => cases y with
    | none => rfl
    | some b => exact congrArg some (heq a b)

theorem carries_safeDiv (hF : Carries g (Option.map f₁) F F')
    (hK : Carries g (Option.map f₂) K K') (hzero : ∀ b, f₂ b = 0 ↔ b = 0)
    (heq : ∀ a b, b ≠ 0 → f₁ a / f₂ b = j (a / b)) :
    Carries g (Option.map j) (fun xs => safeDiv (F xs) (K xs))
      (fun xs => safeDiv (F' xs) (K' xs)) := by
  refine hF.zipWith hK fun x y => ?_
  cases x with
  | none => rfl
  | some a => cases y with
    | none => rfl
    | some b =>
      by_cases hb : b = 0
      · simp [hb, (hzero 0).2 rfl]
      · simp [hb, (hzero b).not.2 hb, heq a b hb]

theorem carries_mapEntries {k k' : ℚ → ℚ} (hF : Carries g (Option.map f) F F')
    (heq : ∀ a, k' (f a) = j (k a)) :
    Carries g (Option.map j) (fun xs => (F xs).map (Option.map k))
      (fun xs => (F' xs).map (Option.map k')) :=
  (carries_map fun x => by cases x <;> simp [heq]).comp hF

theorem carries_windows {β β' : Type*} (h : β → β') (w : ℕ) :
    Carries h (List.map h) (windows w) (windows w) :=
  carries_states (fun recent x => by simp [List.map_take]) []

theorem carries_shift (k : ℕ) : Carries (Option.map f) (Option.map f) (shift k) (shift k) := by
  refine (carries_map fun recent => ?_).comp (carries_windows (Option.map f) (k + 1))
  rw [List.getElem?_map]
  cases recent[k]? <;> rfl

theorem carries_diff (k : ℕ) (heq : ∀ a b, f a - f b = j (a - b)) :
    Carries (Option.map f) (Option.map j) (diff k) (diff k) :=
  carries_zipOp (carries_id _) (carries_shift k) heq

/-- A full window without NaN is one after the change, and the other way round. -/
theorem carries_rolling {w : ℕ} {agg agg' : List ℚ → ℚ}
    (heq : ∀ l : List ℚ, l.length = w → agg' (l.map f) = j (agg l)) :
    Carries (Option.map f) (Option.map j) (rolling w agg) (rolling w agg') := by
  refine (carries_map fun recent => ?_).comp (carries_windows (Option.map f) w)
  have hall : (recent.map (Option.map f)).all Option.isSome = recent.all Option.isSome := by
    rw [List.all_map]
    exact congrArg (recent.all ·) (funext fun x => by cases x <;> rfl)
  have hvalues : (recent.map (Option.map f)).filterMap id = (recent.filterMap id).map f := by
    rw [List.filterMap_map, List.map_filterMap]
    exact List.filterMap_congr fun x _ => rfl
  rw [List.length_map, hall, hvalues]
  split
  · rename_i hfull
    have hlength : (recent.filterMap id).length = w := by
      rw [← hfull.1, List.length_filterMap_eq_countP, List.countP_eq_length]
      exact fun x hx => List.all_eq_true.1 hfull.2 x hx
    rw [heq _ hlength]
    rfl
  · rfl

end Columns

/-! ## Means and extremes of a window -/

theorem sum_map_affine (a b : ℚ) (l : List ℚ) :
    (l.map fun x => a * x + b).sum = a * l.sum + l.length * b := by
  induction l with
  | nil => simp
  | cons x l ih =>
    rw [List.map_cons, List.sum_cons, ih, List.sum_cons, List.length_cons]
    push_cast
    ring

theorem meanOf_map_affine (a b : ℚ) {l : List ℚ} (h : l ≠ []) :
    meanOf (l.map fun x => a * x + b) = a * meanOf l + b := by
  have hlength : (l.length : ℚ) ≠ 0 := by simpa using h
  rw [meanOf, meanOf, sum_map_affine, List.length_map]
  field_simp

theorem foldr_max_map {f : ℚ → ℚ} (hf : Monotone f) (l : List ℚ) (x : ℚ) :
    (l.map f).foldr max (f x) = f (l.foldr max x) := by
  induction l with
  | nil => rfl
  | cons y l ih => rw [List.map_cons, List.foldr_cons, List.foldr_cons, ih, hf.map_max]

theorem foldr_min_map {f : ℚ → ℚ} (hf : Monotone f) (l : List ℚ) (x : ℚ) :
    (l.map f).foldr min (f x) = f (l.foldr min x) := by
  induction l with
  | nil => rfl
  | cons y l ih => rw [List.map_cons, List.foldr_cons, List.foldr_cons, ih, hf.map_min]

theorem foldr_max_map_antitone {f : ℚ → ℚ} (hf : Antitone f) (l : List ℚ) (x : ℚ) :
    (l.map f).foldr max (f x) = f (l.foldr min x) := by
  induction l with
  | nil => rfl
  | cons y l ih => rw [List.map_cons, List.foldr_cons, List.foldr_cons, ih, hf.map_min]

theorem foldr_min_map_antitone {f : ℚ → ℚ} (hf : Antitone f) (l : List ℚ) (x : ℚ) :
    (l.map f).foldr min (f x) = f (l.foldr max x) := by
  induction l with
  | nil => rfl
  | cons y l ih => rw [List.map_cons, List.foldr_cons, List.foldr_cons, ih, hf.map_max]

section Extremes

variable {f : ℚ → ℚ} {l : List ℚ}

theorem maxOf_map (hf : Monotone f) (h : l ≠ []) : maxOf (l.map f) = f (maxOf l) := by
  cases l with
  | nil => exact absurd rfl h
  | cons x l => exact foldr_max_map hf (x :: l) x

theorem minOf_map (hf : Monotone f) (h : l ≠ []) : minOf (l.map f) = f (minOf l) := by
  cases l with
  | nil => exact absurd rfl h
  | cons x l => exact foldr_min_map hf (x :: l) x

theorem maxOf_map_antitone (hf : Antitone f) (h : l ≠ []) : maxOf (l.map f) = f (minOf l) := by
  cases l with
  | nil => exact absurd rfl h
  | cons x l => exact foldr_max_map_antitone hf (x :: l) x

theorem minOf_map_antitone (hf : Antitone f) (h : l ≠ []) : minOf (l.map f) = f (maxOf l) := by
  cases l with
  | nil => exact absurd rfl h
  | cons x l => exact foldr_min_map_antitone hf (x :: l) x

end Extremes

theorem ne_nil_of_length {w : ℕ} (hw : 0 < w) {l : List ℚ} (h : l.length = w) : l ≠ [] := by
  rintro rfl
  exact hw.ne h

/-! ## Exponentially weighted means -/

/-- The mean is a weighted one, with weights that are not all zero. -/
theorem carries_ewm (a b : ℚ) {alpha : ℚ} (h₀ : 0 < alpha) (h₁ : alpha ≤ 1) (adjust : Bool)
    (minPeriods : ℕ) :
    Carries (Option.map fun x => a * x + b) (Option.map fun x => a * x + b)
      (ewm alpha adjust minPeriods) (ewm alpha adjust minPeriods) := by
  have hstates : Carries (Option.map fun x => a * x + b)
      (fun s : EwmState => { s with weighted := s.weighted.map fun x => a * x + b })
      (states (ewmStep alpha adjust) {}) (states (ewmStep alpha adjust) {}) := by
    refine carries_states_of (I := fun s => 0 ≤ s.oldWt) zero_le_one (fun s x hs => ?_)
      fun s x hs => ?_
    · have hdecay : 0 ≤ s.oldWt * (1 - alpha) := mul_nonneg hs (by linarith)
      unfold ewmStep
      split
      · exact hs
      · exact hs
      · exact hdecay
      · cases adjust
        · exact zero_le_one
        · exact add_nonneg hdecay zero_le_one
    · have hdecay : 0 ≤ s.oldWt * (1 - alpha) := mul_nonneg hs (by linarith)
      have hweight : 0 < if adjust then 1 else alpha := by cases adjust <;> simp [h₀]
      unfold ewmStep
      cases hweighted : s.weighted with
      | none => cases x <;> simp [hweighted]
      | some weighted =>
        cases x with
        | none => simp
        | some cur =>
          simp only [Option.map_some]
          congr 2
          field_simp
          ring
  refine (carries_map fun s => ?_).comp hstates
  dsimp only
  split <;> rfl

/-- A mean without a shift. -/
theorem carries_ewm_scaled (a : ℚ) {alpha : ℚ} (h₀ : 0 < alpha) (h₁ : alpha ≤ 1) (adjust : Bool)
    (minPeriods : ℕ) :
    Carries (Option.map fun x => a * x) (Option.map fun x => a * x)
      (ewm alpha adjust minPeriods) (ewm alpha adjust minPeriods) := by
  simpa only [add_zero] using carries_ewm a 0 h₀ h₁ adjust minPeriods

/-- The smoothing of `ema`. -/
theorem emaAlpha_bounds {period : ℕ} (h : 0 < period) :
    (0 : ℚ) < 2 / (period + 1) ∧ (2 : ℚ) / (period + 1) ≤ 1 := by
  have hperiod : (1 : ℚ) ≤ period := by exact_mod_cast h
  exact ⟨by positivity, (div_le_one (by positivity)).2 (by linarith)⟩

/-- The smoothing of `atr` and of `rsi`. -/
theorem wilderAlpha_bounds {period : ℕ} (h : 0 < period) :
    (0 : ℚ) < 1 / period ∧ (1 : ℚ) / period ≤ 1 := by
  have hperiod : (1 : ℚ) ≤ period := by exact_mod_cast h
  exact ⟨by positivity, (div_le_one (by positivity)).2 hperiod⟩

/-! ## The indicators of a changed chart -/

section Indicators

variable (T : PriceMap) {period : ℕ}

theorem carries_ema_price (h : 0 < period) : Carries (Option.map T.price) (Option.map T.price)
    (fun xs => ema xs period) (fun xs => ema xs period) :=
  carries_ewm _ _ (emaAlpha_bounds h).1 (emaAlpha_bounds h).2 _ _

theorem carries_ema_scaled (a : ℚ) (h : 0 < period) :
    Carries (Option.map fun x => a * x) (Option.map fun x => a * x) (fun xs => ema xs period)
      (fun xs => ema xs period) :=
  carries_ewm_scaled a (emaAlpha_bounds h).1 (emaAlpha_bounds h).2 _ _

theorem trueRange_map (prev : Option Candle) (c : Candle) :
    trueRange (prev.map T.candle) (T.candle c) = T.range (trueRange prev c) := by
  have hown : (T.candle c).high - (T.candle c).low = T.range (c.high - c.low) := by
    rcases T.sign with h | h
    · rw [T.candle_high_of_pos h, T.candle_low_of_pos h, T.price_sub_price, T.range_of_pos h]
    · rw [T.candle_high_of_neg h, T.candle_low_of_neg h, T.price_sub_price, T.range_of_neg h,
        neg_sub]
  cases prev with
  | none => exact hown
  | some p =>
    have hhigh : |T.price c.high - T.price p.close| = T.range |c.high - p.close| := by
      rw [T.price_sub_price, T.abs_move]
    have hlow : |T.price c.low - T.price p.close| = T.range |c.low - p.close| := by
      rw [T.price_sub_price, T.abs_move]
    simp only [trueRange, Option.map_some, PriceMap.candle_close, hown, T.range_max]
    rcases T.sign with h | h
    · rw [T.candle_high_of_pos h, T.candle_low_of_pos h, hhigh, hlow]
    · rw [T.candle_high_of_neg h, T.candle_low_of_neg h, hhigh, hlow,
        max_comm (T.range |c.high - p.close|)]

theorem carries_trueRanges :
    Carries T.candle (Option.map T.range) trueRanges trueRanges :=
  carries_withPrevious fun prev c => congrArg some (trueRange_map T prev c)

theorem carries_atr (h : 0 < period) : Carries T.candle (Option.map T.range)
    (fun cs => atr cs period) (fun cs => atr cs period) :=
  (carries_ewm_scaled |T.scale| (wilderAlpha_bounds h).1 (wilderAlpha_bounds h).2 true
    period).comp (carries_trueRanges T)

/-- What a change makes of `plus_dm` and `minus_dm`. -/
def PriceMap.movement (m : ℚ × ℚ) : ℚ × ℚ :=
  if 0 < T.scale then (T.range m.1, T.range m.2) else (T.range m.2, T.range m.1)

theorem directionalMovement_map (prev : Option Candle) (c : Candle) :
    directionalMovement (prev.map T.candle) (T.candle c) =
      T.movement (directionalMovement prev c) := by
  cases prev with
  | none => simp [directionalMovement, PriceMap.movement, PriceMap.range]
  | some p =>
    have hpart : ∀ x y : ℚ, (if T.range x > T.range y then max (T.range x) 0 else 0) =
        T.range (if x > y then max x 0 else 0) := by
      intro x y
      have hzero : T.range 0 = 0 := by simp
      simp only [gt_iff_lt, T.range_lt_range_iff]
      split
      · rw [T.range_max, hzero]
      · rw [hzero]
    simp only [directionalMovement, Option.map_some, PriceMap.movement]
    rcases T.sign with h | h
    · simp only [if_pos h, T.candle_high_of_pos h, T.candle_low_of_pos h, T.price_sub_price,
        ← T.range_of_pos h, hpart]
    · have hswap : ∀ x y : ℚ, T.price x - T.price y = T.range (y - x) := by
        intro x y
        rw [T.price_sub_price, T.range_of_neg h, neg_sub]
      simp only [if_neg h.not_gt, T.candle_high_of_neg h, T.candle_low_of_neg h, hswap, hpart]

theorem directionalIndex_map {get get' : ℚ × ℚ → ℚ} (h : 0 < period)
    (heq : ∀ m, get' (T.movement m) = T.range (get m)) (cs : List Candle) :
    directionalIndex get' (cs.map T.candle) period = directionalIndex get cs period := by
  have hmovements : Carries T.candle (Option.map T.range)
      (fun cs => (withPrevious directionalMovement none cs).map fun m => some (get m))
      (fun cs => (withPrevious directionalMovement none cs).map fun m => some (get' m)) := by
    refine Carries.comp (h := T.movement) ?_ (carries_withPrevious (directionalMovement_map T))
    exact carries_map fun m => congrArg some (heq m)
  have hratio := carries_safeDiv (j := id)
    ((carries_ema_scaled |T.scale| h).comp hmovements) (carries_atr T h)
    T.range_eq_zero_iff fun a b _ => mul_div_mul_left a b T.abs_scale_pos.ne'
  have hcs := hratio cs
  rw [Option.map_id, List.map_id] at hcs
  exact congrArg (List.map (Option.map (100 * ·))) hcs

theorem zipOp_comm {op : ℚ → ℚ → ℚ} (hop : ∀ a b, op a b = op b a) (xs ys : Series) :
    zipOp op xs ys = zipOp op ys xs := by
  rw [zipOp, zipOp, List.zipWith_comm]
  congr 1
  funext y x
  cases x <;> cases y <;> simp [hop]

theorem adx_eq (cs : List Candle) (period : ℕ) : adx cs period =
    ema (safeDiv
      (zipOp (fun p m => 100 * |p - m|) (directionalIndex Prod.fst cs period)
        (directionalIndex Prod.snd cs period))
      (zipOp (· + ·) (directionalIndex Prod.fst cs period)
        (directionalIndex Prod.snd cs period))) period := by
  have hspread : ∀ xs ys : Series, (zipOp (· - ·) xs ys).map (Option.map fun x => 100 * |x|) =
      zipOp (fun p m => 100 * |p - m|) xs ys := by
    intro xs ys
    rw [zipOp, zipOp, List.map_zipWith]
    congr 1
    funext x y
    cases x <;> cases y <;> rfl
  rw [← hspread]
  rfl

/-- The ADX is a ratio of ranges, in which the two directions count alike. -/
theorem adx_map (h : 0 < period) (cs : List Candle) :
    adx (cs.map T.candle) period = adx cs period := by
  rw [adx_eq, adx_eq]
  rcases T.sign with hsign | hsign
  · have hmovement : ∀ m, T.movement m = (T.range m.1, T.range m.2) := fun _ => if_pos hsign
    have hfst := directionalIndex_map T h (fun m => congrArg Prod.fst (hmovement m)) cs
    have hsnd := directionalIndex_map T h (fun m => congrArg Prod.snd (hmovement m)) cs
    rw [hfst, hsnd]
  · have hmovement : ∀ m, T.movement m = (T.range m.2, T.range m.1) := fun _ => if_neg hsign.not_gt
    have hfst := directionalIndex_map T h (fun m => congrArg Prod.fst (hmovement m)) cs
    have hsnd := directionalIndex_map T h (fun m => congrArg Prod.snd (hmovement m)) cs
    rw [hfst, hsnd, zipOp_comm (fun a b => by rw [abs_sub_comm]) (directionalIndex Prod.snd cs _),
      zipOp_comm add_comm (directionalIndex Prod.snd cs _)]

theorem carries_adx (h : 0 < period) :
    Carries T.candle id (fun cs => adx cs period) (fun cs => adx cs period) := by
  intro cs
  rw [List.map_id]
  exact adx_map T h cs

/-- The size of a move. -/
theorem carries_absDiff (k : ℕ) : Carries (Option.map T.price) (Option.map T.range)
    (fun xs => (diff k xs).map (Option.map (|·|))) (fun xs => (diff k xs).map (Option.map (|·|))) :=
  carries_mapEntries (carries_diff k T.price_sub_price) T.abs_move

/-- The efficiency ratio compares moves with moves. -/
theorem smoothing_map (erPeriod : ℕ) (fast slow : ℚ) (xs : Series) :
    smoothing (xs.map (Option.map T.price)) erPeriod fast slow =
      smoothing xs erPeriod fast slow := by
  have hvolatility : Carries (Option.map T.price) (Option.map T.range)
      (fun xs => rolling erPeriod List.sum ((diff 1 xs).map (Option.map (|·|))))
      (fun xs => rolling erPeriod List.sum ((diff 1 xs).map (Option.map (|·|)))) :=
    (carries_rolling fun l _ => by
      have hsum := sum_map_affine |T.scale| 0 l
      simp only [add_zero, mul_zero] at hsum
      exact hsum).comp (carries_absDiff T 1)
  have hratio := carries_safeDiv (j := id) (carries_absDiff T erPeriod) hvolatility
    T.range_eq_zero_iff (fun a b _ => mul_div_mul_left a b T.abs_scale_pos.ne') xs
  rw [Option.map_id, List.map_id] at hratio
  simp only [smoothing]
  exact congrArg (List.map _) hratio

theorem carries_kama (erPeriod : ℕ) (fast slow : ℚ) : Carries T.candle (Option.map T.price)
    (fun cs => kama cs erPeriod fast slow) (fun cs => kama cs erPeriod fast slow) := by
  have hcloses : Carries T.candle (Option.map T.price)
      (List.map fun c : Candle => some c.close) (List.map fun c : Candle => some c.close) :=
    carries_map fun _ => rfl
  have hsmoothing : Carries T.candle id
      (fun cs => smoothing (cs.map fun c => some c.close) erPeriod fast slow)
      (fun cs => smoothing (cs.map fun c => some c.close) erPeriod fast slow) := by
    intro cs
    rw [List.map_id]
    exact (congrArg (smoothing · erPeriod fast slow) (hcloses cs)).trans (smoothing_map T ..)
  have hclose : Carries T.candle T.price (List.map Candle.close) (List.map Candle.close) :=
    carries_map fun _ => rfl
  have hinputs : Carries T.candle (Prod.map T.price id)
      (fun cs => (cs.map Candle.close).zip
        (smoothing (cs.map fun c => some c.close) erPeriod fast slow))
      (fun cs => (cs.map Candle.close).zip
        (smoothing (cs.map fun c => some c.close) erPeriod fast slow)) :=
    hclose.zipWith hsmoothing fun _ _ => rfl
  have hstates : Carries (Prod.map T.price id) (Prod.map id (Option.map T.price))
      (states (kamaStep erPeriod) (0, none)) (states (kamaStep erPeriod) (0, none)) := by
    refine carries_states (t := Prod.map id (Option.map T.price)) (fun s x => ?_) (0, none)
    obtain ⟨i, value⟩ := s
    obtain ⟨close, sc⟩ := x
    cases value with
    | none =>
      simp only [kamaStep, Prod.map, id_eq]
      split_ifs <;> rfl
    | some prev =>
      have hstep : T.price prev + sc * (T.price close - T.price prev) =
          T.price (prev + sc * (close - prev)) := by
        simp only [PriceMap.price]
        ring
      simp only [kamaStep, Prod.map, Option.map_some, id_eq]
      split_ifs <;> simp [hstep]
  exact Carries.comp (h := Prod.map id (Option.map T.price)) (carries_map fun _ => rfl)
    (hstates.comp hinputs)

theorem carries_macdLine : Carries (Option.map T.price) (Option.map T.move)
    (fun xs => (macd xs).line) (fun xs => (macd xs).line) :=
  carries_zipOp (carries_ema_price T (by decide)) (carries_ema_price T (by decide))
    T.price_sub_price

theorem carries_macdSignal : Carries (Option.map T.price) (Option.map T.move)
    (fun xs => (macd xs).signal) (fun xs => (macd xs).signal) :=
  (carries_ema_scaled T.scale (by decide : 0 < 9)).comp (carries_macdLine T)

end Indicators

end AlphaOne.FeatureEngine

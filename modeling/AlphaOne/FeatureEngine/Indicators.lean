import AlphaOne.Foundations.Causal
import AlphaOne.Schema.Models
import Mathlib.Algebra.Order.Field.Basic
import Mathlib.Tactic.Linarith
import Mathlib.Tactic.Positivity

/-!
# Technical indicators

The indicators of `services/feature_engine/indicators.py` that the production strategies read, over
exact numbers. A column is a list with one entry for each candle, and `none` where the source has a
NaN; a comparison with a NaN is false, and every operation on one gives another.

`ewm` is the exponentially weighted mean of pandas with `ignore_na=False`: `adjust` weighs the
observations by the powers of `1 - alpha` and divides by the sum of the weights, and otherwise the
mean moves by `alpha` towards each observation. `rolling` is a window of fixed length, which is
empty until it is full.
-/

namespace AlphaOne.FeatureEngine

open Foundations

/-- A column of numbers. -/
abbrev Series := List (Option ℚ)

/-! ## Windows and means -/

/-- The last `w` entries at each row, the latest first. -/
def windows {α : Type*} (w : ℕ) (xs : List α) : List (List α) :=
  states (fun recent x => (x :: recent).take w) [] xs

/-- `series.shift(k)`. -/
def shift (k : ℕ) (xs : Series) : Series := (windows (k + 1) xs).map fun recent => recent[k]?.join

/-- `op` of two columns. -/
def zipOp (op : ℚ → ℚ → ℚ) (xs ys : Series) : Series := List.zipWith (Option.map₂ op) xs ys

/-- `xs / ys.replace(0, np.nan)`. -/
def safeDiv (xs ys : Series) : Series :=
  List.zipWith
    (fun x y => x.bind fun a => y.bind fun b => if b = 0 then none else some (a / b)) xs ys

/-- `series.diff(k)`. -/
def diff (k : ℕ) (xs : Series) : Series := zipOp (· - ·) xs (shift k xs)

/-- `series.rolling(w)` with `agg`, where the window is full and has no NaN. -/
def rolling (w : ℕ) (agg : List ℚ → ℚ) (xs : Series) : Series :=
  (windows w xs).map fun recent =>
    if recent.length = w ∧ recent.all Option.isSome then some (agg (recent.filterMap id)) else none

/-- The largest entry of a window. -/
def maxOf (xs : List ℚ) : ℚ := xs.foldr max (xs.headD 0)

/-- The smallest entry of a window. -/
def minOf (xs : List ℚ) : ℚ := xs.foldr min (xs.headD 0)

/-- The mean of a window. -/
def meanOf (xs : List ℚ) : ℚ := xs.sum / xs.length

/-- The state of an exponentially weighted mean. -/
structure EwmState where
  weighted : Option ℚ := none
  oldWt : ℚ := 1
  nobs : ℕ := 0
  deriving DecidableEq, Repr

/-- The step of an exponentially weighted mean. -/
def ewmStep (alpha : ℚ) (adjust : Bool) (s : EwmState) (x : Option ℚ) : EwmState :=
  match s.weighted, x with
  | none, none => s
  | none, some cur => { s with weighted := some cur, nobs := s.nobs + 1 }
  | some _, none => { s with oldWt := s.oldWt * (1 - alpha) }
  | some weighted, some cur =>
    let oldWt := s.oldWt * (1 - alpha)
    let newWt := if adjust then 1 else alpha
    { weighted := some ((oldWt * weighted + newWt * cur) / (oldWt + newWt))
      oldWt := if adjust then oldWt + newWt else 1
      nobs := s.nobs + 1 }

/-- `series.ewm(alpha, adjust, min_periods).mean()`. -/
def ewm (alpha : ℚ) (adjust : Bool) (minPeriods : ℕ) (xs : Series) : Series :=
  (states (ewmStep alpha adjust) {} xs).map fun s =>
    if minPeriods ≤ s.nobs then s.weighted else none

/-- `ema`. -/
def ema (xs : Series) (period : ℕ) : Series := ewm (2 / (period + 1)) false 0 xs

/-! ## True range and directional movement -/

/-- The largest of the three ranges of a candle; without a previous candle, its own range. -/
def trueRange (prev : Option Candle) (c : Candle) : ℚ :=
  match prev with
  | none => c.high - c.low
  | some p => max (c.high - c.low) (max |c.high - p.close| |c.low - p.close|)

/-- The true ranges. -/
def trueRanges (cs : List Candle) : Series :=
  withPrevious (fun prev c => some (trueRange prev c)) none cs

/-- `atr`. -/
def atr (cs : List Candle) (period : ℕ) : Series := ewm (1 / period) true period (trueRanges cs)

/-- `plus_dm` and `minus_dm` of a candle; the first one has none. -/
def directionalMovement (prev : Option Candle) (c : Candle) : ℚ × ℚ :=
  match prev with
  | none => (0, 0)
  | some p =>
    (if c.high - p.high > p.low - c.low then max (c.high - p.high) 0 else 0,
      if p.low - c.low > c.high - p.high then max (p.low - c.low) 0 else 0)

/-- The `adx` of `directional_indicators`. -/
def adx (cs : List Candle) (period : ℕ) : Series :=
  let movements := withPrevious directionalMovement none cs
  let atrVal := atr cs period
  let index := fun dm : Series => (safeDiv (ema dm period) atrVal).map (Option.map (100 * ·))
  let plusDi := index (movements.map fun m => some m.1)
  let minusDi := index (movements.map fun m => some m.2)
  let spread := (zipOp (· - ·) plusDi minusDi).map (Option.map fun x => 100 * |x|)
  ema (safeDiv spread (zipOp (· + ·) plusDi minusDi)) period

/-- The mean of a column without NaN counts its entries. -/
theorem run_ewmStep_some (alpha : ℚ) (adjust : Bool) (xs : List ℚ) :
    (run (ewmStep alpha adjust) {} (xs.map some)).nobs = xs.length ∧
      (xs ≠ [] → (run (ewmStep alpha adjust) {} (xs.map some)).weighted.isSome) := by
  induction xs using List.reverseRecOn with
  | nil => simp
  | append_singleton xs x ih =>
    rw [List.map_append, run_append]
    set s := run (ewmStep alpha adjust) {} (xs.map some)
    simp only [List.map_cons, List.map_nil, run_cons, run_nil, ewmStep]
    cases hw : s.weighted <;> simp [ih.1]

theorem trueRanges_eq (cs : List Candle) :
    trueRanges cs = (withPrevious trueRange none cs).map some := by
  have h : ∀ prev, withPrevious (fun prev c => some (trueRange prev c)) prev cs =
      (withPrevious trueRange prev cs).map some := by
    induction cs with
    | nil => intro _; rfl
    | cons c cs ih => intro _; simp [withPrevious, ih]
  exact h none

/-- The ATR is established after `period` candles. -/
theorem back_atr {cs : List Candle} {period : ℕ} (hne : cs ≠ []) (h : period ≤ cs.length) :
    ∃ a, back (atr cs period) 0 = some (some a) := by
  have hlength : (withPrevious trueRange none cs).length = cs.length :=
    (causal_withPrevious trueRange none).length cs
  obtain ⟨hnobs, hsome⟩ := run_ewmStep_some (1 / period) true (withPrevious trueRange none cs)
  have hranges : trueRanges cs ≠ [] := by
    rw [← List.length_pos_iff, trueRanges_eq, List.length_map, hlength]
    exact List.length_pos_iff.2 hne
  rw [atr, ewm, back_map, back_states _ _ hranges, trueRanges_eq, Option.map_some, hnobs, hlength,
    if_pos h]
  obtain ⟨a, ha⟩ := Option.isSome_iff_exists.1 (hsome (by
    rw [← List.length_pos_iff, hlength]
    exact List.length_pos_iff.2 hne))
  exact ⟨a, by rw [ha]⟩

/-! ## Kaufman's moving average -/

/-- `sc`, from the efficiency ratio; a ratio that is a NaN counts as zero. -/
def smoothing (closes : Series) (erPeriod : ℕ) (fast slow : ℚ) : List ℚ :=
  let change := (diff erPeriod closes).map (Option.map (|·|))
  let volatility := rolling erPeriod List.sum ((diff 1 closes).map (Option.map (|·|)))
  let fastSc := 2 / (fast + 1)
  let slowSc := 2 / (slow + 1)
  (safeDiv change volatility).map fun er => (er.getD 0 * (fastSc - slowSc) + slowSc) ^ 2

/-- The loop of `kama`: the row, and the value of the row before. -/
def kamaStep (erPeriod : ℕ) (s : ℕ × Option ℚ) (x : ℚ × ℚ) : ℕ × Option ℚ :=
  let (close, sc) := x
  let value :=
    if s.1 < erPeriod then none
    else if s.1 = erPeriod then some close
    else match s.2 with
      | none => some close
      | some prev => some (prev + sc * (close - prev))
  (s.1 + 1, value)

/-- `kama`. -/
def kama (cs : List Candle) (erPeriod : ℕ) (fast slow : ℚ) : Series :=
  let closes := cs.map fun c => some c.close
  (states (kamaStep erPeriod) (0, none)
    ((cs.map Candle.close).zip (smoothing closes erPeriod fast slow))).map Prod.snd

/-! ## Supertrend -/

/-- The direction of a supertrend: `up` is the source's 1. -/
inductive Direction
  | up
  | down
  deriving DecidableEq, Repr

/-- The final bands of a row. -/
structure Bands where
  upper : ℚ
  lower : ℚ
  deriving DecidableEq, Repr

/-- What a row of the supertrend passes on: the bands are missing where the ATR is. -/
structure SupertrendState where
  bands : Option Bands := none
  direction : Direction := .up
  close : ℚ := 0
  deriving DecidableEq, Repr

/-- `hl2 ± multiplier * atr_val`. -/
def basicBands (multiplier : ℚ) (c : Candle) (atrVal : ℚ) : Bands where
  upper := (c.high + c.low) / 2 + multiplier * atrVal
  lower := (c.high + c.low) / 2 - multiplier * atrVal

/-- The bands only tighten, unless the close of the row before is beyond one. -/
def nextBands (basic prev : Bands) (prevClose : ℚ) : Bands where
  upper := if basic.upper < prev.upper ∨ prevClose > prev.upper then basic.upper else prev.upper
  lower := if basic.lower > prev.lower ∨ prevClose < prev.lower then basic.lower else prev.lower

theorem nextBands_lower_lt_iff {basic prev : Bands} {prevClose x : ℚ} :
    (nextBands basic prev prevClose).lower < x ↔
      basic.lower < x ∧ (prevClose < prev.lower ∨ prev.lower < x) := by
  simp only [nextBands]
  split_ifs with h
  · grind
  · grind

theorem lt_nextBands_upper_iff {basic prev : Bands} {prevClose x : ℚ} :
    x < (nextBands basic prev prevClose).upper ↔
      x < basic.upper ∧ (prev.upper < prevClose ∨ x < prev.upper) := by
  simp only [nextBands]
  split_ifs with h
  · grind
  · grind

/-- The direction flips when the close is beyond the band it faces. -/
def nextDirection (bands : Bands) (close : ℚ) : Direction → Direction
  | .up => if close < bands.lower then .down else .up
  | .down => if close > bands.upper then .up else .down

/-- The close is beyond the band that it faces in this direction. -/
def Bands.CrossedBy (b : Bands) (close : ℚ) : Direction → Prop
  | .up => close < b.lower
  | .down => close > b.upper

instance (b : Bands) (close : ℚ) : ∀ d, Decidable (b.CrossedBy close d)
  | .up => inferInstanceAs (Decidable (close < b.lower))
  | .down => inferInstanceAs (Decidable (close > b.upper))

/-- The band that a flip out of a direction leaves behind. -/
def Bands.behind (b : Bands) : Direction → ℚ
  | .up => b.upper
  | .down => b.lower

def Direction.opposite : Direction → Direction
  | .up => .down
  | .down => .up

theorem nextDirection_of_crossed {b : Bands} {close : ℚ} {d : Direction}
    (h : b.CrossedBy close d) : nextDirection b close d = d.opposite := by
  cases d with
  | up => exact if_pos h
  | down => exact if_pos h

theorem nextDirection_of_not_crossed {b : Bands} {close : ℚ} {d : Direction}
    (h : ¬b.CrossedBy close d) : nextDirection b close d = d := by
  cases d with
  | up => exact if_neg h
  | down => exact if_neg h

/-- A row of `supertrend`. -/
def supertrendStep (multiplier : ℚ) (s : SupertrendState) (x : Candle × Option ℚ) :
    SupertrendState :=
  let (c, atrVal) := x
  match atrVal with
  | none => { close := c.close }
  | some a =>
    let basic := basicBands multiplier c a
    match s.bands with
    | none => { bands := some basic, close := c.close }
    | some prev =>
      let bands := nextBands basic prev s.close
      { bands := some bands
        direction := nextDirection bands c.close s.direction
        close := c.close }

/-- `line`: the band on the side of the direction. -/
def SupertrendState.line (s : SupertrendState) : Option ℚ :=
  s.bands.map fun b => match s.direction with
    | .up => b.lower
    | .down => b.upper

/-- `supertrend`. -/
def supertrend (cs : List Candle) (period : ℕ) (multiplier : ℚ) : List SupertrendState :=
  states (supertrendStep multiplier) {} (cs.zip (atr cs period))

/-! ## The columns are causal -/

theorem causal_windows {α : Type*} (w : ℕ) : Causal (windows (α := α) w) := causal_states _ _

theorem causal_shift (k : ℕ) : Causal (shift k) := (causal_map _).comp (causal_windows _)

theorem causal_diff (k : ℕ) : Causal (diff k) := causal_id.zipWith (causal_shift k) _

theorem causal_rolling (w : ℕ) (agg : List ℚ → ℚ) : Causal (rolling w agg) :=
  (causal_map _).comp (causal_windows w)

theorem causal_ewm (alpha : ℚ) (adjust : Bool) (minPeriods : ℕ) :
    Causal (ewm alpha adjust minPeriods) :=
  (causal_map _).comp (causal_states _ _)

theorem causal_ema (period : ℕ) : Causal (fun xs => ema xs period) := causal_ewm _ _ _

theorem causal_trueRanges : Causal trueRanges := causal_withPrevious _ _

theorem causal_atr (period : ℕ) : Causal (fun cs => atr cs period) :=
  (causal_ewm _ _ _).comp causal_trueRanges

theorem causal_adx (period : ℕ) : Causal (fun cs => adx cs period) := by
  have hindex : ∀ get : ℚ × ℚ → ℚ, Causal fun cs : List Candle =>
      (safeDiv (ema ((withPrevious directionalMovement none cs).map fun m => some (get m)) period)
        (atr cs period)).map (Option.map (100 * ·)) := fun get =>
    (causal_map _).comp (((causal_ema period).comp ((causal_map _).comp
      (causal_withPrevious _ _))).zipWith (causal_atr period) _)
  exact (causal_ema period).comp (((causal_map _).comp ((hindex Prod.fst).zipWith
    (hindex Prod.snd) _)).zipWith ((hindex Prod.fst).zipWith (hindex Prod.snd) _) _)

theorem causal_smoothing (erPeriod : ℕ) (fast slow : ℚ) :
    Causal (fun closes => smoothing closes erPeriod fast slow) :=
  (causal_map _).comp (((causal_map _).comp (causal_diff _)).zipWith
    ((causal_rolling _ _).comp ((causal_map _).comp (causal_diff _))) _)

theorem causal_kama (erPeriod : ℕ) (fast slow : ℚ) :
    Causal (fun cs => kama cs erPeriod fast slow) :=
  (causal_map _).comp ((causal_states _ _).comp ((causal_map _).zipWith
    ((causal_smoothing erPeriod fast slow).comp (causal_map _)) Prod.mk))

theorem causal_supertrend (period : ℕ) (multiplier : ℚ) :
    Causal (fun cs => supertrend cs period multiplier) :=
  (causal_states _ _).comp (causal_id.zipWith (causal_atr period) Prod.mk)

end AlphaOne.FeatureEngine

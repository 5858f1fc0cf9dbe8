import AlphaOne.FeatureEngine.Indicators
import Mathlib.Data.List.Sort
import Mathlib.Data.Rat.Floor

/-!
# Frames of features

A frame is a list of candles with named columns. The feature engine adds its columns in order and
never assigns one twice, so a column is found under its name wherever it was added
(`column_assign`).
-/

namespace AlphaOne.FeatureEngine

open Foundations

/-- `np.sqrt` and `np.log`; `none` is a NaN. -/
structure Numpy where
  sqrt : ℚ → Option ℚ
  log : ℚ → Option ℚ

/-- A table of candles with further columns. -/
structure Frame where
  candles : List Candle
  columns : List (String × Series) := []
  deriving DecidableEq, Repr

namespace Frame

variable (df : Frame)

/-- `df.columns`, without those of the candles. -/
def columnNames : List String := df.columns.map Prod.fst

/-- `df[name]`, when there is such a column. -/
def column (name : String) : Option Series := df.columns.lookup name

/-- The entry of a row; `none` is a NaN. -/
def entry (i : ℕ) (name : String) : Option ℚ := ((df.column name).bind (·[i]?)).join

/-- Assign further columns. -/
def assign (columns : List (String × Series)) : Frame :=
  { df with columns := df.columns ++ columns }

/-- A column of the candles. -/
def prices (get : Candle → ℚ) : Series := df.candles.map fun c => some (get c)

end Frame

section Lookup

variable {columns added : List (String × Series)} {name : String}

theorem lookup_eq_none (h : name ∉ columns.map Prod.fst) : columns.lookup name = none :=
  List.lookup_eq_none_iff.2 fun p hp => by
    simpa using fun heq : name = p.1 => h (heq ▸ List.mem_map_of_mem hp)

/-- Columns that were added before under other names do not hide a column. -/
theorem column_assign {df : Frame} (h : name ∉ df.columnNames) :
    (df.assign added).column name = added.lookup name := by
  unfold Frame.column Frame.assign
  rw [List.lookup_append, lookup_eq_none h]
  rfl

/-- Columns that are added under other names leave a column as it is. -/
theorem column_assign_of_notMem {df : Frame} (h : name ∉ added.map Prod.fst) :
    (df.assign added).column name = df.column name := by
  unfold Frame.column Frame.assign
  rw [List.lookup_append, lookup_eq_none h, Option.or_none]

end Lookup

/-! ## Operations on columns -/

/-- A comparison of two columns as integers; with a NaN it is false. -/
def compareColumns (r : ℚ → ℚ → Bool) (xs ys : Series) : Series :=
  List.zipWith (fun x y => some (if (x.bind fun a => y.map (r a)).getD false then 1 else 0)) xs ys

/-- A test of a column as integers; of a NaN it is false. -/
def testColumn (p : ℚ → Bool) (xs : Series) : Series :=
  xs.map fun x => some (if (x.map p).getD false then 1 else 0)

/-- `series.cumsum()`. -/
def cumsum (xs : Series) : Series :=
  (states (fun (s : ℚ × Option ℚ) x => (s.1 + x.getD 0, x.map (s.1 + ·))) (0, none) xs).map Prod.snd

/-- `series.pct_change(k)`; a change from zero is infinite, which becomes a NaN. -/
def pctChange (k : ℕ) (xs : Series) : Series :=
  (safeDiv xs (shift k xs)).map (Option.map (· - 1))

/-- `np.sign`. -/
def sign (xs : Series) : Series :=
  xs.map (Option.map fun x => if x > 0 then 1 else if x < 0 then -1 else 0)

/-- The variance of a sample. -/
def varianceOf (xs : List ℚ) : ℚ :=
  (xs.map fun x => (x - meanOf xs) ^ 2).sum / (xs.length - 1)

/-- `series.rolling(w).std()`. -/
def rollingStd (np : Numpy) (w : ℕ) (xs : Series) : Series :=
  (rolling w varianceOf xs).map (·.bind np.sqrt)

/-- The quantile of a window, interpolated between its neighbours. -/
def quantileOf (q : ℚ) (xs : List ℚ) : ℚ :=
  let sorted := xs.insertionSort (· ≤ ·)
  let position := q * (xs.length - 1)
  let below := ⌊position⌋.toNat
  let lower := sorted.getD below 0
  let upper := sorted.getD (below + 1) lower
  lower + (position - below) * (upper - lower)

theorem length_compareColumns (r : ℚ → ℚ → Bool) (xs ys : Series) :
    (compareColumns r xs ys).length = min xs.length ys.length := List.length_zipWith ..

/-- A comparison has no NaN. -/
theorem isSome_of_mem_compareColumns {r : ℚ → ℚ → Bool} {xs ys : Series} {x : Option ℚ}
    (h : x ∈ compareColumns r xs ys) : x.isSome := by
  obtain ⟨i, hi, rfl⟩ := List.mem_iff_getElem.1 h
  simp [compareColumns]

end AlphaOne.FeatureEngine

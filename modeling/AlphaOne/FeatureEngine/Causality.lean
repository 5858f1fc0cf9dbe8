import AlphaOne.FeatureEngine.Structure

/-!
# Recursive indicators and structure are causal

What the first rows of a frame say must not depend on the rows after them: a strategy is asked bar
by bar, and its columns are computed once over the whole history. `_detect_swings` compares every
bar with the bars on both sides, and is causal because it posts a swing on the last bar it has
compared: `swingLoop_eq` reads its loop as a column over trailing windows.

`prefix_columns` is the law for the market structure, the supertrend and the adaptive mean.
-/

namespace AlphaOne.FeatureEngine

open Foundations

/-- The first `k` rows of a frame. -/
def Frame.take (k : ℕ) (df : Frame) : Frame where
  candles := df.candles.take k
  columns := df.columns.map fun c => (c.1, c.2.take k)

/-! ## Extremes -/

section Extremes

variable {op : ℚ → ℚ → ℚ} [hassoc : Std.Associative op]

theorem foldr_op (a b : ℚ) (xs : List ℚ) : xs.foldr op (op a b) = op (xs.foldr op a) b := by
  induction xs with
  | nil => rfl
  | cons x xs ih => rw [List.foldr_cons, ih, List.foldr_cons, hassoc.assoc]

variable [hcomm : Std.Commutative op] [hidem : Std.IdempotentOp op]

/-- An entry of the window changes nothing any more. -/
theorem foldr_absorb (a : ℚ) {b : ℚ} {xs : List ℚ} (hb : b ∈ xs) :
    op (xs.foldr op a) b = xs.foldr op a := by
  induction xs with
  | nil => cases hb
  | cons x xs ih =>
    rw [List.foldr_cons, hassoc.assoc]
    rcases List.mem_cons.1 hb with rfl | hb
    · rw [hcomm.comm (xs.foldr op a), ← hassoc.assoc, hidem.idempotent]
    · rw [ih hb]

/-- It does not matter with which entry of the window a fold begins. -/
theorem foldr_eq_of_mem {a b : ℚ} {xs : List ℚ} (ha : a ∈ xs) (hb : b ∈ xs) :
    xs.foldr op a = xs.foldr op b := by
  calc xs.foldr op a = op (xs.foldr op a) b := (foldr_absorb a hb).symm
    _ = xs.foldr op (op a b) := (foldr_op a b xs).symm
    _ = xs.foldr op (op b a) := by rw [hcomm.comm]
    _ = op (xs.foldr op b) a := foldr_op b a xs
    _ = xs.foldr op b := foldr_absorb b ha

theorem foldr_headD_reverse (xs : List ℚ) :
    xs.reverse.foldr op (xs.reverse.headD 0) = xs.foldr op (xs.headD 0) := by
  cases xs with
  | nil => rfl
  | cons x xs =>
    have hleft : LeftCommutative op := ⟨fun a b c => by
      rw [← hassoc.assoc, hcomm.comm a b, hassoc.assoc]⟩
    rw [((x :: xs).reverse_perm).foldr_eq]
    refine foldr_eq_of_mem ?_ (by simp)
    have hne : (x :: xs).reverse ≠ [] := by simp
    rw [List.headD_eq_head?_getD, List.head?_eq_some_head hne, Option.getD_some]
    exact List.mem_reverse.1 (List.head_mem hne)

end Extremes

theorem maxOf_reverse (xs : List ℚ) : maxOf xs.reverse = maxOf xs := foldr_headD_reverse xs

theorem minOf_reverse (xs : List ℚ) : minOf xs.reverse = minOf xs := foldr_headD_reverse xs

/-! ## Swings -/

section Swings

variable {extreme : List ℚ → ℚ} {lookback : ℕ} {xs : List ℚ} {j : ℕ}

/-- The last entries at a row, which the windows hold. -/
theorem getElem?_windows {α : Type*} (w : ℕ) (xs : List α) (j : ℕ) :
    (windows w xs)[j]? =
      if j < xs.length then some ((xs.take (j + 1)).reverse.take w) else none := by
  have hrun : ∀ ys : List α, run (fun recent x => (x :: recent).take w) [] ys =
      ys.reverse.take w := by
    intro ys
    induction ys using List.reverseRecOn with
    | nil => simp
    | append_singleton ys y ih =>
      rw [run_append, ih, run_cons, run_nil, List.reverse_append, List.reverse_singleton,
        List.singleton_append]
      cases w with
      | zero => simp
      | succ w => simp [List.take_take]
  unfold windows
  split_ifs with h
  · rw [getElem?_states _ _ h, hrun]
  · rw [List.getElem?_eq_none_iff, length_states]
    exact not_lt.1 h

/-- What the window that ends in a row posts there. -/
def swingAt (extreme : List ℚ → ℚ) (lookback : ℕ) (xs : List ℚ) (j : ℕ) : ℚ :=
  let window := (xs.drop (j - 2 * lookback)).take (2 * lookback + 1)
  match xs[j - lookback]? with
  | some center => if 2 * lookback ≤ j ∧ center = extreme window then center else 0
  | none => 0

theorem length_swingStep (out : List ℚ) (i : ℕ) :
    (swingStep extreme lookback xs out i).length = out.length := by
  unfold swingStep
  split
  · dsimp only
    split <;> simp
  · rfl

/-- A turn of the loop posts one swing, on the bar that confirms it. -/
theorem getElem?_swingStep {out : List ℚ} {i : ℕ} (hi : i + lookback < out.length)
    (hxs : xs.length = out.length) (hzero : out[i + lookback]? = some 0) (hle : lookback ≤ i) :
    (swingStep extreme lookback xs out i)[j]? =
      if j = i + lookback then some (swingAt extreme lookback xs j) else out[j]? := by
  have hlt : i < xs.length := by omega
  have hcenter : xs[i]? = some xs[i] := List.getElem?_eq_getElem hlt
  unfold swingStep
  rw [hcenter]
  dsimp only
  by_cases hj : j = i + lookback
  · subst hj
    have hback : i + lookback - lookback = i := by omega
    have hstart : i + lookback - 2 * lookback = i - lookback := by omega
    rw [if_pos rfl, swingAt, hback, hstart, hcenter]
    dsimp only
    by_cases h : xs[i] =
        extreme ((xs.drop (i - lookback)).take (2 * lookback + 1))
    · rw [if_pos h, if_pos ⟨by omega, h⟩, List.getElem?_set_self hi]
    · rw [if_neg h, if_neg fun h' => h h'.2, hzero]
  · rw [if_neg hj]
    split
    · exact List.getElem?_set_ne (by omega)
    · rfl

/-- **The loop of `_detect_swings`**, after `m` turns. -/
theorem swingLoop_invariant (extreme : List ℚ → ℚ) (lookback : ℕ) (xs : List ℚ) {m : ℕ}
    (hm : m ≤ xs.length - 2 * lookback) :
    let out := (List.range' lookback m).foldl (swingStep extreme lookback xs)
      (List.replicate xs.length 0)
    out.length = xs.length ∧ ∀ j < xs.length, out[j]? =
      some (if 2 * lookback ≤ j ∧ j < 2 * lookback + m then swingAt extreme lookback xs j
        else 0) := by
  induction m with
  | zero =>
    refine ⟨by simp, fun j hj => ?_⟩
    have hnot : ¬(2 * lookback ≤ j ∧ j < 2 * lookback + 0) := by omega
    rw [if_neg hnot]
    simp [hj]
  | succ m ih =>
    obtain ⟨hlength, hentry⟩ := ih (by omega)
    rw [List.range'_concat, List.foldl_append, List.foldl_cons, List.foldl_nil, Nat.one_mul]
    set out := (List.range' lookback m).foldl (swingStep extreme lookback xs)
      (List.replicate xs.length 0)
    refine ⟨(length_swingStep _ _).trans hlength, fun j hj => ?_⟩
    have hzero : out[lookback + m + lookback]? = some 0 := by
      rw [hentry _ (by omega), if_neg (by omega)]
    rw [getElem?_swingStep (by omega) hlength.symm hzero (by omega)]
    by_cases heq : j = lookback + m + lookback
    · rw [if_pos heq, if_pos (by omega)]
    · rw [if_neg heq, hentry j hj]
      have hiff : (2 * lookback ≤ j ∧ j < 2 * lookback + (m + 1)) ↔
          2 * lookback ≤ j ∧ j < 2 * lookback + m := by omega
      simp only [hiff]

/-- A trailing window, in the order of the bars. -/
theorem window_eq {j : ℕ} (hj : j < xs.length) (hfull : 2 * lookback ≤ j) :
    ((xs.take (j + 1)).reverse.take (2 * lookback + 1)) =
      ((xs.drop (j - 2 * lookback)).take (2 * lookback + 1)).reverse := by
  have hlength : (xs.take (j + 1)).length = j + 1 := by
    rw [List.length_take]
    omega
  rw [List.take_reverse, hlength, List.drop_take]
  congr 3 <;> omega

/-- **The loop posts the swings of the trailing windows.** -/
theorem swingLoop_eq (hextreme : ∀ ys, extreme ys.reverse = extreme ys) (lookback : ℕ)
    (xs : List ℚ) : swingLoop extreme lookback xs = detectSwings extreme lookback xs := by
  obtain ⟨hlength, hentry⟩ := swingLoop_invariant extreme lookback xs le_rfl
  have hlength' : (detectSwings extreme lookback xs).length = xs.length := by
    rw [detectSwings, List.length_map, windows, length_states]
  refine List.ext_getElem? fun j => ?_
  by_cases hj : j < xs.length
  · rw [swingLoop, hentry j hj, detectSwings, List.getElem?_map, getElem?_windows, if_pos hj,
      Option.map_some]
    congr 1
    by_cases hfull : 2 * lookback ≤ j
    · have hlt : j - lookback < xs.length := by omega
      have hcenter : xs[j - lookback]? = some xs[j - lookback] := List.getElem?_eq_getElem hlt
      rw [if_pos ⟨hfull, by omega⟩, window_eq hj hfull, swingAt, hcenter]
      set window := (xs.drop (j - 2 * lookback)).take (2 * lookback + 1) with hwindow
      have hwlength : window.length = 2 * lookback + 1 := by
        rw [hwindow, List.length_take, List.length_drop]
        omega
      have hmiddle : window.reverse[lookback]? = some xs[j - lookback] := by
        rw [List.getElem?_reverse (by omega), hwlength, hwindow,
          List.getElem?_take_of_lt (by omega), List.getElem?_drop, ← hcenter]
        congr 1
        omega
      simp only [hmiddle, List.length_reverse, hwlength, hextreme, hfull, true_and]
    · have hshort : ((xs.take (j + 1)).reverse.take (2 * lookback + 1)).length ≠
          2 * lookback + 1 := by
        rw [List.length_take, List.length_reverse, List.length_take]
        omega
      rw [if_neg fun h => hfull h.1]
      split
      · rw [if_neg fun h => hshort h.1]
      · rfl
  · rw [List.getElem?_eq_none (by rw [swingLoop, hlength]; omega),
      List.getElem?_eq_none (by omega)]

end Swings

/-! ## The columns of the market structure -/

section Columns

variable (k : ℕ)

theorem column_take (df : Frame) (name : String) :
    (df.take k).column name = (df.column name).map (List.take k) := by
  unfold Frame.column Frame.take
  induction df.columns with
  | nil => rfl
  | cons c columns ih =>
    rw [List.map_cons, List.lookup_cons, List.lookup_cons]
    cases name == c.1 with
    | true => rfl
    | false => exact ih

theorem prices_take (df : Frame) (get : Candle → ℚ) :
    (df.take k).prices get = (df.prices get).take k := List.map_take ..

theorem assign_take (df : Frame) (columns : List (String × Series)) :
    (df.assign columns).take k =
      (df.take k).assign (columns.map fun c => (c.1, c.2.take k)) := by
  simp only [Frame.assign, Frame.take, List.map_append]

theorem zipOp_take (f : ℚ → ℚ → ℚ) (xs ys : Series) :
    zipOp f (xs.take k) (ys.take k) = (zipOp f xs ys).take k := List.take_zipWith.symm

theorem safeDiv_take (xs ys : Series) :
    safeDiv (xs.take k) (ys.take k) = (safeDiv xs ys).take k := List.take_zipWith.symm

theorem compareColumns_take (r : ℚ → ℚ → Bool) (xs ys : Series) :
    compareColumns r (xs.take k) (ys.take k) = (compareColumns r xs ys).take k :=
  List.take_zipWith.symm

theorem testColumn_take (p : ℚ → Bool) (xs : Series) :
    testColumn p (xs.take k) = (testColumn p xs).take k := List.map_take ..

theorem bothOne_take (xs ys : Series) :
    bothOne (xs.take k) (ys.take k) = (bothOne xs ys).take k := compareColumns_take k _ xs ys

end Columns

theorem causal_detectSwings (extreme : List ℚ → ℚ) (lookback : ℕ) :
    Causal (detectSwings extreme lookback) := (causal_map _).comp (causal_windows _)

theorem causal_swingColumn (r : ℚ → ℚ → Bool) : Causal (swingColumn r) :=
  (causal_map _).comp (causal_states _ _)

theorem breakOfStructure_take (k : ℕ) (ema50 ema200 : Series) :
    breakOfStructure (ema50.take k) (ema200.take k) = (breakOfStructure ema50 ema200).take k := by
  simp only [breakOfStructure, (causal_shift 1).take, compareColumns_take, bothOne_take,
    zipOp_take]

/-- **The market structure of the first rows is the first rows of the market structure.** -/
theorem detectMarketStructure_take (lookback k : ℕ) (df : Frame) :
    detectMarketStructure lookback (df.take k) = (detectMarketStructure lookback df).take k := by
  have hcandles : (df.take k).candles = df.candles.take k := rfl
  rw [detectMarketStructure, detectMarketStructure, assign_take, column_take, column_take]
  simp only [hcandles, List.map_take, prices_take, (causal_detectSwings _ _).take,
    (causal_swingColumn _).take, (causal_rolling _ _).take, bothOne_take, compareColumns_take,
    testColumn_take, zipOp_take, safeDiv_take, List.map_cons, List.map_nil]
  -- the means may be missing
  cases df.column "ema_50" with
  | none => rw [Option.map_none]
  | some ema50 =>
    cases df.column "ema_200" with
    | none => rw [Option.map_none, Option.map_some]
    | some ema200 => simp only [Option.map_some, breakOfStructure_take]

/-- **Structure and recursive indicators are causal**: what they give on the first rows is what they
give on the whole frame, cut off after these rows. -/
theorem prefix_columns (df : Frame) (k lookback period erPeriod : ℕ)
    (multiplier fast slow : ℚ) :
    let cs := df.candles
    swingLoop maxOf lookback ((cs.take k).map Candle.high) =
        (swingLoop maxOf lookback (cs.map Candle.high)).take k ∧
      swingLoop minOf lookback ((cs.take k).map Candle.low) =
        (swingLoop minOf lookback (cs.map Candle.low)).take k ∧
      detectMarketStructure lookback (df.take k) =
        (detectMarketStructure lookback df).take k ∧
      supertrend (cs.take k) period multiplier = (supertrend cs period multiplier).take k ∧
      kama (cs.take k) erPeriod fast slow = (kama cs erPeriod fast slow).take k := by
  refine ⟨?_, ?_, detectMarketStructure_take lookback k df,
    (causal_supertrend period multiplier).take df.candles k,
    (causal_kama erPeriod fast slow).take df.candles k⟩
  · rw [swingLoop_eq maxOf_reverse, swingLoop_eq maxOf_reverse, List.map_take,
      (causal_detectSwings maxOf lookback).take]
  · rw [swingLoop_eq minOf_reverse, swingLoop_eq minOf_reverse, List.map_take,
      (causal_detectSwings minOf lookback).take]

end AlphaOne.FeatureEngine

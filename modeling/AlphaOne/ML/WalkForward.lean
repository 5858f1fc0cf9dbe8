import AlphaOne.ML.Splits

/-!
# The walk-forward validator

`DatasetLoader.create_labels` and `create_walk_forward_splits` of `ml/datasets/loader.py`,
`ModelTrainer.prepare_data`, and the parts that `WalkForwardValidator.validate` of
`ml/evaluation/validator.py` fits, stops and tests a model on. The label of a row compares its close
with the close `forward_periods` rows later.

The embargo separates a fold from its test part (`test_purged`). The cut that sets the last rows of
a fold apart to stop the training has no gap, so that a label of the fit may look at a row of them
(`fit_independent_iff`), and a row whose later close is not in the data gets the default label,
which is kept (`hasForwardBars_iff`). `leakFree_iff` puts the three together. The column
`future_return` of the labels, which nothing reads, is left out.
-/

namespace AlphaOne.ML

open Foundations Backtester

/-- The choice of `np.select` for a row, `future_return` being an infinity or a NaN when the close
is zero. -/
def forwardLabel (threshold close later : ℚ) : ℤ :=
  if close = 0 then
    if later > 0 then 1 else if later < 0 then -1 else 0
  else if later / close - 1 > threshold then 1
  else if later / close - 1 < -threshold then -1
  else 0

/-- A row of a labelled frame, with its index. -/
structure SampleRow where
  idx : ℕ
  bar : Bar Columns
  label : ℤ

/-- `label_map` of `prepare_data`: the class of a label. -/
def labelMap (label : ℤ) : ℕ := if label = -1 then 0 else if label = 1 then 2 else 1

/-- The entry of `y` for a row. -/
def SampleRow.y (row : SampleRow) : ℕ := labelMap row.label

/-- `DatasetLoader.create_labels`. A row without a later close gets the default of `np.select`, so
that `dropna` finds nothing to drop. -/
def createLabels (forwardPeriods : ℕ) (threshold : ℚ) (df : List (Bar Columns)) :
    List SampleRow :=
  df.mapIdx fun i bar =>
    { idx := i
      bar
      label := match df[i + forwardPeriods]? with
        | none => 0
        | some later => forwardLabel threshold bar.close later.close }

/-- The sizes of `create_walk_forward_splits`. -/
structure WalkForwardSizes where
  trainWindow : ℕ := 5000
  testWindow : ℕ := 1000
  step : ℕ := 1000
  embargo : ℕ := 100
  deriving DecidableEq, Repr

/-- The slices of one turn of the loop. -/
def WalkForwardSizes.train (sizes : WalkForwardSizes) (start : ℕ) : RowSlice :=
  ⟨start, start + sizes.trainWindow⟩

def WalkForwardSizes.test (sizes : WalkForwardSizes) (start : ℕ) : RowSlice :=
  let testStart := start + sizes.trainWindow + sizes.embargo
  ⟨testStart, testStart + sizes.testWindow⟩

/-- The loop of `create_walk_forward_splits`, which has not ended after `fuel` turns when this is
`none`. -/
def walkForwardFrom {α : Type*} (df : List α) (sizes : WalkForwardSizes) :
    ℕ → ℕ → Option (List (List α × List α))
  | 0, _ => none
  | fuel + 1, start =>
    if start + sizes.trainWindow + sizes.embargo + sizes.testWindow ≤ df.length then
      (walkForwardFrom df sizes fuel (start + sizes.step)).map
        (((sizes.train start).of df, (sizes.test start).of df) :: ·)
    else some []

/-- `create_walk_forward_splits`; it does not return when the windows fit and do not move. -/
def createWalkForwardSplits {α : Type*} (df : List α) (sizes : WalkForwardSizes) :
    Option (List (List α × List α)) :=
  walkForwardFrom df sizes (df.length + 2) 0

/-- The rows that `prepare_data` keeps: none of their features is missing. -/
def prepareData (featureCols : List String) (df : List SampleRow) : List SampleRow :=
  df.filter fun row => featureCols.all fun col => (row.bar.columns col).isSome

/-- What a period of `validate` hands to the trainer: `X_tr`, `X_val` and `X_test` by their rows. -/
structure Fold where
  fit : List SampleRow
  stopping : List SampleRow
  test : List SampleRow

/-- The parts of a period, when there is data for it. -/
def foldOf (featureCols : List String) (trainDf testDf : List SampleRow) : Option Fold :=
  let train := prepareData featureCols trainDf
  let test := prepareData featureCols testDf
  if train.length = 0 ∨ test.length = 0 then none
  else
    -- `int(len(X_train) * 0.85)`
    let splitPoint := train.length * 17 / 20
    some { fit := train.take splitPoint, stopping := train.drop splitPoint, test }

/-! ## The properties -/

/-- The labels of some rows do not depend on the bars of others: frames that differ in these only
give them the same labels. -/
def IndependentOf (forwardPeriods : ℕ) (threshold : ℚ) (df : List (Bar Columns))
    (rows : List SampleRow) (others : Set ℕ) : Prop :=
  ∀ row ∈ rows, ∀ df', AgreeOff others df df' →
    ((createLabels forwardPeriods threshold df')[row.idx]?).map SampleRow.y = some row.y

/-- The bars of some rows. -/
def idxOf (rows : List SampleRow) : Set ℕ := {i | ∃ row ∈ rows, row.idx = i}

/-- The arguments of the three functions. -/
structure Validation where
  df : List (Bar Columns)
  forwardPeriods : ℕ := 12
  threshold : ℚ := 1 / 200
  sizes : WalkForwardSizes := {}
  featureCols : List String := []

namespace Validation

variable (v : Validation)

/-- The labelled frame. -/
def labelled : List SampleRow := createLabels v.forwardPeriods v.threshold v.df

/-- A period of the validation: its test part, and the parts of its fold. -/
def IsPeriod (testDf : List SampleRow) (fold : Fold) : Prop :=
  ∃ splits, createWalkForwardSplits v.labelled v.sizes = some splits ∧
    ∃ trainDf, (trainDf, testDf) ∈ splits ∧ foldOf v.featureCols trainDf testDf = some fold

/-- Every row that has a label has the bar its label compares it with. -/
def HasForwardBars : Prop := ∀ row ∈ v.labelled, row.idx + v.forwardPeriods < v.df.length

/-- No label of the fit depends on a bar of the part for early stopping or of the test part. -/
def FitIndependent (testDf : List SampleRow) (fold : Fold) : Prop :=
  IndependentOf v.forwardPeriods v.threshold v.df fold.fit (idxOf fold.stopping ∪ idxOf testDf)

/-- No label of the part for early stopping depends on a bar of the test part. -/
def StoppingIndependent (testDf : List SampleRow) (fold : Fold) : Prop :=
  IndependentOf v.forwardPeriods v.threshold v.df fold.stopping (idxOf testDf)

/-- The validation leaks no labels. -/
structure LeakFree : Prop where
  fit : ∀ testDf fold, v.IsPeriod testDf fold → v.FitIndependent testDf fold
  stopping : ∀ testDf fold, v.IsPeriod testDf fold → v.StoppingIndependent testDf fold
  forward : v.HasForwardBars

/-- A row of the fit is compared with a row of the part for early stopping. -/
def Overlaps (fold : Fold) : Prop :=
  ∃ row ∈ fold.fit, ∃ stop ∈ fold.stopping, stop.idx = row.idx + v.forwardPeriods

end Validation

/-! ## Labels -/

variable {forwardPeriods : ℕ} {threshold : ℚ} {df df' : List (Bar Columns)} {row : SampleRow}

/-- The label of a bar, from the frame. -/
theorem getElem?_createLabels (i : ℕ) :
    (createLabels forwardPeriods threshold df)[i]? = df[i]?.map fun bar =>
      { idx := i
        bar
        label := match df[i + forwardPeriods]? with
          | none => 0
          | some later => forwardLabel threshold bar.close later.close } := by
  rw [createLabels, List.getElem?_mapIdx]

/-- A row stands at its index. -/
theorem getElem?_of_mem_createLabels (h : row ∈ createLabels forwardPeriods threshold df) :
    (createLabels forwardPeriods threshold df)[row.idx]? = some row := by
  obtain ⟨i, hi⟩ := List.mem_iff_getElem?.1 h
  have hidx := hi
  rw [getElem?_createLabels] at hidx
  obtain ⟨bar, -, rfl⟩ := Option.map_eq_some_iff.1 hidx
  exact hi

theorem idx_lt_of_mem_createLabels (h : row ∈ createLabels forwardPeriods threshold df) :
    row.idx < df.length := by
  have hrow := getElem?_of_mem_createLabels h
  rw [getElem?_createLabels] at hrow
  obtain ⟨bar, hbar, -⟩ := Option.map_eq_some_iff.1 hrow
  exact (List.getElem?_eq_some_iff.1 hbar).1

/-- The indices of a labelled frame ascend. -/
theorem pairwise_idx_createLabels (forwardPeriods : ℕ) (threshold : ℚ) (df : List (Bar Columns)) :
    (createLabels forwardPeriods threshold df).Pairwise fun r s => r.idx < s.idx := by
  rw [List.pairwise_iff_getElem]
  intro i j hi hj hij
  simpa [createLabels] using hij

/-- A label does not change with bars other than its own and the one it is compared with. -/
theorem createLabels_congr {i : ℕ} (hown : df[i]? = df'[i]?)
    (hlater : df[i + forwardPeriods]? = df'[i + forwardPeriods]?) :
    (createLabels forwardPeriods threshold df')[i]? =
      (createLabels forwardPeriods threshold df)[i]? := by
  rw [getElem?_createLabels, getElem?_createLabels, hown, hlater]

/-- Some later close gives a row another class. -/
theorem exists_forwardLabel_ne (threshold close : ℚ) (y : ℕ) :
    ∃ later, labelMap (forwardLabel threshold close later) ≠ y := by
  -- one close makes the return large, and another makes it small
  obtain ⟨up, down, hup, hdown⟩ : ∃ up down, forwardLabel threshold close up = 1 ∧
      forwardLabel threshold close down = -1 := by
    by_cases hzero : close = 0
    · refine ⟨1, -1, ?_, ?_⟩ <;> rw [forwardLabel, if_pos hzero] <;> norm_num
    · have hreturn : ∀ r : ℚ, close * (r + 1) / close - 1 = r := by
        intro r
        field_simp
        ring
      have habs := abs_le.1 (le_refl |threshold|)
      refine ⟨close * ((|threshold| + 1) + 1), close * ((-|threshold| - 1) + 1), ?_, ?_⟩ <;>
        rw [forwardLabel, if_neg hzero, hreturn]
      · rw [if_pos (by linarith)]
      · rw [if_neg (by linarith [abs_nonneg threshold]), if_pos (by linarith)]
  by_cases hy : y = 2
  · exact ⟨down, by rw [hdown, hy]; decide⟩
  · exact ⟨up, by rw [hup]; exact fun h => hy h.symm⟩

/-- **What a label depends on**: its own bar and the one it is compared with, the second exactly. -/
theorem independentOf_iff {rows : List SampleRow} {others : Set ℕ}
    (hrows : ∀ row ∈ rows, row ∈ createLabels forwardPeriods threshold df)
    (hown : ∀ row ∈ rows, row.idx ∉ others) (hin : ∀ i ∈ others, i < df.length) :
    IndependentOf forwardPeriods threshold df rows others ↔
      ∀ row ∈ rows, row.idx + forwardPeriods ∉ others := by
  constructor
  · intro h row hrow hmem
    have hself := getElem?_of_mem_createLabels (hrows row hrow)
    rw [getElem?_createLabels] at hself
    obtain ⟨bar, hbar, hlabel⟩ := Option.map_eq_some_iff.1 hself
    obtain ⟨later, hne⟩ := exists_forwardLabel_ne threshold bar.close row.y
    have hlt := hin _ hmem
    have hlater : row.idx ≠ row.idx + forwardPeriods :=
      fun heq => hown row hrow (heq ▸ hmem)
    set df' := df.set (row.idx + forwardPeriods)
      { df[row.idx + forwardPeriods] with close := later } with hdf'
    have hagree : AgreeOff others df df' :=
      ⟨by simp [hdf'], fun i hi => (List.getElem?_set_ne fun heq => hi (by rwa [← heq])).symm⟩
    have hsame := h row hrow df' hagree
    rw [getElem?_createLabels, hdf', List.getElem?_set_ne hlater.symm, hbar,
      List.getElem?_set_self hlt] at hsame
    exact hne (Option.some.inj hsame)
  · intro h row hrow df' hagree
    rw [createLabels_congr (hagree.2 _ (hown row hrow)) (hagree.2 _ (h row hrow)),
      getElem?_of_mem_createLabels (hrows row hrow), Option.map_some]

/-! ## The parts of a period -/

variable {v : Validation} {testDf : List SampleRow} {fold : Fold}

/-- The rows of a slice of the labelled frame lie in it. -/
theorem mem_slice_labelled {s : RowSlice} (h : row ∈ s.of v.labelled) :
    row ∈ v.labelled ∧ s.start ≤ row.idx ∧ row.idx < s.stop := by
  obtain ⟨i, hstart, hstop, hi⟩ := RowSlice.mem_of h
  have hidx : row.idx = i := by
    rw [Validation.labelled, getElem?_createLabels] at hi
    obtain ⟨bar, -, rfl⟩ := Option.map_eq_some_iff.1 hi
    rfl
  exact ⟨List.mem_of_getElem? hi, by omega, by omega⟩

theorem mem_walkForwardFrom {α : Type*} {xs : List α} {sizes : WalkForwardSizes} {fuel start : ℕ}
    {splits : List (List α × List α)} (h : walkForwardFrom xs sizes fuel start = some splits)
    {split : List α × List α} (hsplit : split ∈ splits) :
    ∃ from_, split = ((sizes.train from_).of xs, (sizes.test from_).of xs) := by
  induction fuel generalizing start splits with
  | zero => cases h
  | succ fuel ih =>
    rw [walkForwardFrom] at h
    split at h
    · obtain ⟨rest, hrest, rfl⟩ := Option.map_eq_some_iff.1 h
      rcases List.mem_cons.1 hsplit with rfl | hsplit
      · exact ⟨start, rfl⟩
      · exact ih hrest hsplit
    · obtain rfl := Option.some.inj h
      cases hsplit

/-- Where the rows of a period come from. -/
structure Period (v : Validation) (testDf : List SampleRow) (fold : Fold) (start : ℕ) : Prop where
  ascending : (fold.fit ++ fold.stopping).Pairwise fun r s => r.idx < s.idx
  train : ∀ row ∈ fold.fit ++ fold.stopping, row ∈ v.labelled ∧
    row.idx < start + v.sizes.trainWindow
  test : ∀ row ∈ testDf, row ∈ v.labelled ∧
    start + v.sizes.trainWindow + v.sizes.embargo ≤ row.idx

theorem exists_period (h : v.IsPeriod testDf fold) : ∃ start, Period v testDf fold start := by
  obtain ⟨splits, hsplits, trainDf, hmem, hfold⟩ := h
  obtain ⟨start, hstart⟩ := mem_walkForwardFrom hsplits hmem
  obtain ⟨rfl, rfl⟩ := Prod.mk.inj hstart
  unfold foldOf at hfold
  dsimp only at hfold
  split at hfold
  · cases hfold
  · obtain rfl := Option.some.inj hfold
    have hsub : (prepareData v.featureCols ((v.sizes.train start).of v.labelled)).Sublist
        v.labelled :=
      List.filter_sublist.trans ((List.drop_sublist _ _).trans (List.take_sublist _ _))
    refine ⟨start, ?_, ?_, fun row hrow => ?_⟩
    · rw [List.take_append_drop]
      exact (pairwise_idx_createLabels _ _ _).sublist hsub
    · rw [List.take_append_drop]
      intro row hrow
      obtain ⟨hlabelled, -, hstop⟩ := mem_slice_labelled (List.mem_of_mem_filter hrow)
      exact ⟨hlabelled, hstop⟩
    · obtain ⟨hlabelled, htest, -⟩ := mem_slice_labelled hrow
      exact ⟨hlabelled, htest⟩

/-- The rows of the test part, and of the part for early stopping, are rows of the data. -/
theorem Period.idx_lt {start : ℕ} (h : Period v testDf fold start) {i : ℕ}
    (hi : i ∈ idxOf fold.stopping ∪ idxOf testDf) : i < v.df.length := by
  rcases hi with ⟨row, hrow, rfl⟩ | ⟨row, hrow, rfl⟩
  · exact idx_lt_of_mem_createLabels (h.train row (List.mem_append_right _ hrow)).1
  · exact idx_lt_of_mem_createLabels (h.test row hrow).1

/-- Beyond the embargo lies the test part. -/
theorem Period.not_mem_test {start : ℕ} (h : Period v testDf fold start) {i k : ℕ}
    (hi : i < start + v.sizes.trainWindow) (hk : k ≤ v.sizes.embargo) : i + k ∉ idxOf testDf := by
  rintro ⟨row, hrow, hidx⟩
  have := (h.test row hrow).2
  omega

namespace Validation

/-- **The embargo keeps the labels of a fold off the test part.** -/
theorem test_purged (hembargo : v.forwardPeriods ≤ v.sizes.embargo) (h : v.IsPeriod testDf fold) :
    v.StoppingIndependent testDf fold := by
  obtain ⟨start, hperiod⟩ := exists_period h
  have htrain := fun row hrow => hperiod.train row (List.mem_append_right fold.fit hrow)
  refine (independentOf_iff (fun row hrow => (htrain row hrow).1) (fun row hrow => ?_)
    fun i hi => hperiod.idx_lt (Or.inr hi)).2 fun row hrow => ?_
  · exact hperiod.not_mem_test (k := 0) (htrain row hrow).2 (Nat.zero_le _)
  · exact hperiod.not_mem_test (htrain row hrow).2 hembargo

/-- **The cut inside a fold**: the labels of the fit are independent of the later parts exactly when
none of its rows is compared with a row that the training is stopped on. -/
theorem fit_independent_iff (hembargo : v.forwardPeriods ≤ v.sizes.embargo)
    (h : v.IsPeriod testDf fold) : v.FitIndependent testDf fold ↔ ¬v.Overlaps fold := by
  obtain ⟨start, hperiod⟩ := exists_period h
  have htrain := fun row hrow => hperiod.train row (List.mem_append_left fold.stopping hrow)
  have hcut := (List.pairwise_append.1 hperiod.ascending).2.2
  refine (independentOf_iff (fun row hrow => (htrain row hrow).1) (fun row hrow => ?_)
    fun i hi => hperiod.idx_lt hi).trans ?_
  · rintro (⟨stop, hstop, hidx⟩ | htest)
    · exact absurd hidx (hcut row hrow stop hstop).ne'
    · exact hperiod.not_mem_test (k := 0) (htrain row hrow).2 (Nat.zero_le _) htest
  · constructor
    · rintro hfree ⟨row, hrow, stop, hstop, hidx⟩
      exact hfree row hrow (Or.inl ⟨stop, hstop, hidx⟩)
    · rintro hno row hrow (⟨stop, hstop, hidx⟩ | htest)
      · exact hno ⟨row, hrow, stop, hstop, hidx⟩
      · exact hperiod.not_mem_test (htrain row hrow).2 hembargo htest

/-- **Every row keeps a label**, also the last ones. -/
theorem hasForwardBars_iff : v.HasForwardBars ↔ v.forwardPeriods = 0 ∨ v.df = [] := by
  constructor
  · intro h
    by_contra! hnot
    obtain ⟨hpos, hne⟩ := hnot
    have hlast : v.df.length - 1 < v.df.length := by
      have := List.length_pos_iff.2 hne
      omega
    have hrow : v.labelled[v.df.length - 1]? = _ := getElem?_createLabels (v.df.length - 1)
    rw [List.getElem?_eq_getElem hlast, Option.map_some] at hrow
    have hforward := h _ (List.mem_of_getElem? hrow)
    dsimp only at hforward
    omega
  · rintro (hzero | hempty) row hrow
    · rw [hzero]
      exact idx_lt_of_mem_createLabels hrow
    · simp [Validation.labelled, createLabels, hempty] at hrow

/-- A fold whose labels look at their own bar only does not overlap. -/
theorem not_overlaps_of (h : v.IsPeriod testDf fold) (hnone : v.forwardPeriods = 0 ∨ v.df = []) :
    ¬v.Overlaps fold := by
  obtain ⟨start, hperiod⟩ := exists_period h
  rintro ⟨row, hrow, stop, hstop, hidx⟩
  have hlt := (List.pairwise_append.1 hperiod.ascending).2.2 row hrow stop hstop
  rcases hnone with hzero | hempty
  · omega
  · have hrow' := idx_lt_of_mem_createLabels
      (hperiod.train row (List.mem_append_left _ hrow)).1
    rw [hempty] at hrow'
    exact absurd hrow' (Nat.not_lt_zero _)

/-- **Where the validation leaks labels.** With an embargo of at least `forward_periods` rows, the
labels for early stopping are independent of the test part, those of the fit are independent of the
later parts when none of their rows is compared with a row for early stopping, and every row has its
forward bar only when the labels look no bar ahead or there is no data, which is then the condition
for all three. -/
theorem leakFree_iff (v : Validation) (hembargo : v.forwardPeriods ≤ v.sizes.embargo) :
    (∀ testDf fold, v.IsPeriod testDf fold →
      v.StoppingIndependent testDf fold ∧ (v.FitIndependent testDf fold ↔ ¬v.Overlaps fold)) ∧
    (v.HasForwardBars ↔ v.forwardPeriods = 0 ∨ v.df = []) ∧
    (v.LeakFree ↔ v.forwardPeriods = 0 ∨ v.df = []) := by
  refine ⟨fun testDf fold h => ⟨test_purged hembargo h, fit_independent_iff hembargo h⟩,
    hasForwardBars_iff, fun h => hasForwardBars_iff.1 h.forward, fun hnone => ?_⟩
  exact
    { fit := fun testDf fold h => (fit_independent_iff hembargo h).2 (not_overlaps_of h hnone)
      stopping := fun testDf fold h => test_purged hembargo h
      forward := hasForwardBars_iff.2 hnone }

end Validation

/-! ## Eight rows -/

/-- A bar that closes at a price. -/
def closingAt (close : ℚ) : Bar Columns where
  timestamp := 0
  open_ := close
  high := close
  low := close
  close
  columns := fun _ => none

/-- Eight rows, of which the first four are to train on and the last two to test on. -/
def eightRows (closes : List ℚ) : Validation where
  df := closes.map closingAt
  forwardPeriods := 1
  sizes := { trainWindow := 4, testWindow := 2, step := 8, embargo := 1 }

/-- The parts of the one period of eight equal closes. -/
theorem isPeriod_eightRows : ∃ fold, (eightRows (List.replicate 8 100)).IsPeriod
    (((eightRows (List.replicate 8 100)).sizes.test 0).of
      (eightRows (List.replicate 8 100)).labelled) fold ∧
    fold.fit.map SampleRow.idx = [0, 1, 2] ∧ fold.stopping.map SampleRow.idx = [3] := by
  refine ⟨_, ⟨_, rfl, _, List.mem_singleton_self _, rfl⟩, ?_, ?_⟩ <;> decide +kernel

/-- **The fit looks at the part for early stopping**: its last label compares the third row with the
fourth, on which the training is stopped. And the last row is labelled, though the row that its
label is about is not in the data. -/
theorem eightRows_leak :
    (∃ testDf fold, (eightRows (List.replicate 8 100)).IsPeriod testDf fold ∧
      ¬(eightRows (List.replicate 8 100)).FitIndependent testDf fold) ∧
    ((eightRows (List.replicate 8 100)).labelled.map SampleRow.label).length = 8 ∧
    ((eightRows [100, 100, 100, 110, 100, 100, 100, 100]).labelled.map SampleRow.label)[2]? =
      some 1 ∧
    ((eightRows [100, 100, 100, 90, 100, 100, 100, 100]).labelled.map SampleRow.label)[2]? =
      some (-1) ∧
    ¬∀ v : Validation, v.forwardPeriods ≤ v.sizes.embargo → v.LeakFree := by
  obtain ⟨fold, hperiod, hfit, hstopping⟩ := isPeriod_eightRows
  refine ⟨⟨_, fold, hperiod, fun hfree => ?_⟩, by decide +kernel, by decide +kernel,
    by decide +kernel, fun h => ?_⟩
  · refine (Validation.fit_independent_iff (le_refl 1) hperiod).1 hfree ?_
    obtain ⟨row, hrow, hidx⟩ : ∃ row ∈ fold.fit, row.idx = 2 :=
      List.mem_map.1 (hfit ▸ by decide)
    obtain ⟨stop, hstop, hidx'⟩ : ∃ stop ∈ fold.stopping, stop.idx = 3 :=
      List.mem_map.1 (hstopping ▸ by decide)
    exact ⟨row, hrow, stop, hstop, by rw [hidx, hidx']; rfl⟩
  · have hforward := (h (eightRows (List.replicate 8 100)) (le_refl 1)).forward
    rcases Validation.hasForwardBars_iff.1 hforward with hzero | hempty
    · cases hzero
    · cases hempty

/-- The part for early stopping of the eight rows is independent of the test part. -/
theorem leakFree_iff_eightRows : ∃ testDf fold,
    (eightRows (List.replicate 8 100)).IsPeriod testDf fold ∧
      (eightRows (List.replicate 8 100)).StoppingIndependent testDf fold := by
  obtain ⟨fold, hperiod, -⟩ := isPeriod_eightRows
  exact ⟨_, fold, hperiod,
    ((Validation.leakFree_iff (eightRows (List.replicate 8 100)) (le_refl 1)).1 _ _ hperiod).1⟩

end AlphaOne.ML

import AlphaOne.Backtester.LookAhead
import AlphaOne.Backtester.Results
import AlphaOne.FeatureEngine.Indicators
import AlphaOne.ML.Signal
import AlphaOne.ML.WalkForward
import Mathlib.Data.List.MinMax

/-!
# The experiments of the pipeline

`run_single_combo` and `run_ml_walk_forward` of `ml/evaluation/ml_pipeline.py`, with what they call
of `ml/training/trainer.py` and `ml/features/scaling.py`: a labelled table is split, a model is
fitted on the first part, calibrated on the second one and traded on the third.

The learners and the metrics of the libraries are parameters, which answer or raise by their
arguments alone (the source fixes `random_state`).

In two markets that agree up to a bar, an experiment whose part to test on begins there hands the
same model to its backtest; and where they agree up to a bar of this part, it has traded the same by
then (`experiments_do_not_look_ahead`).
-/

namespace AlphaOne.ML

open Foundations FeatureEngine Backtester

/-- `MODEL_NAMES` -/
inductive ModelName
  | logisticRegression
  | randomForest
  | xgboost
  | lightgbm
  | ensemble
  deriving DecidableEq, Repr

/-- `NEEDS_SCALING` -/
def ModelName.needsScaling : ModelName → Bool
  | .logisticRegression => true
  | _ => false

inductive CalibrationMethod
  | sigmoid
  | isotonic
  deriving DecidableEq, Repr

/-- A row of `X` with its entry of `y`. -/
structure Sample where
  x : List ℚ
  y : ℕ
  deriving DecidableEq, Repr

/-- What the trainer uses of its libraries; `none` is an exception. `M` are the fitted models, `ν`
the metrics beside the Brier score. -/
structure Library (M ν : Type) where
  logisticRegression : List Sample → Option M
  randomForest : List Sample → Option M
  /-- The second samples stop the training. -/
  xgbClassifier : List Sample → List Sample → Option M
  lgbmClassifier : List Sample → List Sample → Option M
  votingClassifier : List (String × M) → List Sample → Option M
  calibratedClassifier : CalibrationMethod → M → List Sample → Option M
  predict : M → List ℚ → ℕ
  predictProba : M → List ℚ → Proba
  /-- The transformation of a scaler that is fitted on some rows. -/
  standardScaler : List (List ℚ) → List ℚ → List ℚ
  metrics : List ℕ → List ℕ → List Proba → Option ν

variable {M ν : Type}

namespace Library

variable (lib : Library M ν)

/-- `train_model`. The ensemble votes over the models that the trainer has trained. -/
def trainModel : ModelName → List Sample → List Sample → Option M
  | .logisticRegression, train, _ => lib.logisticRegression train
  | .randomForest, train, _ => lib.randomForest train
  | .xgboost, train, val => lib.xgbClassifier train val
  | .lightgbm, train, val => lib.lgbmClassifier train val
  | .ensemble, train, val => do
    let forest ← lib.randomForest train
    let xgboost ← lib.xgbClassifier train val
    let lightgbm ← lib.lgbmClassifier train val
    lib.votingClassifier
      [("random_forest", forest), ("xgboost", xgboost), ("lightgbm", lightgbm)] train

end Library

/-- The squared error of a row of probabilities against the one-hot row of a class. -/
def squaredError (proba : Proba) (y : ℕ) : ℚ :=
  ([proba.short, proba.noTrade, proba.long].mapIdx fun c p =>
    (p - if c = y then 1 else 0) ^ 2).sum

/-- What `evaluate` answers. -/
structure Metrics (ν : Type) where
  brierScore : ℚ
  others : ν
  deriving DecidableEq, Repr

/-- What `best_calibration` answers; no method is `"none"`. -/
structure Calibrated (M : Type) where
  model : M
  method : Option CalibrationMethod
  briers : List (CalibrationMethod × ℚ)

namespace Library

variable (lib : Library M ν)

/-- `evaluate`. -/
def evaluate (model : M) (test : List Sample) : Option (Metrics ν) := do
  let others ← lib.metrics (test.map Sample.y) (test.map fun s => lib.predict model s.x)
    (test.map fun s => lib.predictProba model s.x)
  some
    { brierScore := roundTo
        (meanOf (test.map fun s => squaredError (lib.predictProba model s.x) s.y)) 4
      others }

/-- The body of the loop of `best_calibration`: a method that raises is no candidate. -/
def candidate (model : M) (val : List Sample) (method : CalibrationMethod) :
    Option (CalibrationMethod × M × ℚ) := do
  let calibrated ← lib.calibratedClassifier method model val
  let metrics ← lib.evaluate calibrated val
  some (method, calibrated, metrics.brierScore)

/-- `best_calibration`: of equal scores the first one. -/
def bestCalibration (model : M) (val : List Sample) : Calibrated M :=
  let candidates := [.sigmoid, .isotonic].filterMap (lib.candidate model val)
  let briers := candidates.map fun (method, _, brier) => (method, brier)
  match candidates.argmin fun (_, _, brier) => brier with
  | none => { model, method := none, briers }
  | some (method, calibrated, _) => { model := calibrated, method := some method, briers }

end Library

namespace Library

variable {lib : Library M ν} {model : M} {val : List Sample}

/-- The calibration that is chosen has the lowest score of those that did not raise. -/
theorem bestCalibration_le {method : CalibrationMethod} {calibrated : M} {brier : ℚ}
    (h : lib.candidate model val method = some (method, calibrated, brier)) :
    ∃ best score, (lib.bestCalibration model val).method = some best ∧
      lib.candidate model val best = some (best, (lib.bestCalibration model val).model, score) ∧
      score ≤ brier := by
  have hmem : (method, calibrated, brier) ∈
      [CalibrationMethod.sigmoid, .isotonic].filterMap (lib.candidate model val) :=
    List.mem_filterMap.2 ⟨method, by cases method <;> simp, h⟩
  unfold bestCalibration
  dsimp only
  cases hbest : (([CalibrationMethod.sigmoid, .isotonic].filterMap
      (lib.candidate model val)).argmin fun (_, _, brier) => brier) with
  | none =>
    rw [List.argmin_eq_none] at hbest
    rw [hbest] at hmem
    cases hmem
  | some best =>
    obtain ⟨own, hown, hcandidate⟩ := List.mem_filterMap.1 (List.argmin_mem hbest)
    have hle := List.le_of_mem_argmin hmem hbest
    obtain ⟨found, chosen, score⟩ := best
    have hfound : found = own := by
      simp only [candidate, Option.bind_eq_bind, Option.bind_eq_some_iff] at hcandidate
      obtain ⟨_, -, _, -, heq⟩ := hcandidate
      cases heq
      rfl
    subst hfound
    exact ⟨found, score, rfl, hcandidate, hle⟩

end Library

/-- What an experiment hands to its backtest. -/
structure Fitted (M : Type) where
  calibrated : Calibrated M
  scaler : Option (List ℚ → List ℚ)

/-- The samples that the models see: `transform` of the scaler, where there is one. -/
def scaled (scaler : Option (List ℚ → List ℚ)) (samples : List Sample) : List Sample :=
  samples.map fun s => { s with x := scaler.getD id s.x }

/-- The model of an experiment: the scaler is fitted on the rows to train on, and the model is
calibrated on the rows to validate on. -/
def Library.fit (lib : Library M ν) (modelName : ModelName) (train val : List Sample) :
    Option (Fitted M) := do
  let scaler := if modelName.needsScaling then some (lib.standardScaler (train.map Sample.x))
    else none
  let model ← lib.trainModel modelName (scaled scaler train) (scaled scaler val)
  some { calibrated := lib.bestCalibration model (scaled scaler val), scaler }

/-! ## Experiments -/

/-- A row of the labelled table. -/
abbrev LabeledRow := Bar Columns × LabelRow

/-- The table that `compute_triple_barrier_labels` returns. -/
def labeledDf (config : TripleBarrierConfig) (df : List (Bar Columns)) : List LabeledRow :=
  (df.mapIdx fun t bar => (bar, labelAt config df t)).filter fun row => row.2.label.isSome

/-- `prepare_data`. -/
def samplesOf (featureCols : List String) (rows : List LabeledRow) : List Sample :=
  rows.filterMap fun (bar, row) => do
    let x ← featureCols.mapM bar.columns
    let label ← row.label
    some { x, y := labelMap label }

/-- The arguments of an experiment. -/
structure Experiment (M ν : Type) where
  library : Library M ν
  featureCols : List String
  modelName : ModelName
  barrierConfig : TripleBarrierConfig := {}
  backtestConfig : BacktestConfig := {}
  signalConfig : MLSignalConfig := {}
  fundingRates : List FundingEvent := []
  /-- The day of the run, on which the risk engine is built. -/
  today : ℤ := 0

/-- `fold_funding`: the events from the first to the last bar of a part. -/
def foldFunding (fundingRates : List FundingEvent) (timestamps : List Datetime) :
    List FundingEvent :=
  match timestamps.head?, timestamps.getLast? with
  | some first, some last =>
    fundingRates.filter fun event => first ≤ event.timestamp ∧ event.timestamp ≤ last
  | _, _ => []

/-- What an experiment makes of a split. -/
structure SplitResult (M ν : Type) where
  split : Split
  trainRows : ℕ
  valRows : ℕ
  testRows : ℕ
  fitted : Fitted M
  classificationMetrics : Metrics ν
  /-- `test_df` -/
  frame : List (Bar Columns)
  backtest : Backtest Columns

/-- `trading_result` -/
def SplitResult.tradingResult (r : SplitResult M ν) : BacktestResult := r.backtest.result r.frame

/-- A fold of `run_ml_walk_forward`. -/
structure MLWalkForwardFold (M ν : Type) extends SplitResult M ν where
  fold : ℕ

namespace Experiment

variable (e : Experiment M ν)

/-- The arguments of `make_ml_signal_func`. -/
def mlModel (fitted : Fitted M) : MLModel where
  predictProba := e.library.predictProba fitted.calibrated.model
  featureCols := e.featureCols
  barrierConfig := e.barrierConfig
  signalConfig := e.signalConfig
  scaler := fitted.scaler

/-- The common part of both functions. A part with few rows is skipped, which is the inner `none`;
the outer one is an exception. -/
def runSplit (labeled : List LabeledRow) (split : Split) : Option (Option (SplitResult M ν)) :=
  let (trainDf, valDf, testDf) := split.parts labeled
  let train := samplesOf e.featureCols trainDf
  let val := samplesOf e.featureCols valDf
  let test := samplesOf e.featureCols testDf
  if train.length < 50 ∨ val.length < 20 ∨ test.length < 20 then some none
  else do
    let fitted ← e.library.fit e.modelName train val
    let classificationMetrics ←
      e.library.evaluate fitted.calibrated.model (scaled fitted.scaler test)
    let frame := testDf.map Prod.fst
    let fundingRates := foldFunding e.fundingRates (frame.map Bar.timestamp)
    some (some
      { split
        trainRows := train.length
        valRows := val.length
        testRows := test.length
        fitted
        classificationMetrics
        frame
        backtest := (e.mlModel fitted).backtest e.backtestConfig e.today fundingRates })

/-- `run_single_combo`. -/
def runSingleCombo (labeled : List LabeledRow) (trainPct valPct : ℚ≥0) :
    Option (Option (SplitResult M ν)) :=
  e.runSplit labeled
    (chronologicalSplit labeled.length trainPct valPct e.barrierConfig.embargo)

/-- The loop of `run_ml_walk_forward`, of which the next fold is `fold`. -/
def foldsFrom (labeled : List LabeledRow) : ℕ → List Split →
    Option (List (MLWalkForwardFold M ν))
  | _, [] => some []
  | fold, split :: windows => do
    let result ← e.runSplit labeled split
    let folds ← foldsFrom labeled (fold + 1) windows
    some ((result.map fun r => { r with fold }).toList ++ folds)

/-- `run_ml_walk_forward`. -/
def runMlWalkForward (labeled : List LabeledRow) (sizes : WindowSizes) :
    Option (List (MLWalkForwardFold M ν)) := do
  let windows ← rollingWalkForwardWindows labeled.length sizes e.barrierConfig.embargo
  e.foldsFrom labeled 1 windows

end Experiment

/-! ## The rows of the labelled table -/

/-- A filter that keeps the first elements. -/
theorem filter_eq_take {α : Type} {p : α → Bool} {m : ℕ} {xs : List α}
    (h : ∀ i x, xs[i]? = some x → p x = decide (i < m)) : xs.filter p = xs.take m := by
  induction xs generalizing m with
  | nil => simp
  | cons x xs ih =>
    have hx := h 0 x rfl
    cases m with
    | zero =>
      have hrest := ih (m := 0) fun i y hy => by simpa using h (i + 1) y hy
      rw [List.filter_cons_of_neg (by simp [hx]), hrest]
      simp
    | succ m =>
      rw [List.filter_cons_of_pos (by simp [hx]), ih fun i y hy => by simpa using h (i + 1) y hy,
        List.take_succ_cons]

/-- The rows with enough bars ahead are kept. -/
theorem labeledDf_eq (config : TripleBarrierConfig) (df : List (Bar Columns)) :
    labeledDf config df =
      (df.mapIdx fun t bar => (bar, labelAt config df t)).take
        (df.length - (config.horizonBars + 1)) := by
  refine filter_eq_take fun t row hrow => ?_
  obtain ⟨bar, -, rfl⟩ := Option.map_eq_some_iff.1 (List.getElem?_mapIdx ▸ hrow)
  by_cases ht : t + 1 + config.horizonBars < df.length
  · rw [(labelEndIdx_bounds ht).1, eq_comm, decide_eq_true_iff]
    omega
  · have hnot : ¬t < df.length - (config.horizonBars + 1) := by omega
    rw [labelAt_of_le (not_lt.1 ht), decide_eq_false hnot]
    split <;> rfl

theorem labeledDf_fst (config : TripleBarrierConfig) (df : List (Bar Columns)) :
    (labeledDf config df).map Prod.fst = df.take (df.length - (config.horizonBars + 1)) := by
  rw [labeledDf_eq, List.map_take]
  refine congrArg (List.take _) (List.ext_getElem? fun i => ?_)
  simp [Function.comp_def]

/-- Two markets on one grid of times that are the same up to a bar. -/
structure SameUntil (n : ℕ) (df df' : List (Bar Columns)) : Prop where
  times : df.map Bar.timestamp = df'.map Bar.timestamp
  bars : df.take n = df'.take n

section Same

variable {n : ℕ} {df df' : List (Bar Columns)} {config : TripleBarrierConfig}

theorem SameUntil.length_eq (h : SameUntil n df df') : df.length = df'.length := by
  simpa using congrArg List.length h.times

theorem SameUntil.length_labeledDf (h : SameUntil n df df') :
    (labeledDf config df).length = (labeledDf config df').length := by
  rw [labeledDf_eq, labeledDf_eq, List.length_take, List.length_take, List.length_mapIdx,
    List.length_mapIdx, h.length_eq]

theorem SameUntil.mono (h : SameUntil n df df') {m : ℕ} (hm : m ≤ n) : SameUntil m df df' :=
  ⟨h.times, by simpa only [List.take_take, Nat.min_eq_left hm] using congrArg (List.take m) h.bars⟩

theorem SameUntil.getElem?_eq (h : SameUntil n df df') {i : ℕ} (hi : i < n) : df[i]? = df'[i]? := by
  have hbar := congrArg (·[i]?) h.bars
  simpa [List.getElem?_take, hi] using hbar

/-- An embargo before the bar the labels are the same. -/
theorem SameUntil.getElem?_labeledDf (h : SameUntil n df df') {t : ℕ}
    (ht : t + config.embargo ≤ n) : (labeledDf config df)[t]? = (labeledDf config df')[t]? := by
  rw [TripleBarrierConfig.embargo] at ht
  rw [labeledDf_eq, labeledDf_eq, ← h.length_eq, List.getElem?_take, List.getElem?_take]
  split
  · next hrows =>
    have hreach : (labelAt config df t).labelEndIdx ≤ (t + 1 + config.horizonBars : ℕ) :=
      (labelEndIdx_bounds (by omega)).2.2
    rw [List.getElem?_mapIdx, List.getElem?_mapIdx, h.getElem?_eq (by omega),
      labelAt_congr h.length_eq fun i hi => h.getElem?_eq (by omega)]
  · rfl

/-- The parts that end an embargo before the bar are the same. -/
theorem SameUntil.of_labeledDf (h : SameUntil n df df') {s : RowSlice}
    (hs : s.stop + config.embargo ≤ n) :
    s.of (labeledDf config df) = s.of (labeledDf config df') := by
  rw [RowSlice.of, RowSlice.of]
  congr 1
  refine List.ext_getElem? fun t => ?_
  rw [List.getElem?_take, List.getElem?_take]
  split
  · exact h.getElem?_labeledDf (by omega)
  · rfl

/-- The bars of a part: those of the market that have a label. -/
theorem of_labeledDf_fst (s : RowSlice) :
    (s.of (labeledDf config df)).map Prod.fst =
      s.of (df.take (df.length - (config.horizonBars + 1))) := by
  rw [← of_map, labeledDf_fst]

theorem SameUntil.take_of_labeledDf {s : RowSlice} {k : ℕ}
    (h : SameUntil (s.start + k + 1) df df') :
    ((s.of (labeledDf config df)).map Prod.fst).take (k + 1) =
      ((s.of (labeledDf config df')).map Prod.fst).take (k + 1) := by
  rw [of_labeledDf_fst, of_labeledDf_fst, ← h.length_eq, RowSlice.of, RowSlice.of, List.take_drop,
    List.take_drop]
  congr 1
  have hcut : ∀ m m' : ℕ, ∀ xs : List (Bar Columns),
      ((xs.take m).take m').take (s.start + (k + 1)) =
        ((xs.take (s.start + k + 1)).take m).take m' := by
    intro m m' xs
    simp only [List.take_take]
    congr 1
    omega
  rw [hcut, hcut, h.bars]

theorem SameUntil.times_of_labeledDf (h : SameUntil n df df') (s : RowSlice) :
    ((s.of (labeledDf config df)).map Prod.fst).map Bar.timestamp =
      ((s.of (labeledDf config df')).map Prod.fst).map Bar.timestamp := by
  rw [of_labeledDf_fst, of_labeledDf_fst, ← of_map, ← of_map, List.map_take, List.map_take, h.times,
    h.length_eq]

end Same

/-! ## The results -/

/-- An embargo keeps the part to test on apart from the others. -/
structure Split.Embargoed (split : Split) (embargo : ℕ) : Prop where
  train : split.train.stop + embargo ≤ split.test.start
  val : split.val.stop + embargo ≤ split.test.start

theorem chronologicalSplit_embargoed (n : ℕ) (trainPct valPct : ℚ≥0) (embargo : ℕ) :
    (chronologicalSplit n trainPct valPct embargo).Embargoed embargo :=
  ⟨by simp only [chronologicalSplit]; omega, by simp [chronologicalSplit]⟩

theorem splitAt_embargoed (sizes : WindowSizes) (embargo start : ℕ) :
    (sizes.splitAt embargo start).Embargoed embargo :=
  ⟨by simp only [WindowSizes.splitAt]; omega, by simp [WindowSizes.splitAt]⟩

/-- What the results of one split of two markets have in common. -/
structure SplitResult.NoLookAhead (df df' : List (Bar Columns)) (r r' : SplitResult M ν) :
    Prop where
  /-- The model of the backtest is made of the bars before the part to test on. -/
  fitted : SameUntil r.split.test.start df df' → r.fitted = r'.fitted
  /-- What has been traded by a bar is made of the bars up to it. -/
  upTo : ∀ k, SameUntil (r.split.test.start + k + 1) df df' →
    r.backtest.upTo r.frame k = r'.backtest.upTo r'.frame k
  /-- The result has what has been traded by a bar. -/
  extends_ : ∀ k, Extends (r.backtest.upTo r.frame k) (r.backtest.run r.frame)

namespace Experiment

variable {e : Experiment M ν} {split : Split} {r r' : SplitResult M ν}

/-- **What a split is made into.** -/
theorem runSplit_eq_some {labeled : List LabeledRow}
    (h : e.runSplit labeled split = some (some r)) :
    r.split = split ∧
      e.library.fit e.modelName (samplesOf e.featureCols (split.train.of labeled))
        (samplesOf e.featureCols (split.val.of labeled)) = some r.fitted ∧
      r.frame = (split.test.of labeled).map Prod.fst ∧
      r.backtest = (e.mlModel r.fitted).backtest e.backtestConfig e.today
        (foldFunding e.fundingRates (r.frame.map Bar.timestamp)) := by
  unfold runSplit Split.parts at h
  dsimp only at h
  split at h
  · cases h
  · simp only [Option.bind_eq_bind, Option.bind_eq_some_iff] at h
    obtain ⟨fitted, hfitted, metrics, -, hr⟩ := h
    obtain rfl := Option.some.inj (Option.some.inj hr)
    exact ⟨rfl, hfitted, rfl, rfl⟩

theorem runSplit_noLookAhead {df df' : List (Bar Columns)}
    (hsplit : split.Embargoed e.barrierConfig.embargo)
    (h : e.runSplit (labeledDf e.barrierConfig df) split = some (some r))
    (h' : e.runSplit (labeledDf e.barrierConfig df') split = some (some r')) :
    r.NoLookAhead df df' r' := by
  obtain ⟨rfl, hfit, hframe, hbacktest⟩ := runSplit_eq_some h
  obtain ⟨-, hfit', hframe', hbacktest'⟩ := runSplit_eq_some h'
  have hfitted : SameUntil r.split.test.start df df' → r.fitted = r'.fitted := by
    intro hsame
    rw [hsame.of_labeledDf hsplit.train, hsame.of_labeledDf hsplit.val, hfit'] at hfit
    exact (Option.some.inj hfit).symm
  refine ⟨hfitted, fun k hsame => ?_, fun k => run_extends r.backtest r.frame k⟩
  have htimes : r.frame.map Bar.timestamp = r'.frame.map Bar.timestamp := by
    rw [hframe, hframe']
    exact hsame.times_of_labeledDf _
  have hsameBacktest : r.backtest = r'.backtest := by
    rw [hbacktest, hbacktest', hfitted (hsame.mono (by omega)), htimes]
  have hbars : (Backtest.bars r.frame).take k = (Backtest.bars r'.frame).take k := by
    refine bars_take_congr ?_
    rw [hframe, hframe']
    exact hsame.take_of_labeledDf
  rw [Backtest.upTo, Backtest.upTo, hsameBacktest, hbars]

/-- A fold is the result of the split of its number. -/
theorem foldsFrom_mem {labeled : List LabeledRow} {fold : ℕ} {windows : List Split}
    {folds : List (MLWalkForwardFold M ν)} (h : e.foldsFrom labeled fold windows = some folds)
    {f : MLWalkForwardFold M ν} (hf : f ∈ folds) :
    ∃ i split, windows[i]? = some split ∧ f.fold = fold + i ∧
      e.runSplit labeled split = some (some f.toSplitResult) := by
  induction windows generalizing fold folds with
  | nil =>
    obtain rfl := Option.some.inj h
    cases hf
  | cons split windows ih =>
    simp only [foldsFrom, Option.bind_eq_bind, Option.bind_eq_some_iff] at h
    obtain ⟨result, hresult, rest, hrest, hfolds⟩ := h
    obtain rfl := Option.some.inj hfolds
    rcases List.mem_append.1 hf with hf | hf
    · obtain ⟨r, rfl, rfl⟩ := Option.map_eq_some_iff.1 (Option.mem_toList.1 hf)
      exact ⟨0, split, rfl, rfl, hresult⟩
    · obtain ⟨i, other, hi, hfold, hother⟩ := ih hrest hf
      exact ⟨i + 1, other, hi, by omega, hother⟩

end Experiment

/-- **Experiments do not look ahead.** In two markets on one grid of times, take the results of one
split: those of `run_single_combo`, or those of a fold of `run_ml_walk_forward`. Where the markets
are the same up to the part to test on, the fitted scaler and the model with its calibration are the
same; where they are the same up to a bar of this part, the backtests are in the same state after
it, which the trading results extend. -/
theorem experiments_do_not_look_ahead (e : Experiment M ν) {df df' : List (Bar Columns)}
    (htimes : df.map Bar.timestamp = df'.map Bar.timestamp) :
    (∀ trainPct valPct r r',
      e.runSingleCombo (labeledDf e.barrierConfig df) trainPct valPct = some (some r) →
      e.runSingleCombo (labeledDf e.barrierConfig df') trainPct valPct = some (some r') →
      r.NoLookAhead df df' r') ∧
    ∀ sizes folds folds', e.runMlWalkForward (labeledDf e.barrierConfig df) sizes = some folds →
      e.runMlWalkForward (labeledDf e.barrierConfig df') sizes = some folds' →
      ∀ f ∈ folds, ∀ f' ∈ folds', f.fold = f'.fold →
        f.NoLookAhead df df' f'.toSplitResult := by
  have hlength : (labeledDf e.barrierConfig df).length = (labeledDf e.barrierConfig df').length :=
    SameUntil.length_labeledDf (n := 0) ⟨htimes, by simp⟩
  constructor
  · intro trainPct valPct r r' h h'
    rw [Experiment.runSingleCombo] at h h'
    rw [← hlength] at h'
    exact Experiment.runSplit_noLookAhead (chronologicalSplit_embargoed _ _ _ _) h h'
  · intro sizes folds folds' h h' f hf f' hf' hfold
    simp only [Experiment.runMlWalkForward, Option.bind_eq_bind, Option.bind_eq_some_iff] at h h'
    obtain ⟨windows, hwindows, hfolds⟩ := h
    obtain ⟨windows', hwindows', hfolds'⟩ := h'
    rw [← hlength, hwindows] at hwindows'
    obtain rfl := Option.some.inj hwindows'
    obtain ⟨i, split, hi, hnumber, hsplit⟩ := Experiment.foldsFrom_mem hfolds hf
    obtain ⟨j, split', hj, hnumber', hsplit'⟩ := Experiment.foldsFrom_mem hfolds' hf'
    obtain rfl : i = j := by omega
    obtain rfl : split = split' := Option.some.inj (hi.symm.trans hj)
    obtain ⟨start, rfl⟩ := mem_windowsFrom hwindows (List.mem_of_getElem? hi)
    exact Experiment.runSplit_noLookAhead (splitAt_embargoed _ _ _) hsplit hsplit'

section Example

/-- A library whose models are the share of the long labels they are fitted on. -/
def shareLibrary : Library ℚ Unit where
  logisticRegression train := some (meanOf (train.map fun s => if s.y = 2 then 1 else 0))
  randomForest _ := none
  xgbClassifier _ _ := none
  lgbmClassifier _ _ := none
  votingClassifier _ _ := none
  calibratedClassifier _ share _ := some share
  predict _ _ := 1
  predictProba share _ := ⟨0, 1 - share, share⟩
  standardScaler _ := id
  metrics _ _ _ := some ()

/-- An hour of a market that rises until the bar 90 and goes on at a price. -/
def marketBar (later : ℚ) (i : ℕ) : Bar Columns where
  timestamp := i
  open_ := if i < 90 then 100 + i else later
  high := if i < 90 then 103 + i else later
  low := if i < 90 then 100 + i else later
  close := if i < 90 then 101 + i else later
  columns _ := some 1

def market (later : ℚ) : List (Bar Columns) := (List.range 98).map (marketBar later)

def shareExperiment : Experiment ℚ Unit where
  library := shareLibrary
  featureCols := ["atr_14"]
  modelName := .logisticRegression
  barrierConfig := { horizonBars := 1 }

def shareSizes : WindowSizes where
  trainWindow := 50
  valWindow := 20
  testWindow := 20
  step := 100

theorem sameUntil_market (later later' : ℚ) : SameUntil 90 (market later) (market later') := by
  refine ⟨by simp [market, marketBar, Function.comp_def], ?_⟩
  rw [market, market, ← List.map_take, ← List.map_take]
  refine List.map_congr_left fun i hi => ?_
  have hlt : i < 90 := by simpa using hi
  simp [marketBar, hlt]

/-- The only fold of a market. -/
theorem fold_market (later : ℚ) (h : (shareExperiment.runMlWalkForward
      (labeledDf { horizonBars := 1 } (market later)) shareSizes).map
        (List.map fun f => (f.fold, f.split.test.start)) = some [(1, 76)]) :
    ∃ f, shareExperiment.runMlWalkForward (labeledDf { horizonBars := 1 } (market later))
      shareSizes = some [f] ∧ f.fold = 1 ∧ f.split.test.start = 76 := by
  obtain ⟨folds, hfolds, hmap⟩ := Option.map_eq_some_iff.1 h
  obtain ⟨f, rfl, hf⟩ := List.map_eq_singleton_iff.1 hmap
  exact ⟨f, hfolds, (Prod.mk.inj hf).1, (Prod.mk.inj hf).2⟩

/-- A crash in the part to test on changes neither the model nor what was traded before it. -/
theorem experiments_do_not_look_ahead_crash :
    ∃ f f', shareExperiment.runMlWalkForward (labeledDf { horizonBars := 1 } (market 50))
        shareSizes = some [f] ∧
      shareExperiment.runMlWalkForward (labeledDf { horizonBars := 1 } (market 190))
        shareSizes = some [f'] ∧
      f.fitted = f'.fitted ∧ f.backtest.upTo f.frame 13 = f'.backtest.upTo f'.frame 13 := by
  obtain ⟨f, hf, hfold, hstart⟩ := fold_market 50 (by decide +kernel)
  obtain ⟨f', hf', hfold', -⟩ := fold_market 190 (by decide +kernel)
  have hsame : f.NoLookAhead (market 50) (market 190) f'.toSplitResult :=
    (experiments_do_not_look_ahead shareExperiment (sameUntil_market 50 190).times).2 shareSizes
      _ _ hf hf' f (by simp) f' (by simp) (hfold.trans hfold'.symm)
  refine ⟨f, f', hf, hf', hsame.fitted ?_, hsame.upTo 13 ?_⟩
  · exact (sameUntil_market 50 190).mono (by omega)
  · exact (sameUntil_market 50 190).mono (by omega)

end Example

end AlphaOne.ML

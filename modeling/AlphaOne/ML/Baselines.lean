import AlphaOne.Backtester.Closures
import AlphaOne.Backtester.Results
import AlphaOne.ML.Pipeline
import AlphaOne.SignalEngine.ResearchStrategies

/-!
# The baselines

`ml/evaluation/baselines.py`: buy and hold, the EMA crossover, the RSI strategy and trend following
are closures that `run_baseline` hands to the backtester, over a frame whose indicators are computed
once; and `run_walk_forward_baseline` of `services/backtester/walk_forward_baselines.py`, which
backtests them on the test window of each fold.

The module says that computing the indicators once is an optimisation only: a baseline is traded as
the strategy that looks at the candles so far, computes their indicators and decides
(`baselines_from_scratch`). The folds of the walk-forward check are backtests of their own windows
(`walk_forward_folds`).
-/

namespace AlphaOne.ML

open Foundations FeatureEngine Backtester SignalEngine

/-! ## The indicators -/

/-- The columns of `_precompute_indicators`. -/
structure IndicatorColumns extends BaselineColumns where
  emaFast : Option ℚ
  emaSlow : Option ℚ
  rsi14 : Option ℚ
  deriving DecidableEq, Repr

/-- `_precompute_indicators`, with all its columns. -/
def precomputeAll (df : List Candle) : List IndicatorColumns :=
  List.zipWith (fun columns (emaFast, emaSlow, rsi14) =>
      { toBaselineColumns := columns, emaFast, emaSlow, rsi14 })
    (precomputeIndicators df)
    ((ema (closes df) 9).zip ((ema (closes df) 21).zip (rsi (closes df) 14)))

theorem causal_precomputeAll : Causal precomputeAll :=
  Causal.zipWith s05Pair_causal
    (((causal_ema 9).comp causal_closes).zipWith
      (((causal_ema 21).comp causal_closes).zipWith ((causal_rsi 14).comp causal_closes) _) _) _

/-! ## The signal functions -/

/-- The keys that the backtester reads of a decision. The leverages are integers. -/
def toSignal (raw : RawSignal) : Backtester.Signal where
  signalType := raw.signalType
  stopLoss := raw.stopLoss
  takeProfit1 := raw.takeProfit1
  leverage := raw.leverage.num

/-- `ema_crossover_signal_func`; the columns have the periods 9 and 21 whatever `slow_period` is. -/
def emaCrossoverSignal (slowPeriod : ℕ) (df : List (PreparedRow IndicatorColumns)) :
    Option RawSignal :=
  if df.length < slowPeriod + 2 then none
  else do
    let last ← back df 0
    let prev ← back df 1
    let prevFast ← prev.columns.emaFast
    let prevSlow ← prev.columns.emaSlow
    let atr14 ← last.columns.atr14
    let lastFast ← last.columns.emaFast
    let lastSlow ← last.columns.emaSlow
    let entry := last.candle.close
    if atr14 ≤ 0 then none
    else if prevFast ≤ prevSlow ∧ lastFast > lastSlow then some (defaultSignal entry atr14 .long)
    else if prevFast ≥ prevSlow ∧ lastFast < lastSlow then some (defaultSignal entry atr14 .short)
    else none

/-- `rsi_signal_func`. -/
def rsiSignal (period : ℕ) (oversold overbought : ℚ) (df : List (PreparedRow IndicatorColumns)) :
    Option RawSignal :=
  if df.length < period + 12 then none
  else do
    let last ← back df 0
    let prev ← back df 1
    let prevRsi ← prev.columns.rsi14
    let lastRsi ← last.columns.rsi14
    let atr14 ← last.columns.atr14
    let entry := last.candle.close
    if atr14 ≤ 0 then none
    else if prevRsi < oversold ∧ oversold ≤ lastRsi then some (defaultSignal entry atr14 .long)
    else if prevRsi > overbought ∧ overbought ≥ lastRsi then
      some (defaultSignal entry atr14 .short)
    else none

/-- `trend_following_signal_func`, on the frame with all columns. -/
def trendSignal (breakoutPeriod : ℕ) (adxThreshold : ℚ)
    (df : List (PreparedRow IndicatorColumns)) : Option RawSignal :=
  trendFollowingSignal breakoutPeriod adxThreshold
    (df.map fun row => ⟨row.candle, row.columns.toBaselineColumns⟩)

/-- The decision of buy and hold. -/
def holdSignal (positionPct : ℚ) : Backtester.Signal where
  positionPct := some positionPct

/-- The `_signal` of `buy_and_hold_signal_func`; the variable is `fired["done"]`. -/
def holdCall {Row : Type} (positionPct : ℚ) (done : Bool) (seen : List (Bar Row)) :
    Option Backtester.Signal × Bool :=
  if done = true ∨ seen.length < 2 then (none, done) else (some (holdSignal positionPct), true)

/-- `buy_and_hold_signal_func`. -/
def buyAndHold (positionPct : ℚ) : Closure Candle := ⟨Bool, false, holdCall positionPct⟩

/-- It fires on its first call, on two bars. -/
theorem holdCall_eq {Row : Type} {positionPct : ℚ} {done : Bool} {n : ℕ} {seen : List (Bar Row)}
    (hseen : seen.length = n + 2) (hdone : done = true ↔ 0 < n) :
    holdCall positionPct done seen =
      (if n = 0 then some (holdSignal positionPct) else none, true) := by
  rw [holdCall, hseen]
  cases n with
  | zero => simp [hdone]
  | succ n => simp [hdone.2 n.succ_pos]

/-! ## The registry -/

/-- An entry of `BASELINE_STRATEGIES`, with what `run_baseline` prepares for it. -/
structure Baseline where
  displayName : String
  Row : Type
  candle : Row → Candle
  prepare : List Candle → List Row
  signalFunc : Closure Row

/-- An entry whose signal function reads the indicators and keeps nothing. -/
def Baseline.ofSignal (displayName : String)
    (decide : List (PreparedRow IndicatorColumns) → Option RawSignal) : Baseline where
  displayName
  Row := PreparedRow IndicatorColumns
  candle := PreparedRow.candle
  prepare := SignalEngine.prepare precomputeAll
  signalFunc := Closure.pure fun seen => (decide (seen.map Bar.columns)).map toSignal

inductive BaselineName
  | buyAndHold
  | emaCrossover
  | rsiStrategy
  | trendFollowing
  deriving DecidableEq, Repr

namespace BaselineName

/-- The keys of `BASELINE_STRATEGIES`. -/
def key : BaselineName → String
  | .buyAndHold => "buy_and_hold"
  | .emaCrossover => "ema_crossover"
  | .rsiStrategy => "rsi_strategy"
  | .trendFollowing => "trend_following"

/-- The decision of the entries that read the indicators. -/
def decide : BaselineName → List (PreparedRow IndicatorColumns) → Option RawSignal
  | .buyAndHold, _ => none
  | .emaCrossover, df => emaCrossoverSignal 21 df
  | .rsiStrategy, df => rsiSignal 14 30 70 df
  | .trendFollowing, df => trendSignal 20 25 df

/-- `BASELINE_STRATEGIES`. -/
def baseline : BaselineName → Baseline
  | .buyAndHold =>
    { displayName := "Buy and Hold"
      Row := Candle
      candle := id
      prepare := id
      signalFunc := ML.buyAndHold (95 / 100) }
  | .emaCrossover => .ofSignal "EMA Crossover (9/21)" emaCrossover.decide
  | .rsiStrategy => .ofSignal "RSI Strategy (14)" rsiStrategy.decide
  | .trendFollowing => .ofSignal "Trend Following (Donchian 20 + ADX)" trendFollowing.decide

end BaselineName

/-- A frame: each row is a bar at the prices of its candle. -/
def frameOf {Row : Type} (candle : Row → Candle) (rows : List Row) : List (Bar Row) :=
  rows.map fun row =>
    { timestamp := (candle row).timestamp
      open_ := (candle row).open_
      high := (candle row).high
      low := (candle row).low
      close := (candle row).close
      columns := row }

/-- The arguments of a backtest beside the candles: its configuration, the funding table, and the
day of the run, on which the risk engine is built. -/
structure Settings where
  config : BacktestConfig := {}
  fundingRates : List FundingEvent := []
  today : ℤ := 0

/-- The backtest of a function of the bars. -/
def Settings.backtest {Row : Type} (s : Settings)
    (signalFunc : List (Bar Row) → Option Backtester.Signal) : Backtest Row where
  config := s.config
  today := s.today
  signalFunc
  fundingRates := s.fundingRates

namespace Baseline

variable (baseline : Baseline) (s : Settings) (df : List Candle)

/-- `prepared_df`. -/
def preparedDf : List (Bar baseline.Row) := frameOf baseline.candle (baseline.prepare df)

/-- The backtest of an entry of the registry through the position `k`. -/
def upTo (k : ℕ) : State :=
  ((s.backtest fun _ => none).closureUpTo baseline.signalFunc (baseline.preparedDf df) k).1

/-- The backtest of an entry of the registry. -/
def run : State :=
  (s.backtest fun _ => none).runClosure baseline.signalFunc (baseline.preparedDf df)

/-- `Backtester.run`, with the statistics. -/
def result : BacktestResult :=
  compileResults s.config (baseline.run s df).trades (baseline.run s df).equityCurve

end Baseline

/-- `run_baseline`: its error, or the display name and the result. -/
def runBaseline (name : String) (df : List Candle) (s : Settings) :
    Except String (String × BacktestResult) :=
  let entries := [BaselineName.buyAndHold, .emaCrossover, .rsiStrategy, .trendFollowing]
  match entries.find? fun entry => entry.key = name with
  | none =>
    .error (s!"Unknown baseline: {name}. Options: " ++
      "['buy_and_hold', 'ema_crossover', 'rsi_strategy', 'trend_following']")
  | some entry => .ok (entry.baseline.displayName, entry.baseline.result s df)

/-! ## The walk-forward check -/

/-- A fold of `run_walk_forward_baseline`. -/
structure FoldResult where
  fold : ℕ
  trainStart : Datetime
  trainEnd : Datetime
  testStart : Datetime
  testEnd : Datetime
  result : BacktestResult

/-- The funding table that a fold is run with. -/
def Settings.ofFold (s : Settings) (testDf : List Candle) : Settings :=
  { s with fundingRates := foldFunding s.fundingRates (testDf.map Candle.timestamp) }

namespace BaselineName

variable (name : BaselineName) (s : Settings)

/-- The body of the loop of `run_walk_forward_baseline`; an empty window has no first row, which
raises. -/
def foldResult (fold : ℕ) (trainDf testDf : List Candle) : Option FoldResult := do
  let trainFirst ← trainDf.head?
  let trainLast ← trainDf.getLast?
  let testFirst ← testDf.head?
  let testLast ← testDf.getLast?
  some
    { fold
      trainStart := trainFirst.timestamp
      trainEnd := trainLast.timestamp
      testStart := testFirst.timestamp
      testEnd := testLast.timestamp
      result := name.baseline.result (s.ofFold testDf) testDf }

/-- The loop of `run_walk_forward_baseline`, of which the next fold is `fold`. -/
def foldResults : ℕ → List (List Candle × List Candle) → Option (List FoldResult)
  | _, [] => some []
  | fold, (trainDf, testDf) :: splits => do
    let result ← name.foldResult s fold trainDf testDf
    let results ← foldResults (fold + 1) splits
    some (result :: results)

/-- `run_walk_forward_baseline`: `none` where it raises or does not return. -/
def runWalkForward (df : List Candle) (sizes : WalkForwardSizes :=
    { trainWindow := 2000, testWindow := 500, step := 500, embargo := 50 }) :
    Option (List FoldResult) := do
  let splits ← createWalkForwardSplits df sizes
  name.foldResults s 1 splits

end BaselineName

/-! ## The strategies on the candles -/

namespace BaselineName

/-- What a baseline is for: its decision on some candles, whose indicators are computed. -/
def decision : BaselineName → List Candle → Option Backtester.Signal
  | .buyAndHold, candles => if candles.length = 2 then some (holdSignal (95 / 100)) else none
  | name, candles => (name.decide (SignalEngine.prepare precomputeAll candles)).map toSignal

/-- The backtest that computes the indicators on every bar. -/
def fromScratch (name : BaselineName) (s : Settings) : Backtest Candle :=
  s.backtest fun seen => name.decision (seen.map Bar.columns)

end BaselineName

section FromScratch

variable {Row : Type}

/-- The rows of the frame so far. -/
theorem columns_take_frameOf (candle : Row → Candle) (rows : List Row) (k : ℕ) :
    ((frameOf candle rows).take k).map Bar.columns = rows.take k := by
  simp [frameOf, ← List.map_take, Function.comp_def]

/-- The prices of a frame are those of its candles. -/
theorem prices_frameOf (candle : Row → Candle) (rows : List Row) :
    (frameOf candle rows).map Bar.prices = (frameOf id (rows.map candle)).map Bar.prices := by
  simp [frameOf, Bar.prices, Function.comp_def]

theorem candles_prepare (df : List Candle) :
    (SignalEngine.prepare precomputeAll df).map PreparedRow.candle = df := by
  have hfst : PreparedRow.candle ∘ Function.uncurry PreparedRow.mk =
      (Prod.fst : Candle × IndicatorColumns → Candle) := rfl
  rw [SignalEngine.prepare, ← List.map_uncurry_zip_eq_zipWith, List.map_map, hfst]
  exact List.map_fst_zip (causal_precomputeAll.length df).ge

/-- The columns of an entry that is computed once are read as those of the candles so far. -/
theorem ofSignal_answers (displayName : String)
    (decide : List (PreparedRow IndicatorColumns) → Option RawSignal) (df : List Candle) :
    Answers (Baseline.ofSignal displayName decide).signalFunc
      ((Baseline.ofSignal displayName decide).preparedDf df)
      (fun seen => (decide (SignalEngine.prepare precomputeAll (seen.map Bar.columns))).map
        toSignal)
      (frameOf id df) fun _ _ => True := by
  refine ⟨trivial, fun n _ _ _ => ?_, fun _ _ _ _ => trivial⟩
  have hrows := (columns_take_frameOf PreparedRow.candle
    (SignalEngine.prepare precomputeAll df) (n + 2)).trans
    ((causal_prepare causal_precomputeAll).take df (n + 2)).symm
  rw [columns_take_frameOf]
  exact congrArg (fun rows => (decide rows).map toSignal) hrows

/-- Buy and hold answers once, at the second bar. -/
theorem buyAndHold_answers (df : List Candle) :
    Answers (buyAndHold (95 / 100)) (frameOf id df)
      (fun seen => BaselineName.buyAndHold.decision (seen.map Bar.columns)) (frameOf id df)
      fun n (done : Bool) => done = true ↔ 0 < n := by
  have hseen : ∀ n, n + 1 < (frameOf id df).length →
      ((frameOf id df).take (n + 2)).length = n + 2 := by
    intro n hn
    rw [List.length_take]
    omega
  refine ⟨by simp [buyAndHold], fun n done hn hdone => ?_, fun n done hn hdone => ?_⟩
  · refine (congrArg Prod.fst (holdCall_eq (hseen n hn) hdone)).trans ?_
    rw [BaselineName.decision, List.length_map, hseen n hn]
    simp
  · exact ⟨fun _ => n.succ_pos, fun _ => congrArg Prod.snd (holdCall_eq (hseen n hn) hdone)⟩

/-- **What a baseline answers.** -/
theorem baseline_answers (name : BaselineName) (df : List Candle) :
    ∃ Inv, Answers name.baseline.signalFunc (name.baseline.preparedDf df)
      (fun seen => name.decision (seen.map Bar.columns)) (frameOf id df) Inv := by
  cases name with
  | buyAndHold => exact ⟨_, buyAndHold_answers df⟩
  | emaCrossover => exact ⟨_, ofSignal_answers _ _ df⟩
  | rsiStrategy => exact ⟨_, ofSignal_answers _ _ df⟩
  | trendFollowing => exact ⟨_, ofSignal_answers _ _ df⟩

theorem prices_preparedDf (name : BaselineName) (df : List Candle) :
    (name.baseline.preparedDf df).map Bar.prices = (frameOf id df).map Bar.prices := by
  have hofSignal : ∀ displayName decide, ((Baseline.ofSignal displayName decide).preparedDf df).map
      Bar.prices = (frameOf id df).map Bar.prices := by
    intro displayName decide
    exact (prices_frameOf _ _).trans (congrArg (fun candles => (frameOf id candles).map Bar.prices)
      (candles_prepare df))
  cases name with
  | buyAndHold => rfl
  | emaCrossover => exact hofSignal _ _
  | rsiStrategy => exact hofSignal _ _
  | trendFollowing => exact hofSignal _ _

/-- The backtest of a baseline is the one that computes its indicators on every bar. -/
theorem run_eq_fromScratch (name : BaselineName) (s : Settings) (df : List Candle) :
    (∀ k, name.baseline.upTo s df k = (name.fromScratch s).upTo (frameOf id df) k) ∧
      name.baseline.run s df = (name.fromScratch s).run (frameOf id df) := by
  obtain ⟨Inv, hInv⟩ := baseline_answers name df
  exact runClosure_eq ⟨rfl, rfl, rfl⟩ (prices_preparedDf name df) hInv

end FromScratch

/-- **Precomputing the indicators of a baseline is an optimisation only**: its backtest goes through
the states, and has the result, of the one that computes the indicators of the candles so far on
every bar. Where two histories agree up to a bar, so do the states after it, and what has been
traded by then is part of the result. -/
theorem baselines_from_scratch (name : BaselineName) (s : Settings) {df df' : List Candle} {k : ℕ}
    (h : df.take (k + 1) = df'.take (k + 1)) :
    (name.baseline.upTo s df k = (name.fromScratch s).upTo (frameOf id df) k ∧
      name.baseline.run s df = (name.fromScratch s).run (frameOf id df)) ∧
    name.baseline.upTo s df k = name.baseline.upTo s df' k ∧
    Extends (name.baseline.upTo s df k) (name.baseline.run s df) := by
  obtain ⟨hupTo, hrun⟩ := run_eq_fromScratch name s df
  have hupTo' := (run_eq_fromScratch name s df').1 k
  have hframe : (frameOf id df).take (k + 1) = (frameOf id df').take (k + 1) := by
    simp only [frameOf, ← List.map_take, h]
  refine ⟨⟨hupTo k, hrun⟩, ?_, ?_⟩
  · rw [hupTo k, hupTo', Backtest.upTo, Backtest.upTo, bars_take_congr hframe]
  · rw [hupTo k, hrun]
    exact run_extends _ _ _

/-- A breakout is traded alike whatever comes after it. -/
theorem baselines_from_scratch_breakout :
    (BaselineName.trendFollowing.baseline.upTo {} (fallen 45 ++ [breakoutCandle, wickCandle])
        65).pendingSignal.isSome = true ∧
      BaselineName.trendFollowing.baseline.upTo {} (fallen 45 ++ [breakoutCandle, wickCandle]) 65 =
        BaselineName.trendFollowing.baseline.upTo {} (fallen 45 ++ [breakoutCandle]) 65 :=
  ⟨by decide +kernel, (baselines_from_scratch .trendFollowing {} rfl).2.1⟩

/-! ## Folds -/

section Folds

variable {α : Type} {xs : List α} {sizes : WalkForwardSizes}

/-- The rows that a fold takes. -/
def WalkForwardSizes.window (sizes : WalkForwardSizes) : ℕ :=
  sizes.trainWindow + sizes.embargo + sizes.testWindow

/-- The first row of a fold. -/
def WalkForwardSizes.start (sizes : WalkForwardSizes) (i : ℕ) : ℕ := i * sizes.step

/-- **The windows that are cut**: every window of rows that starts after so many steps. -/
theorem getElem?_walkForwardFrom {fuel start : ℕ} {splits : List (List α × List α)}
    (h : walkForwardFrom xs sizes fuel start = some splits) (i : ℕ) :
    splits[i]? = if start + sizes.start i + sizes.window ≤ xs.length then
      some ((sizes.train (start + sizes.start i)).of xs, (sizes.test (start + sizes.start i)).of xs)
      else none := by
  induction fuel generalizing start splits i with
  | zero => cases h
  | succ fuel ih =>
    rw [walkForwardFrom] at h
    split at h
    · next hfits =>
      obtain ⟨rest, hrest, rfl⟩ := Option.map_eq_some_iff.1 h
      cases i with
      | zero =>
        rw [if_pos (by simp only [WalkForwardSizes.start, WalkForwardSizes.window]; omega)]
        simp [WalkForwardSizes.start]
      | succ i =>
        have hstart : start + sizes.step + sizes.start i = start + sizes.start (i + 1) := by
          simp only [WalkForwardSizes.start, Nat.succ_mul]
          omega
        rw [List.getElem?_cons_succ, ih hrest, hstart]
    · next hfits =>
      obtain rfl := Option.some.inj h
      rw [if_neg (by simp only [WalkForwardSizes.window]; omega)]
      rfl

/-- A window that does not move is cut for ever. -/
theorem walkForwardFrom_of_step_eq_zero (hstep : sizes.step = 0) {start : ℕ}
    (hfits : start + sizes.window ≤ xs.length) (fuel : ℕ) :
    walkForwardFrom xs sizes fuel start = none := by
  rw [WalkForwardSizes.window] at hfits
  induction fuel with
  | zero => rfl
  | succ fuel ih =>
    rw [walkForwardFrom, if_pos (by omega), hstep, Nat.add_zero, ih, Option.map_none]

/-- A window that moves is cut until it does not fit. -/
theorem exists_walkForwardFrom (hmoves : sizes.window ≤ xs.length → 0 < sizes.step)
    {fuel start : ℕ} (hpos : 0 < fuel) (hfuel : xs.length + 2 ≤ fuel + start) :
    ∃ splits, walkForwardFrom xs sizes fuel start = some splits := by
  rw [WalkForwardSizes.window] at hmoves
  induction fuel generalizing start with
  | zero => exact absurd hpos (Nat.lt_irrefl 0)
  | succ fuel ih =>
    rw [walkForwardFrom]
    split
    · next hfits =>
      have hstep := hmoves (by omega)
      have hnext : xs.length + 2 ≤ fuel + (start + sizes.step) := by omega
      obtain ⟨rest, hrest⟩ := ih (by omega) hnext
      exact ⟨_, by rw [hrest, Option.map_some]⟩
    · exact ⟨[], rfl⟩

/-- **When the windows are cut for ever.** -/
theorem createWalkForwardSplits_eq_none_iff :
    createWalkForwardSplits xs sizes = none ↔ sizes.window ≤ xs.length ∧ sizes.step = 0 := by
  constructor
  · intro h
    by_contra hnot
    have hmoves : sizes.window ≤ xs.length → 0 < sizes.step :=
      fun hfits => Nat.pos_of_ne_zero fun hstep => hnot ⟨hfits, hstep⟩
    have hfuel : xs.length + 2 ≤ (xs.length + 2) + 0 := le_rfl
    obtain ⟨splits, hsplits⟩ := exists_walkForwardFrom hmoves (Nat.succ_pos _) hfuel
    rw [createWalkForwardSplits, hsplits] at h
    cases h
  · rintro ⟨hfits, hstep⟩
    exact walkForwardFrom_of_step_eq_zero hstep (by omega) _

/-- A slice of rows that there are is as long as it says. -/
theorem RowSlice.of_eq_nil_iff {s : RowSlice} (h : s.stop ≤ xs.length) :
    s.of xs = [] ↔ s.stop ≤ s.start := by
  rw [RowSlice.of, ← List.length_eq_zero_iff, List.length_drop, List.length_take]
  omega

variable {name : BaselineName} {s : Settings}

theorem foldResult_eq_none_iff {fold : ℕ} {trainDf testDf : List Candle} :
    name.foldResult s fold trainDf testDf = none ↔ trainDf = [] ∨ testDf = [] := by
  cases trainDf with
  | nil => simp [BaselineName.foldResult]
  | cons _ _ =>
    cases testDf with
    | nil => simp [BaselineName.foldResult]
    | cons _ _ => simp [BaselineName.foldResult, List.getLast?_cons]

theorem foldResult_eq_some {fold : ℕ} {trainDf testDf : List Candle} {r : FoldResult}
    (h : name.foldResult s fold trainDf testDf = some r) :
    r.fold = fold ∧ r.result = name.baseline.result (s.ofFold testDf) testDf := by
  simp only [BaselineName.foldResult, Option.bind_eq_bind, Option.bind_eq_some_iff] at h
  obtain ⟨_, -, _, -, _, -, _, -, hr⟩ := h
  obtain rfl := Option.some.inj hr
  exact ⟨rfl, rfl⟩

/-- The check raises where it does on one of the folds. -/
theorem foldResults_eq_none_iff {fold : ℕ} {splits : List (List Candle × List Candle)} :
    name.foldResults s fold splits = none ↔ ∃ split ∈ splits, split.1 = [] ∨ split.2 = [] := by
  induction splits generalizing fold with
  | nil => simp [BaselineName.foldResults]
  | cons split splits ih =>
    simp only [BaselineName.foldResults, Option.bind_eq_bind, Option.bind_eq_none_iff,
      List.exists_mem_cons_iff]
    have hsplit : name.foldResult s fold split.1 split.2 = none ↔ _ := foldResult_eq_none_iff
    have hrest : name.foldResults s (fold + 1) splits = none ↔ _ := ih
    rw [← hsplit, ← hrest]
    cases name.foldResult s fold split.1 split.2 with
    | none => simp
    | some r =>
      cases name.foldResults s (fold + 1) splits <;> simp

/-- Each fold is the result of its windows. -/
theorem getElem?_foldResults {fold : ℕ} {splits : List (List Candle × List Candle)}
    {folds : List FoldResult} (h : name.foldResults s fold splits = some folds) (i : ℕ) :
    folds[i]? = splits[i]?.bind fun split => name.foldResult s (fold + i) split.1 split.2 := by
  induction splits generalizing fold folds i with
  | nil =>
    obtain rfl := Option.some.inj h
    rfl
  | cons split splits ih =>
    simp only [BaselineName.foldResults, Option.bind_eq_bind, Option.bind_eq_some_iff] at h
    obtain ⟨r, hr, rest, hrest, hfolds⟩ := h
    obtain rfl := Option.some.inj hfolds
    cases i with
    | zero => simp [hr]
    | succ i =>
      rw [List.getElem?_cons_succ, List.getElem?_cons_succ, ih hrest]
      simp only [Nat.add_right_comm, Nat.add_assoc]

theorem length_foldResults {fold : ℕ} {splits : List (List Candle × List Candle)}
    {folds : List FoldResult} (h : name.foldResults s fold splits = some folds) :
    folds.length = splits.length := by
  induction splits generalizing fold folds with
  | nil =>
    obtain rfl := Option.some.inj h
    rfl
  | cons split splits ih =>
    simp only [BaselineName.foldResults, Option.bind_eq_bind, Option.bind_eq_some_iff] at h
    obtain ⟨r, -, rest, hrest, hfolds⟩ := h
    obtain rfl := Option.some.inj hfolds
    rw [List.length_cons, List.length_cons, ih hrest]

/-- The splits are those of the windows that fit. -/
theorem getElem?_splits {splits : List (List α × List α)}
    (h : createWalkForwardSplits xs sizes = some splits) (i : ℕ) :
    splits[i]? = if sizes.start i + sizes.window ≤ xs.length then
      some ((sizes.train (sizes.start i)).of xs, (sizes.test (sizes.start i)).of xs) else none := by
  have hsplits := getElem?_walkForwardFrom h i
  rwa [Nat.zero_add] at hsplits

/-- A window that fits is empty when its size is zero. -/
theorem window_eq_nil_iff {i : ℕ} (hfits : sizes.start i + sizes.window ≤ xs.length) :
    ((sizes.train (sizes.start i)).of xs = [] ↔ sizes.trainWindow = 0) ∧
      ((sizes.test (sizes.start i)).of xs = [] ↔ sizes.testWindow = 0) := by
  rw [WalkForwardSizes.window] at hfits
  rw [RowSlice.of_eq_nil_iff (by simp only [WalkForwardSizes.train]; omega),
    RowSlice.of_eq_nil_iff (by simp only [WalkForwardSizes.test]; omega)]
  simp only [WalkForwardSizes.train, WalkForwardSizes.test]
  omega

/-- **When the check has no result.** -/
theorem runWalkForward_eq_none_iff {df : List Candle} :
    name.runWalkForward s df sizes = none ↔ sizes.window ≤ df.length ∧
      (sizes.step = 0 ∨ sizes.trainWindow = 0 ∨ sizes.testWindow = 0) := by
  rw [BaselineName.runWalkForward, Option.bind_eq_bind]
  cases hsplits : createWalkForwardSplits df sizes with
  | none =>
    have hnone := createWalkForwardSplits_eq_none_iff.1 hsplits
    simp [hnone]
  | some splits =>
    have hmoves : ¬(sizes.window ≤ df.length ∧ sizes.step = 0) := by
      rw [← createWalkForwardSplits_eq_none_iff, hsplits]
      exact Option.some_ne_none _
    rw [Option.bind_some, foldResults_eq_none_iff]
    constructor
    · rintro ⟨split, hsplit, hempty⟩
      obtain ⟨i, hi⟩ := List.mem_iff_getElem?.1 hsplit
      rw [getElem?_splits hsplits] at hi
      split at hi
      · next hfits =>
        obtain rfl := Option.some.inj hi
        obtain ⟨htrain, htest⟩ := window_eq_nil_iff hfits
        rw [htrain, htest] at hempty
        exact ⟨by omega, Or.inr hempty⟩
      · cases hi
    · rintro ⟨hfits, hstep | hempty⟩
      · exact absurd ⟨hfits, hstep⟩ hmoves
      · have hfirst : sizes.start 0 + sizes.window ≤ df.length := by
          rw [WalkForwardSizes.start, Nat.zero_mul, Nat.zero_add]
          exact hfits
        obtain ⟨htrain, htest⟩ := window_eq_nil_iff hfirst
        have hsplit := getElem?_splits hsplits 0
        rw [if_pos hfirst] at hsplit
        refine ⟨_, List.mem_of_getElem? hsplit, ?_⟩
        rwa [htrain, htest]

end Folds

theorem result_eq_fromScratch (name : BaselineName) (s : Settings) (df : List Candle) :
    name.baseline.result s df = (name.fromScratch s).result (frameOf id df) := by
  rw [Baseline.result, (run_eq_fromScratch name s df).2]
  rfl

/-- `run_baseline` of a name in the registry, by the strategy on the candles. -/
theorem runBaseline_key (name : BaselineName) (df : List Candle) (s : Settings) :
    runBaseline name.key df s =
      .ok (name.baseline.displayName, (name.fromScratch s).result (frameOf id df)) := by
  rw [← result_eq_fromScratch]
  cases name <;> rfl

/-- **The folds of the walk-forward check.** The check does not return when windows that fit do not
move, and raises when one of its windows is empty. Else it has the folds whose windows fit, in their
order, and the result of a fold is the backtest of the candles of its test window with the funding
events between the first and the last of them, whatever the market did in another window. -/
theorem walk_forward_folds (name : BaselineName) (s : Settings) (df : List Candle)
    (sizes : WalkForwardSizes) :
    (name.runWalkForward s df sizes = none ↔ sizes.window ≤ df.length ∧
      (sizes.step = 0 ∨ sizes.trainWindow = 0 ∨ sizes.testWindow = 0)) ∧
    ∀ folds, name.runWalkForward s df sizes = some folds →
      (∀ i, i < folds.length ↔ sizes.start i + sizes.window ≤ df.length) ∧
      ∀ i fold, folds[i]? = some fold → fold.fold = i + 1 ∧
        let testDf := (sizes.test (sizes.start i)).of df
        fold.result = (name.fromScratch (s.ofFold testDf)).result (frameOf id testDf) := by
  refine ⟨runWalkForward_eq_none_iff, fun folds h => ?_⟩
  rw [BaselineName.runWalkForward, Option.bind_eq_bind, Option.bind_eq_some_iff] at h
  obtain ⟨splits, hsplits, hfolds⟩ := h
  have hfold := getElem?_foldResults hfolds
  simp only [getElem?_splits hsplits] at hfold
  constructor
  · intro i
    rw [length_foldResults hfolds, ← not_le, ← List.getElem?_eq_none_iff, getElem?_splits hsplits]
    split <;> simp_all
  · intro i fold hi
    rw [hfold] at hi
    split at hi
    · obtain ⟨hnumber, hresult⟩ := foldResult_eq_some hi
      exact ⟨hnumber.trans (Nat.add_comm 1 i), hresult.trans (result_eq_fromScratch name _ _)⟩
    · cases hi

end AlphaOne.ML

import AlphaOne.FeatureEngine.Engine
import AlphaOne.SignalEngine.LiveWindow
import AlphaOne.SignalEngine.Regime

/-!
# Feature sets

`ml/features/feature_groups.py` and `ml/features/strategy_features.py`: the features of the 4h frame
with derived columns, regimes, the context of a 1h frame and the signals of the strategies, and the
named groups of which an ablation study selects some. Every selection has the context of the 1h
frame (`context_mem_selectFeatures`).
-/

namespace AlphaOne.ML

open FeatureEngine SignalEngine

/-! ## Context of a second timeframe -/

/-- `CONTEXT_1H_COLUMNS`. -/
def context1hColumns : List String :=
  ["rsi_14", "adx_14", "ema20_above_ema50", "uptrend", "downtrend", "realized_vol_20"]

/-- `CONTEXT_PREFIX`. -/
def contextPrefix : String := "ctx_1h_"

/-- The names of the context columns. -/
def contextNames : List String := context1hColumns.map (contextPrefix ++ ·)

/-- The rows of a column with their times. -/
def timed (context : Frame) (values : Series) : List (Datetime × Option ℚ) :=
  (context.candles.map Candle.timestamp).zip values

/-- A column of the context at the bars of the primary frame: each is given the last row of the
context at or before its own time. -/
def contextColumn (primary context : Frame) (c : String) : Series :=
  match context.column c with
  | some values => primary.candles.map fun bar => (asof (timed context values) bar.timestamp).join
  | none => primary.candles.map fun _ => none

/-- `_merge_context_timeframe`, for a primary frame in time order. -/
def mergeContextTimeframe (primary context : Frame) : Frame :=
  primary.assign (context1hColumns.map fun c =>
    (contextPrefix ++ c, contextColumn primary context c))

/-- The context columns of a frame without a context. -/
def withoutContext (primary : Frame) : Frame :=
  primary.assign (contextNames.map fun c => (c, primary.candles.map fun _ => none))

/-! ## Derived columns, regimes and strategies -/

/-- `_add_derived_columns`. -/
def addDerivedColumns (df : Frame) : Frame :=
  let close := df.prices Candle.close
  let atrPct := match df.column "atr_14" with
    | some atr => [("atr_pct_14", safeDiv atr close)]
    | none => []
  let slope := match df.column "ema_50" with
    | some ema => [("trend_slope_20", safeDiv (diff 20 ema) close)]
    | none => []
  df.assign (atrPct ++ slope)

/-- `_one_hot_regime`. -/
def oneHotRegime (df : Frame) : Frame :=
  let regimes := detectRegimeSeries df
  df.assign (Regime.all.map fun name =>
    ("regime_" ++ name.value, regimes.map fun r => some (if r = name then 1 else 0)))

/-- The columns of the strategies, under their identifiers. -/
def strategyColumns (df : List Candle) : List (String × Series) :=
  [("strat_S05_DONCHIAN_ADX_4H", s05Pair), ("strat_S06_SUPERTREND_ATR_4H", s06Pair),
    ("strat_V3_KAMA_TREND_4H", kamaPair), ("strat_V3_RANGE_EXPANSION_4H", rangePair)].map
    fun (name, s) => (name, (strategySignalSeries s df).map fun x => some (x : ℚ))

/-- A sum over the columns of each row. -/
def sumColumns (f : ℚ → ℚ) (columns : List Series) (rows : ℕ) : Series :=
  (List.range rows).map fun i => some ((columns.map fun xs => f (((xs[i]?).join).getD 0)).sum)

/-- `assemble_strategy_features`. -/
def assembleStrategyFeatures (df : Frame) : Frame :=
  let columns := strategyColumns df.candles
  let series := columns.map Prod.snd
  let rows := df.candles.length
  df.assign (columns ++
    [("strat_net_direction", sumColumns id series rows),
      ("strat_agree_long", sumColumns (fun x => if x = 1 then 1 else 0) series rows),
      ("strat_agree_short", sumColumns (fun x => if x = -1 then 1 else 0) series rows)])

/-- The inputs of a feature set besides the candles. -/
structure FeatureInputs where
  context : Option (List Candle) := none
  fundingRates : Option (List Reading) := none
  openInterest : Option (List Reading) := none
  includeStrategySignals : Bool := false
  deriving DecidableEq, Repr

/-- The engine's features with the derived columns and the regimes. -/
def primaryFeatures (np : Numpy) (df : List Candle) (inputs : FeatureInputs) : Frame :=
  oneHotRegime (addDerivedColumns (computeFeatures np df inputs.fundingRates inputs.openInterest))

/-- The step that adds the context of the 1h frame, if there is one that is not empty. -/
def addContext (np : Numpy) (df : Frame) : Option (List Candle) → Frame
  | some (c :: context) => mergeContextTimeframe df (computeFeatures np (c :: context) none none)
  | _ => withoutContext df

/-- `assemble_features`. -/
def assembleFeatures (np : Numpy) (df : List Candle) (inputs : FeatureInputs) : Frame :=
  let assembled := addContext np (primaryFeatures np df inputs) inputs.context
  if inputs.includeStrategySignals then assembleStrategyFeatures assembled else assembled

/-! ## Groups and selections -/

/-- `_GROUP_DEFINITIONS`, by the name of the group. -/
inductive Group
  | trend
  | momentum
  | volatility
  | volume
  | structure_
  | regime
  | derivatives
  | context1h
  | strategySignals
  deriving DecidableEq, Repr

def Group.definition : Group → List String
  | .trend =>
    ["ema_9", "ema_20", "ema_50", "ema_100", "ema_200", "sma_20", "sma_50", "ema9_above_ema20",
      "ema20_above_ema50", "ema50_above_ema200", "price_vs_ema9", "price_vs_ema20",
      "price_vs_ema50", "price_vs_ema200", "price_vs_vwap", "returns", "log_returns",
      "trend_slope_20"]
  | .momentum =>
    ["rsi_14", "rsi_7", "rsi_overbought", "rsi_oversold", "macd", "macd_signal", "macd_histogram",
      "macd_bullish", "roc_10", "momentum_10", "adx_14", "plus_di_14", "minus_di_14"]
  | .volatility =>
    ["atr_14", "atr_7", "atr_pct_14", "realized_vol_10", "realized_vol_20", "realized_vol_50",
      "vol_ratio_short_long", "bb_width", "bb_pct", "high_low_range", "range_sma_20",
      "range_expanding", "range_contracting", "garman_klass_vol"]
  | .volume =>
    ["volume_sma_20", "volume_sma_50", "relative_volume", "volume_change", "volume_spike",
      "volume_dry", "obv", "volume_price_divergence", "buy_sell_volume_ratio"]
  | .structure_ =>
    ["higher_high", "higher_low", "lower_high", "lower_low", "uptrend", "downtrend",
      "break_of_structure", "near_resistance", "near_support", "consolidation",
      "donchian_position_20"]
  | .regime => Regime.all.map fun name => "regime_" ++ name.value
  | .derivatives =>
    ["funding_rate", "funding_rate_sma_8", "funding_extreme_high", "funding_extreme_low",
      "funding_trend", "open_interest", "oi_change", "oi_change_sma", "oi_acceleration",
      "price_oi_corr"]
  | .context1h => contextNames
  | .strategySignals =>
    ["strat_S05_DONCHIAN_ADX_4H", "strat_S06_SUPERTREND_ATR_4H", "strat_V3_KAMA_TREND_4H",
      "strat_V3_RANGE_EXPANSION_4H", "strat_net_direction", "strat_agree_long",
      "strat_agree_short"]

/-- The keys of `ABLATION_CONFIGS`. -/
inductive Ablation
  | technicalOnly
  | technicalStructure
  | technicalStructureRegime
  | technicalStructureRegimeDerivatives
  | technicalStructureRegimeStrategies
  deriving DecidableEq, Repr

/-- `ABLATION_CONFIGS`. -/
def Ablation.groups : Ablation → List Group
  | .technicalOnly => [.trend, .momentum, .volatility, .volume]
  | .technicalStructure => [.trend, .momentum, .volatility, .volume, .structure_]
  | .technicalStructureRegime => [.trend, .momentum, .volatility, .volume, .structure_, .regime]
  | .technicalStructureRegimeDerivatives =>
    [.trend, .momentum, .volatility, .volume, .structure_, .regime, .derivatives]
  | .technicalStructureRegimeStrategies =>
    [.trend, .momentum, .volatility, .volume, .structure_, .regime, .strategySignals]

/-- `get_feature_groups`, of one group: the columns that the frame has. -/
def getFeatureGroup (df : Frame) (group : Group) : List String :=
  group.definition.filter (· ∈ df.columnNames)

/-- `select_features`: the columns of the groups and of the context, each once. -/
def selectFeatures (df : Frame) (ablation : Ablation) : List String :=
  ((ablation.groups ++ [Group.context1h]).flatMap (getFeatureGroup df)).foldl
    (fun cols c => if c ∈ cols then cols else cols ++ [c]) []

/-! ## The context columns of a feature set -/

/-- The columns before the context is added. -/
def primaryNames : List String :=
  featureNames ++ ["atr_pct_14", "trend_slope_20"] ++ Group.regime.definition

theorem contextNames_notMem_primaryNames : ∀ c ∈ contextNames, c ∉ primaryNames := by
  decide +kernel

theorem contextNames_notMem_strategies :
    ∀ c ∈ contextNames, c ∉ Group.strategySignals.definition := by
  decide +kernel

section Columns

variable (np : Numpy) (df : List Candle) (inputs : FeatureInputs)

@[simp] theorem columnNames_assign (df : Frame) (added : List (String × Series)) :
    (df.assign added).columnNames = df.columnNames ++ added.map Prod.fst := List.map_append

theorem mem_columnNames_addDerivedColumns {df : Frame} {name : String}
    (h : name ∈ (addDerivedColumns df).columnNames) :
    name ∈ df.columnNames ∨ name ∈ ["atr_pct_14", "trend_slope_20"] := by
  unfold addDerivedColumns at h
  rw [columnNames_assign] at h
  refine (List.mem_append.1 h).imp_right fun hadded => ?_
  cases hatr : df.column "atr_14" <;> cases hema : df.column "ema_50" <;>
    simp only [hatr, hema, List.append_nil, List.nil_append, List.map_append, List.map_cons,
      List.map_nil, List.mem_append, List.mem_singleton, List.not_mem_nil] at hadded <;>
    simp [hadded]

/-- **The columns before the context** are among the primary names. -/
theorem mem_primaryNames {name : String} (h : name ∈ (primaryFeatures np df inputs).columnNames) :
    name ∈ primaryNames := by
  have hengine : ∀ c ∈ (computeFeatures np df inputs.fundingRates inputs.openInterest).columnNames,
      c ∈ featureNames := by
    intro c hc
    by_cases hdf : df = []
    · rw [computeFeatures, if_pos hdf] at hc
      cases hc
    · rwa [columnNames_computeFeatures _ _ _ hdf] at hc
  unfold primaryFeatures oneHotRegime at h
  rw [columnNames_assign, List.map_map] at h
  rcases List.mem_append.1 h with h | h
  · refine List.mem_append_left _ ((mem_columnNames_addDerivedColumns h).elim ?_ ?_)
    · exact fun hc => List.mem_append_left _ (hengine name hc)
    · exact fun hc => List.mem_append_right _ hc
  · exact List.mem_append_right _ h

theorem contextNames_notMem_columnNames {c : String} (hc : c ∈ contextNames) :
    c ∉ (primaryFeatures np df inputs).columnNames :=
  fun h => contextNames_notMem_primaryNames c hc (mem_primaryNames np df inputs h)

/-- The context is added as the context columns. -/
theorem addContext_eq (primary : Frame) (context : Option (List Candle)) : ∃ added,
    addContext np primary context = primary.assign added ∧ added.map Prod.fst = contextNames := by
  rcases context with _ | _ | _
  · exact ⟨_, rfl, rfl⟩
  · exact ⟨_, rfl, rfl⟩
  · exact ⟨_, rfl, rfl⟩

/-- The strategies' columns come after the context, under other names. -/
theorem column_assembleFeatures {c : String} (hc : c ∈ contextNames) :
    (assembleFeatures np df inputs).column c =
      (addContext np (primaryFeatures np df inputs) inputs.context).column c := by
  unfold assembleFeatures
  dsimp only
  split_ifs
  · exact column_assign_of_notMem (contextNames_notMem_strategies c hc)
  · rfl

/-- **Without a context** the context columns hold nothing. -/
theorem entry_of_no_context (h : inputs.context.getD [] = []) {c : String} (hc : c ∈ contextNames)
    (i : ℕ) : (assembleFeatures np df inputs).entry i c = none := by
  have hlookup : ∀ (v : Series) (names : List String), c ∈ names →
      (names.map fun n => (n, v)).lookup c = some v := by
    intro v names hmem
    induction names with
    | nil => cases hmem
    | cons n names ih =>
      rw [List.map_cons, List.lookup_cons]
      cases hbeq : c == n with
      | true => rfl
      | false => exact ih ((List.mem_cons.1 hmem).resolve_left (by simpa using hbeq))
  have hwithout : ∀ primary, addContext np primary inputs.context = withoutContext primary := by
    intro primary
    cases hcontext : inputs.context with
    | none => rfl
    | some context =>
      rw [hcontext] at h
      subst h
      rfl
  unfold Frame.entry
  rw [column_assembleFeatures np df inputs hc, hwithout, withoutContext,
    column_assign (contextNames_notMem_columnNames np df inputs hc), hlookup _ _ hc,
    Option.bind_some, List.getElem?_map]
  cases (primaryFeatures np df inputs).candles[i]? <;> rfl

theorem candles_primaryFeatures : (primaryFeatures np df inputs).candles = sortValues df :=
  candles_computeFeatures np inputs.fundingRates inputs.openInterest

end Columns

section Context

variable (np : Numpy) (df : List Candle) (inputs : FeatureInputs)

/-- The name of a context column that has no gaps. -/
def gaplessContext : String := "ctx_1h_ema20_above_ema50"

theorem gaplessContext_mem : gaplessContext ∈ contextNames := by decide +kernel

/-- The context column is the comparison of the means of the 1h frame. -/
theorem column_gaplessContext {c : Candle} {context : List Candle}
    (h : inputs.context = some (c :: context)) :
    (assembleFeatures np df inputs).column gaplessContext =
      some (contextColumn (primaryFeatures np df inputs)
        (computeFeatures np (c :: context) none none) "ema20_above_ema50") := by
  rw [column_assembleFeatures np df inputs gaplessContext_mem, h]
  unfold addContext mergeContextTimeframe
  rw [column_assign (contextNames_notMem_columnNames np df inputs gaplessContext_mem)]
  simp [context1hColumns, contextPrefix, gaplessContext, List.lookup_cons]

/-- A column without NaN is known at a time as soon as it has a row at or before it. -/
theorem isSome_asof_timed {context : Frame} {values : Series} (hvalues : ∀ v ∈ values, v.isSome)
    (hlength : context.candles.length ≤ values.length) (time : Datetime) :
    (asof (timed context values) time).join.isSome ↔ ∃ c ∈ context.candles, c.timestamp ≤ time := by
  have htimes : (timed context values).map Prod.fst = context.candles.map Candle.timestamp :=
    List.map_fst_zip (by simpa using hlength)
  have hjoin : (asof (timed context values) time).join.isSome ↔
      (asof (timed context values) time).isSome := by
    cases hasof : asof (timed context values) time with
    | none => simp
    | some v =>
      obtain ⟨e, he, rfl⟩ := mem_of_asof hasof
      simpa using hvalues e.2 (List.of_mem_zip he).2
  rw [hjoin, asof_isSome]
  constructor
  · rintro ⟨e, he, hle⟩
    obtain ⟨c, hc, hce⟩ := List.mem_map.1 (htimes ▸ List.mem_map_of_mem he)
    exact ⟨c, hc, hce ▸ hle⟩
  · rintro ⟨c, hc, hle⟩
    have hmem : c.timestamp ∈ (timed context values).map Prod.fst :=
      htimes ▸ List.mem_map_of_mem hc
    obtain ⟨e, he, hec⟩ := List.mem_map.1 hmem
    exact ⟨e, he, hec ▸ hle⟩

/-- **What the context says of a bar**: a comparison of means is known as soon as the 1h frame has a
candle at or before the bar. -/
theorem entry_gaplessContext {i : ℕ} {bar : Candle} (hbar : (sortValues df)[i]? = some bar) :
    ((assembleFeatures np df inputs).entry i gaplessContext).isSome ↔
      ∃ c ∈ inputs.context.getD [], c.timestamp ≤ bar.timestamp := by
  by_cases hempty : inputs.context.getD [] = []
  · rw [entry_of_no_context np df inputs hempty gaplessContext_mem, hempty]
    simp
  · obtain ⟨c, context, hcontext⟩ : ∃ c context, inputs.context = some (c :: context) := by
      cases hinputs : inputs.context with
      | none => simp [hinputs] at hempty
      | some context =>
        obtain ⟨c, rest, rfl⟩ := List.exists_cons_of_ne_nil (by simpa [hinputs] using hempty)
        exact ⟨c, rest, rfl⟩
    have hcandles : (computeFeatures np (c :: context) none none).candles =
        sortValues (c :: context) := candles_computeFeatures np none none
    unfold Frame.entry
    rw [column_gaplessContext np df inputs hcontext, contextColumn,
      column_ema20_above_ema50 np none none (List.cons_ne_nil c context)]
    dsimp only
    rw [Option.bind_some, List.getElem?_map, candles_primaryFeatures, hbar, Option.map_some,
      Option.join_some, isSome_asof_timed (fun v hv => isSome_of_mem_compareColumns hv), hcandles,
      hcontext]
    · simp [sortValues]
    · rw [hcandles, length_compareColumns, (causal_ema 20).length, (causal_ema 50).length]
      simp

end Context

/-! ## Selections -/

/-- A selection has the columns of its groups that the frame has. -/
theorem mem_selectFeatures {df : Frame} {ablation : Ablation} {c : String} :
    c ∈ selectFeatures df ablation ↔
      c ∈ df.columnNames ∧
        ∃ group ∈ ablation.groups ++ [Group.context1h], c ∈ group.definition := by
  have hfold : ∀ (cs acc : List String),
      c ∈ cs.foldl (fun cols c => if c ∈ cols then cols else cols ++ [c]) acc ↔
        c ∈ acc ∨ c ∈ cs := by
    intro cs
    induction cs with
    | nil => simp
    | cons d cs ih =>
      intro acc
      rw [List.foldl_cons, ih]
      split_ifs with hd <;> grind
  unfold selectFeatures getFeatureGroup
  rw [hfold]
  grind

/-- The context columns are there in every feature set. -/
theorem contextNames_mem_columnNames (np : Numpy) (df : List Candle) (inputs : FeatureInputs)
    {c : String} (hc : c ∈ contextNames) : c ∈ (assembleFeatures np df inputs).columnNames := by
  have hcontext :
      c ∈ (addContext np (primaryFeatures np df inputs) inputs.context).columnNames := by
    obtain ⟨added, hadd, hnames⟩ := addContext_eq np (primaryFeatures np df inputs) inputs.context
    rw [hadd, columnNames_assign, hnames]
    exact List.mem_append_right _ hc
  unfold assembleFeatures
  dsimp only
  split_ifs
  · unfold assembleStrategyFeatures
    rw [columnNames_assign]
    exact List.mem_append_left _ hcontext
  · exact hcontext

/-- **Every selection has the context of the 1h frame.** -/
theorem context_mem_selectFeatures (np : Numpy) (df : List Candle) (inputs : FeatureInputs)
    (ablation : Ablation) {c : String} (hc : c ∈ contextNames) :
    c ∈ selectFeatures (assembleFeatures np df inputs) ablation :=
  mem_selectFeatures.2 ⟨contextNames_mem_columnNames np df inputs hc, Group.context1h,
    List.mem_append_right _ (List.mem_singleton_self _), hc⟩

end AlphaOne.ML

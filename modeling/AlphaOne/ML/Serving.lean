import AlphaOne.ML.Features

/-!
# Served features and training features

A model is trained on rows of the feature set of the full history, with the 1h context. To evaluate
a signal live, `enrich_signal_with_ai_evidence` assembles the feature set of the candles it has
loaded, without a context, and reads the same columns from the last row. Every selection has the
context columns, so a served row is never complete, and the model never sees the row it was trained
on (`not_servedAsTrained`).
-/

namespace AlphaOne.ML

open FeatureEngine Scheduler

/-- The row `enrich_signal_with_ai_evidence` reads from the frame it is given. -/
def servedRow (np : Numpy) (df : List Candle) (featureCols : List String) : List (Option ℚ) :=
  let assembled := assembleFeatures np df { includeStrategySignals := true }
  featureCols.map (assembled.entry (assembled.candles.length - 1))

/-- The row of a feature set that a model is trained on. -/
def trainingRow (np : Numpy) (history : List Candle) (inputs : FeatureInputs)
    (featureCols : List String) (t : ℕ) : List (Option ℚ) :=
  featureCols.map ((assembleFeatures np history inputs).entry t)

/-- What a row gives a model: `prepare_data` drops a row with a NaN, and the live evaluation does
not evaluate it. -/
def modelInput (row : List (Option ℚ)) : Option (List ℚ) := row.mapM id

/-- The vectors are the same numbers; a NaN is not equal to anything. -/
def SameVector (xs ys : List (Option ℚ)) : Prop := ∃ v : List ℚ, xs = v.map some ∧ ys = v.map some

/-- The columns that `select_features` chooses at training time. -/
def trainedColumns (np : Numpy) (history : List Candle) (inputs : FeatureInputs)
    (ablation : Ablation) : List String :=
  selectFeatures (assembleFeatures np history inputs) ablation

/-- The candles that the live engine has loaded at the bar `t` of a history. -/
def liveFrame (symbol timeframe : String) (history : List Candle) (t : ℕ) : List Candle :=
  loadRecentCandles (history.take (t + 1)) symbol timeframe defaultLookbackBars

section Rows

variable {np : Numpy} {df history : List Candle} {inputs : FeatureInputs}
  {featureCols : List String} {t : ℕ}

theorem modelInput_eq_none {row : List (Option ℚ)} (h : none ∈ row) : modelInput row = none := by
  induction row with
  | nil => cases h
  | cons x row ih =>
    rcases List.mem_cons.1 h with rfl | h
    · rfl
    · have hrest := ih h
      unfold modelInput at hrest ⊢
      rw [List.mapM_cons, hrest]
      cases x <;> rfl

theorem modelInput_eq_some {row : List (Option ℚ)} (h : none ∉ row) :
    ∃ x, modelInput row = some x := by
  induction row with
  | nil => exact ⟨[], rfl⟩
  | cons x row ih =>
    rw [List.mem_cons, not_or] at h
    obtain ⟨v, rfl⟩ := Option.ne_none_iff_exists'.1 (Ne.symm h.1)
    obtain ⟨xs, hxs⟩ := ih h.2
    refine ⟨v :: xs, ?_⟩
    unfold modelInput at hxs ⊢
    rw [List.mapM_cons, hxs]
    rfl

/-- A served row has a gap in every context column. -/
theorem none_mem_servedRow (h : gaplessContext ∈ featureCols) :
    none ∈ servedRow np df featureCols :=
  List.mem_map.2 ⟨gaplessContext, h, entry_of_no_context np df _ rfl gaplessContext_mem _⟩

/-- **Where the rows may agree**, gaps and all: before the first candle of the context. -/
theorem lt_of_servedRow_eq (hcol : gaplessContext ∈ featureCols) {bar : Candle}
    (hbar : (sortValues history)[t]? = some bar)
    (h : servedRow np df featureCols = trainingRow np history inputs featureCols t) :
    ∀ c ∈ inputs.context.getD [], bar.timestamp < c.timestamp := by
  intro c hc
  by_contra hle
  have hserved : _ = (assembleFeatures np history inputs).entry t gaplessContext :=
    List.map_inj_left.1 h gaplessContext hcol
  rw [entry_of_no_context np df _ rfl gaplessContext_mem] at hserved
  have hknown := (entry_gaplessContext np history inputs hbar).2 ⟨c, hc, not_lt.1 hle⟩
  rw [← hserved] at hknown
  cases hknown

theorem gaplessContext_mem_trainedColumns (ablation : Ablation) :
    gaplessContext ∈ trainedColumns np history inputs ablation :=
  context_mem_selectFeatures np history inputs ablation gaplessContext_mem

end Rows

/-- **A model is never evaluated on the row it would have been trained on.** Whatever the history,
the training inputs and the ablation, the served row is not the training row of the bar, and the
model is not evaluated on it at all. When gaps are counted as equal, the two rows can agree only
before the first candle of the 1h context, where training drops the row. -/
theorem not_servedAsTrained (np : Numpy) (symbol timeframe : String) (history : List Candle)
    (inputs : FeatureInputs) (ablation : Ablation) (t : ℕ) :
    let featureCols := trainedColumns np history inputs ablation
    let served := servedRow np (liveFrame symbol timeframe history t) featureCols
    let trained := trainingRow np history inputs featureCols t
    ¬SameVector served trained ∧ modelInput served = none ∧
      (served = trained → modelInput trained = none ∧
        ∀ bar ∈ (sortValues history)[t]?, ∀ c ∈ inputs.context.getD [],
          bar.timestamp < c.timestamp) := by
  intro featureCols served trained
  have hcol : gaplessContext ∈ featureCols := gaplessContext_mem_trainedColumns ablation
  have hgap : none ∈ served := none_mem_servedRow hcol
  refine ⟨?_, modelInput_eq_none hgap, fun heq => ⟨?_, fun bar hbar => ?_⟩⟩
  · rintro ⟨v, hv, -⟩
    rw [hv] at hgap
    obtain ⟨x, -, hx⟩ := List.mem_map.1 hgap
    cases hx
  · exact modelInput_eq_none (heq ▸ hgap)
  · exact lt_of_servedRow_eq hcol hbar heq

section Example

/-- A candle of the 4h frame. -/
def quietCandle (i : ℕ) : Candle where
  timestamp := Timedelta.hours (4 * i)
  timeframe := "4h"
  open_ := 100
  high := 101
  low := 99
  close := 100
  volume := 1

/-- A history that is one bar longer than the live lookback. -/
def quietHistory : List Candle := (List.range 251).map quietCandle

/-- A 1h context of one candle, at the start of the history. -/
def quietInputs : FeatureInputs where
  context := some [{ quietCandle 0 with timeframe := "1h" }]
  includeStrategySignals := true

theorem pairwise_quietHistory : quietHistory.Pairwise (·.timestamp < ·.timestamp) := by
  rw [quietHistory, List.pairwise_map]
  refine List.pairwise_lt_range.imp fun {i j} hij => ?_
  simp only [quietCandle, Timedelta.hours, Timedelta.minutes, Timedelta.seconds]
  lia

/-- No candle of the history is before the context. -/
theorem timestamp_nonneg_of_mem_quietHistory {bar : Candle} (h : bar ∈ quietHistory) :
    0 ≤ bar.timestamp := by
  obtain ⟨i, -, rfl⟩ := List.mem_map.1 h
  simp only [quietCandle, Timedelta.hours, Timedelta.minutes, Timedelta.seconds]
  lia

/-- **The served row is not the training row** of the last bar of a quiet history, even if gaps are
counted as equal. -/
theorem not_servedAsTrained_quiet :
    ¬∀ (np : Numpy) (history : List Candle) (inputs : FeatureInputs) (ablation : Ablation) (t : ℕ),
      defaultLookbackBars < history.length → t < history.length →
      history.Pairwise (·.timestamp < ·.timestamp) →
      servedRow np (liveFrame "BTC/USDT" "4h" history t)
          (trainedColumns np history inputs ablation) =
        trainingRow np history inputs (trainedColumns np history inputs ablation) t := by
  intro h
  have hlength : quietHistory.length = 251 := by simp [quietHistory]
  have hlookback : defaultLookbackBars < quietHistory.length := hlength ▸ by decide
  have ht : 250 < quietHistory.length := hlength ▸ by decide
  have hrows := h ⟨fun _ => none, fun _ => none⟩ quietHistory quietInputs .technicalOnly 250
    hlookback ht pairwise_quietHistory
  have hsorted : 250 < (sortValues quietHistory).length := by
    rwa [sortValues, List.length_insertionSort]
  have hbar := List.getElem?_eq_getElem hsorted
  have hlt := lt_of_servedRow_eq (gaplessContext_mem_trainedColumns .technicalOnly) hbar hrows _
    (List.mem_singleton_self _)
  have hmem : (sortValues quietHistory)[250] ∈ quietHistory :=
    (List.mem_insertionSort _).1 (List.getElem_mem hsorted)
  exact absurd hlt (not_lt.2 (timestamp_nonneg_of_mem_quietHistory hmem))

end Example

end AlphaOne.ML

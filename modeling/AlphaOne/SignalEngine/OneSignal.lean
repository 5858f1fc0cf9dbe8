import AlphaOne.Foundations.Interleaving
import AlphaOne.SignalEngine.LiveSignal

/-!
# One signal per candle

The writers of `signals` look whether a candle has its signal before they store one, and no unique
index backs the check: another writer may commit the same signal after the check has found nothing.
From then on the check itself raises, because it selects two rows where it expects one at most.

`one_signal_per_candle_iff` is the exact account of this: along a run of any writers each candle has
at most one signal of a strategy, and no check raises, if and only if every commit still finds what
its check has found.
-/

namespace AlphaOne.SignalEngine

open Foundations Scheduler

/-- Of the signals of one strategy for one candle at most one fires. -/
def OnePerCandle (signals : List Signal) : Prop := UniqueKey keyOf (signals.filter fires)

instance (signals : List Signal) : Decidable (OnePerCandle signals) :=
  inferInstanceAs (Decidable (((signals.filter fires).map keyOf).Nodup))

/-- The writer has ended because its duplicate check has found more than one row. -/
def WriterStage.Raised (stage : WriterStage) : Prop := stage = .ended (.error .multipleResultsFound)

/-- **The check of a draft still holds**: there is no signal yet where it goes. -/
def Vacant (d : Draft) (signals : List Signal) : Prop :=
  d.result.signalType ≠ .noTrade → ∀ s ∈ signals, fires s = true → keyOf s ≠ d.key

instance (d : Draft) (signals : List Signal) : Decidable (Vacant d signals) := by
  unfold Vacant
  infer_instance

/-- The condition on the next statement of a call: a commit that goes through finds the place of its
signal vacant. -/
def WriterCall.FindsVacant (s : SignalStore) (call : WriterCall) : Prop :=
  match call.stage with
  | .inserting draft loop =>
    (∀ t ∈ s.signals, t.signalId ≠ "SIG-" ++ call.uuidHex (persistedCount loop)) →
      Vacant draft s.signals
  | _ => True

instance (s : SignalStore) (call : WriterCall) : Decidable (call.FindsVacant s) :=
  match h : call.stage with
  | .inserting draft loop => decidable_of_iff
      ((∀ t ∈ s.signals, t.signalId ≠ "SIG-" ++ call.uuidHex (persistedCount loop)) →
        Vacant draft s.signals) (by simp [WriterCall.FindsVacant, h])
  | .start | .unpaused | .loadingDaily _ | .checking _ _ _ | .ended _ =>
    isTrue (by simp [WriterCall.FindsVacant, h])

/-! ## What a statement does to the signals -/

/-- A row that is added leaves one signal per candle exactly if its place was vacant. -/
theorem onePerCandle_append {signals : List Signal} (h : OnePerCandle signals) (d : Draft)
    (uuidHex : String) : OnePerCandle (signals ++ [d.row uuidHex]) ↔ Vacant d signals := by
  have hkey : keyOf (d.row uuidHex) = d.key := rfl
  have hfires : fires (d.row uuidHex) = true ↔ d.result.signalType ≠ .noTrade := by
    unfold fires Draft.row
    exact decide_eq_true_iff
  unfold OnePerCandle Vacant
  rw [List.filter_append]
  by_cases hd : d.result.signalType = .noTrade
  · have hnot : ¬fires (d.row uuidHex) = true := by rw [hfires, not_not]; exact hd
    rw [List.filter_cons_of_neg hnot, List.filter_nil, List.append_nil]
    exact iff_of_true h fun hne => absurd hd hne
  · rw [List.filter_cons_of_pos (hfires.2 hd), List.filter_nil]
    constructor
    · intro hu _ s hs hf hk
      have hmem : s ∈ signals.filter fires := List.mem_filter.2 ⟨hs, hf⟩
      unfold UniqueKey at hu
      rw [List.map_append, List.nodup_append] at hu
      exact hu.2.2 _ (List.mem_map_of_mem hmem) _ (by simp) (hk.trans hkey.symm)
    · intro hv
      refine h.append_singleton fun s hs => ?_
      obtain ⟨hs, hf⟩ := List.mem_filter.1 hs
      rw [hkey]
      exact hv hd s hs hf

/-- Where each candle has one signal at most, the check does not raise. -/
theorem check_ok {signals : List Signal} (h : OnePerCandle signals) (key : CandleKey) :
    ∃ b, signalAlreadyExistsForCandle key signals = .ok b := by
  unfold signalAlreadyExistsForCandle selectSignals
  cases hs : (signals.filter fires).filter fun s => keyOf s = key with
  | nil => exact ⟨false, rfl⟩
  | cons s rest =>
    have hmem : s ∈ (signals.filter fires).filter fun s => keyOf s = key := by simp [hs]
    obtain ⟨hin, hk⟩ := List.mem_filter.1 hmem
    have hone := UniqueKey.filter_key h hin
    rw [of_decide_eq_true hk] at hone
    rw [hone] at hs
    obtain ⟨-, rfl⟩ := List.cons.inj hs
    exact ⟨true, rfl⟩

/-- The loop over the registry raises nothing by itself. -/
theorem advance_not_raised (loop : RegistryLoop) (definitions : List StrategyDefinition) :
    ¬(advance loop definitions).Raised := by
  induction definitions with
  | nil => simp [advance, WriterStage.Raised]
  | cons d rest ih =>
    unfold advance
    dsimp only
    split
    · exact ih
    · split
      · split
        · exact ih
        · simp [WriterStage.Raised]
      · split
        · simp [WriterStage.Raised]
        · split
          · exact ih
          · split
            · exact ih
            · simp [WriterStage.Raised]

theorem begin_not_raised (writer : Writer) (s : SignalStore) : ¬(begin writer s).2.Raised := by
  unfold begin WriterStage.Raised
  cases writer <;> dsimp only <;> first | simp | (split <;> simp)

theorem begin_signals (writer : Writer) (s : SignalStore) :
    (begin writer s).1.signals = s.signals := by
  unfold begin
  cases writer <;> dsimp only <;> first | rfl | (split <;> rfl)

section

variable (engine : Strategies)

theorem afterLoadLive_cases (symbol timeframe : String) (feed : MarketFeed) (price : ℚ)
    (df : List Candle) (s : SignalStore) :
    ¬(afterLoadLive engine symbol timeframe feed price df s).2.Raised ∧
      (afterLoadLive engine symbol timeframe feed price df s).1.signals = s.signals := by
  unfold afterLoadLive WriterStage.Raised
  split
  · simp
  · split
    · simp
    · dsimp only
      split
      · simp
      · split <;> simp

theorem loadAndEvaluate_cases (writer : Writer) (s : SignalStore) :
    ¬(loadAndEvaluate engine writer s).2.Raised ∧
      (loadAndEvaluate engine writer s).1.signals = s.signals := by
  unfold loadAndEvaluate
  cases writer with
  | evaluateLiveBreakout symbol timeframe feed =>
    dsimp only
    split
    · simp [WriterStage.Raised]
    · exact afterLoadLive_cases engine symbol timeframe feed _ _ s
  | generateAndPersistSignal symbol timeframe strategy =>
    refine ⟨?_, rfl⟩
    dsimp only [afterLoadGenerate, WriterStage.Raised]
    split
    · simp
    · split
      · simp
      · split <;> simp
  | evaluateAllStrategies symbol timeframe daily =>
    refine ⟨?_, rfl⟩
    dsimp only [afterLoadAll]
    split
    · simp [WriterStage.Raised]
    · split
      · simp [WriterStage.Raised]
      · exact advance_not_raised _ _
  | storeCandles candles => simp [WriterStage.Raised]
  | setSignalGenerationPaused paused => simp [WriterStage.Raised]

theorem afterCheck_not_raised (draft : Option Draft) (loop : Option RegistryLoop) (b : Bool) :
    ¬(afterCheck draft loop (.ok b)).Raised := by
  unfold afterCheck
  dsimp only
  split
  · simp [WriterStage.Raised]
  · exact advance_not_raised _ _
  · simp [WriterStage.Raised]

theorem afterInsert_not_raised (loop : Option RegistryLoop) {r : Except SignalFailure Signal}
    (h : r ≠ .error .multipleResultsFound) : ¬(afterInsert loop r).Raised := by
  unfold afterInsert
  split
  · rename_i e
    simpa [WriterStage.Raised] using h
  · split
    · simp [WriterStage.Raised]
    · exact advance_not_raised _ _

/-- **What a statement does to the signals**: nothing, or it is a commit that goes through. -/
theorem move_signals (call : WriterCall) (s : SignalStore) :
    ((call.move engine s).1.signals = s.signals ∧
      ∀ draft loop, call.stage = .inserting draft loop →
        ∃ t ∈ s.signals, t.signalId = "SIG-" ++ call.uuidHex (persistedCount loop)) ∨
      ∃ draft loop, call.stage = .inserting draft loop ∧
        (∀ t ∈ s.signals, t.signalId ≠ "SIG-" ++ call.uuidHex (persistedCount loop)) ∧
        (call.move engine s).1.signals =
          s.signals ++ [draft.row (call.uuidHex (persistedCount loop))] := by
  unfold WriterCall.move
  cases hs : call.stage with
  | start => exact Or.inl ⟨begin_signals _ _, by simp⟩
  | unpaused => exact Or.inl ⟨(loadAndEvaluate_cases engine _ _).2, by simp⟩
  | loadingDaily loop => exact Or.inl ⟨rfl, by simp⟩
  | checking key draft loop => exact Or.inl ⟨rfl, by simp⟩
  | ended r => exact Or.inl ⟨rfl, by simp⟩
  | inserting draft loop =>
    by_cases htaken : ∃ t ∈ s.signals,
        t.signalId = (draft.row (call.uuidHex (persistedCount loop))).signalId
    · refine Or.inl ⟨by simp only [persistNewSignal, if_pos htaken], ?_⟩
      intro draft' loop' heq
      obtain ⟨rfl, rfl⟩ := WriterStage.inserting.inj heq
      exact htaken
    · refine Or.inr ⟨draft, loop, rfl, ?_, by simp only [persistNewSignal, if_neg htaken]⟩
      push Not at htaken
      exact htaken

/-- A statement does not raise where each candle has one signal at most. -/
theorem move_not_raised {call : WriterCall} {s : SignalStore} (h : OnePerCandle s.signals)
    (hcall : ¬call.stage.Raised) : ¬(call.move engine s).2.stage.Raised := by
  unfold WriterCall.move
  cases hs : call.stage with
  | start => exact begin_not_raised _ _
  | unpaused => exact (loadAndEvaluate_cases engine _ _).1
  | loadingDaily loop => exact advance_not_raised _ _
  | checking key draft loop =>
    obtain ⟨b, hb⟩ := check_ok h key
    simp only [hb]
    exact afterCheck_not_raised draft loop b
  | inserting draft loop =>
    refine afterInsert_not_raised loop ?_
    unfold persistNewSignal
    dsimp only
    split <;> simp
  | ended r => rwa [hs] at hcall

/-! ## Any number of calls -/

/-- The calls of a list of writers, none of them begun. -/
def writerCalls (writers : List (Writer × (ℕ → String))) : List WriterCall :=
  writers.map fun w => { writer := w.1, uuidHex := w.2 }

theorem move_onePerCandle_iff {call : WriterCall} {s : SignalStore} (h : OnePerCandle s.signals) :
    OnePerCandle (call.move engine s).1.signals ↔ call.FindsVacant s := by
  rcases move_signals engine call s with ⟨heq, htaken⟩ | ⟨draft, loop, hstage, hfree, heq⟩
  · rw [heq]
    refine iff_of_true h ?_
    unfold WriterCall.FindsVacant
    cases hs : call.stage with
    | inserting draft loop =>
      intro hfree
      obtain ⟨t, ht, hid⟩ := htaken draft loop hs
      exact absurd hid (hfree t ht)
    | start | unpaused | loadingDaily | checking | ended => trivial
  · rw [heq, onePerCandle_append h]
    simp only [WriterCall.FindsVacant, hstage]
    exact ⟨fun hv _ => hv, fun hv => hv hfree⟩

theorem writerCalls_stable : Stable (WriterCall.move engine)
    (fun s => OnePerCandle s.signals) (fun _ call => ¬call.stage.Raised) (fun _ _ => True)
    (fun s call => call.FindsVacant s) where
  symm := by simp
  store _ _ h _ hv := (move_onePerCandle_iff engine h).2 hv
  own _ _ h hcall _ := move_not_raised engine h hcall
  others _ _ _ _ _ _ hother _ := ⟨hother, trivial⟩

/-- **One signal per candle**, exactly: along any interleaving of any number of calls of the three
writers, with candles stored and the pause flag set in between, each candle has at most one signal
of a strategy and no duplicate check raises, if and only if every commit of a signal finds its place
as vacant as its check has. -/
theorem one_signal_per_candle_iff {s : SignalStore} (h : OnePerCandle s.signals)
    (writers : List (Writer × (ℕ → String))) (schedule : List ℕ) :
    Always (Pool.step (WriterCall.move engine))
        (fun c => OnePerCandle c.store.signals ∧ ∀ call ∈ c.procs, ¬call.stage.Raised)
        ⟨s, writerCalls writers⟩ schedule ↔
      Guarded (Pool.step (WriterCall.move engine)) (Pool.Meets fun s call => call.FindsVacant s)
        ⟨s, writerCalls writers⟩ schedule := by
  apply (writerCalls_stable engine).always_iff
  · exact fun c hc => ⟨hc.store, hc.procs⟩
  · intro c l₁ call l₂ hc _ hafter
    exact (move_onePerCandle_iff engine hc.store).1 hafter.1
  · refine ⟨h, ?_, List.pairwise_of_forall (by simp)⟩
    intro call hcall
    obtain ⟨w, -, rfl⟩ := List.mem_map.1 hcall
    simp [WriterStage.Raised]

end

/-! ## Two writers on one candle -/

/-- Sixty candles, four hours apart. -/
def sixtyCandles : List Candle :=
  (List.range 60).map fun i =>
    { timestamp := Timedelta.hours (4 * i), timeframe := "4h", open_ := 100, high := 101, low := 99,
      close := 100, volume := 1 }

/-- A breakout that the baseline strategy sees on every frame. -/
def breakout : StrategySignal :=
  { signalType := .long, entryPrice := some 100, stopLoss := some 90, takeProfit1 := some 120,
    strategyName := baselineName }

/-- The baseline strategy, in the registry as well. -/
def baselineOnly : Strategies :=
  { baseline := fun _ => breakout
    registry := [⟨"S05_DONCHIAN_ADX_4H", "4h", .productionEligible, .single fun _ => breakout⟩]
    detectRegime := fun _ => "UNCERTAIN" }

/-- The API call and two ticks of the scheduled job, on the same candle. -/
def threeWriters : List WriterCall :=
  writerCalls
    [(.generateAndPersistSignal "BTC/USDT" "4h" baselineOnly.baseline, fun _ => "00000000000A"),
     (.evaluateAllStrategies "BTC/USDT" "4h" none, fun _ => "00000000000B"),
     (.evaluateAllStrategies "BTC/USDT" "4h" none, fun _ => "00000000000C")]

/-- The calls one after another: the first stores the signal, the others find it. -/
theorem one_signal_per_candle_iff_in_turn :
    Always (Pool.step (WriterCall.move baselineOnly))
      (fun c => OnePerCandle c.store.signals ∧ ∀ call ∈ c.procs, ¬call.stage.Raised)
      ⟨{ candles := sixtyCandles }, threeWriters⟩ [0, 0, 0, 0, 1, 1, 1, 2, 2, 2] :=
  (one_signal_per_candle_iff baselineOnly (s := { candles := sixtyCandles }) (by decide) _ _).2
    (by decide +kernel)

/-- Two calls that both check before either commits leave two signals, and the next tick raises. -/
theorem overlapping_writers_duplicate :
    ¬ Always (Pool.step (WriterCall.move baselineOnly))
      (fun c => OnePerCandle c.store.signals ∧ ∀ call ∈ c.procs, ¬call.stage.Raised)
      ⟨{ candles := sixtyCandles }, threeWriters⟩ [0, 0, 0, 1, 1, 1, 0, 1, 2, 2, 2] := by
  intro h
  have hlast := h.last.1
  revert hlast
  decide +kernel

end AlphaOne.SignalEngine

import AlphaOne.SignalEngine.Geometry

/-!
# The live window and the full history

The live engine evaluates S06 on the last 250 candles it has loaded. A backtest, and the feature
column of the strategy, precompute the supertrend once over the whole history and decide at each bar
from the rows so far. The supertrend depends on its path: the window starts again with the direction
up and fresh bands, whatever the recursion over the history carries into it, and a window may never
forget that.

`live_agrees_iff` is the exact condition at a bar, on the states that the two recursions carry into
it.
-/

namespace AlphaOne.SignalEngine

open Foundations FeatureEngine Scheduler

/-! ## What the live engine loads -/

/-- The stored candles of a symbol and a timeframe, in the order of their timestamps. -/
structure IsHistory (symbol timeframe : String) (history : List Candle) : Prop where
  loaded : ∀ c ∈ history, IsLoaded symbol timeframe c
  inOrder : history.Pairwise (·.timestamp < ·.timestamp)

variable {symbol timeframe : String} {history : List Candle}

theorem IsHistory.take (h : IsHistory symbol timeframe history) (k : ℕ) :
    IsHistory symbol timeframe (history.take k) :=
  ⟨fun c hc => h.loaded c (List.mem_of_mem_take hc), h.inOrder.sublist (List.take_sublist _ _)⟩

/-- Sorting a history by descending timestamps turns it round. -/
theorem insertionSort_descending (h : history.Pairwise (·.timestamp < ·.timestamp)) :
    history.insertionSort (fun a b => b.timestamp ≤ a.timestamp) = history.reverse := by
  induction history with
  | nil => rfl
  | cons c rest ih =>
    obtain ⟨hfirst, hrest⟩ := List.pairwise_cons.1 h
    have hlast : ∀ l : List Candle, (∀ d ∈ l, c.timestamp < d.timestamp) →
        l.orderedInsert (fun a b => b.timestamp ≤ a.timestamp) c = l ++ [c] := by
      intro l hl
      induction l with
      | nil => rfl
      | cons d l ih =>
        have hd : ¬d.timestamp ≤ c.timestamp := not_le.2 (hl d (by simp))
        rw [List.orderedInsert_cons, if_neg hd, ih fun e he => hl e (by simp [he])]
        rfl
    rw [List.insertionSort_cons, ih hrest, List.reverse_cons]
    exact hlast _ fun d hd => hfirst d (List.mem_reverse.1 hd)

/-- The candles of a history that are loaded are its last ones. -/
theorem loadRecentCandles_eq (h : IsHistory symbol timeframe history) (limit : ℕ) :
    loadRecentCandles history symbol timeframe limit =
      history.drop (history.length - limit) := by
  have hall : history.filter (IsLoaded symbol timeframe) = history :=
    List.filter_eq_self.2 fun c hc => by simpa using h.loaded c hc
  rw [loadRecentCandles, hall, insertionSort_descending h.inOrder, List.take_reverse,
    List.reverse_reverse]

/-! ## The three decisions -/

/-- The side of a decision; `NO_TRADE` when there is none. -/
def decisionType (raw : Option RawSignal) : SignalType :=
  (raw.map RawSignal.signalType).getD .noTrade

/-- `_SIGNAL_TO_INT`, with its default. -/
def signalToInt : SignalType → ℤ
  | .long => 1
  | .short => -1
  | _ => 0

/-- `compute_strategy_signal_series`, with its default `min_bars`. -/
def strategySignalSeries (s : StrategyPair) (df : List Candle) : List ℤ :=
  (List.range df.length).map fun i =>
    if i < 60 then 0 else signalToInt (decisionType (backtestDecision s df i))

/-- What S06 says live at the bar `t` of a history: the candles up to it are stored. -/
def liveDecision (symbol timeframe : String) (history : List Candle) (t : ℕ) : SignalType :=
  (s06.generate (loadRecentCandles (history.take (t + 1)) symbol timeframe
    defaultLookbackBars) []).signalType

/-- The live decision at the bar `t`, the one of the backtest and the feature column agree. -/
structure LiveAgrees (symbol timeframe : String) (history : List Candle) (t : ℕ) : Prop where
  backtest : liveDecision symbol timeframe history t =
    decisionType (backtestDecision s06Pair history t)
  column : (strategySignalSeries s06Pair history)[t]? =
    some (signalToInt (liveDecision symbol timeframe history t))

/-! ## When they agree -/

/-- After the frames `df` and `df'`, the candle `c` is a flip of the same direction, or of none. -/
structure TurnsAlike (df df' : List Candle) (c : Candle) : Prop where
  fires : Fires df c ↔ Fires df' c
  direction : Fires df c → (carried df).direction = (carried df').direction

instance (df df' : List Candle) (c : Candle) : Decidable (TurnsAlike df df' c) :=
  decidable_of_iff ((Fires df c ↔ Fires df' c) ∧
      (Fires df c → (carried df).direction = (carried df').direction))
    ⟨fun h => ⟨h.1, h.2⟩, fun h => ⟨h.fires, h.direction⟩⟩

theorem decisionType_decide (df : List Candle) (c : Candle) :
    decisionType (s06Pair.decide (df ++ [c])) =
      if Fires df c then flipSide (carried df).direction else .noTrade := by
  split_ifs with h
  · obtain ⟨a, b, -, -, hdecide⟩ := decide_of_fires h
    rw [hdecide]
    cases (carried df).direction <;> rfl
  · rw [decide_of_not_fires h]
    rfl

theorem turnsAlike_iff (df df' : List Candle) (c : Candle) :
    decisionType (s06Pair.decide (df ++ [c])) = decisionType (s06Pair.decide (df' ++ [c])) ↔
      TurnsAlike df df' c := by
  have hside : ∀ d : Direction, flipSide d ≠ .noTrade := by
    rintro (_ | _) <;> decide
  have hinj : ∀ d d' : Direction, flipSide d = flipSide d' ↔ d = d' := by
    rintro (_ | _) (_ | _) <;> decide
  rw [decisionType_decide, decisionType_decide]
  by_cases h : Fires df c <;> by_cases h' : Fires df' c
  · rw [if_pos h, if_pos h', hinj]
    exact ⟨fun hd => ⟨iff_of_true h h', fun _ => hd⟩, fun ha => ha.direction h⟩
  · rw [if_pos h, if_neg h']
    exact ⟨fun hd => absurd hd (hside _), fun ha => absurd (ha.fires.1 h) h'⟩
  · rw [if_neg h, if_pos h']
    exact ⟨fun hd => absurd hd.symm (hside _), fun ha => absurd (ha.fires.2 h') h⟩
  · rw [if_neg h, if_neg h']
    exact ⟨fun _ => ⟨iff_of_false h h', fun hf => absurd hf h⟩, fun _ => rfl⟩

/-- The candles before the bar `t` that are loaded with it. -/
def windowBefore (history : List Candle) (t : ℕ) : List Candle :=
  (history.take t).drop (t + 1 - defaultLookbackBars)

theorem signalType_generate_s06 (df : List Candle) :
    (s06.generate df []).signalType = decisionType (s06Pair.decide df) := by
  change (ruleBasedGenerate _ s06Pair df).signalType = _
  unfold ruleBasedGenerate
  cases s06Pair.decide df <;> rfl

theorem liveDecision_eq (hh : IsHistory symbol timeframe history) {t : ℕ} {c : Candle}
    (hc : history[t]? = some c) : liveDecision symbol timeframe history t =
      decisionType (s06Pair.decide (windowBefore history t ++ [c])) := by
  obtain ⟨ht, hget⟩ := List.getElem?_eq_some_iff.1 hc
  have hlength : (history.take (t + 1)).length = t + 1 := by
    rw [List.length_take]
    omega
  have htake : history.take (t + 1) = history.take t ++ [c] := by
    rw [List.take_succ_eq_append_getElem ht, hget]
  have hdrop : t + 1 - defaultLookbackBars ≤ (history.take t).length := by
    rw [List.length_take, defaultLookbackBars]
    omega
  rw [liveDecision, signalType_generate_s06, loadRecentCandles_eq (hh.take _), hlength, htake,
    List.drop_append_of_le_length hdrop]
  rfl

theorem backtestDecision_s06 {t : ℕ} {c : Candle} (hc : history[t]? = some c) :
    backtestDecision s06Pair history t = s06Pair.decide (history.take t ++ [c]) := by
  obtain ⟨ht, hget⟩ := List.getElem?_eq_some_iff.1 hc
  rw [backtestDecision_eq s06Pair_causal, List.take_succ_eq_append_getElem ht, hget]

/-- The feature column is the backtest's decision, after its first bars. -/
theorem strategySignalSeries_getElem? (s : StrategyPair) {t : ℕ} (ht : 60 ≤ t)
    (htl : t < history.length) : (strategySignalSeries s history)[t]? =
      some (signalToInt (decisionType (backtestDecision s history t))) := by
  rw [strategySignalSeries, List.getElem?_map, List.getElem?_range htl, Option.map_some,
    if_neg (not_lt.2 ht)]

/-- **At a bar beyond the window, the live decision, the backtest and the feature column agree
exactly when** the bar is a flip of the same direction, or of none, after the window and after the
history. -/
theorem live_agrees_iff (hh : IsHistory symbol timeframe history) {t : ℕ}
    (ht : defaultLookbackBars ≤ t) {c : Candle} (hc : history[t]? = some c) :
    LiveAgrees symbol timeframe history t ↔
      TurnsAlike (windowBefore history t) (history.take t) c := by
  have htl : t < history.length := (List.getElem?_eq_some_iff.1 hc).1
  have hmin : 60 ≤ t := le_trans (by decide) ht
  have hdecisions := turnsAlike_iff (windowBefore history t) (history.take t) c
  rw [← liveDecision_eq hh hc, ← backtestDecision_s06 hc] at hdecisions
  rw [← hdecisions]
  refine ⟨fun h => h.backtest, fun h => ⟨h, ?_⟩⟩
  rw [strategySignalSeries_getElem? s06Pair hmin htl, h]

/-! ## A window that never flips -/

/-- The candles of a frame at successive times, from the time `i` on. -/
def timed (i : ℕ) : List Candle → List Candle
  | [] => []
  | c :: df => { c with timestamp := Timedelta.hours (4 * i) } :: timed (i + 1) df

theorem timestamp_of_mem_timed {c : Candle} {i : ℕ} {df : List Candle} (hc : c ∈ timed i df) :
    Timedelta.hours (4 * i) ≤ c.timestamp := by
  induction df generalizing i with
  | nil => cases hc
  | cons d df ih =>
    rcases List.mem_cons.1 hc with rfl | hc
    · exact le_rfl
    · have hnext := ih hc
      simp only [Timedelta.hours, Timedelta.minutes, Timedelta.seconds] at hnext ⊢
      push_cast at hnext
      lia

theorem pairwise_timed (i : ℕ) (df : List Candle) :
    (timed i df).Pairwise (·.timestamp < ·.timestamp) := by
  induction df generalizing i with
  | nil => exact .nil
  | cons d df ih =>
    refine List.pairwise_cons.2 ⟨fun c hc => ?_, ih (i + 1)⟩
    have hnext := timestamp_of_mem_timed hc
    simp only [Timedelta.hours, Timedelta.minutes, Timedelta.seconds] at hnext ⊢
    push_cast at hnext
    lia

theorem isHistory_timed {i : ℕ} {df : List Candle}
    (h : ∀ c ∈ df, IsLoaded symbol timeframe c) : IsHistory symbol timeframe (timed i df) := by
  refine ⟨fun c hc => ?_, pairwise_timed i df⟩
  induction df generalizing i with
  | nil => cases hc
  | cons d df ih =>
    rcases List.mem_cons.1 hc with rfl | hc
    · exact h d (by simp)
    · exact ih (fun e he => h e (by simp [he])) hc

/-- A market that rests for longer than the window after its fall, and breaks out. -/
def longRest : List Candle := timed 0 (fallen 255 ++ [breakoutCandle])

/-- A market that falls within the window. -/
def shortRest : List Candle :=
  timed 0 (List.replicate 200 (flatCandle 200) ++ List.replicate 75 (flatCandle 100) ++
    [breakoutCandle])

theorem isHistory_longRest : IsHistory "BTC/USDT" "4h" longRest := by
  refine isHistory_timed fun c hc => ?_
  simp only [fallen, List.mem_append, List.mem_replicate, List.mem_singleton] at hc
  rcases hc with (⟨-, rfl⟩ | ⟨-, rfl⟩) | rfl <;> exact ⟨rfl, rfl, rfl⟩

theorem isHistory_shortRest : IsHistory "BTC/USDT" "4h" shortRest := by
  refine isHistory_timed fun c hc => ?_
  simp only [List.mem_append, List.mem_replicate, List.mem_singleton] at hc
  rcases hc with (⟨-, rfl⟩ | ⟨-, rfl⟩) | rfl <;> exact ⟨rfl, rfl, rfl⟩

/-- The candle that breaks out, at the bar 275. -/
def breakoutAt275 : Candle := { breakoutCandle with timestamp := Timedelta.hours (4 * 275) }

theorem live_agrees_shortRest : LiveAgrees "BTC/USDT" "4h" shortRest 275 :=
  (live_agrees_iff isHistory_shortRest (by decide) (c := breakoutAt275) (by decide +kernel)).2
    (by decide +kernel)

/-- The history is in a downtrend when the last candle breaks out, and the window is in the uptrend
it started with: the backtest buys, and the live engine does not. -/
theorem not_live_agrees_longRest : IsHistory "BTC/USDT" "4h" longRest ∧
    (∀ c ∈ longRest, ValidOhlc c) ∧ 275 < longRest.length ∧
    ¬LiveAgrees "BTC/USDT" "4h" longRest 275 := by
  refine ⟨isHistory_longRest, by decide +kernel, by decide +kernel, fun h => ?_⟩
  have hc : longRest[275]? = some breakoutAt275 := by decide +kernel
  have hagree := h.backtest
  rw [liveDecision_eq isHistory_longRest hc, backtestDecision_s06 hc] at hagree
  exact absurd hagree (by decide +kernel)

end AlphaOne.SignalEngine

import AlphaOne.Foundations.Replay
import AlphaOne.Paper.System

/-!
# Position management and the candle-by-candle replay

What should have happened to a paper position is decided by the candles of its symbol after its
entry: `replay` feeds them one by one to `process_candle`. The job shows only the newest candle,
to one of the two books, and to every position in it whatever its symbol.

A position changes only on the candles that touch it, its *hits* (`Hits`), so that the job and the
replay agree as long as every candle that would touch a position is shown to it and no other
candle that is shown touches it. `tick_replays` is that law over whole runs.
-/

namespace AlphaOne.Paper

open Foundations Journal Risk Scheduler TelegramSignals

namespace PaperPosition

variable {candle : Candle} {pos pos' : PaperPosition} {targets : List ℚ}

/-! ## A candle has no second effect -/

theorem next_target_of_reactTargets (hleft : pos.targetsLeft = targets)
    (h : (reactTargets candle targets pos).2 = some pos') :
    pos'.stopLoss = pos.stopLoss ∧ pos'.side = pos.side ∧
      ∀ target ∈ pos'.targetsLeft.head?, ¬pos'.TargetHit candle target := by
  induction targets generalizing pos with
  | nil =>
    cases h
    exact ⟨rfl, rfl, by simp [hleft]⟩
  | cons target rest ih =>
    unfold reactTargets at h
    split at h
    · rename_i hmiss
      cases h
      exact ⟨rfl, rfl, by simpa [hleft] using hmiss⟩
    · split at h
      · cases h
      · have hrest : (pos.afterSlice target).targetsLeft = rest := by
          change pos.targets.drop (pos.nextTargetIdx + 1) = rest
          rw [← List.tail_drop, ← targetsLeft, hleft, List.tail_cons]
        have hslice := ih hrest h
        exact hslice

/-- What a candle leaves of a position, it does not touch again. -/
theorem not_touched_of_react (h : (pos.react candle).2 = some pos') : ¬pos'.Touched candle := by
  unfold react at h
  split at h
  · cases h
  · rename_i hstop
    obtain ⟨hsl, hside, htarget⟩ := next_target_of_reactTargets rfl h
    rintro (hstop' | ⟨target, ht, hhit⟩)
    · exact hstop (by simpa [StopHit, hsl, hside] using hstop')
    · exact htarget target ht hhit

end PaperPosition

/-! ## The replay -/

/-- Candles fed one by one to `process_candle`. -/
def PaperTrader.processCandles : List Candle → PaperTrader → List PaperEvent × PaperTrader
  | [], t => ([], t)
  | c :: cs, t =>
    let (events, t) := t.processCandle c fun _ => 0
    let (more, t) := processCandles cs t
    (events ++ more, t)

/-- The events of a position that is fed the candles alone, without the trader's equity. -/
def replay (candles : List Candle) (pos : PaperPosition) : List PaperEvent :=
  ({ blank with positions := [pos] }.processCandles candles).1.map PaperEvent.bare

theorem processCandles_eq_feed {t : PaperTrader} {o : Option PaperPosition} {cs : List Candle}
    (hpositions : t.positions = o.toList) (hpaused : t.isPaused = false) :
    (t.processCandles cs).1.map PaperEvent.bare = (feed PaperPosition.react o cs).1 := by
  induction cs generalizing t o with
  | nil => simp [PaperTrader.processCandles]
  | cons c cs ih =>
    have hu : UniqueKey PaperPosition.tradeId t.positions := by
      rw [hpositions]
      cases o <;> simp [UniqueKey]
    obtain ⟨hevents, hpositions', -, hpaused'⟩ :=
      PaperTrader.processCandle_spec c (fun _ => 0) hu hpaused
    cases o with
    | none =>
      have hbook : (t.processCandle c fun _ => 0).2.positions = Option.toList none := by
        simpa [hpositions, PaperTrader.after] using hpositions'
      have hnone : (t.processCandle c fun _ => 0).1.map PaperEvent.bare = [] := by
        simpa [hpositions, PaperTrader.reactions] using hevents
      have hrest := ih hbook (hpaused'.trans hpaused)
      simp only [PaperTrader.processCandles, List.map_append, hnone, hrest, feed_none,
        List.append_nil]
    | some pos =>
      have hbook : (t.processCandle c fun _ => 0).2.positions = (pos.react c).2.toList := by
        rw [hpositions', hpositions, List.nil_append, Option.toList_some,
          PaperTrader.after_cons]
        simp [PaperTrader.after]
      have hfirst : (t.processCandle c fun _ => 0).1.map PaperEvent.bare = (pos.react c).1 := by
        simpa [hpositions, PaperTrader.reactions] using hevents
      have hrest := ih hbook (hpaused'.trans hpaused)
      simp only [PaperTrader.processCandles, List.map_append, hfirst, hrest, feed]

/-- The replay is the run of the position's own reactions. -/
theorem replay_eq_feed (candles : List Candle) (pos : PaperPosition) :
    replay candles pos = (feed PaperPosition.react (some pos) candles).1 :=
  processCandles_eq_feed rfl rfl

/-! ## The stored candles of a symbol -/

/-- The newest candle that a tick loads. -/
def newestCandle (candles : List Candle) (symbol timeframe : String) : Option Candle :=
  (loadRecentCandles candles symbol timeframe defaultLookbackBars).getLast?

/-- The stored valid candles of the symbol later than `entry` and up to `latest`, in time order. -/
def candlesAfter (candles : List Candle) (symbol timeframe : String) (entry latest : Datetime) :
    List Candle :=
  (candles.filter fun c => IsLoaded symbol timeframe c ∧ entry < c.timestamp ∧
    c.timestamp ≤ latest).insertionSort fun a b => a.timestamp ≤ b.timestamp

variable {candles : List Candle} {symbol timeframe : String} {entry latest : Datetime} {c d : Candle}

theorem newestCandle_of_shown (h : shownCandle candles symbol timeframe = some c) :
    newestCandle candles symbol timeframe = some c := by
  unfold shownCandle at h
  dsimp only at h
  split at h
  · cases h
  · exact h

theorem newestCandle_eq_head? (candles : List Candle) (symbol timeframe : String) :
    newestCandle candles symbol timeframe =
      ((candles.filter (IsLoaded symbol timeframe)).insertionSort
        fun a b => b.timestamp ≤ a.timestamp).head? := by
  rw [newestCandle, loadRecentCandles, List.getLast?_reverse]
  cases (candles.filter (IsLoaded symbol timeframe)).insertionSort
    fun a b => b.timestamp ≤ a.timestamp <;> simp [defaultLookbackBars]

/-- The newest candle is a loaded one, and none is later. -/
theorem newestCandle_spec (h : newestCandle candles symbol timeframe = some c) :
    c ∈ candles ∧ IsLoaded symbol timeframe c ∧
      ∀ d ∈ candles, IsLoaded symbol timeframe d → d.timestamp ≤ c.timestamp := by
  rw [newestCandle_eq_head?] at h
  have hmem : c ∈ candles.filter (IsLoaded symbol timeframe) := by
    rw [← List.mem_insertionSort fun a b : Candle => b.timestamp ≤ a.timestamp]
    exact List.mem_of_mem_head? h
  obtain ⟨hc, hloaded⟩ := List.mem_filter.1 hmem
  refine ⟨hc, by simpa using hloaded, fun d hd hdl => ?_⟩
  have hd' : d ∈ (candles.filter (IsLoaded symbol timeframe)).insertionSort
      fun a b => b.timestamp ≤ a.timestamp := by
    rw [List.mem_insertionSort, List.mem_filter]
    exact ⟨hd, by simpa using hdl⟩
  have hsorted := List.pairwise_insertionSort (fun a b : Candle => b.timestamp ≤ a.timestamp)
    (candles.filter (IsLoaded symbol timeframe))
  cases hl : (candles.filter (IsLoaded symbol timeframe)).insertionSort
      fun a b => b.timestamp ≤ a.timestamp with
  | nil => simp [hl] at h
  | cons first rest =>
    obtain rfl : first = c := by simpa [hl] using h
    rw [hl] at hsorted hd'
    rcases List.mem_cons.1 hd' with rfl | hd'
    · exact le_rfl
    · exact (List.pairwise_cons.1 hsorted).1 d hd'

theorem newestCandle_eq_none (h : newestCandle candles symbol timeframe = none) :
    ∀ d ∈ candles, ¬IsLoaded symbol timeframe d := by
  rw [newestCandle_eq_head?, List.head?_eq_none_iff] at h
  intro d hd hdl
  have : d ∈ (candles.filter (IsLoaded symbol timeframe)).insertionSort
      fun a b => b.timestamp ≤ a.timestamp := by
    rw [List.mem_insertionSort, List.mem_filter]
    exact ⟨hd, by simpa using hdl⟩
  simp [h] at this

theorem mem_candlesAfter : c ∈ candlesAfter candles symbol timeframe entry latest ↔
    c ∈ candles ∧ IsLoaded symbol timeframe c ∧ entry < c.timestamp ∧ c.timestamp ≤ latest := by
  simp [candlesAfter, List.mem_insertionSort]

/-- Under the unique index, candles of one symbol and timeframe differ in time. -/
theorem eq_of_timestamp (hu : UniqueKey Candle.key candles) (hc : c ∈ candles) (hd : d ∈ candles)
    (hcl : IsLoaded symbol timeframe c) (hdl : IsLoaded symbol timeframe d)
    (h : c.timestamp = d.timestamp) : c = d :=
  hu.eq_of_key hc hd (by rw [Candle.key, Candle.key, hcl.1, hcl.2.1, hdl.1, hdl.2.1, h])

theorem chronological_candlesAfter (hu : UniqueKey Candle.key candles) :
    Chronological Candle.timestamp (candlesAfter candles symbol timeframe entry latest) := by
  refine chronological_insertionSort ?_
  have hnodup : candles.Nodup := hu.of_map
  refine (List.nodup_map_iff_inj_on (hnodup.filter _)).2 fun c hc d hd h => ?_
  simp only [List.mem_filter, decide_eq_true_eq] at hc hd
  exact eq_of_timestamp hu hc.1 hd.1 hc.2.1 hd.2.1 h

end AlphaOne.Paper

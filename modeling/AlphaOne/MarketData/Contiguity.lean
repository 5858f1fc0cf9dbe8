import AlphaOne.Foundations.Run
import AlphaOne.MarketData.Completeness

/-!
# The contiguity of the stored history

`candle_ingestion_job` runs tick after tick, each a backfill of the last hours on an exchange that
has every candle of its window. A tick extends the stored history by the candles that follow it as
long as the window reaches back to it (`WithinReach`); a window that starts later leaves a hole,
which no later tick looks at. `ingestion_contiguous_iff`: the stored history is free of gaps
after every tick of a run if and only if every tick is within reach.
-/

namespace AlphaOne.MarketData

open Foundations

/-- A tick of the job: what it meets outside, and the market that answers it, which has every
candle of the window the job asks for. -/
structure Tick (symbol timeframe : String) (lookbackHours : ℕ) (origin : ℤ) where
  env : Environment
  market : Market symbol timeframe
  origin_eq : market.origin = origin
  honest : env.Honest market
  every : ∀ u, interval timeframe ∣ u - origin →
    env.utcnow 0 - Timedelta.hours lookbackHours ≤ u → u ≤ env.utcnow 0 →
    ∃ c ∈ market.history, c.timestamp = u

namespace Tick

variable {symbol timeframe : String} {lookbackHours : ℕ} {origin : ℤ}
  (tick : Tick symbol timeframe lookbackHours origin)

/-- The end of the window. -/
def end_ : ℤ := tick.env.utcnow 0

/-- The start of the window. -/
def start : ℤ := tick.env.utcnow 0 - Timedelta.hours lookbackHours

/-- The table of candles after a tick. -/
def step (candles : List Candle) (tick : Tick symbol timeframe lookbackHours origin) :
    List Candle :=
  (candleIngestionJob tick.env symbol timeframe lookbackHours ⟨candles, 0⟩).2.candles

/-- The window of the tick reaches back to the candle after the latest stored one, or no candle of
it has closed when the tick first looks at the clock. -/
def WithinReach (candles : List Candle) (tick : Tick symbol timeframe lookbackHours origin) :
    Prop :=
  tick.start < tick.end_ →
    (∀ v, Session.maxTimestamp ⟨candles, 0⟩ symbol timeframe = some v →
      tick.start ≤ v + interval timeframe) ∨
    ∀ c ∈ tick.market.history, tick.start ≤ c.timestamp → c.timestamp ≤ tick.end_ →
      ¬c.timestamp + interval timeframe ≤ tick.env.utcnow 1

end Tick

/-- The first point of a grid that is not before `a`. -/
theorem exists_first_point {I : ℤ} (hI : 0 < I) (origin a : ℤ) :
    ∃ g, I ∣ g - origin ∧ a ≤ g ∧ g < a + I := by
  refine ⟨a + (origin - a) % I, ?_, ?_, ?_⟩
  · have h := Int.emod_add_mul_ediv (origin - a) I
    refine ⟨-((origin - a) / I), ?_⟩
    rw [mul_neg]
    lia
  · have := Int.emod_nonneg (origin - a) hI.ne'
    lia
  · have := Int.emod_lt_of_pos (origin - a) hI
    lia

variable {symbol timeframe : String}

/-- A part of the history in which no candle has closed at the first look at the clock is not
stored. -/
theorem backfillRange_nothing {env : Environment} {m : Market symbol timeframe}
    (hm : env.Honest m) {pageLimit : ℕ} (hlimit : 0 < pageLimit) {since rangeEnd : ℤ} (s : Session)
    (hnone : ∀ c ∈ m.history, since ≤ c.timestamp → c.timestamp ≤ rangeEnd →
      ¬c.timestamp + interval timeframe ≤ env.utcnow s.turn) {u : ℤ} :
    u ∈ (backfillRange env symbol timeframe since rangeEnd pageLimit s).2.timestamps symbol
      timeframe ↔ u ∈ s.timestamps symbol timeframe := by
  by_cases hempty : inRange since rangeEnd (page OHLCV.timestamp since pageLimit m.history) = []
  · obtain ⟨cut, hswept, hgained, -⟩ := backfillLoop_spec hm.truthful hlimit rangeEnd 0 0 s
      (le_refl since) le_rfl
    rw [backfillRange, hgained u, or_iff_left]
    rintro ⟨c, hc, rfl, hle, hlt⟩
    exact absurd (hswept.bounded c hc hle hlt)
      (not_le.2 (lt_of_inRange_eq_nil hlimit le_rfl hempty hc hle))
  · have hcomplete : completeBy timeframe (env.utcnow s.turn) (inRange since rangeEnd
        (page OHLCV.timestamp since pageLimit m.history)) = [] := by
      refine List.eq_nil_iff_forall_not_mem.2 fun c hc => ?_
      obtain ⟨hpage, hend, hclosed⟩ := (mem_completeBy_page le_rfl).1 hc
      exact hnone c (page_sublist.subset hpage) (since_le_of_mem_page hpage) hend hclosed
    rw [backfillRange, backfillLoop]
    by_cases hlt : since < rangeEnd
    · simp only [dif_pos hlt, hm.fetch, if_neg hempty, hcomplete, List.getLast?_nil]
      exact Iff.rfl
    · simp only [dif_neg hlt]

namespace Tick

variable {lookbackHours : ℕ} {origin : ℤ} (tick : Tick symbol timeframe lookbackHours origin)
  (candles : List Candle)

/-- The candles of the market stand on the common grid. -/
theorem aligned {c : OHLCV} (hc : c ∈ tick.market.history) :
    interval timeframe ∣ c.timestamp - origin :=
  tick.origin_eq ▸ tick.market.aligned c hc

theorem every_window {u : ℤ} (hu : interval timeframe ∣ u - origin) (h1 : tick.start ≤ u)
    (h2 : u ≤ tick.end_) : ∃ c ∈ tick.market.history, c.timestamp = u :=
  tick.every u hu h1 h2

/-- The window does not reach back before the earliest stored candle. -/
def StartsInside (candles : List Candle) (tick : Tick symbol timeframe lookbackHours origin) :
    Prop :=
  ∀ v, Session.minTimestamp ⟨candles, 0⟩ symbol timeframe = some v →
    v < tick.start + interval timeframe

variable {tick candles}

/-- A tick whose window starts inside the history is its forward part. -/
theorem StartsInside.step_eq (h : StartsInside candles tick) :
    tick.step candles =
      if forwardStart symbol timeframe tick.start ⟨candles, 1⟩ < tick.end_ then
        (backfillRange tick.env symbol timeframe
          (forwardStart symbol timeframe tick.start ⟨candles, 1⟩) tick.end_ 1000
          ⟨candles, 1⟩).2.candles
      else candles := by
  have hhist : backfillHistorical tick.env symbol timeframe tick.start 1000 ⟨candles, 1⟩ =
      (some 0, ⟨candles, 1⟩) := by
    unfold backfillHistorical
    cases hv : Session.minTimestamp ⟨candles, 1⟩ symbol timeframe with
    | none => rfl
    | some v =>
      have hlt := h v hv
      dsimp only
      split
      · rw [backfillRange, backfillLoop, dif_neg (by lia)]
      · rfl
  have hjob : tick.step candles =
      (backfill tick.env symbol timeframe tick.start tick.end_ 1000 ⟨candles, 1⟩).2.candles := rfl
  rw [hjob, backfill, hhist]
  dsimp only
  split
  · split <;> simp_all
  · rfl

/-- **What a tick stores**, when its window starts inside the history: a stretch of the window
from the forward start on. -/
theorem StartsInside.step_spec (h : StartsInside candles tick) :
    ∃ cut, tick.market.Swept 1000 tick.end_ (tick.env.utcnow 1) True
        (forwardStart symbol timeframe tick.start ⟨candles, 0⟩) cut ∧
      ∀ u, u ∈ Session.timestamps ⟨tick.step candles, 0⟩ symbol timeframe ↔
        u ∈ Session.timestamps ⟨candles, 0⟩ symbol timeframe ∨ ∃ c ∈ tick.market.history,
          c.timestamp = u ∧ forwardStart symbol timeframe tick.start ⟨candles, 0⟩ ≤ u ∧ u < cut := by
  rw [h.step_eq]
  split
  · obtain ⟨cut, hswept, hgained, -⟩ := backfillLoop_spec tick.honest.truthful
      (by decide : 0 < 1000) tick.end_ 0 0 ⟨candles, 1⟩
      (le_refl (forwardStart symbol timeframe tick.start ⟨candles, 1⟩)) le_rfl
    exact ⟨cut, eq_true (backfillLoop_returns tick.honest _ _ _ 0 0 _) ▸ hswept, hgained⟩
  · rename_i hge
    exact ⟨_, .of_le (not_lt.1 hge), Gained.nothing rfl⟩

/-- Where nothing of the window has closed, nothing is stored. -/
theorem StartsInside.step_nothing (h : StartsInside candles tick)
    (hnone : ∀ c ∈ tick.market.history, tick.start ≤ c.timestamp → c.timestamp ≤ tick.end_ →
      ¬c.timestamp + interval timeframe ≤ tick.env.utcnow 1) (u : ℤ) :
    u ∈ Session.timestamps ⟨tick.step candles, 0⟩ symbol timeframe ↔
      u ∈ Session.timestamps ⟨candles, 0⟩ symbol timeframe := by
  have hfwd := le_forwardStart symbol timeframe tick.start ⟨candles, 1⟩
  rw [h.step_eq]
  split
  · exact backfillRange_nothing tick.honest (by decide) ⟨candles, 1⟩ fun c hc hle hend =>
      hnone c hc (by lia) hend
  · exact Iff.rfl

/-- The earliest stored candle stays within an interval of the window's start. -/
theorem StartsInside.step (hmin : StartsInside candles tick) :
    StartsInside (tick.step candles) tick := by
  have hI := interval_pos timeframe
  obtain ⟨cut, hcut, hmem⟩ := hmin.step_spec
  intro v hv
  obtain ⟨hvmem, hvmin⟩ := minTimestamp_eq_some hv
  cases hold : Session.minTimestamp ⟨candles, 0⟩ symbol timeframe with
  | some w =>
    have hw := (minTimestamp_eq_some hold).1
    have := hvmin w ((hmem w).2 (Or.inl hw))
    have := hmin w hold
    lia
  | none =>
    -- the first candle of the window is stored before any other
    obtain ⟨g, hg, hle, hlt⟩ := exists_first_point hI origin tick.start
    rcases (hmem v).1 hvmem with h | ⟨c, hc, rfl, h1, h2⟩
    · rw [timestamps_eq_nil hold] at h
      exact absurd h List.not_mem_nil
    · by_contra hge
      have hgc : g ≤ c.timestamp := by lia
      have hend := hcut.bounded c hc h1 h2
      obtain ⟨d, hd, rfl⟩ := tick.every_window hg hle (by lia)
      have hfwd : forwardStart symbol timeframe tick.start ⟨candles, 0⟩ = tick.start := by
        have hmax : Session.maxTimestamp ⟨candles, 0⟩ symbol timeframe = none := by
          rw [Session.maxTimestamp, timestamps_eq_nil hold]
          rfl
        simp only [forwardStart, hmax]
      have := hvmin d.timestamp ((hmem d.timestamp).2 (Or.inr ⟨d, hd, rfl, by lia, by lia⟩))
      lia

/-- **A tick within reach keeps the history free of gaps.** -/
theorem StartsInside.step_gapFree (hmin : StartsInside candles tick)
    (hs : GapFree symbol timeframe origin ⟨candles, 0⟩)
    (hreach : ∀ v, Session.maxTimestamp ⟨candles, 0⟩ symbol timeframe = some v →
      tick.start ≤ v + interval timeframe) :
    GapFree symbol timeframe origin ⟨tick.step candles, 0⟩ := by
  have hI := interval_pos timeframe
  obtain ⟨cut, hcut, hmem⟩ := hmin.step_spec
  have hstart := le_forwardStart symbol timeframe tick.start
    ⟨candles, 0⟩
  refine ⟨fun u hu => ?_, fun a ha b hb u hu hau hub => ?_⟩
  · rcases (hmem u).1 hu with h | ⟨c, hc, rfl, -⟩
    · exact hs.aligned u h
    · exact tick.aligned hc
  · by_cases hold : u < forwardStart symbol timeframe tick.start ⟨candles, 0⟩
    · -- before the forward start, the history was free of gaps up to its latest candle
      have ha' : a ∈ Session.timestamps ⟨candles, 0⟩ symbol timeframe := by
        rcases (hmem a).1 ha with h | ⟨c, -, rfl, h1, -⟩
        · exact h
        · lia
      cases hv : Session.maxTimestamp ⟨candles, 0⟩ symbol timeframe with
      | none =>
        rw [Session.maxTimestamp, List.max?_eq_none_iff] at hv
        rw [hv] at ha'
        exact absurd ha' List.not_mem_nil
      | some v =>
        have hvmem := (maxTimestamp_eq_some hv).1
        have hfwd : forwardStart symbol timeframe tick.start ⟨candles, 0⟩ ≤
            v + interval timeframe := by
          have := hreach v hv
          unfold forwardStart
          rw [hv]
          dsimp only
          split <;> lia
        have huv : u ≤ v := by
          by_contra hlt
          have := grid_succ_le (hs.aligned v hvmem) hu (not_le.1 hlt)
          lia
        exact (hmem u).2 (Or.inl (hs.contiguous a ha' v hvmem u hu hau huv))
    · -- from the forward start on, the market has every candle
      have hb' : ∃ c ∈ tick.market.history, c.timestamp = b ∧
          forwardStart symbol timeframe tick.start ⟨candles, 0⟩ ≤ b ∧ b < cut := by
        rcases (hmem b).1 hb with h | h
        · have := lt_forwardStart tick.start h
          lia
        · exact h
      obtain ⟨c, hc, rfl, h1, h2⟩ := hb'
      have hend := hcut.bounded c hc h1 h2
      obtain ⟨d, hd, rfl⟩ := tick.every_window hu (by lia) (by lia)
      exact (hmem _).2 (Or.inr ⟨d, hd, rfl, not_lt.1 hold, by lia⟩)

/-- The first candle of a window that a closed candle opens in is stored by a tick whose window
starts after the history. -/
theorem StartsInside.step_first (hmin : StartsInside candles tick)
    (hfwd : forwardStart symbol timeframe tick.start ⟨candles, 0⟩ = tick.start)
    (hwindow : tick.start < tick.end_) {c : OHLCV} (hc : c ∈ tick.market.history)
    (hstart : tick.start ≤ c.timestamp) (hend : c.timestamp ≤ tick.end_)
    (hclosed : c.timestamp + interval timeframe ≤ tick.env.utcnow 1) :
    ∃ g ∈ Session.timestamps ⟨tick.step candles, 0⟩ symbol timeframe, tick.start ≤ g := by
  have hI := interval_pos timeframe
  obtain ⟨cut, hcut, hmem⟩ := hmin.step_spec
  rw [hfwd] at hcut hmem
  obtain ⟨g, hg, hle, hlt⟩ := exists_first_point hI origin tick.start
  -- no candle of the window is before `g`
  have hfirst : ∀ d ∈ tick.market.history, tick.start ≤ d.timestamp → g ≤ d.timestamp := by
    intro d hd hsd
    by_contra hdg
    have := grid_succ_le (tick.aligned hd) hg (not_le.1 hdg)
    lia
  have hgc := hfirst c hc hstart
  obtain ⟨d, hd, rfl⟩ := tick.every_window hg hle (by lia)
  refine ⟨d.timestamp, (hmem _).2 (Or.inr ⟨d, hd, rfl, hle, ?_⟩), hle⟩
  refine hcut.complete trivial d hd hle (by lia) (by lia) ?_
  rintro ⟨heq, hb⟩
  rcases hb with hb | ⟨p, hp, hsp, hpe, -⟩
  · lia
  · have := hfirst p hp hsp
    lia

/-- **One tick**: it keeps the history free of gaps if and only if it is within reach. -/
theorem StartsInside.gapFree_iff (hmin : StartsInside candles tick)
    (hs : GapFree symbol timeframe origin ⟨candles, 0⟩) :
    GapFree symbol timeframe origin ⟨tick.step candles, 0⟩ ↔ tick.WithinReach candles := by
  constructor
  · intro hgap hwindow
    by_contra hnot
    push Not at hnot
    obtain ⟨⟨v, hv, hlt⟩, c, hc, hstart, hend, hclosed⟩ := hnot
    obtain ⟨hvmem, hvmax⟩ := maxTimestamp_eq_some hv
    have hfwd : forwardStart symbol timeframe tick.start ⟨candles, 0⟩ = tick.start := by
      unfold forwardStart
      rw [hv]
      dsimp only
      split <;> lia
    obtain ⟨g, hg, hle⟩ := hmin.step_first hfwd hwindow hc hstart hend hclosed
    obtain ⟨cut, -, hmem⟩ := hmin.step_spec
    -- the point after the latest stored candle is in the hole
    have hI := interval_pos timeframe
    have hnext : interval timeframe ∣ v + interval timeframe - origin := by
      have hd := Int.dvd_add (hs.aligned v hvmem) (Int.dvd_refl (interval timeframe))
      rwa [sub_add_eq_add_sub] at hd
    have hhole := hgap.contiguous v ((hmem v).2 (Or.inl hvmem)) g hg _ hnext (by lia) (by lia)
    rcases (hmem _).1 hhole with hold | ⟨d, -, -, h1, -⟩
    · have := hvmax _ hold
      lia
    · lia
  · intro hreach
    by_cases hwindow : tick.start < tick.end_
    · rcases hreach hwindow with h | h
      · exact hmin.step_gapFree hs h
      · have hsame := hmin.step_nothing h
        refine ⟨fun u hu => hs.aligned u ((hsame u).1 hu), fun a ha b hb u hu h1 h2 => ?_⟩
        exact (hsame u).2 (hs.contiguous a ((hsame a).1 ha) b ((hsame b).1 hb) u hu h1 h2)
    · have hsame : tick.step candles = candles := by
        have := le_forwardStart symbol timeframe tick.start
          ⟨candles, 1⟩
        rw [hmin.step_eq, if_neg (by lia)]
      rw [hsame]
      exact hs

end Tick

variable {lookbackHours : ℕ} {origin : ℤ}

/-- **Contiguity of the stored history.** From an empty store, along every run of ticks in the
order of time, the stored history is free of gaps after every tick if and only if every tick is
within reach of the history it finds. -/
theorem ingestion_contiguous_iff (ticks : List (Tick symbol timeframe lookbackHours origin))
    (horder : ticks.Pairwise fun a b => a.end_ ≤ b.end_) :
    Always Tick.step (fun candles => GapFree symbol timeframe origin ⟨candles, 0⟩) [] ticks ↔
      Guarded Tick.step (fun candles tick => tick.WithinReach candles) [] ticks := by
  have key : ∀ candles, (∀ tick ∈ ticks, Tick.StartsInside candles tick) →
      GapFree symbol timeframe origin ⟨candles, 0⟩ →
      (Always Tick.step (fun candles => GapFree symbol timeframe origin ⟨candles, 0⟩) candles
          ticks ↔
        Guarded Tick.step (fun candles tick => tick.WithinReach candles) candles ticks) := by
    induction ticks with
    | nil => exact fun _ _ hs => ⟨fun _ => trivial, fun _ => hs⟩
    | cons tick ticks ih =>
      intro candles hinside hs
      obtain ⟨hlater, horder⟩ := List.pairwise_cons.1 horder
      have hiff := (hinside tick (by simp)).gapFree_iff hs
      -- the windows of the later ticks start later
      have hinside' : ∀ tick' ∈ ticks, Tick.StartsInside (tick.step candles) tick' := by
        intro tick' htick' v hv
        have hlt := (hinside tick (by simp)).step v hv
        have hle : tick.start ≤ tick'.start :=
          Int.sub_le_sub_right (hlater tick' htick') (Timedelta.hours lookbackHours)
        lia
      constructor
      · rintro ⟨-, h⟩
        exact ⟨hiff.1 h.head, (ih horder _ hinside' h.head).1 h⟩
      · rintro ⟨hreach, h⟩
        exact ⟨hs, (ih horder _ hinside' (hiff.2 hreach)).2 h⟩
  refine key [] (fun tick _ v hv => ?_) (gapFree_empty origin)
  simp [Session.minTimestamp, Session.timestamps] at hv

section Example

/-- The `k`-th candle of four hours. -/
def fourHourCandle (k : ℤ) : OHLCV :=
  { timestamp := Timedelta.hours (4 * k)
    open_ := 1
    high := 1
    low := 1
    close := 1
    volume := 1
    timeframe := "4h"
    symbol := "BTC/USDT" }

/-- The seven candles of a day from the `k`-th on. -/
def dayMarket (k : ℕ) : Market "BTC/USDT" "4h" where
  history := (List.range 7).map fun i : ℕ => fourHourCandle (k + i)
  chronological := by
    refine List.pairwise_map.2 (List.pairwise_lt_range.imp fun {i j} hij => ?_)
    simp only [fourHourCandle, Timedelta.hours, Timedelta.minutes, Timedelta.seconds]
    lia
  origin := 0
  aligned := by
    intro c hc
    obtain ⟨i, -, rfl⟩ := List.mem_map.1 hc
    refine ⟨k + i, ?_⟩
    simp only [fourHourCandle, interval, timeframeToTimedelta, Option.getD_some, Timedelta.hours,
      Timedelta.minutes, Timedelta.seconds]
    lia
  labelled := by
    intro c hc
    obtain ⟨i, -, rfl⟩ := List.mem_map.1 hc
    exact ⟨rfl, rfl⟩

/-- The default job at the opening of the last candle of that day. -/
def dayTick (k : ℕ) : Tick "BTC/USDT" "4h" 24 0 where
  env :=
    { fetchOhlcv := fun _ _ _ since limit =>
        some (page OHLCV.timestamp since limit (dayMarket k).history)
      utcnow := fun _ => Timedelta.hours (4 * (k + 6)) }
  market := dayMarket k
  origin_eq := rfl
  honest := ⟨fun _ _ _ => rfl, fun _ _ _ => le_rfl⟩
  every := by
    rintro u ⟨q, hq⟩ h1 h2
    have hu : u = Timedelta.hours (4 * q) := by
      simp only [interval, timeframeToTimedelta, Option.getD_some, Timedelta.hours,
        Timedelta.minutes, Timedelta.seconds] at hq ⊢
      lia
    rw [hu] at h1 h2
    simp only [Timedelta.hours, Timedelta.minutes, Timedelta.seconds] at h1 h2
    refine ⟨fourHourCandle q, List.mem_map.2 ⟨(q - k).toNat, List.mem_range.2 (by lia), ?_⟩,
      hu.symm⟩
    congr 1
    lia

/-- After three days without a tick, the next tick leaves a hole. -/
theorem ingestion_leaves_hole :
    ¬Always Tick.step (fun candles => GapFree "BTC/USDT" "4h" 0 ⟨candles, 0⟩) []
      [dayTick 0, dayTick 19] := by
  intro h
  have hhole := h.last.contiguous (Timedelta.hours 20) (by decide +kernel) (Timedelta.hours 76)
    (by decide +kernel) (Timedelta.hours 24) (by decide +kernel) (by decide +kernel)
    (by decide +kernel)
  revert hhole
  decide +kernel

/-- Eight hours without a tick leave none. -/
theorem ingestion_contiguous_after_pause :
    Always Tick.step (fun candles => GapFree "BTC/USDT" "4h" 0 ⟨candles, 0⟩) []
      [dayTick 0, dayTick 2] := by
  refine (ingestion_contiguous_iff [dayTick 0, dayTick 2] (by simp; decide +kernel)).2
    ⟨fun _ => Or.inl fun v hv => ?_, fun _ => Or.inl fun v hv => ?_, trivial⟩
  · simp [Session.maxTimestamp, Session.timestamps] at hv
  · have hmax : Session.maxTimestamp ⟨Tick.step [] (dayTick 0), 0⟩ "BTC/USDT" "4h" =
        some (Timedelta.hours 20) := by decide +kernel
    rw [hmax] at hv
    obtain rfl := Option.some.inj hv
    decide +kernel

end Example

end AlphaOne.MarketData

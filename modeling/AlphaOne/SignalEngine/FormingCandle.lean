import AlphaOne.Foundations.Run
import AlphaOne.SignalEngine.LiveSignal
import Mathlib.Data.List.Sort
import Mathlib.Order.Bounds.Basic
import Mathlib.Order.Lattice

/-!
# The forming candle

`live_candle_aggregators` (`live_state.py`) holds an aggregator for every supported timeframe.
`get_candles` (`market.py`) feeds the one of the timeframe it is asked for, and the live breakout
job the one of four hours; an aggregator starts a new candle when a tick falls into another bucket
than the current one. When its ticks come in the order of time, the ticks of a bucket are a last
stretch of those seen so far, and the candle is their fold.

`total_seconds()` is taken as exact: until the year 2242 a float tells the microseconds apart.
-/

namespace AlphaOne.SignalEngine

open Foundations Scheduler

/-- The arguments of `on_tick`. -/
structure PriceTick where
  price : ℚ
  ts : Datetime
  deriving DecidableEq, Repr

/-! ## An aggregator and its ticks -/

/-- The first and last price of a candle, and its extreme ones, are those of a list of ticks. -/
structure FormingCandle.IsFold (c : FormingCandle) (ticks : List PriceTick) : Prop where
  opens : ∃ t, ticks.head? = some t ∧ c.open_ = t.price
  highest : IsGreatest {p | ∃ t ∈ ticks, t.price = p} c.high
  lowest : IsLeast {p | ∃ t ∈ ticks, t.price = p} c.low
  closes : ∃ t, ticks.getLast? = some t ∧ c.close = t.price
  counted : c.tickCount = ticks.length

namespace FormingCandle

/-- The prices of a list with one more tick. -/
theorem prices_concat (ticks : List PriceTick) (t : PriceTick) :
    {p | ∃ u ∈ ticks ++ [t], u.price = p} = insert t.price {p | ∃ u ∈ ticks, u.price = p} := by
  ext p
  constructor
  · rintro ⟨u, hu, rfl⟩
    rcases List.mem_append.1 hu with hu | hu
    · exact .inr ⟨u, hu, rfl⟩
    · exact .inl (by rw [List.mem_singleton.1 hu])
  · rintro (rfl | ⟨u, hu, rfl⟩)
    · exact ⟨t, by simp, rfl⟩
    · exact ⟨u, by simp [hu], rfl⟩

theorem IsFold.single (openTime : Datetime) (t : PriceTick) :
    ({ openTime := openTime, open_ := t.price, high := t.price, low := t.price
       close := t.price } : FormingCandle).IsFold [t] where
  opens := ⟨t, rfl, rfl⟩
  highest := by simp
  lowest := by simp
  closes := ⟨t, rfl, rfl⟩
  counted := rfl

/-- One more tick of the bucket. -/
theorem IsFold.concat {c : FormingCandle} {ticks : List PriceTick} (h : c.IsFold ticks)
    (t : PriceTick) :
    ({ c with
        high := max c.high t.price
        low := min c.low t.price
        close := t.price
        tickCount := c.tickCount + 1 } : FormingCandle).IsFold (ticks ++ [t]) where
  opens := by
    obtain ⟨first, hfirst, hopen⟩ := h.opens
    exact ⟨first, by simp [List.head?_append, hfirst], hopen⟩
  highest := by
    rw [prices_concat, max_comm]
    exact h.highest.insert t.price
  lowest := by
    rw [prices_concat, min_comm]
    exact h.lowest.insert t.price
  closes := ⟨t, by simp, rfl⟩
  counted := by simp [h.counted]

end FormingCandle

namespace LiveCandleAggregator

/-- `on_tick` for a list of ticks. -/
def feed (a : LiveCandleAggregator) (ticks : List PriceTick) : LiveCandleAggregator :=
  run (fun a t => (a.onTick t.price t.ts).2) a ticks

/-- The ticks of the bucket of a time. -/
def bucket (a : LiveCandleAggregator) (ts : Datetime) (ticks : List PriceTick) : List PriceTick :=
  ticks.filter fun t => a.bucketStart t.ts = a.bucketStart ts

variable {a : LiveCandleAggregator} {ticks : List PriceTick} {t : PriceTick}

@[simp] theorem feed_nil (a : LiveCandleAggregator) : a.feed [] = a := rfl

theorem feed_concat (a : LiveCandleAggregator) (ticks : List PriceTick) (t : PriceTick) :
    a.feed (ticks ++ [t]) = ((a.feed ticks).onTick t.price t.ts).2 :=
  run_append ..

@[simp] theorem intervalSeconds_feed (a : LiveCandleAggregator) (ticks : List PriceTick) :
    (a.feed ticks).intervalSeconds = a.intervalSeconds := by
  induction ticks using List.reverseRecOn with
  | nil => rfl
  | append_singleton ticks t ih =>
    rw [feed_concat]
    exact ih

theorem bucketStart_feed (a : LiveCandleAggregator) (ticks : List PriceTick) (ts : Datetime) :
    (a.feed ticks).bucketStart ts = a.bucketStart ts := by
  simp [bucketStart]

/-- A bucket starts at a multiple of the interval from the epoch on. -/
theorem bucketStart_spec (ha : 0 < a.intervalSeconds) (ts : Datetime) :
    Timedelta.seconds a.intervalSeconds ∣ a.bucketStart ts ∧ a.bucketStart ts ≤ ts ∧
      ts < a.bucketStart ts + Timedelta.seconds a.intervalSeconds := by
  have hpos : 0 < Timedelta.seconds a.intervalSeconds := by
    unfold Timedelta.seconds
    positivity
  refine ⟨Dvd.intro_left _ rfl, Int.ediv_mul_le _ hpos.ne', ?_⟩
  have hlt := Int.lt_ediv_add_one_mul_self ts hpos
  rw [add_mul, one_mul] at hlt
  exact hlt

/-- The times of a bucket are those from its start to the next one. -/
theorem bucketStart_eq_iff (ha : 0 < a.intervalSeconds) (u v : Datetime) :
    a.bucketStart u = a.bucketStart v ↔ a.bucketStart v ≤ u ∧
      u < a.bucketStart v + Timedelta.seconds a.intervalSeconds := by
  have hpos : 0 < Timedelta.seconds a.intervalSeconds := by
    unfold Timedelta.seconds
    positivity
  obtain ⟨-, hle, hlt⟩ := bucketStart_spec ha u
  constructor
  · rintro h
    exact h ▸ ⟨hle, hlt⟩
  · rintro ⟨hge, hbelow⟩
    have hindex : u / Timedelta.seconds a.intervalSeconds =
        v / Timedelta.seconds a.intervalSeconds :=
      (Int.ediv_eq_iff_of_pos hpos).2 ⟨hge, hbelow⟩
    rw [bucketStart, hindex]
    rfl

theorem bucketStart_mono (ha : 0 < a.intervalSeconds) {u v : Datetime} (h : u ≤ v) :
    a.bucketStart u ≤ a.bucketStart v := by
  have hpos : 0 < Timedelta.seconds a.intervalSeconds := by
    unfold Timedelta.seconds
    positivity
  exact mul_le_mul_of_nonneg_right (Int.ediv_le_ediv hpos h) hpos.le

/-- A tick in the bucket of the tick before it is the next one of that bucket. -/
theorem bucket_concat_of_eq {last : PriceTick}
    (h : a.bucketStart last.ts = a.bucketStart t.ts) :
    a.bucket t.ts (ticks ++ [t]) = a.bucket last.ts ticks ++ [t] := by
  simp [bucket, h]

/-- A tick in another bucket than the tick before it is the first one of its bucket. -/
theorem bucket_concat_of_ne (ha : 0 < a.intervalSeconds) {last : PriceTick}
    (hsorted : (ticks ++ [t]).Pairwise fun u v => u.ts ≤ v.ts)
    (hlast : ticks.getLast? = some last) (h : a.bucketStart last.ts ≠ a.bucketStart t.ts) :
    a.bucket t.ts (ticks ++ [t]) = [t] := by
  obtain ⟨before, rfl⟩ := List.getLast?_eq_some_iff.1 hlast
  obtain ⟨hbefore, -, hle⟩ := List.pairwise_append.1 hsorted
  have hlt : a.bucketStart last.ts < a.bucketStart t.ts :=
    lt_of_le_of_ne (bucketStart_mono ha (hle last (by simp) t (by simp))) h
  have hnone : a.bucket t.ts (before ++ [last]) = [] := by
    refine List.filter_eq_nil_iff.2 fun u hu => ?_
    have hule : u.ts ≤ last.ts := by
      rcases List.mem_append.1 hu with hu | hu
      · exact (List.pairwise_append.1 hbefore).2.2 u hu last (by simp)
      · rw [List.mem_singleton.1 hu]
    simpa using ((bucketStart_mono ha hule).trans_lt hlt).ne
  rw [bucket, List.filter_append, show (before ++ [last]).filter _ = [] from hnone]
  simp

/-- **The current candle is the fold of its bucket.** -/
theorem current_feed (ha : 0 < a.intervalSeconds) (hnew : a.current = none)
    (hsorted : (ticks ++ [t]).Pairwise fun u v => u.ts ≤ v.ts) :
    ∃ c, (a.feed (ticks ++ [t])).current = some c ∧ c.openTime = a.bucketStart t.ts ∧
      c.IsFold (a.bucket t.ts (ticks ++ [t])) := by
  induction ticks using List.reverseRecOn generalizing t with
  | nil =>
    refine ⟨{ openTime := a.bucketStart t.ts, open_ := t.price, high := t.price, low := t.price
              close := t.price }, ?_, rfl, ?_⟩
    · rw [feed_concat, feed_nil, onTick, hnew]
    · have hbucket : a.bucket t.ts ([] ++ [t]) = [t] := by simp [bucket]
      rw [hbucket]
      exact .single _ t
  | append_singleton ticks last ih =>
    obtain ⟨c, hcurrent, hopen, hfold⟩ := ih (List.pairwise_append.1 hsorted).1
    rw [feed_concat, onTick, hcurrent, bucketStart_feed]
    by_cases h : c.openTime ≠ a.bucketStart t.ts
    · -- the first tick of a new bucket
      rw [hopen] at h
      refine ⟨{ openTime := a.bucketStart t.ts, open_ := t.price, high := t.price, low := t.price
                close := t.price }, ?_, rfl, ?_⟩
      · simp [hopen, h]
      · rw [bucket_concat_of_ne ha hsorted List.getLast?_concat h]
        exact .single _ t
    · have heq : c.openTime = a.bucketStart t.ts := not_not.1 h
      refine ⟨{ c with
                high := max c.high t.price
                low := min c.low t.price
                close := t.price
                tickCount := c.tickCount + 1 }, by simp only [if_neg h], heq, ?_⟩
      rw [bucket_concat_of_eq (hopen.symm.trans heq)]
      exact hfold.concat t

/-- **The latest tick again** changes nothing but the number of ticks. -/
theorem onTick_again (ha : 0 < a.intervalSeconds) (hnew : a.current = none)
    (hsorted : (ticks ++ [t]).Pairwise fun u v => u.ts ≤ v.ts) {c : FormingCandle}
    (hc : (a.feed (ticks ++ [t])).current = some c) :
    ((a.feed (ticks ++ [t])).onTick t.price t.ts).1 =
      { c with tickCount := c.tickCount + 1 } := by
  obtain ⟨c', hcurrent, hopen, hfold⟩ := current_feed ha hnew hsorted
  obtain rfl : c' = c := Option.some.inj (hcurrent.symm.trans hc)
  have hmem : t ∈ a.bucket t.ts (ticks ++ [t]) := by simp [bucket]
  have hlast : (a.bucket t.ts (ticks ++ [t])).getLast? = some t := by simp [bucket]
  obtain ⟨u, hu, hclose⟩ := hfold.closes
  obtain rfl : t = u := Option.some.inj (hlast.symm.trans hu)
  have hhigh : max c'.high t.price = c'.high := max_eq_left (hfold.highest.2 ⟨t, hmem, rfl⟩)
  have hlow : min c'.low t.price = c'.low := min_eq_left (hfold.lowest.2 ⟨t, hmem, rfl⟩)
  rw [onTick, hcurrent, bucketStart_feed]
  simp [hopen, hhigh, hlow, hclose]

end LiveCandleAggregator

/-! ## The feeders -/

/-- `live_candle_aggregators`. -/
abbrev AggregatorRegistry := String → Option LiveCandleAggregator

/-- The registry of a process that has just started. -/
def liveCandleAggregators : AggregatorRegistry := fun timeframe =>
  (timeframeSeconds? timeframe).map fun seconds => { intervalSeconds := seconds }

/-- What may feed a tick to an aggregator. -/
inductive Feeder
  /-- A call of `get_candles`. -/
  | chart (symbol timeframe : String) (feed : MarketFeed)
  /-- A run of the live breakout job, which finds the tables as `store` has them. -/
  | breakout (engine : Strategies) (symbol timeframe : String) (feed : MarketFeed)
    (store : SignalStore)

/-- The arguments both feeders call `on_tick` with. -/
def MarketFeed.tick (feed : MarketFeed) (price : ℚ) : PriceTick :=
  { price, ts := feed.receivedAt.getD feed.utcnow }

theorem timeframeSeconds?_pos {timeframe : String} {seconds : ℤ}
    (h : timeframeSeconds? timeframe = some seconds) : 0 < seconds := by
  unfold timeframeSeconds? at h
  split at h <;> cases h <;> decide

namespace Feeder

/-- `get_candles`, as far as the forming candle. -/
def chartTick (symbol : String) (feed : MarketFeed) (a : LiveCandleAggregator) :
    LiveCandleAggregator :=
  match feed.lastPriceUsdt with
  | none => a
  | some price =>
    if symbol = "BTC/USDT" ∧ feed.isLive then
      (a.onTick price (feed.receivedAt.getD feed.utcnow)).2
    else a

/-- `evaluate_live_breakout` up to its tick, on the aggregator it is given. -/
def breakoutTick (engine : Strategies) (symbol timeframe : String) (feed : MarketFeed)
    (store : SignalStore) (a : LiveCandleAggregator) : LiveCandleAggregator :=
  let writer := Writer.evaluateLiveBreakout symbol timeframe feed
  match begin writer { store with aggregator := a } with
  | (s, .unpaused) => (loadAndEvaluate engine writer s).1.aggregator
  | (s, _) => s.aggregator

/-- The timeframe of the aggregator a feeder works with; the runner hands the one of four hours to
the breakout job. -/
def target : Feeder → String
  | chart _ timeframe _ => timeframe
  | breakout _ _ _ _ _ => "4h"

/-- What a feeder does to its aggregator. -/
def move : Feeder → LiveCandleAggregator → LiveCandleAggregator
  | chart symbol _ feed => chartTick symbol feed
  | breakout engine symbol timeframe feed store => breakoutTick engine symbol timeframe feed store

/-- One feeder has been at work. -/
def step (r : AggregatorRegistry) (f : Feeder) : AggregatorRegistry :=
  Function.update r f.target ((r f.target).map f.move)

/-- The tick a feeder hands over, if it gets that far. -/
def tick? : Feeder → Option PriceTick
  | chart symbol _ feed =>
    if symbol = "BTC/USDT" ∧ feed.isLive then feed.lastPriceUsdt.map feed.tick else none
  | breakout _ symbol timeframe feed store =>
    if isSignalGenerationPaused store = false ∧ feed.isLive ∧ minBarsRequired ≤
        (loadRecentCandles store.candles symbol timeframe defaultLookbackBars).length then
      feed.lastPriceUsdt.map feed.tick
    else none

/-- The ticks that the feeders hand to the aggregator of a timeframe. -/
def ticksOf (timeframe : String) (feeders : List Feeder) : List PriceTick :=
  feeders.filterMap fun f => if f.target = timeframe then f.tick? else none

theorem chartTick_eq (symbol timeframe : String) (feed : MarketFeed) (a : LiveCandleAggregator) :
    chartTick symbol feed a = a.feed (chart symbol timeframe feed).tick?.toList := by
  unfold chartTick tick?
  cases hprice : feed.lastPriceUsdt with
  | none => simp [hprice]
  | some price =>
    by_cases h : symbol = "BTC/USDT" ∧ feed.isLive
    · simp [h, hprice, LiveCandleAggregator.feed, MarketFeed.tick]
    · simp [h]

/-- With enough candles loaded, the live breakout hands its tick over. -/
theorem afterLoadLive_tick (engine : Strategies) (symbol timeframe : String) (feed : MarketFeed)
    (price : ℚ) (df : List Candle) (s : SignalStore) :
    (afterLoadLive engine symbol timeframe feed price df s).1.aggregator =
      if minBarsRequired ≤ df.length then (s.aggregator.onTick price (feed.tick price).ts).2
      else s.aggregator := by
  unfold afterLoadLive
  cases hlast : df.getLast? with
  | none =>
    have hlen : ¬minBarsRequired ≤ df.length := by
      rw [List.getLast?_eq_none_iff.1 hlast]
      decide
    rw [if_neg hlen]
  | some last =>
    by_cases hlen : minBarsRequired ≤ df.length
    · simp only [if_pos hlen, if_neg (not_lt.2 hlen), MarketFeed.tick]
      split
      · rfl
      · split <;> rfl
    · simp only [if_neg hlen, if_pos (not_le.1 hlen)]

theorem breakoutTick_eq (engine : Strategies) (symbol timeframe : String) (feed : MarketFeed)
    (store : SignalStore) (a : LiveCandleAggregator) :
    breakoutTick engine symbol timeframe feed store a =
      a.feed (breakout engine symbol timeframe feed store).tick?.toList := by
  unfold breakoutTick tick? begin
  dsimp only
  cases hprice : feed.lastPriceUsdt with
  | none => simp
  | some price =>
    have hpaused : isSignalGenerationPaused { store with aggregator := a } =
        isSignalGenerationPaused store := rfl
    rw [hpaused]
    by_cases hgate : isSignalGenerationPaused store = true ∨ feed.isLive = false
    · have hclosed : ¬(isSignalGenerationPaused store = false ∧ feed.isLive = true) := by
        rcases hgate with h | h <;> simp [h]
      have hnone : ¬(isSignalGenerationPaused store = false ∧ feed.isLive = true ∧
          minBarsRequired ≤
            (loadRecentCandles store.candles symbol timeframe defaultLookbackBars).length) :=
        fun h => hclosed ⟨h.1, h.2.1⟩
      rw [if_neg hnone, if_pos (hgate.imp_right .inl)]
      rfl
    · obtain ⟨hrun, hlive⟩ := not_or.1 hgate
      have hopen : ¬(isSignalGenerationPaused store = true ∨ feed.isLive = false ∨
          some price = none) := by
        rintro (h | h | h)
        exacts [hrun h, hlive h, nomatch h]
      rw [if_neg hopen]
      simp only [loadAndEvaluate, hprice, afterLoadLive_tick]
      by_cases hlen : minBarsRequired ≤
          (loadRecentCandles store.candles symbol timeframe defaultLookbackBars).length
      · simp [hrun, hlive, hlen, LiveCandleAggregator.feed, MarketFeed.tick]
      · simp [hlen]

/-- **A feeder hands over its tick, and does nothing else to the aggregator.** -/
theorem move_eq (f : Feeder) (a : LiveCandleAggregator) : f.move a = a.feed f.tick?.toList := by
  cases f with
  | chart symbol timeframe feed => exact chartTick_eq symbol timeframe feed a
  | breakout engine symbol timeframe feed store =>
    exact breakoutTick_eq engine symbol timeframe feed store a

/-- The aggregator of a timeframe has been fed the ticks handed to it. -/
theorem run_step (r : AggregatorRegistry) (feeders : List Feeder) (timeframe : String) :
    run step r feeders timeframe =
      (r timeframe).map fun a => a.feed (ticksOf timeframe feeders) := by
  induction feeders generalizing r with
  | nil => simp [ticksOf]
  | cons f feeders ih =>
    rw [run_cons, ih]
    by_cases htarget : f.target = timeframe
    · subst htarget
      have hticks : ticksOf f.target (f :: feeders) =
          f.tick?.toList ++ ticksOf f.target feeders := by
        cases htick : f.tick? <;> simp [ticksOf, htick]
      rw [step, Function.update_self, Option.map_map, hticks]
      congr 1
      funext a
      show (f.move a).feed _ = _
      rw [move_eq]
      exact (run_append ..).symm
    · rw [step, Function.update_of_ne (Ne.symm htarget)]
      simp [ticksOf, htarget]

/-- **The forming candle is the fold of its bucket**, whichever feeders were at work: after the tick
`t` the aggregator of a supported timeframe has a candle that opens where the bucket of `t` starts
and folds the ticks of that bucket; and the tick again changes none of its prices. -/
theorem forming_candle_is_fold (timeframe : String) (seconds : ℤ)
    (hsupported : timeframeSeconds? timeframe = some seconds) (feeders : List Feeder)
    (hsorted : (ticksOf timeframe feeders).Pairwise fun u v => u.ts ≤ v.ts) (t : PriceTick)
    (hlast : (ticksOf timeframe feeders).getLast? = some t) :
    ∃ a c, run step liveCandleAggregators feeders timeframe = some a ∧ a.current = some c ∧
      (Timedelta.seconds seconds ∣ c.openTime ∧ c.openTime ≤ t.ts ∧
        t.ts < c.openTime + Timedelta.seconds seconds) ∧
      c.IsFold ((ticksOf timeframe feeders).filter fun u =>
        c.openTime ≤ u.ts ∧ u.ts < c.openTime + Timedelta.seconds seconds) ∧
      (a.onTick t.price t.ts).1 = { c with tickCount := c.tickCount + 1 } := by
  obtain ⟨before, hticks⟩ := List.getLast?_eq_some_iff.1 hlast
  have hpos : 0 < seconds := timeframeSeconds?_pos hsupported
  obtain ⟨a, ha⟩ : ∃ a : LiveCandleAggregator, a = { intervalSeconds := seconds } := ⟨_, rfl⟩
  have hinterval : a.intervalSeconds = seconds := by rw [ha]
  have hnew : a.current = none := by rw [ha]
  rw [hticks] at hsorted ⊢
  obtain ⟨c, hcurrent, hopen, hfold⟩ :=
    LiveCandleAggregator.current_feed (hinterval ▸ hpos) hnew hsorted
  refine ⟨a.feed (before ++ [t]), c, ?_, hcurrent, ?_, ?_, ?_⟩
  · rw [run_step, hticks, liveCandleAggregators, hsupported, Option.map_some, Option.map_some, ha]
  · rw [hopen, ← hinterval]
    exact LiveCandleAggregator.bucketStart_spec (hinterval ▸ hpos) t.ts
  · have hbucket : a.bucket t.ts (before ++ [t]) = (before ++ [t]).filter fun u =>
        c.openTime ≤ u.ts ∧ u.ts < c.openTime + Timedelta.seconds seconds := by
      rw [hopen, ← hinterval]
      exact List.filter_congr fun u _ => decide_eq_decide.2
        (LiveCandleAggregator.bucketStart_eq_iff (hinterval ▸ hpos) u.ts t.ts)
    rw [← hbucket]
    exact hfold
  · exact LiveCandleAggregator.onTick_again (hinterval ▸ hpos) hnew hsorted hcurrent

/-- Four requests for the chart of one minute, two of them with the same tick: the last three fall
into the second minute. -/
theorem forming_candle_is_fold_of_charts :
    let feed (price : ℚ) (receivedAt : Datetime) : MarketFeed :=
      { isLive := true, lastPriceUsdt := some price, receivedAt := some receivedAt
        utcnow := receivedAt }
    let feeders : List Feeder :=
      [.chart "BTC/USDT" "1m" (feed 60000 (Timedelta.seconds 30)),
        .chart "BTC/USDT" "1m" (feed 60020 (Timedelta.seconds 70)),
        .chart "BTC/USDT" "1m" (feed 60020 (Timedelta.seconds 70)),
        .chart "BTC/USDT" "1m" (feed 59990 (Timedelta.seconds 80))]
    let t : PriceTick := ⟨59990, Timedelta.seconds 80⟩
    timeframeSeconds? "1m" = some 60 ∧
      ((ticksOf "1m" feeders).Pairwise fun u v => u.ts ≤ v.ts) ∧
      (ticksOf "1m" feeders).getLast? = some t ∧
      ∃ a c, run step liveCandleAggregators feeders "1m" = some a ∧ a.current = some c ∧
        (Timedelta.seconds 60 ∣ c.openTime ∧ c.openTime ≤ t.ts ∧
          t.ts < c.openTime + Timedelta.seconds 60) ∧
        c.IsFold ((ticksOf "1m" feeders).filter fun u =>
          c.openTime ≤ u.ts ∧ u.ts < c.openTime + Timedelta.seconds 60) ∧
        (a.onTick t.price t.ts).1 = { c with tickCount := c.tickCount + 1 } := by
  intro feed feeders t
  have hsorted : (ticksOf "1m" feeders).Pairwise fun u v => u.ts ≤ v.ts := by decide
  have hlast : (ticksOf "1m" feeders).getLast? = some t := by decide
  exact ⟨rfl, hsorted, hlast, forming_candle_is_fold "1m" 60 rfl feeders hsorted t hlast⟩

end Feeder

end AlphaOne.SignalEngine

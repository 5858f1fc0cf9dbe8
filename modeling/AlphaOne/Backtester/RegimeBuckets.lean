import AlphaOne.Backtester.Results
import AlphaOne.FeatureEngine.EngineCausality
import AlphaOne.Foundations.Grouping
import AlphaOne.SignalEngine.HighVolatility

/-!
# Trades by regime

`services/backtester/regime_analysis.py`: a trade is put into the regime of the last row that starts
at or before its entry. A trade is filled at the open of a bar, so that this row is the entry bar
itself, whose high, low and close are not known at the entry.

`regimeAt_eq` says what the row depends on, and `sameRegime_iff` when the bars that have closed by
the entry of a trade decide where it is put, whatever the entry bar will be (`KnownAtEntry`).
Whatever the regimes are, the buckets partition the trades (`buckets_partition`).
-/

namespace AlphaOne.Backtester

open Foundations FeatureEngine SignalEngine

/-- The key of a bucket. -/
inductive TradeRegime
  | unknown
  | detected (regime : Regime)
  deriving DecidableEq, Repr

def TradeRegime.value : TradeRegime → String
  | .unknown => "UNKNOWN"
  | .detected regime => regime.value

structure RegimeBucketStats where
  regime : String
  trades : ℕ
  winRate : ℚ
  totalPnl : ℚ
  profitFactor : ℚ
  averagePnl : ℚ
  deriving DecidableEq, Repr

/-- `timestamps.searchsorted(t, side="right")`, of times in order. -/
def searchsortedRight (timestamps : List Datetime) (t : Datetime) : ℕ := timestamps.countP (· ≤ t)

/-- The regime that a trade is put into. -/
def regimeAt (featureDf : Frame) (entryTime : Datetime) : TradeRegime :=
  let regimeSeries := detectRegimeSeries featureDf
  let timestamps := featureDf.candles.map Candle.timestamp
  let idx : ℤ := searchsortedRight timestamps entryTime - 1
  if idx < 0 then .unknown
  else
    match regimeSeries[idx.toNat]? with
    | none => .unknown
    | some regime => .detected regime

/-- The trades in their buckets. -/
def regimeBuckets (result : BacktestResult) (featureDf : Frame) :
    List (TradeRegime × List BacktestTrade) :=
  groupBy (fun trade => regimeAt featureDf trade.entryTime) result.trades

/-- The statistics of a bucket. -/
def bucketStats (regime : TradeRegime) (trades : List BacktestTrade) : RegimeBucketStats :=
  let pnls := trades.map BacktestTrade.pnl
  let winners := winnersOf pnls
  let grossLoss := grossLossOf (losersOf pnls)
  { regime := regime.value
    trades := trades.length
    winRate := if trades.isEmpty then 0 else roundTo (winners.length / trades.length * 100) 2
    totalPnl := roundTo pnls.sum 2
    profitFactor := if grossLoss > 0 then roundTo (winners.sum / grossLoss) 2 else 0
    averagePnl := if trades.isEmpty then 0 else roundTo (pnls.sum / trades.length) 2 }

/-- `bucket_trades_by_regime`. -/
def bucketTradesByRegime (result : BacktestResult) (featureDf : Frame) :
    List (TradeRegime × RegimeBucketStats) :=
  (regimeBuckets result featureDf).map fun b => (b.1, bucketStats b.1 b.2)

/-! ## The buckets -/

/-- A trade is in the bucket of a regime. -/
def PutInto (result : BacktestResult) (featureDf : Frame) (trade : BacktestTrade)
    (regime : TradeRegime) : Prop :=
  ∃ trades, (regime, trades) ∈ regimeBuckets result featureDf ∧ trade ∈ trades

variable {result : BacktestResult} {featureDf : Frame}

theorem putInto_iff {trade : BacktestTrade} {regime : TradeRegime} :
    PutInto result featureDf trade regime ↔
      trade ∈ result.trades ∧ regimeAt featureDf trade.entryTime = regime := by
  obtain ⟨keys, -, hkeys, heq⟩ :=
    groupBy_eq (fun trade : BacktestTrade => regimeAt featureDf trade.entryTime) result.trades
  rw [PutInto, regimeBuckets, heq]
  constructor
  · rintro ⟨trades, hmem, htrade⟩
    obtain ⟨key, -, hpair⟩ := List.mem_map.1 hmem
    obtain ⟨rfl, rfl⟩ := Prod.mk.inj hpair
    obtain ⟨hmem, hkey⟩ := List.mem_filter.1 htrade
    exact ⟨hmem, of_decide_eq_true hkey⟩
  · rintro ⟨hmem, rfl⟩
    exact ⟨_, List.mem_map.2 ⟨_, (hkeys _).2 (List.mem_map.2 ⟨trade, hmem, rfl⟩), rfl⟩,
      List.mem_filter.2 ⟨hmem, decide_eq_true rfl⟩⟩

/-- The buckets hold the trades of the result, each of them once, and their sizes and their P&L
before it is rounded add up to those of the result. -/
structure Partitions (result : BacktestResult) (featureDf : Frame) : Prop where
  trades : ((regimeBuckets result featureDf).flatMap Prod.snd).Perm result.trades
  count : ((bucketTradesByRegime result featureDf).map fun b => b.2.trades).sum =
    result.trades.length
  pnl : ((regimeBuckets result featureDf).map fun b => (b.2.map BacktestTrade.pnl).sum).sum =
    (result.trades.map BacktestTrade.pnl).sum

/-- **The buckets partition the trades**, whatever the features are. -/
theorem buckets_partition (result : BacktestResult) (featureDf : Frame) :
    Partitions result featureDf where
  trades := groupBy_perm _ _
  count := by
    have hcount := sum_groupBy (fun trade : BacktestTrade => regimeAt featureDf trade.entryTime)
      (fun _ => 1) result.trades
    rw [bucketTradesByRegime, List.map_map]
    simpa [bucketStats, regimeBuckets, Function.comp_def] using hcount
  pnl := sum_groupBy _ _ _

/-! ## The row of a trade -/

/-- The candles of a timeframe: in any order, each at least as long after the others as it lasts. -/
structure CandleFrame (length : Timedelta) where
  candles : List Candle
  apart : candles.Pairwise fun a b => length ≤ |b.timestamp - a.timestamp|

section Rows

variable (np : Numpy) (funding openInterest : Option (List Reading))

/-- The regime of the last of some rows. -/
def lastRegime (rows : List Candle) : TradeRegime :=
  if rows = [] then .unknown
  else .detected (detectRegime (computeFeatures np rows funding openInterest) (rows.length - 1))

theorem bind_take {xs : Option Series} {i k : ℕ} (hi : i < k) :
    (xs.map (List.take k)).bind (·[i]?) = xs.bind (·[i]?) := by
  cases xs with
  | none => rfl
  | some xs => exact List.getElem?_take_of_lt hi

theorem map_rolling_take (xs : Option Series) (k w : ℕ) (agg : List ℚ → ℚ) :
    (xs.map (List.take k)).map (rolling w agg) = (xs.map (rolling w agg)).map (List.take k) := by
  cases xs with
  | none => rfl
  | some xs => exact congrArg some ((causal_rolling w agg).take xs k)

/-- The regime of a row does not depend on later rows. -/
theorem detectRegime_take (df : Frame) {i k : ℕ} (hi : i < k) :
    detectRegime (df.take k) i = detectRegime df i := by
  have hvol : volRegime (df.take k) i = volRegime df i := by
    unfold volRegime atrRegime related
    simp only [column_take, map_rolling_take, bind_take hi]
    cases df.column "realized_vol_10" <;> cases df.column "realized_vol_50" <;>
      simp only [Option.map_some, Option.map_none, List.getElem?_take_of_lt hi]
  have htrend : trendRegime (df.take k) i = trendRegime df i := by
    unfold trendRegime passes related
    simp only [column_take, bind_take hi, Option.isSome_map]
  unfold detectRegime isPostLiquidation isBreakout isRanging passes related
  simp only [hvol, htrend, column_take, map_rolling_take, bind_take hi]

/-- **The row of a trade** is the last one of the bars that start at or before its entry. -/
theorem regimeAt_eq (df : List Candle) (entryTime : Datetime) :
    regimeAt (computeFeatures np df funding openInterest) entryTime =
      lastRegime np funding openInterest ((sortValues df).filter (·.timestamp ≤ entryTime)) := by
  have hsorted : (sortValues df).Pairwise fun a b => a.timestamp ≤ b.timestamp :=
    byKey_sorted Candle.timestamp df
  have hprefix : (sortValues df).Pairwise fun a b =>
      decide (b.timestamp ≤ entryTime) → decide (a.timestamp ≤ entryTime) :=
    hsorted.imp fun hab hb => decide_eq_true (hab.trans (of_decide_eq_true hb))
  have hcandles : (computeFeatures np df funding openInterest).candles = sortValues df :=
    candles_computeFeatures np funding openInterest
  set n := (sortValues df).countP (·.timestamp ≤ entryTime) with hn
  have hidx : searchsortedRight ((sortValues df).map Candle.timestamp) entryTime = n := by
    rw [searchsortedRight, List.countP_map]
    rfl
  have hle : n ≤ (sortValues df).length := List.countP_le_length
  rw [regimeAt, hcandles, filter_eq_take hprefix, hidx, ← hn]
  rcases Nat.eq_zero_or_pos n with hzero | hpos
  · rw [hzero, if_pos (by decide), lastRegime, if_pos (List.take_zero ..)]
  · have hlength : ((sortValues df).take n).length = n := by
      rw [List.length_take, Nat.min_eq_left hle]
    have hne : (sortValues df).take n ≠ [] := List.ne_nil_of_length_pos (by omega)
    have htoNat : ((n : ℤ) - 1).toNat = n - 1 := by omega
    have hrow : (detectRegimeSeries (computeFeatures np df funding openInterest))[n - 1]? =
        some (detectRegime (computeFeatures np df funding openInterest) (n - 1)) := by
      have hlt : n - 1 < (sortValues df).length := by omega
      simp [detectRegimeSeries, hcandles, hlt]
    rw [if_neg (by omega), htoNat, hrow, lastRegime, if_neg hne, hlength,
      computeFeatures_take np funding openInterest hne, detectRegime_take _ (by omega)]

end Rows

/-! ## What has closed at the entry -/

section Closed

variable {length : Timedelta} {f g : CandleFrame length} {entryTime : Datetime}

/-- The bars that have closed by a time, in time order. -/
def CandleFrame.closedBars (f : CandleFrame length) (t : Datetime) : List Candle :=
  (sortValues f.candles).filter (·.timestamp + length ≤ t)

/-- Two frames agree on the bars that have closed by a time. -/
def SameClosedBars (f g : CandleFrame length) (t : Datetime) : Prop :=
  ∀ c, c.timestamp + length ≤ t → (c ∈ f.candles ↔ c ∈ g.candles)

/-- A bar that has started and not closed, after the bars that have closed. -/
structure OpenAfter (length : Timedelta) (closed : List Candle) (t : Datetime) (c : Candle) :
    Prop where
  started : c.timestamp ≤ t
  stillOpen : t < c.timestamp + length
  after : ∀ p ∈ closed, p.timestamp + length ≤ c.timestamp

theorem CandleFrame.sorted (f : CandleFrame length) :
    (sortValues f.candles).Pairwise fun a b => a.timestamp + length ≤ b.timestamp :=
  byKey_apart f.apart

theorem SameClosedBars.closedBars_eq (hpos : 0 < length) (h : SameClosedBars f g entryTime) :
    f.closedBars entryTime = g.closedBars entryTime :=
  filter_byKey_congr Candle.timestamp (apart_ne hpos f.apart) (apart_ne hpos g.apart)
    fun c hc => h c (of_decide_eq_true hc)

/-- The bars that have started are those that have closed and possibly an open one. -/
theorem CandleFrame.started_eq (hpos : 0 < length) (f : CandleFrame length) (t : Datetime) :
    (sortValues f.candles).filter (·.timestamp ≤ t) = f.closedBars t ∨
      ∃ c, OpenAfter length (f.closedBars t) t c ∧
        (sortValues f.candles).filter (·.timestamp ≤ t) = f.closedBars t ++ [c] := by
  rcases filter_started (t := t) f.sorted (p := fun c => decide (c.timestamp ≤ t))
    (fun c _ hc => of_decide_eq_true hc) (fun c _ hc => decide_eq_true (by linarith)) with
    ⟨c, -, hstarted, hopen, heq⟩ | ⟨-, heq⟩
  · have hsorted : (f.closedBars t ++ [c]).Pairwise fun a b => a.timestamp + length ≤ b.timestamp :=
      heq ▸ f.sorted.filter _
    obtain ⟨-, -, hafter⟩ := List.pairwise_append.1 hsorted
    exact .inr ⟨c, ⟨of_decide_eq_true hstarted, hopen, fun p hp => hafter p hp c (by simp)⟩, heq⟩
  · exact .inl heq

/-- Bars in time order are a frame. -/
def CandleFrame.ofSorted (rows : List Candle)
    (h : rows.Pairwise fun a b => a.timestamp + length ≤ b.timestamp) : CandleFrame length where
  candles := rows
  apart := h.imp fun hab => (le_sub_iff_add_le'.2 hab).trans (le_abs_self _)

theorem sortValues_eq_self (hpos : 0 < length) {rows : List Candle}
    (h : rows.Pairwise fun a b => a.timestamp + length ≤ b.timestamp) : sortValues rows = rows :=
  List.Pairwise.insertionSort_eq
    (h.imp fun {a b} hab => show a.timestamp ≤ b.timestamp by linarith)

variable (np : Numpy) (funding openInterest : Option (List Reading))

/-- The regime of a trade in a frame that has only started bars. -/
theorem regimeAt_ofSorted (hpos : 0 < length) {rows : List Candle}
    (h : rows.Pairwise fun a b => a.timestamp + length ≤ b.timestamp)
    (hstarted : ∀ c ∈ rows, c.timestamp ≤ entryTime) :
    regimeAt (computeFeatures np (CandleFrame.ofSorted rows h).candles funding openInterest)
      entryTime = lastRegime np funding openInterest rows := by
  have hsame := sortValues_eq_self hpos h
  have hall : rows.filter (·.timestamp ≤ entryTime) = rows :=
    List.filter_eq_self.2 fun c hc => decide_eq_true (hstarted c hc)
  rw [regimeAt_eq, CandleFrame.ofSorted, hsame, hall]

/-- The regime is fixed by the bars that have closed: whatever bar is open, it is that of the last
one of these. -/
def FixedRegime (length : Timedelta) (closed : List Candle) (t : Datetime) : Prop :=
  ∀ c, OpenAfter length closed t c → lastRegime np funding openInterest (closed ++ [c]) =
    lastRegime np funding openInterest closed

theorem mem_closedBars {c : Candle} (h : c.timestamp + length ≤ entryTime) :
    c ∈ f.candles ↔ c ∈ f.closedBars entryTime := by
  rw [CandleFrame.closedBars, List.mem_filter, and_iff_left (decide_eq_true h)]
  exact (mem_byKey Candle.timestamp).symm

/-- The frame of the closed bars, and that of the closed bars with an open one, agree with the whole
frame on what has closed. -/
theorem fixedRegime_of_same (hpos : 0 < length)
    (h : ∀ g : CandleFrame length, SameClosedBars f g entryTime →
      regimeAt (computeFeatures np f.candles funding openInterest) entryTime =
        regimeAt (computeFeatures np g.candles funding openInterest) entryTime) :
    FixedRegime np funding openInterest length (f.closedBars entryTime) entryTime := by
  intro c hc
  have hclosed : ∀ b ∈ f.closedBars entryTime, b.timestamp + length ≤ entryTime := fun b hb =>
    of_decide_eq_true (List.mem_filter.1 hb).2
  have hsorted : (f.closedBars entryTime).Pairwise fun a b => a.timestamp + length ≤ b.timestamp :=
    f.sorted.filter _
  have hrows : (f.closedBars entryTime ++ [c]).Pairwise fun a b =>
      a.timestamp + length ≤ b.timestamp :=
    List.pairwise_append.2 ⟨hsorted, List.pairwise_singleton _ _, fun p hp b hb => by
      rw [List.mem_singleton.1 hb]
      exact hc.after p hp⟩
  have hwith := h (CandleFrame.ofSorted _ hrows) fun b hb => by
    have hne : b ≠ c := by
      rintro rfl
      exact absurd hb (not_le.2 hc.stillOpen)
    rw [mem_closedBars hb]
    simp [CandleFrame.ofSorted, hne]
  have hwithout := h (CandleFrame.ofSorted _ hsorted) fun b hb => mem_closedBars hb
  rw [regimeAt_ofSorted np funding openInterest hpos hrows] at hwith
  · rw [regimeAt_ofSorted np funding openInterest hpos hsorted] at hwithout
    · exact hwith.symm.trans hwithout
    · exact fun b hb => by linarith [hclosed b hb]
  · intro b hb
    rcases List.mem_append.1 hb with hb | hb
    · linarith [hclosed b hb]
    · rw [List.mem_singleton.1 hb]
      exact hc.started

/-- A fixed regime is the one that the closed bars give. -/
theorem FixedRegime.regimeAt_eq (hpos : 0 < length)
    (h : FixedRegime np funding openInterest length (f.closedBars entryTime) entryTime) :
    regimeAt (computeFeatures np f.candles funding openInterest) entryTime =
      lastRegime np funding openInterest (f.closedBars entryTime) := by
  rw [Backtester.regimeAt_eq]
  rcases f.started_eq hpos entryTime with heq | ⟨c, hc, heq⟩
  · rw [heq]
  · rw [heq]
    exact h c hc

/-- Before fifty rows every regime is uncertain, with or without the entry bar. -/
theorem fixedRegime_of_few {closed : List Candle} {t : Datetime} (hne : closed ≠ [])
    (hfew : closed.length < 49) : FixedRegime np funding openInterest length closed t := by
  intro c _
  have hlength : (closed ++ [c]).length = closed.length + 1 := by simp
  rw [lastRegime, lastRegime, if_neg hne, if_neg (by simp), detectRegime, detectRegime,
    if_pos (by omega), if_pos (by omega)]

/-- Where no bar has closed, the entry bar makes an unknown regime an uncertain one. -/
theorem not_fixedRegime_nil (hpos : 0 < length) (t : Datetime) :
    ¬FixedRegime np funding openInterest length [] t := by
  intro h
  have hbar := h { timestamp := t, timeframe := "1h", open_ := 1, high := 1, low := 1, close := 1
                   volume := 1 } ⟨le_rfl, by simpa using hpos, by simp⟩
  rw [lastRegime, lastRegime, if_neg (by simp), if_pos rfl] at hbar
  cases hbar

/-- The last closed row is in a high volatility that no further bar can end; or there are closed
bars but too few for a regime, so that the entry bar is not the fiftieth row either. -/
def KnownAtEntry (closed : List Candle) : Prop :=
  (1 ≤ closed.length ∧ closed.length ≤ 48) ∨
    (50 ≤ closed.length ∧ HighVolatility np closed ∧ StaysHigh np closed)

theorem lastRegime_eq_high_iff {np : Numpy} (hnp : AccurateSqrt np) {rows : List Candle}
    (hsorted : sortValues rows = rows) (hmany : 50 ≤ rows.length) :
    lastRegime np funding openInterest rows = .detected .highVolatility ↔
      HighVolatility np rows := by
  rw [lastRegime, if_neg (List.ne_nil_of_length_pos (by omega)), TradeRegime.detected.injEq,
    detectRegime_eq_highVolatility_iff funding openInterest hnp hsorted hmany]

/-- **Which closed bars fix the regime.** As some bar brings a high volatility about, the regime is
fixed only if it is one. -/
theorem fixedRegime_iff {np : Numpy} (hnp : AccurateSqrt np) (hpos : 0 < length)
    {closed : List Candle} {t : Datetime}
    (hsorted : closed.Pairwise fun a b => a.timestamp + length ≤ b.timestamp)
    (hclosed : ∀ p ∈ closed, p.timestamp + length ≤ t) :
    FixedRegime np funding openInterest length closed t ↔ KnownAtEntry np closed := by
  rcases List.eq_nil_or_concat closed with rfl | ⟨rows, p, rfl⟩
  · exact iff_of_false (not_fixedRegime_nil np funding openInterest hpos t) (by simp [KnownAtEntry])
  rw [List.concat_eq_append] at *
  rcases Nat.lt_or_ge (rows ++ [p]).length 49 with hfew | hmany
  · refine iff_of_true (fixedRegime_of_few np funding openInterest (by simp) hfew) (.inl ⟨?_, ?_⟩)
    · simp
    · omega
  have hopen : ∀ c : Candle, c.timestamp = t → OpenAfter length (rows ++ [p]) t c := by
    rintro c rfl
    exact ⟨le_rfl, by linarith, hclosed⟩
  have hwith : ∀ c, OpenAfter length (rows ++ [p]) t c →
      (lastRegime np funding openInterest (rows ++ [p] ++ [c]) = .detected .highVolatility ↔
        HighVolatility np (rows ++ [p] ++ [c])) := by
    intro c hc
    refine lastRegime_eq_high_iff funding openInterest hnp (sortValues_eq_self hpos ?_)
      (by rw [List.length_append, List.length_singleton]; omega)
    refine List.pairwise_append.2 ⟨hsorted, List.pairwise_singleton _ _, fun q hq b hb => ?_⟩
    rw [List.mem_singleton.1 hb]
    exact hc.after q hq
  obtain ⟨violent, htime, hviolent⟩ :=
    exists_highVolatility hnp (by omega : 33 ≤ (rows ++ [p]).length) t
  have hhigh := (hwith violent (hopen violent htime)).2 hviolent
  constructor
  · intro hfixed
    have hown := (hfixed violent (hopen violent htime)).symm.trans hhigh
    have hfifty : 50 ≤ (rows ++ [p]).length := by
      by_contra hnot
      rw [lastRegime, if_neg (by simp), detectRegime, if_pos (by omega)] at hown
      cases hown
    refine .inr ⟨hfifty, (lastRegime_eq_high_iff funding openInterest hnp
      (sortValues_eq_self hpos hsorted) hfifty).1 hown, ?_⟩
    refine (staysHigh_iff (by omega) t).2 fun c hc => (hwith c (hopen c hc)).1 ?_
    exact (hfixed c (hopen c hc)).trans hown
  · rintro (⟨-, hfew⟩ | ⟨hfifty, hown, hstays⟩)
    · omega
    intro c hc
    rw [(lastRegime_eq_high_iff funding openInterest hnp (sortValues_eq_self hpos hsorted) hfifty).2
      hown, hwith c hc]
    exact (staysHigh_iff (by omega) c.timestamp).1 hstays c rfl

/-- **When the regime of a trade is known at its entry**: the frames that agree with a frame on the
bars that have closed by the entry of a trade put it into the same regime if and only if these bars
make it known; and the buckets partition the trades anyway. -/
theorem sameRegime_iff {np : Numpy} (hnp : AccurateSqrt np) (hpos : 0 < length)
    (f : CandleFrame length) (result : BacktestResult) (trade : BacktestTrade)
    (htrade : trade ∈ result.trades) :
    Partitions result (computeFeatures np f.candles funding openInterest) ∧
    ((∀ g : CandleFrame length, SameClosedBars f g trade.entryTime → ∀ regime,
      PutInto result (computeFeatures np f.candles funding openInterest) trade regime ↔
        PutInto result (computeFeatures np g.candles funding openInterest) trade regime) ↔
      KnownAtEntry np (f.closedBars trade.entryTime)) := by
  have hput : ∀ g : CandleFrame length, (∀ regime,
      PutInto result (computeFeatures np f.candles funding openInterest) trade regime ↔
        PutInto result (computeFeatures np g.candles funding openInterest) trade regime) ↔
      regimeAt (computeFeatures np f.candles funding openInterest) trade.entryTime =
        regimeAt (computeFeatures np g.candles funding openInterest) trade.entryTime := by
    intro g
    simp only [putInto_iff, htrade, true_and]
    exact ⟨fun h => ((h _).1 rfl).symm, fun h regime => by rw [h]⟩
  have hfixed : FixedRegime np funding openInterest length (f.closedBars trade.entryTime)
      trade.entryTime ↔ KnownAtEntry np (f.closedBars trade.entryTime) :=
    fixedRegime_iff funding openInterest hnp hpos (f.sorted.filter _) fun b hb =>
      of_decide_eq_true (List.mem_filter.1 hb).2
  rw [← hfixed]
  simp only [hput]
  refine ⟨buckets_partition _ _, fixedRegime_of_same np funding openInterest hpos, ?_⟩
  intro hfixed g hg
  have hsame := hg.closedBars_eq hpos
  rw [hfixed.regimeAt_eq np funding openInterest hpos, hsame]
  rw [hsame] at hfixed
  exact (hfixed.regimeAt_eq np funding openInterest hpos).symm

end Closed

section Example

/-- A bar of an hour, with its highest price. -/
def hourBar (hour : ℕ) (high : ℚ) : Candle where
  timestamp := Timedelta.hours hour
  timeframe := "1h"
  open_ := 100
  high := high
  low := 99
  close := 100
  volume := 1

/-- Fifty hours, the last of them with a highest price of its own. -/
def fiftyHours (lastHigh : ℚ) : List Candle :=
  (List.range 49).map (hourBar · 101) ++ [hourBar 49 lastHigh]

/-- Roots to four places. No regime reads a logarithm. -/
def roots : Numpy where
  sqrt x :=
    if x < 0 then none else some (Nat.sqrt (x.num.toNat * x.den * 10 ^ 8) / (x.den * 10 ^ 4))
  log _ := none

theorem accurateSqrt_roots : AccurateSqrt roots where
  accurate x hx := by
    set n := x.num.toNat * x.den * 10 ^ 8 with hn
    have hroot : roots.sqrt x = some ((Nat.sqrt n : ℕ) / (x.den * 10 ^ 4) : ℚ) :=
      if_neg (not_lt.2 hx)
    have hden : (0 : ℚ) < (x.den * 10 ^ 4) ^ 2 := by positivity
    have hscale : x * (x.den * 10 ^ 4) ^ 2 = n := by
      have hnum : ((x.num.toNat : ℕ) : ℚ) = x * x.den := by
        rw [Rat.mul_den_eq_num, ← Int.cast_natCast, Int.toNat_of_nonneg (Rat.num_nonneg.2 hx)]
      rw [hn]
      push_cast
      rw [hnum]
      ring
    have hle : ((Nat.sqrt n : ℕ) : ℚ) ^ 2 ≤ n := by exact_mod_cast Nat.sqrt_le' n
    have hge : 99 / 100 * (n : ℚ) ≤ (Nat.sqrt n : ℕ) ^ 2 := by
      rcases Nat.eq_zero_or_pos (x.num.toNat * x.den) with hzero | hpos
      · rw [hn, hzero]
        simp
      · have hroot : 10 ^ 4 ≤ Nat.sqrt n := Nat.le_sqrt'.2 (by rw [hn]; omega)
        have hroot' : (10 : ℚ) ^ 4 ≤ Nat.sqrt n := by exact_mod_cast hroot
        have hlt : (n : ℚ) < (Nat.sqrt n + 1) ^ 2 := by exact_mod_cast Nat.lt_succ_sqrt' n
        nlinarith
    refine ⟨_, hroot, by positivity, ?_, ?_⟩
    · rw [div_pow, le_div_iff₀ hden, mul_assoc, hscale]
      exact hge
    · rw [div_pow, div_le_iff₀ hden, mul_assoc, hscale]
      linarith

/-- A frame whose last bar is open at the entry. -/
def entryFrame (lastHigh : ℚ) : CandleFrame (Timedelta.hours 1) where
  candles := fiftyHours lastHigh
  apart := by
    refine List.pairwise_append.2 ⟨?_, List.pairwise_singleton _ _, fun a ha b hb => ?_⟩
    · refine List.pairwise_map.2 (List.pairwise_lt_range.imp fun {i j} hij => ?_)
      refine le_trans ?_ (le_abs_self _)
      simp only [hourBar, Timedelta.hours, Timedelta.minutes, Timedelta.seconds]
      lia
    · obtain ⟨i, hi, rfl⟩ := List.mem_map.1 ha
      rw [List.mem_singleton.1 hb]
      have hlt := List.mem_range.1 hi
      refine le_trans ?_ (le_abs_self _)
      simp only [hourBar, Timedelta.hours, Timedelta.minutes, Timedelta.seconds]
      lia

/-- A trade that is filled at the open of a bar. -/
def filledAt (hour : ℕ) : BacktestTrade where
  tradeId := 1
  side := .long
  entryPrice := 100
  entryTime := Timedelta.hours hour

/-- The result of a run with one trade. -/
def resultOf (trade : BacktestTrade) : BacktestResult where
  trades := [trade]
  equityCurve := []
  initialCapital := 10000
  finalCapital := 10000

/-- **The entry bar decides**: the high that its hour will reach moves the trade from the ranging
bucket to that of a high volatility, and all bars that have closed by the entry are the same. -/
theorem entryFrame_regimes :
    SameClosedBars (entryFrame 101) (entryFrame 1000) (filledAt 49).entryTime ∧
    regimeAt (computeFeatures roots (entryFrame 101).candles none none) (filledAt 49).entryTime =
      .detected .ranging ∧
    regimeAt (computeFeatures roots (entryFrame 1000).candles none none) (filledAt 49).entryTime =
      .detected .highVolatility ∧
    ¬∀ (np : Numpy) (length : Timedelta) (f g : CandleFrame length) (result : BacktestResult),
      0 < length → ∀ trade ∈ result.trades, SameClosedBars f g trade.entryTime → ∀ regime,
        PutInto result (computeFeatures np f.candles none none) trade regime ↔
          PutInto result (computeFeatures np g.candles none none) trade regime := by
  have hsame : SameClosedBars (entryFrame 101) (entryFrame 1000) (filledAt 49).entryTime := by
    intro c hc
    have hne : ∀ high, c ≠ hourBar 49 high := by
      rintro high rfl
      have hopen : ¬Timedelta.hours 49 + Timedelta.hours 1 ≤ Timedelta.hours 49 := by decide
      exact hopen hc
    simp [entryFrame, fiftyHours, hne]
  have hranging : regimeAt (computeFeatures roots (entryFrame 101).candles none none)
      (filledAt 49).entryTime = .detected .ranging := by decide +kernel
  have hvolatile : regimeAt (computeFeatures roots (entryFrame 1000).candles none none)
      (filledAt 49).entryTime = .detected .highVolatility := by decide +kernel
  refine ⟨hsame, hranging, hvolatile, fun h => ?_⟩
  have hput := (h roots _ (entryFrame 101) (entryFrame 1000) (resultOf (filledAt 49)) (by decide)
    (filledAt 49) (by simp [resultOf]) hsame (.detected .ranging)).1
    (putInto_iff.2 ⟨by simp [resultOf], hranging⟩)
  rw [putInto_iff, hvolatile] at hput
  simp at hput

/-- Two hours into the history every bar that may be open leaves the regime as it is. -/
theorem sameRegime_secondHour :
    let f : CandleFrame (Timedelta.hours 1) :=
      CandleFrame.ofSorted [hourBar 0 101, hourBar 1 101] (by decide)
    Partitions (resultOf (filledAt 1)) (computeFeatures roots f.candles none none) ∧
      ∀ g : CandleFrame (Timedelta.hours 1), SameClosedBars f g (filledAt 1).entryTime → ∀ regime,
        PutInto (resultOf (filledAt 1)) (computeFeatures roots f.candles none none) (filledAt 1)
            regime ↔
          PutInto (resultOf (filledAt 1)) (computeFeatures roots g.candles none none) (filledAt 1)
            regime := by
  intro f
  have hknown : KnownAtEntry roots (f.closedBars (filledAt 1).entryTime) :=
    .inl (by decide +kernel)
  have hiff := sameRegime_iff none none accurateSqrt_roots (by decide : 0 < Timedelta.hours 1) f
    (resultOf (filledAt 1)) (filledAt 1) (by simp [resultOf])
  exact ⟨hiff.1, hiff.2.2 hknown⟩

end Example

end AlphaOne.Backtester

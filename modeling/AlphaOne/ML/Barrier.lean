import AlphaOne.Backtester.Exits
import AlphaOne.ML.Signal

/-!
# The barrier that a trade of the model tests

The labels enter at the next bar's open (`entry_col`) and place the stop and the target around that
price. The signal places them, at the same distances, around the close of the bar it is decided on,
and the backtester keeps them when it fills the order at the next open. So a trade tests the barrier
of its bar's label exactly when the bar has a label and the next bar opens where it closed
(`testsBarrier_iff`): after a gap, the two barriers lie apart by the gap.
-/

namespace AlphaOne.ML

open Foundations Backtester

/-- `check_invalid_ohlc`: a bar that the validator marks invalid; frames are loaded without those.
-/
def CheckInvalidOhlc (bar : Bar Columns) : Prop :=
  bar.high < max (max bar.open_ bar.close) bar.low ∨
    bar.low > min (min bar.open_ bar.close) bar.high ∨ bar.high < bar.low ∨
    (bar.open_ ≤ 0 ∨ bar.high ≤ 0 ∨ bar.low ≤ 0 ∨ bar.close ≤ 0) ∨
    ∃ v ∈ bar.columns "volume", v < 0

instance (bar : Bar Columns) : Decidable (CheckInvalidOhlc bar) :=
  inferInstanceAs (Decidable (_ ∨ _))

/-- A stop and a target at some distance, of an acceptable risk/reward. -/
structure TripleBarrierConfig.Acceptable (config : TripleBarrierConfig) : Prop where
  tp : 0 < config.tpAtrMultiple
  sl : 0 < config.slAtrMultiple
  minRrOk : config.MinRrOk

def LabelRow.stop (row : LabelRow) (side : SignalType) : Option ℚ :=
  if side = .long then row.labelLongStop else row.labelShortStop

def LabelRow.target (row : LabelRow) (side : SignalType) : Option ℚ :=
  if side = .long then row.labelLongTarget else row.labelShortTarget

/-- What the labels see a trade of a side touch first, when it is decided on the bar at `t`. -/
def firstTouch (config : TripleBarrierConfig) (df : List (Bar Columns)) (t : ℕ)
    (side : SignalType) : Option Touch :=
  match df[t]?.bind fun bar => bar.columns config.atrCol, df[t + 1]? with
  | some a, some entry =>
    let hits := hits config df t (config.entryCol.of entry) a
    if side = .long then hits.long else hits.short
  | _, _ => none

/-- A trade decided on the bar at `t` has the stop and the target of the bar's label, and if it
leaves within the label's horizon, then by its target exactly when the labels see the target touched
first. The trade is the one that leaves after those that had left before it was filled. -/
structure TestsBarrier (config : TripleBarrierConfig) (b : Backtest Columns)
    (df : List (Bar Columns)) (t : ℕ) (trade : BacktestTrade) : Prop where
  stop : trade.stopLoss = (labelAt config df t).stop trade.side
  target : trade.takeProfit = (labelAt config df t).target trade.side
  exit : ∀ closed,
    (exitedBy b df (t + 1 + config.horizonBars))[(b.upTo df t).trades.length]? = some closed →
      (closed.exitReason = some .takeProfit ↔ firstTouch config df t trade.side = some .tp)

/-- The bar at `t` has a label that follows its trades over the whole horizon. -/
def Labelled (config : TripleBarrierConfig) (df : List (Bar Columns)) (t : ℕ) : Prop :=
  t + 1 + config.horizonBars < df.length

instance (config : TripleBarrierConfig) (df : List (Bar Columns)) (t : ℕ) :
    Decidable (Labelled config df t) := inferInstanceAs (Decidable (_ < _))

/-- The next bar enters where the bar at `t` closes. -/
def EntersAtClose (config : TripleBarrierConfig) (df : List (Bar Columns)) (t : ℕ) : Prop :=
  df[t + 1]?.map config.entryCol.of = df[t]?.map Bar.close

theorem low_pos {bar : Bar Columns} (h : ¬CheckInvalidOhlc bar) : 0 < bar.low := by
  by_contra hle
  exact h (Or.inr (Or.inr (Or.inr (Or.inl (Or.inr (Or.inr (Or.inl (not_lt.1 hle))))))))

theorem close_pos {bar : Bar Columns} (h : ¬CheckInvalidOhlc bar) : 0 < bar.close := by
  by_contra hle
  exact h (Or.inr (Or.inr (Or.inr (Or.inl (Or.inr (Or.inr (Or.inr (not_lt.1 hle))))))))

instance (config : TripleBarrierConfig) (df : List (Bar Columns)) (t : ℕ) :
    Decidable (EntersAtClose config df t) := inferInstanceAs (Decidable (_ = _))

section Levels

variable {config : TripleBarrierConfig}

/-- The barriers of a side. -/
def barriersOf (config : TripleBarrierConfig) (side : SignalType) (entryPrice a : ℚ) : Barriers :=
  if side = .long then longBarriers config entryPrice a else shortBarriers config entryPrice a

/-- What a bar touches of a trade of a side. -/
def touch (side : SignalType) (b : Barriers) (bar : Bar Columns) : Option Touch :=
  if side = .long then touchLong b bar else touchShort b bar

/-- The reason the backtester has for a touch. -/
def Touch.reason : Touch → ExitReason
  | .tp => .takeProfit
  | .sl => .stopLoss

/-- A level that is not zero where it is touched is tested as it stands. -/
theorem filter_level {price : ℚ} {p : ℚ → Prop} [DecidablePred p] (h : p price → price ≠ 0) :
    (level (some price)).filter (p ·) = if p price then some price else none := by
  unfold level
  by_cases hp : p price
  · simp [hp, h hp]
  · by_cases hzero : price = 0
    · simp [hzero ▸ hp, hzero]
    · simp [hp, hzero]

/-- **The backtester and the labels agree on what a bar touches.** The backtester takes a level of
zero for a missing one, which a valid bar does not touch, except as a long target or a short stop:
and these lie beyond the entry. -/
theorem exitReasonOn_eq {backtest : BacktestConfig} (hconfig : config.Acceptable) {a entry : ℚ}
    (ha : 0 < a) (hentry : 0 < entry) {bar : Bar Columns} (hbar : ¬CheckInvalidOhlc bar)
    {trade : BacktestTrade} (hside : trade.side = .long ∨ trade.side = .short)
    (hstop : trade.stopLoss = some (barriersOf config trade.side entry a).stop)
    (htarget : trade.takeProfit = some (barriersOf config trade.side entry a).target) :
    exitReasonOn backtest trade bar =
      (touch trade.side (barriersOf config trade.side entry a) bar).map Touch.reason := by
  have hlow : 0 < bar.low := low_pos hbar
  have htp : 0 < config.tpAtrMultiple * a := mul_pos hconfig.tp ha
  have hsl : 0 < config.slAtrMultiple * a := mul_pos hconfig.sl ha
  have hlongTarget : (longBarriers config entry a).target ≠ 0 := (add_pos hentry htp).ne'
  have hshortStop : (shortBarriers config entry a).stop ≠ 0 := (add_pos hentry hsl).ne'
  unfold exitReasonOn barExit touch
  rw [hstop, htarget]
  unfold barriersOf
  rcases hside with hside | hside
  · simp only [hside, if_true]
    rw [filter_level (p := (bar.low ≤ ·)) fun h => (hlow.trans_le h).ne',
      filter_level (p := (bar.high ≥ ·)) fun _ => hlongTarget]
    unfold touchLong
    split_ifs <;> rfl
  · simp only [hside, reduceCtorEq, if_false]
    rw [filter_level (p := (bar.high ≥ ·)) fun _ => hshortStop,
      filter_level (p := (bar.low ≤ ·)) fun h => (hlow.trans_le h).ne']
    unfold touchShort
    split_ifs <;> rfl

/-- The first exit is for the reason of the first touch. -/
theorem findSome?_reason {f : Bar Columns → Option ExitReason} {g : Bar Columns → Option Touch}
    {bars : List (Bar Columns)} (h : ∀ bar ∈ bars, f bar = (g bar).map Touch.reason) :
    bars.findSome? f = (bars.findSome? g).map Touch.reason := by
  induction bars with
  | nil => rfl
  | cons bar bars ih =>
    rw [List.findSome?_cons, List.findSome?_cons, h bar List.mem_cons_self,
      ih fun b hb => h b (List.mem_cons_of_mem _ hb)]
    cases g bar <;> rfl

/-- The levels of a label: those of the side at the entry price, if the bar has a label. -/
theorem labelAt_levels (hconfig : config.Acceptable) {df : List (Bar Columns)} {t : ℕ}
    {row entry : Bar Columns} {a : ℚ} (hrow : df[t]? = some row) (hentry : df[t + 1]? = some entry)
    (hatr : row.columns config.atrCol = some a) (ha : 0 < a) (side : SignalType)
    (h : Labelled config df t) :
    (labelAt config df t).stop side =
        some (barriersOf config side (config.entryCol.of entry) a).stop ∧
      (labelAt config df t).target side =
        some (barriersOf config side (config.entryCol.of entry) a).target := by
  unfold labelAt
  simp only [hrow, hentry, hatr]
  rw [if_neg (not_le.2 h), if_neg (not_or.2 ⟨not_le.2 ha, not_not.2 hconfig.minRrOk⟩)]
  unfold LabelRow.stop LabelRow.target barriersOf
  split_ifs
  · exact ⟨rfl, rfl⟩
  · exact ⟨rfl, rfl⟩

/-- A bar too near the end of the frame has no levels. -/
theorem labelAt_stop_eq_none {df : List (Bar Columns)} {t : ℕ} (h : ¬Labelled config df t)
    (side : SignalType) : (labelAt config df t).stop side = none := by
  unfold labelAt
  split
  · rw [if_pos (not_lt.1 h)]
    simp [LabelRow.stop]
  · simp [LabelRow.stop]

theorem firstTouch_eq {df : List (Bar Columns)} {t : ℕ} {row entry : Bar Columns} {a : ℚ}
    (hrow : df[t]? = some row) (hentry : df[t + 1]? = some entry)
    (hatr : row.columns config.atrCol = some a) (side : SignalType) :
    firstTouch config df t side = (horizonOf config df t).findSome?
      (touch side (barriersOf config side (config.entryCol.of entry) a)) := by
  obtain ⟨hlong, hshort⟩ := hits_eq config df t (config.entryCol.of entry) a
  unfold firstTouch barriersOf
  simp only [hrow, hentry, Option.bind_some, hatr, hlong, hshort]
  split_ifs with hside
  · subst hside
    rfl
  · have htouch : ∀ b, touch side b = touchShort b := fun b => funext fun bar => if_neg hside
    rw [htouch]

/-- The levels of a signal are the barriers of its side at the close. -/
theorem signalAt_levels (m : MLModel) (proba : Proba) (close a : ℚ) {side : SignalType}
    (hside : side = .long ∨ side = .short) :
    (m.signalAt proba close a side).stopLoss = (barriersOf m.barrierConfig side close a).stop ∧
      (m.signalAt proba close a side).takeProfit1 =
        (barriersOf m.barrierConfig side close a).target := by
  rcases hside with rfl | rfl
  · refine ⟨rfl, ?_⟩
    simp only [MLModel.signalAt, barriersOf, longBarriers, if_true]
    ring
  · refine ⟨rfl, ?_⟩
    simp only [MLModel.signalAt, barriersOf, shortBarriers, reduceCtorEq, if_false]
    ring

/-- Two barriers of a side lie apart by the difference of their entries. -/
theorem barriersOf_stop_inj {side : SignalType} {close entry a : ℚ}
    (h : (barriersOf config side close a).stop = (barriersOf config side entry a).stop) :
    close = entry := by
  unfold barriersOf longBarriers shortBarriers at h
  split_ifs at h
  · exact sub_left_injective h
  · exact add_left_injective _ h

end Levels

/-! ## The trades of the model -/

section Trades

variable {m : MLModel} {backtest : BacktestConfig} {today : ℤ} {fundingRates : List FundingEvent}
  {df : List (Bar Columns)} {t : ℕ} {trade : BacktestTrade}

/-- The levels of a trade of the model: those of its side at the close of the bar at `t`. -/
theorem levels_of_fills (h : Fills (m.backtest backtest today fundingRates) df t trade) :
    ∃ row a, df[t]? = some row ∧ row.columns m.barrierConfig.atrCol = some a ∧ 0 < a ∧
      (trade.side = .long ∨ trade.side = .short) ∧
      trade.stopLoss = some (barriersOf m.barrierConfig trade.side row.close a).stop ∧
      trade.takeProfit = some (barriersOf m.barrierConfig trade.side row.close a).target := by
  obtain ⟨signal, hsignal, hside, hstop, htarget⟩ := h.decided
  obtain ⟨s, hs, rfl⟩ := Option.map_eq_some_iff.1 hsignal
  obtain ⟨row, a, proba, side, hlast, hatr, ha, htrade, rfl⟩ := MLModel.signal_eq_some hs
  obtain ⟨bar, hbar, -⟩ := h.2
  obtain ⟨hlt, -⟩ := List.getElem?_eq_some_iff.1 hbar
  have hrow : df[t]? = some row := by
    rw [List.getLast?_take, if_neg (by omega), Nat.add_sub_cancel,
      List.getElem?_eq_getElem (by omega)] at hlast
    rw [List.getElem?_eq_getElem (by omega)]
    exact hlast
  have hlevels := signalAt_levels m proba row.close a htrade
  rw [show trade.side = side from hside]
  exact ⟨row, a, hrow, hatr, ha, htrade, hstop.trans (congrArg some hlevels.1),
    htarget.trans (congrArg some hlevels.2)⟩

/-- **When a trade tests its bar's barrier**: exactly when the bar has a label and the next bar
enters where it closed. -/
theorem testsBarrier_iff (m : MLModel) (hconfig : m.barrierConfig.Acceptable)
    (backtest : BacktestConfig) (today : ℤ) (fundingRates : List FundingEvent)
    (df : List (Bar Columns)) (hdf : ∀ bar ∈ df, ¬CheckInvalidOhlc bar) (t : ℕ)
    (trade : BacktestTrade) (h : Fills (m.backtest backtest today fundingRates) df t trade) :
    TestsBarrier m.barrierConfig (m.backtest backtest today fundingRates) df t trade ↔
      Labelled m.barrierConfig df t ∧ EntersAtClose m.barrierConfig df t := by
  obtain ⟨row, a, hrow, hatr, ha, hside, hstop, htarget⟩ := levels_of_fills h
  obtain ⟨entry, hentry, -⟩ := h.2
  constructor
  · intro htests
    have hlabelled : Labelled m.barrierConfig df t := by
      by_contra hnot
      have hnone := htests.stop
      rw [labelAt_stop_eq_none hnot, hstop] at hnone
      cases hnone
    have hlevels := labelAt_levels hconfig hrow hentry hatr ha trade.side hlabelled
    have hsame := htests.stop
    rw [hlevels.1, hstop] at hsame
    refine ⟨hlabelled, ?_⟩
    unfold EntersAtClose
    rw [hrow, hentry, Option.map_some, Option.map_some,
      barriersOf_stop_inj (Option.some.inj hsame)]
  · rintro ⟨hlabelled, henters⟩
    unfold EntersAtClose at henters
    rw [hrow, hentry] at henters
    have hclose : m.barrierConfig.entryCol.of entry = row.close := Option.some.inj henters
    have hlevels := labelAt_levels hconfig hrow hentry hatr ha trade.side hlabelled
    rw [hclose] at hlevels
    refine ⟨hstop.trans hlevels.1.symm, htarget.trans hlevels.2.symm, fun closed hclosed => ?_⟩
    have hpos : 0 < row.close := close_pos (hdf row (List.mem_of_getElem? hrow))
    have hhorizon : ∀ bar ∈ horizonOf m.barrierConfig df t, exitReasonOn backtest trade bar =
        (touch trade.side (barriersOf m.barrierConfig trade.side row.close a) bar).map
          Touch.reason := by
      intro bar hbar
      have hmem : bar ∈ df := List.mem_of_mem_drop (List.mem_of_mem_take hbar)
      exact exitReasonOn_eq hconfig ha hpos (hdf bar hmem) hside hstop htarget
    rw [exitReason_of_fills h hlabelled hclosed, firstTouch_eq hrow hentry hatr, hclose]
    change some (((horizonOf m.barrierConfig df t).findSome? (exitReasonOn backtest trade)).getD
      .endOfData) = _ ↔ _
    rw [findSome?_reason hhorizon]
    cases (horizonOf m.barrierConfig df t).findSome?
        (touch trade.side (barriersOf m.barrierConfig trade.side row.close a)) with
    | none => simp
    | some first => cases first <;> simp [Touch.reason]

end Trades

section Example

/-- A model that is sure of a rise, with a horizon of one bar after the entry. -/
def bullishModel : MLModel where
  predictProba _ := ⟨1 / 10, 2 / 10, 7 / 10⟩
  featureCols := []
  barrierConfig := { horizonBars := 1 }

/-- A bar at the hour, with an ATR of `1`. -/
def hourlyBar (hour : ℤ) (open_ high low close : ℚ) : Bar Columns where
  timestamp := Timedelta.hours hour
  open_
  high
  low
  close
  columns _ := some 1

/-- Every bar opens where the last one closed. -/
def steadyFrame : List (Bar Columns) :=
  [hourlyBar 0 100 101 99 100, hourlyBar 1 100 101 99 100, hourlyBar 2 100 101 100 101,
    hourlyBar 3 101 103 100 102]

/-- The third bar opens above the close of the second. -/
def gappedFrame : List (Bar Columns) :=
  [hourlyBar 0 100 101 99 100, hourlyBar 1 100 101 99 100, hourlyBar 2 101 102 100 101,
    hourlyBar 3 101 103 100 102]

theorem bullishModel_acceptable : bullishModel.barrierConfig.Acceptable :=
  ⟨by decide +kernel, by decide +kernel, by decide +kernel⟩

theorem fills_steadyFrame : ∃ trade, Fills (bullishModel.backtest {} 0 []) steadyFrame 1 trade :=
  have h : ((bullishModel.backtest {} 0 []).fillPending (hourlyBar 2 100 101 100 101)
      ((bullishModel.backtest {} 0 []).upTo steadyFrame 1)).openTrade.isSome := by decide +kernel
  (Option.isSome_iff_exists.1 h).imp fun _ ht => ⟨by decide +kernel, _, rfl, ht⟩

theorem testsBarrier_steadyFrame : ∃ trade,
    Fills (bullishModel.backtest {} 0 []) steadyFrame 1 trade ∧
      TestsBarrier bullishModel.barrierConfig (bullishModel.backtest {} 0 []) steadyFrame 1 trade :=
  fills_steadyFrame.imp fun trade h => ⟨h, (testsBarrier_iff bullishModel bullishModel_acceptable
    {} 0 [] steadyFrame (by decide +kernel) 1 trade h).2 ⟨by decide +kernel, by decide +kernel⟩⟩

/-- **A trade need not test the barrier the model was trained on**: after a gap it keeps the stop
that was placed around the close, which is one below the stop of the label. -/
theorem not_testsBarrier_gappedFrame :
    ¬∀ (m : MLModel) (backtest : BacktestConfig) (today : ℤ) (fundingRates : List FundingEvent)
      (df : List (Bar Columns)) (t : ℕ) (trade : BacktestTrade),
      m.barrierConfig.Acceptable → (∀ bar ∈ df, ¬CheckInvalidOhlc bar) →
      Labelled m.barrierConfig df t →
      Fills (m.backtest backtest today fundingRates) df t trade →
      TestsBarrier m.barrierConfig (m.backtest backtest today fundingRates) df t trade := by
  intro h
  have hfill : ((bullishModel.backtest {} 0 []).fillPending (hourlyBar 2 101 102 100 101)
      ((bullishModel.backtest {} 0 []).upTo gappedFrame 1)).openTrade.map
        (fun trade => (trade.side, trade.stopLoss)) = some (.long, some 99) := by decide +kernel
  obtain ⟨trade, htrade, hlevels⟩ := Option.map_eq_some_iff.1 hfill
  obtain ⟨hside, hstop⟩ := Prod.mk.inj hlevels
  have htests := h bullishModel {} 0 [] gappedFrame 1 trade bullishModel_acceptable
    (by decide +kernel) (by decide +kernel) ⟨by decide +kernel, _, rfl, htrade⟩
  have hlabel : (labelAt bullishModel.barrierConfig gappedFrame 1).stop .long = some 100 := by
    decide +kernel
  have hsame := htests.stop
  rw [hside, hstop, hlabel] at hsame
  exact absurd hsame (by decide)

end Example

end AlphaOne.ML

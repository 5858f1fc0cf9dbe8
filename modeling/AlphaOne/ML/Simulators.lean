import AlphaOne.Backtester.Gating
import AlphaOne.ML.Barrier
import AlphaOne.SignalEngine.OutcomeEvaluator

/-!
# Three simulators of a trade

The rule that a trade ends on the first bar whose range touches its stop or its target, and that the
stop counts on a bar that touches both, is written three times: in the backtester, in the evaluator
of signal outcomes and in the loop of the labels. Each is followed bar by bar from the entry bar on:
`simulators_agree` says that after any number of bars of the horizon all three have found the same.
-/

namespace AlphaOne.ML

open Foundations Backtester SignalEngine

/-! ## One trade, three simulators -/

/-- A trade to simulate: its side and its prices, none of which is zero. -/
structure Setup where
  side : Side
  entryPrice : ℚ
  levels : Barriers
  entryPrice_ne_zero : entryPrice ≠ 0
  stop_ne_zero : levels.stop ≠ 0
  target_ne_zero : levels.target ≠ 0

/-- A frame, in the order of its bars. -/
structure CandleSeries where
  bars : List (Bar Columns)
  inOrder : bars.Pairwise (·.timestamp < ·.timestamp)

namespace Setup

variable (setup : Setup)

def signalType : SignalType :=
  match setup.side with
  | .long => .long
  | .short => .short

/-- What a bar touches of the trade. -/
def touches (bar : Bar Columns) : Option Touch := touch setup.signalType setup.levels bar

/-- A bar touches both levels. -/
def TouchesBoth (bar : Bar Columns) : Prop :=
  match setup.side with
  | .long => bar.low ≤ setup.levels.stop ∧ bar.high ≥ setup.levels.target
  | .short => bar.high ≥ setup.levels.stop ∧ bar.low ≤ setup.levels.target

/-- A trade of the backtester with the side and the levels. -/
structure Of (trade : BacktestTrade) : Prop where
  side : trade.side = setup.signalType
  stopLoss : trade.stopLoss = some setup.levels.stop
  takeProfit : trade.takeProfit = some setup.levels.target

/-- A signal with the side and the prices, decided on a bar. -/
def signal (row : Signal) (bar : Bar Columns) : Signal :=
  { row with
    timestamp := bar.timestamp
    signalType := setup.signalType
    entryPrice := some setup.entryPrice
    stopLoss := some setup.levels.stop
    takeProfit1 := some setup.levels.target }

/-- The hit of the trade in the loop of the labels that `hits` runs, over some bars from the entry
bar at `h` on; the trade of the other side has levels of its own. -/
def labelHit (other : Barriers) (bars : List (Bar Columns)) (h : ℕ) : Option Touch :=
  match setup.side with
  | .long => (followBarriers setup.levels other bars h { lastBarSeen := h }).long
  | .short => (followBarriers other setup.levels bars h { lastBarSeen := h }).short

end Setup

/-- The stored candle of a bar. -/
def candleOf (symbol timeframe : String) (bar : Bar Columns) : Candle where
  timestamp := bar.timestamp
  timeframe
  open_ := bar.open_
  high := bar.high
  low := bar.low
  close := bar.close
  volume := (bar.columns "volume").getD 0
  symbol

/-- The level that ended a trade, and when. -/
def tradeDecided (trade : BacktestTrade) : Option (Touch × Datetime) :=
  match trade.exitReason, trade.exitTime with
  | some .stopLoss, some time => some (.sl, time)
  | some .takeProfit, some time => some (.tp, time)
  | _, _ => none

/-- The level of an outcome. -/
def touchOf : ResolvedOutcome → Option Touch
  | .win => some .tp
  | .loss => some .sl
  | .expired => none

/-- The level that resolved a signal, and when. -/
def signalDecided (r : Resolution) : Option (Touch × Datetime) :=
  (touchOf r.outcome).map fun touch => (touch, r.evaluatedAt)

/-- The first touch among some bars, with the time of its bar. -/
def firstTouchOf (setup : Setup) (bars : List (Bar Columns)) : Option (Touch × Datetime) :=
  (firstHit setup.touches bars).bind fun d => bars[d.1]?.map fun bar => (d.2, bar.timestamp)

variable {setup : Setup}

/-! ## The labels -/

/-- The loop of the labels finds the first touch. -/
theorem labelHit_eq (setup : Setup) (other : Barriers) (bars : List (Bar Columns)) (h : ℕ) :
    setup.labelHit other bars h = (firstHit setup.touches bars).map Prod.snd := by
  rw [map_snd_firstHit]
  unfold Setup.labelHit Setup.touches Setup.signalType
  cases setup.side with
  | long => exact (followBarriers_eq setup.levels other bars h _).1
  | short => exact (followBarriers_eq other setup.levels bars h _).2

/-! ## The evaluator -/

/-- The outcome that a touch decides. -/
def outcomeOf : Touch → ResolvedOutcome
  | .tp => .win
  | .sl => .loss

/-- A candle decides what its bar touches. -/
theorem decides_candleOf (symbol timeframe : String) (bar : Bar Columns) :
    decides setup.signalType setup.levels.stop setup.levels.target
      (candleOf symbol timeframe bar) = (setup.touches bar).map outcomeOf := by
  unfold decides hitStop hitTarget Setup.touches touch Setup.signalType
  cases setup.side with
  | long =>
    simp only [if_true, candleOf, touchLong]
    split_ifs <;> rfl
  | short =>
    simp only [reduceCtorEq, if_false, candleOf, touchShort]
    split_ifs <;> rfl

theorem signalDecided_eq (r : Resolution) :
    signalDecided r = r.decided.bind fun d => (touchOf d.1).map fun touch => (touch, d.2) := by
  obtain ⟨outcome, exitPrice, pnl, time⟩ := r
  cases outcome <;> rfl

/-- The candles of the bars that are stored after the signal's. -/
theorem candlesAfter_candleOf (series : CandleSeries) (symbol timeframe : String) {t : ℕ}
    {bar : Bar Columns} (hbar : series.bars[t]? = some bar) {k limit : ℕ} (hk : k ≤ limit) :
    candlesAfter ((series.bars.take (t + 1 + k)).map (candleOf symbol timeframe)) symbol timeframe
        bar.timestamp limit =
      ((series.bars.drop (t + 1)).take k).map (candleOf symbol timeframe) := by
  have hget : ((series.bars.take (t + 1 + k)).map (candleOf symbol timeframe))[t]? =
      some (candleOf symbol timeframe bar) := by
    rw [List.getElem?_map, List.getElem?_take_of_lt (by omega), hbar, Option.map_some]
  have hrows : ∀ c ∈ (series.bars.take (t + 1 + k)).map (candleOf symbol timeframe),
      c.symbol = symbol ∧ c.timeframe = timeframe ∧ c.qualityStatus = .valid := by
    intro c hc
    obtain ⟨b, -, rfl⟩ := List.mem_map.1 hc
    exact ⟨rfl, rfl, rfl⟩
  have horder : ((series.bars.take (t + 1 + k)).map (candleOf symbol timeframe)).Pairwise
      (·.timestamp < ·.timestamp) :=
    List.pairwise_map.2 (series.inOrder.sublist (List.take_sublist _ _))
  have hlength : ((series.bars.drop (t + 1)).take k).length ≤ limit :=
    (List.length_take_le _ _).trans hk
  rw [show bar.timestamp = (candleOf symbol timeframe bar).timestamp from rfl,
    candlesAfter_eq hrows horder hget, ← List.map_drop, List.drop_take, Nat.add_sub_cancel_left,
    List.take_of_length_le (by rw [List.length_map]; exact hlength)]

/-- **The evaluator finds the first touch.** -/
theorem resolve_signal (setup : Setup) (row : Signal) (bar : Bar Columns)
    (symbol timeframe : String) (bars : List (Bar Columns)) {horizonBars : ℕ}
    (hlength : bars.length ≤ horizonBars + 1) :
    ∃ resolved, resolve (setup.signal row bar) (bars.map (candleOf symbol timeframe))
        (horizonBars + 1) = .ok resolved ∧
      resolved.bind signalDecided = firstTouchOf setup bars := by
  obtain ⟨resolved, hresolve, hdecided⟩ := resolve_decided (setup.signal row bar)
    (bars.map (candleOf symbol timeframe)) setup.entryPrice_ne_zero rfl rfl rfl
    (Nat.succ_pos horizonBars)
  refine ⟨resolved, hresolve, ?_⟩
  rw [List.take_of_length_le (by rwa [List.length_map]), firstHit_map] at hdecided
  have htest : (fun b => decides (setup.signal row bar).signalType setup.levels.stop
      setup.levels.target (candleOf symbol timeframe b)) =
      fun b => (setup.touches b).map outcomeOf := funext fun b => decides_candleOf _ _ b
  rw [htest, firstHit_option_map] at hdecided
  have hread : resolved.bind signalDecided = (resolved.bind Resolution.decided).bind fun d =>
      (touchOf d.1).map fun touch => (touch, d.2) := by
    rw [Option.bind_assoc]
    exact congrArg resolved.bind (funext signalDecided_eq)
  rw [hread, hdecided, firstTouchOf]
  cases firstHit setup.touches bars with
  | none => rfl
  | some d =>
    obtain ⟨i, hit⟩ := d
    simp only [Option.map_some, Option.bind_some, List.getElem?_map]
    cases bars[i]? with
    | none => rfl
    | some b => cases hit <;> rfl

/-! ## The backtester -/

/-- **A bar ends a trade for what it touches.** -/
theorem exitReasonOn_setup {config : BacktestConfig} {trade : BacktestTrade}
    (htrade : setup.Of trade) (bar : Bar Columns) :
    exitReasonOn config trade bar = (setup.touches bar).map Touch.reason := by
  have hstop : level trade.stopLoss = some setup.levels.stop := by
    rw [htrade.stopLoss]
    exact Option.filter_some_pos (decide_eq_true setup.stop_ne_zero)
  have htarget : level trade.takeProfit = some setup.levels.target := by
    rw [htrade.takeProfit]
    exact Option.filter_some_pos (decide_eq_true setup.target_ne_zero)
  unfold exitReasonOn barExit Setup.touches touch
  rw [hstop, htarget, htrade.side]
  unfold Setup.signalType
  cases setup.side with
  | long =>
    simp only [if_true, touchLong, Option.filter]
    split_ifs <;> simp_all [Touch.reason]
  | short =>
    simp only [reduceCtorEq, if_false, touchShort, Option.filter]
    split_ifs <;> simp_all [Touch.reason]

section Backtest

variable {b : Backtest Columns} {df : List (Bar Columns)} {t : ℕ} {trade : BacktestTrade}

/-- The trades of a run only grow. -/
theorem trades_upTo_le (b : Backtest Columns) (df : List (Bar Columns)) {m n : ℕ} (h : m ≤ n) :
    (b.upTo df m).trades <+: (b.upTo df n).trades := by
  obtain ⟨k, rfl⟩ := Nat.exists_eq_add_of_le h
  rw [upTo_add]
  exact (Always.of_step (P := Extends (b.upTo df m))
    (fun r i hr => hr.trans (step_extends b r i)) (Extends.refl _) _).last.trades

/-- A trade that leaves on a bar leaves at its time. -/
theorem exitTime_of_step {n : ℕ} {s : State} {bar : Bar Columns}
    (h : StaysOpen n trade (b.fillPending bar s)) {seen : List (Bar Columns)}
    {closed : BacktestTrade} (hclosed : (b.step s (bar, seen)).trades[n]? = some closed) :
    closed.exitTime = some bar.timestamp := by
  have htrades : (b.step s (bar, seen)).trades =
      (b.manage bar (b.chargeFunding bar (b.fillPending bar s))).trades := by
    obtain ⟨pending, hdecide⟩ := decide_pending b seen
      (b.manage bar (b.chargeFunding bar (b.fillPending bar s)))
    simp only [Backtest.step, Backtest.recordEquity, hdecide]
  obtain ⟨hn, r, hr, -, hopen⟩ := h.chargeFunding (b := b) bar
  rw [htrades] at hclosed
  unfold Backtest.manage at hclosed
  rw [hr] at hclosed
  dsimp only at hclosed
  split at hclosed
  · next hexit =>
    dsimp only at hclosed
    rw [← hn, List.getElem?_concat_length] at hclosed
    rw [← Option.some.inj hclosed]
    exact (managePosition_exit hopen hexit).1
  · dsimp only at hclosed
    rw [List.getElem?_eq_none hn.le] at hclosed
    cases hclosed

/-- A filled trade is open until a bar touches one of its levels. -/
theorem staysOpen_of_none (h : Fills b df t trade) {i : ℕ} {bar : Bar Columns}
    (hbar : df[t + 1 + i]? = some bar)
    (hnone : ((df.drop (t + 1)).take i).findSome? (exitReasonOn b.config trade) = none) :
    StaysOpen (b.upTo df t).trades.length trade (b.fillPending bar (b.upTo df (t + i))) := by
  cases i with
  | zero => exact h.staysOpen hbar
  | succ i =>
    have houtcome := h.outcome i
    rw [hnone] at houtcome
    exact (fillPending_of_staysOpen houtcome bar).symm ▸ houtcome

/-- **The backtester finds the first touch.** -/
theorem decided_of_fills (h : Fills b df t trade) (htrade : setup.Of trade) (k : ℕ) :
    ((b.upTo df (t + k)).trades[(b.upTo df t).trades.length]?).bind tradeDecided =
      firstTouchOf setup ((df.drop (t + 1)).take k) := by
  set n := (b.upTo df t).trades.length with hn
  have hfirst : ∀ i, ((df.drop (t + 1)).take i).findSome? (exitReasonOn b.config trade) =
      (firstHit setup.touches ((df.drop (t + 1)).take i)).map fun d => d.2.reason := by
    intro i
    rw [← map_snd_firstHit, funext (exitReasonOn_setup htrade), firstHit_option_map,
      Option.map_map]
    rfl
  cases hhit : firstHit setup.touches ((df.drop (t + 1)).take k) with
  | none =>
    have hopen : (b.upTo df (t + k)).trades.length = n := by
      cases k with
      | zero => rfl
      | succ k =>
        have houtcome := h.outcome k
        rw [hfirst, hhit] at houtcome
        exact houtcome.1
    rw [List.getElem?_eq_none hopen.le, firstTouchOf, hhit]
    rfl
  | some d =>
    obtain ⟨i, hit⟩ := d
    obtain ⟨⟨bar, hbar, htouch⟩, -⟩ := firstHit_eq_some_iff.1 hhit
    have hik : i < k := by
      have := lt_length_of_firstHit hhit
      rw [List.length_take] at this
      omega
    have hdf : df[t + 1 + i]? = some bar := by
      rw [List.getElem?_take_of_lt hik, List.getElem?_drop] at hbar
      exact hbar
    have hquiet := firstHit_take hhit
    rw [List.take_take, min_eq_left hik.le] at hquiet
    have hopen := staysOpen_of_none h hdf (by rw [hfirst, hquiet]; rfl)
    have hstep : b.upTo df (t + (i + 1)) =
        b.step (b.upTo df (t + i)) (bar, df.take (t + i + 2)) := by
      rw [show t + 1 + i = t + i + 1 by omega] at hdf
      exact run_bars_succ b b.init hdf
    have hleft := step_outcome hopen (df.take (t + i + 2))
    rw [exitReasonOn_setup htrade, htouch, ← hstep] at hleft
    obtain ⟨closed, hclosed, -, hreason⟩ := hleft
    have htime : closed.exitTime = some bar.timestamp := by
      rw [hstep] at hclosed
      exact exitTime_of_step hopen hclosed
    obtain ⟨later, hlater⟩ := trades_upTo_le b df (show t + (i + 1) ≤ t + k by omega)
    obtain ⟨hlt, -⟩ := List.getElem?_eq_some_iff.1 hclosed
    rw [← hlater, List.getElem?_append_left hlt, hclosed, firstTouchOf, hhit, Option.bind_some,
      Option.bind_some, hbar, Option.map_some]
    unfold tradeDecided
    rw [hreason, htime]
    cases hit <;> rfl

end Backtest

/-- A bar that touches both levels ends the trade by its stop. -/
theorem firstTouchOf_both {bars : List (Bar Columns)} {i : ℕ} {bar : Bar Columns}
    (hbar : bars[i]? = some bar) (hboth : setup.TouchesBoth bar)
    (hbefore : firstTouchOf setup (bars.take i) = none) :
    firstTouchOf setup bars = some (.sl, bar.timestamp) := by
  have hstop : setup.touches bar = some .sl := by
    unfold Setup.TouchesBoth at hboth
    unfold Setup.touches touch Setup.signalType touchLong touchShort
    cases hside : setup.side with
    | long =>
      rw [hside] at hboth
      exact if_pos hboth.1
    | short =>
      rw [hside] at hboth
      exact if_pos hboth.1
  have hquiet : firstHit setup.touches (bars.take i) = none := by
    cases hhit : firstHit setup.touches (bars.take i) with
    | none => rfl
    | some d =>
      obtain ⟨⟨x, hx, -⟩, -⟩ := firstHit_eq_some_iff.1 hhit
      rw [firstTouchOf, hhit, Option.bind_some, hx] at hbefore
      cases hbefore
  have hhit : firstHit setup.touches bars = some (i, .sl) := by
    refine firstHit_eq_some_iff.2 ⟨⟨bar, hbar, hstop⟩, fun j hj x hx => ?_⟩
    refine firstHit_eq_none_iff.1 hquiet x (List.mem_iff_getElem?.2 ⟨j, ?_⟩)
    rw [List.getElem?_take_of_lt hj, hx]
  rw [firstTouchOf, hhit, Option.bind_some, hbar, Option.map_some]

/-- **The three simulators agree.** A trade is decided on the bar at `t` and entered on the next
one, and the horizon is `horizonBars + 1` bars long. After `k` bars of it the evaluator, the
backtester and the labels have found the same: the first touch of a level, or none. -/
theorem simulators_agree (setup : Setup) (series : CandleSeries) {t horizonBars k : ℕ}
    (hk : k ≤ horizonBars + 1) {bar : Bar Columns} (hbar : series.bars[t]? = some bar)
    (b : Backtest Columns) {trade : BacktestTrade} (hfill : Fills b series.bars t trade)
    (htrade : setup.Of trade) (row : Signal) (timeframe : String) (other : Barriers) :
    let bars := (series.bars.drop (t + 1)).take k
    let stored := (series.bars.take (t + 1 + k)).map (candleOf row.symbol timeframe)
    (∃ resolved, resolve (setup.signal row bar)
          (candlesAfter stored row.symbol timeframe bar.timestamp (horizonBars + 1))
          (horizonBars + 1) = .ok resolved ∧
        resolved.bind signalDecided = firstTouchOf setup bars) ∧
      ((b.upTo series.bars (t + k)).trades[(b.upTo series.bars t).trades.length]?).bind
        tradeDecided = firstTouchOf setup bars ∧
      setup.labelHit other bars (t + 1) = (firstTouchOf setup bars).map Prod.fst ∧
      ∀ i both, bars[i]? = some both → setup.TouchesBoth both →
        firstTouchOf setup (bars.take i) = none →
        firstTouchOf setup bars = some (.sl, both.timestamp) := by
  refine ⟨?_, decided_of_fills hfill htrade k, ?_, fun i both => firstTouchOf_both⟩
  · rw [candlesAfter_candleOf series row.symbol timeframe hbar hk]
    exact resolve_signal setup row bar row.symbol timeframe _
      ((List.length_take_le _ _).trans hk)
  · rw [labelHit_eq, firstTouchOf]
    cases hhit : firstHit setup.touches ((series.bars.drop (t + 1)).take k) with
    | none => rfl
    | some d =>
      obtain ⟨⟨x, hx, -⟩, -⟩ := firstHit_eq_some_iff.1 hhit
      rw [Option.bind_some, hx]
      rfl

section Example

/-- The long trade that the third bar of the frame is entered with. -/
def steadySetup : Setup where
  side := .long
  entryPrice := 100
  levels := ⟨99, 102⟩
  entryPrice_ne_zero := by decide
  stop_ne_zero := by decide
  target_ne_zero := by decide

def steadySeries : CandleSeries where
  bars := steadyFrame
  inOrder := by decide +kernel

/-- On the last bar of the frame all three find the target. -/
theorem simulators_agree_steadyFrame : ∃ trade,
    Fills (bullishModel.backtest {} 0 []) steadySeries.bars 1 trade ∧
      steadySetup.labelHit ⟨0, 0⟩ ((steadySeries.bars.drop 2).take 2) 2 =
        (firstTouchOf steadySetup ((steadySeries.bars.drop 2).take 2)).map Prod.fst ∧
      firstTouchOf steadySetup ((steadySeries.bars.drop 2).take 2) =
        some (.tp, Timedelta.hours 3) := by
  have hfill : ((bullishModel.backtest {} 0 []).fillPending (hourlyBar 2 100 101 100 101)
      ((bullishModel.backtest {} 0 []).upTo steadyFrame 1)).openTrade.map
        (fun trade => (trade.side, trade.stopLoss, trade.takeProfit)) =
      some (.long, some 99, some 102) := by decide +kernel
  obtain ⟨trade, htrade, hlevels⟩ := Option.map_eq_some_iff.1 hfill
  obtain ⟨hside, hstop, htarget⟩ : trade.side = .long ∧ trade.stopLoss = some 99 ∧
      trade.takeProfit = some 102 := by simpa using hlevels
  have hfills : Fills (bullishModel.backtest {} 0 []) steadySeries.bars 1 trade :=
    ⟨by decide +kernel, _, rfl, htrade⟩
  refine ⟨trade, hfills, ?_, by decide +kernel⟩
  exact (simulators_agree steadySetup steadySeries (show 2 ≤ 1 + 1 from le_rfl) rfl _ hfills
    ⟨hside, hstop, htarget⟩ { signalId := "SIG-1", timestamp := 0, signalType := .long } "4h"
    ⟨0, 0⟩).2.2.1

end Example

end AlphaOne.ML

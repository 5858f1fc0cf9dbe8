import AlphaOne.Backtester.Engine
import Mathlib.Tactic.Linarith

/-!
# The accounts of a backtest

The account is kept twice: the backtester adds each trade's P&L to its equity, the risk engine
compounds the percentage the P&L is of the equity before it. `Balanced` says that the two agree
with each other, with the trades closed so far and with the count of open positions. Each step of
the loop body keeps it while the equity is positive (`step_balanced`).

The trades occupy disjoint stretches of the frame, whatever its timestamps are (`Scheduled`);
on a frame in time order they are disjoint in time. `accounting_conservation` collects both.
-/

namespace AlphaOne.Backtester

open Foundations Risk

variable {γ : Type*}

/-- A trade that is open: no exit yet, and the entry fee charged. -/
structure BacktestTrade.Opened (config : BacktestConfig) (t : BacktestTrade) : Prop where
  exitPrice : t.exitPrice = none
  fees : t.fees = t.entryPrice * t.quantity * config.feeRate

/-- A trade that is closed: its P&L is its gross P&L minus both fees and the funding. -/
structure BacktestTrade.Settled (config : BacktestConfig) (t : BacktestTrade) : Prop where
  exit : ∃ exitPrice exitTime, t.exitPrice = some exitPrice ∧ t.exitTime = some exitTime
  pnl : t.pnl = calculatePnl t - t.entryPrice * t.quantity * config.feeRate -
    t.exitPrice.getD 0 * t.quantity * config.feeRate - t.funding

/-- The equity, the risk engine's equity, the closed trades and the count of open positions tell
the same story. -/
structure Balanced (b : Backtest γ) (s : State) : Prop where
  equity : s.equity = b.config.initialCapital + (s.trades.map BacktestTrade.pnl).sum
  risk : s.risk.state.currentEquity = s.equity
  positions : s.risk.state.positionsOpen = if s.openTrade.isSome then 1 else 0
  opened : ∀ t ∈ s.openTrade, t.Opened b.config
  settled : ∀ t ∈ s.trades, t.Settled b.config

/-- The equity the curve ends in, the initial capital before its first point. -/
def lastEquity (b : Backtest γ) (s : State) : ℚ :=
  (s.equityCurve.getLast?.map EquityPoint.equity).getD b.config.initialCapital

/-! ## One trade -/

theorem openTrade_opened (config : BacktestConfig) (risk : RiskEngine) (signal : Signal)
    (price : ℚ) (timestamp : Datetime) (id : ℕ) :
    (openTrade config risk signal price timestamp id).Opened config :=
  ⟨rfl, rfl⟩

/-- Closing an open trade at any price settles it. -/
theorem BacktestTrade.Opened.settle {config : BacktestConfig} {t : BacktestTrade}
    (h : t.Opened config) (real : Bool) (exitPrice : ℚ) (exitTime : Datetime)
    (reason : ExitReason) :
    (settle config real { t with
      exitPrice := some exitPrice
      exitTime := some exitTime
      exitReason := some reason }).Settled config := by
  refine ⟨⟨exitPrice, exitTime, rfl, rfl⟩, ?_⟩
  simp only [Backtester.settle, calculatePnl, h.fees, Option.getD_some]
  ring

/-- **What a bar does to an open trade**: nothing, or it settles it at the bar's time. -/
theorem managePosition_cases {config : BacktestConfig} {t : BacktestTrade} (h : t.Opened config)
    (o hi lo : ℚ) (timestamp : Datetime) (real : Bool) :
    let t' := managePosition config t o hi lo timestamp real
    t' = t ∨ t'.exitPrice.isSome ∧ t'.exitTime = some timestamp ∧ t'.entryTime = t.entryTime ∧
      t'.Settled config := by
  cases hexit : barExit config t o hi lo with
  | none => exact Or.inl (by simp only [managePosition, hexit])
  | some e =>
    right
    simp only [managePosition, hexit]
    obtain ⟨hx, hp⟩ := h.settle real e.1 timestamp e.2
    exact ⟨rfl, rfl, rfl, hx, hp⟩

/-- Charging funding changes a trade in its funding only. -/
theorem applyFundingEvents_trade (now : Datetime) (mark : ℚ) (events : List FundingEvent)
    (trade : Option BacktestTrade) :
    ∃ f : BacktestTrade → ℚ, (applyFundingEvents now mark trade events).1 =
      trade.map fun t => { t with funding := f t } := by
  induction events generalizing trade with
  | nil => exact ⟨BacktestTrade.funding, by cases trade <;> rfl⟩
  | cons event events ih =>
    by_cases hdue : event.timestamp ≤ now
    · cases trade with
      | none =>
        obtain ⟨f, hf⟩ := ih none
        exact ⟨f, by rw [applyFundingEvents, if_pos hdue]; exact hf⟩
      | some t =>
        rw [applyFundingEvents, if_pos hdue]
        by_cases hexp : t.entryTime < event.timestamp
        · simp only [Option.map_some, if_pos hexp]
          obtain ⟨f, hf⟩ := ih (some { t with funding := t.funding + fundingCost t event mark })
          exact ⟨fun _ => f { t with funding := t.funding + fundingCost t event mark }, hf⟩
        · simp only [Option.map_some, if_neg hexp]
          exact ih (some t)
    · exact ⟨BacktestTrade.funding, by
        rw [applyFundingEvents, if_neg hdue]; cases trade <;> rfl⟩

/-! ## One step of the loop body -/

section Balance

variable {b : Backtest γ} {s : State} {bar : Bar γ}

theorem fillPending_balanced (h : Balanced b s) : Balanced b (b.fillPending bar s) := by
  unfold Backtest.fillPending
  split
  · rename_i signal hp ho
    have hr := h.risk
    have hpos := h.positions
    rw [ho] at hpos
    split
    · rename_i risk hc
      have hcap := RiskEngine.canTrade_currentEquity s.risk bar.timestamp
      have hopen := RiskEngine.canTrade_positionsOpen s.risk bar.timestamp
      rw [hc] at hcap hopen
      refine ⟨h.equity, hcap.trans hr, ?_, ?_, h.settled⟩
      · have hzero : risk.state.positionsOpen = 0 := hopen.trans hpos
        simp [hzero]
      · rintro t ⟨⟩
        exact openTrade_opened ..
    · rename_i refusal risk hc
      have hcap := RiskEngine.canTrade_currentEquity s.risk bar.timestamp
      have hopen := RiskEngine.canTrade_positionsOpen s.risk bar.timestamp
      rw [hc] at hcap hopen
      exact ⟨h.equity, hcap.trans hr, hopen.trans h.positions, h.opened, h.settled⟩
  · exact h

theorem chargeFunding_balanced (h : Balanced b s) : Balanced b (b.chargeFunding bar s) := by
  unfold Backtest.chargeFunding
  split
  · obtain ⟨f, hf⟩ := applyFundingEvents_trade bar.timestamp bar.open_ s.fundingEvents s.openTrade
    refine ⟨h.equity, h.risk, ?_, ?_, h.settled⟩
    · simp only [hf, Option.isSome_map]
      exact h.positions
    · intro t ht
      simp only [hf, Option.mem_def, Option.map_eq_some_iff] at ht
      obtain ⟨u, hu, rfl⟩ := ht
      exact ⟨(h.opened u hu).exitPrice, (h.opened u hu).fees⟩
  · exact h

/-- Adding a settled trade's P&L to the equity, and its percentage of the equity to the risk
engine, keeps the balance. -/
theorem Balanced.close (h : Balanced b s) (hs : 0 < s.equity) {t : BacktestTrade}
    (ht : t.Settled b.config) (ho : s.openTrade.isSome) (time : Datetime) {risk : RiskEngine}
    (hcap : risk.state.currentEquity = (s.risk.recordTradeResult
      (Backtest.equityRelativePnlPct t.pnl s.equity) time).state.currentEquity)
    (hopen : risk.state.positionsOpen = max 0 (s.risk.state.positionsOpen - 1)) :
    Balanced b { s with
      trades := s.trades ++ [t], equity := s.equity + t.pnl, openTrade := none, risk } := by
  have hpos := h.positions
  rw [if_pos ho] at hpos
  refine ⟨?_, ?_, ?_, ?_, ?_⟩
  · simp only [List.map_append, List.sum_append, h.equity]
    simp [add_assoc]
  · have hrel := RiskEngine.recordTradeResult_relative s.risk time t.pnl (by rw [h.risk]; exact hs.ne')
    rw [h.risk] at hrel
    simp only [hcap, Backtest.equityRelativePnlPct, if_pos hs, hrel]
  · simp [hopen, hpos]
  · simp
  · intro u hu
    rcases List.mem_append.1 hu with hu | hu
    · exact h.settled u hu
    · rw [List.mem_singleton.1 hu]
      exact ht

theorem manage_balanced (h : Balanced b s) (hs : 0 < s.equity) : Balanced b (b.manage bar s) := by
  unfold Backtest.manage
  split
  · exact h
  · rename_i t ht
    have hopened := h.opened t ht
    rcases managePosition_cases hopened bar.open_ bar.high bar.low bar.timestamp b.useRealFunding
      with heq | ⟨hsome, -, -, hsettled⟩
    · simp only [heq, hopened.exitPrice, Option.isSome_none, Bool.false_eq_true, if_false]
      exact ⟨h.equity, h.risk, by simpa [ht] using h.positions, by simpa using hopened, h.settled⟩
    · simp only [hsome, if_true]
      exact h.close hs hsettled (by simp [ht]) bar.timestamp (by simp) (by simp)

theorem decide_balanced (seen : List (Bar γ)) (h : Balanced b s) :
    Balanced b (b.decide seen s) := by
  unfold Backtest.decide
  split
  · exact ⟨h.equity, h.risk, h.positions, h.opened, h.settled⟩
  · exact h

/-- **A bar keeps the balance** when the equity is positive before it, and records the equity it
leaves. -/
theorem step_balanced (input : Bar γ × List (Bar γ)) (h : Balanced b s) (hs : 0 < s.equity) :
    Balanced b (b.step s input) ∧ lastEquity b (b.step s input) = (b.step s input).equity := by
  obtain ⟨bar, seen⟩ := input
  have hfunded : Balanced b (b.chargeFunding bar (b.fillPending bar s)) :=
    chargeFunding_balanced (fillPending_balanced h)
  have hequity : (b.chargeFunding bar (b.fillPending bar s)).equity = s.equity := by
    have hfill : (b.fillPending bar s).equity = s.equity := by
      unfold Backtest.fillPending
      split
      · split <;> rfl
      · rfl
    unfold Backtest.chargeFunding
    split
    · exact hfill
    · exact hfill
  have hmanaged : Balanced b (b.manage bar (b.chargeFunding bar (b.fillPending bar s))) :=
    manage_balanced hfunded (by rwa [hequity])
  have hdecided := decide_balanced seen hmanaged
  refine ⟨⟨hdecided.equity, hdecided.risk, hdecided.positions, hdecided.opened,
    hdecided.settled⟩, ?_⟩
  simp [lastEquity, Backtest.step, Backtest.recordEquity]

theorem init_balanced (b : Backtest γ) :
    Balanced b b.init ∧ lastEquity b b.init = b.init.equity :=
  ⟨⟨by simp [Backtest.init], by simp [Backtest.init], by simp [Backtest.init],
    by simp [Backtest.init], by simp [Backtest.init]⟩, rfl⟩

/-- Closing the trade that is still open at the last close keeps the balance. -/
theorem finish_balanced {df : List (Bar γ)} (h : Balanced b s) (hs : 0 < s.equity)
    (hlast : lastEquity b s = s.equity) :
    Balanced b (b.finish df s) ∧ lastEquity b (b.finish df s) = (b.finish df s).equity := by
  unfold Backtest.finish
  split
  · rename_i t last ht hdf
    have hsettled := (h.opened t ht).settle b.useRealFunding last.close last.timestamp .endOfData
    have hbefore : (s.equityCurve.getLast?.map EquityPoint.equity).getD b.config.initialCapital =
        s.equity := hlast
    simp only [hbefore]
    have hclose := h.close hs hsettled (by simp [ht]) last.timestamp
      (RiskEngine.recordPositionClose_currentEquity _) (by simp)
    exact ⟨⟨hclose.equity, hclose.risk, hclose.positions, hclose.opened, hclose.settled⟩,
      by simp [lastEquity]⟩
  · exact ⟨h, hlast⟩

end Balance

/-! ## The schedule of the trades -/

/-- The time at the position `i` of the frame. -/
def timeAt (df : List (Bar γ)) (i : ℕ) : Option Datetime := df[i]?.map Bar.timestamp

/-- A trade is open from one position of the frame to another. -/
structure Spans (df : List (Bar γ)) (t : BacktestTrade) (span : ℕ × ℕ) : Prop where
  le : span.1 ≤ span.2
  entry : timeAt df span.1 = some t.entryTime
  exit : timeAt df span.2 = t.exitTime
  exited : t.exitTime.isSome

/-- The trades are open over disjoint stretches of the frame, one after the other. -/
def Disjoint (df : List (Bar γ)) (trades : List BacktestTrade) : Prop :=
  ∃ spans : List (ℕ × ℕ), List.Forall₂ (Spans df) trades spans ∧
    spans.Pairwise fun p q => p.2 < q.1

/-- On the bars up to the position `n`, the closed trades are disjoint and the open trade was
entered after all of them. -/
def Scheduled (df : List (Bar γ)) (n : ℕ) (s : State) : Prop :=
  ∃ spans : List (ℕ × ℕ), List.Forall₂ (Spans df) s.trades spans ∧
    spans.Pairwise (fun p q => p.2 < q.1) ∧ (∀ p ∈ spans, p.2 ≤ n) ∧
    ∀ t ∈ s.openTrade, t.exitPrice = none ∧
      ∃ i ≤ n, timeAt df i = some t.entryTime ∧ ∀ p ∈ spans, p.2 < i

section Schedule

variable {b : Backtest γ} {s : State} {bar : Bar γ} {df : List (Bar γ)} {n : ℕ}

theorem fillPending_scheduled (h : Scheduled df n s)
    (hbar : timeAt df (n + 1) = some bar.timestamp) :
    Scheduled df (n + 1) (b.fillPending bar s) := by
  obtain ⟨spans, htrades, hdisj, hle, hopen⟩ := h
  have hle' : ∀ p ∈ spans, p.2 ≤ n + 1 := fun p hp => (hle p hp).trans n.le_succ
  have hkeep : ∀ t ∈ s.openTrade, t.exitPrice = none ∧
      ∃ i ≤ n + 1, timeAt df i = some t.entryTime ∧ ∀ p ∈ spans, p.2 < i := by
    intro t ht
    obtain ⟨hx, i, hi, he, hlt⟩ := hopen t ht
    exact ⟨hx, i, hi.trans n.le_succ, he, hlt⟩
  unfold Backtest.fillPending
  split
  · split
    · refine ⟨spans, htrades, hdisj, hle', ?_⟩
      rintro t ⟨⟩
      exact ⟨rfl, n + 1, le_rfl, hbar, fun p hp => Nat.lt_succ_of_le (hle p hp)⟩
    · exact ⟨spans, htrades, hdisj, hle', hkeep⟩
  · exact ⟨spans, htrades, hdisj, hle', hkeep⟩

theorem chargeFunding_scheduled (h : Scheduled df n s) :
    Scheduled df n (b.chargeFunding bar s) := by
  unfold Backtest.chargeFunding
  split
  · obtain ⟨spans, htrades, hdisj, hle, hopen⟩ := h
    obtain ⟨f, hf⟩ := applyFundingEvents_trade bar.timestamp bar.open_ s.fundingEvents s.openTrade
    refine ⟨spans, htrades, hdisj, hle, ?_⟩
    intro t ht
    simp only [hf, Option.mem_def, Option.map_eq_some_iff] at ht
    obtain ⟨u, hu, rfl⟩ := ht
    exact hopen u hu
  · exact h

/-- A trade that closes at the position `m` extends the schedule. -/
theorem Scheduled.close (h : Scheduled df n s) {t : BacktestTrade} (ht : s.openTrade = some t)
    (t' : BacktestTrade) {m : ℕ} (hm : n ≤ m) (hentry : t'.entryTime = t.entryTime) {time : Datetime}
    (htime : timeAt df m = some time) (hexit : t'.exitTime = some time) :
    ∃ spans : List (ℕ × ℕ), List.Forall₂ (Spans df) (s.trades ++ [t']) spans ∧
      spans.Pairwise (fun p q => p.2 < q.1) ∧ ∀ p ∈ spans, p.2 ≤ m := by
  obtain ⟨spans, htrades, hdisj, hle, hopen⟩ := h
  obtain ⟨-, i, hi, hti, hlt⟩ := hopen t ht
  refine ⟨spans ++ [(i, m)], ?_, ?_, ?_⟩
  · refine List.rel_append htrades (List.Forall₂.cons ?_ .nil)
    exact ⟨hi.trans hm, hentry ▸ hti, htime.trans hexit.symm, by simp [hexit]⟩
  · rw [List.pairwise_append]
    exact ⟨hdisj, by simp, fun p hp q hq => by rw [List.mem_singleton.1 hq]; exact hlt p hp⟩
  · intro p hp
    rcases List.mem_append.1 hp with hp | hp
    · exact (hle p hp).trans hm
    · rw [List.mem_singleton.1 hp]

theorem manage_scheduled (h : Scheduled df n s) (hbar : timeAt df n = some bar.timestamp) :
    Scheduled df n (b.manage bar s) := by
  unfold Backtest.manage
  split
  · exact h
  · rename_i t ht
    cases hexit : barExit b.config t bar.open_ bar.high bar.low with
    | none =>
      obtain ⟨spans, htrades, hdisj, hle, hopen⟩ := h
      have hnone := (hopen t ht).1
      simp only [managePosition, hexit, hnone, Option.isSome_none, Bool.false_eq_true, if_false]
      exact ⟨spans, htrades, hdisj, hle, by simpa [ht] using hopen⟩
    | some e =>
      simp only [managePosition, hexit, settle, Option.isSome_some, if_true]
      obtain ⟨spans, htrades, hdisj, hle⟩ := h.close ht
        (managePosition b.config t bar.open_ bar.high bar.low bar.timestamp b.useRealFunding)
        le_rfl (by simp [managePosition, hexit, settle]) hbar
        (by simp [managePosition, hexit, settle])
      simp only [managePosition, hexit, settle] at htrades
      exact ⟨spans, htrades, hdisj, hle, by simp⟩

theorem decide_scheduled (seen : List (Bar γ)) (h : Scheduled df n s) :
    Scheduled df n (b.decide seen s) := by
  unfold Backtest.decide
  split <;> exact h

theorem step_scheduled {seen : List (Bar γ)} (h : Scheduled df n s)
    (hbar : timeAt df (n + 1) = some bar.timestamp) :
    Scheduled df (n + 1) (b.step s (bar, seen)) :=
  decide_scheduled seen
    (manage_scheduled (chargeFunding_scheduled (fillPending_scheduled h hbar)) hbar)

theorem init_scheduled (b : Backtest γ) (df : List (Bar γ)) : Scheduled df 0 b.init :=
  ⟨[], .nil, .nil, by simp, by simp [Backtest.init]⟩

/-- The input of the loop at the position `k` is the bar at `k + 1`. -/
theorem bars_getElem? (df : List (Bar γ)) (k : ℕ) :
    (Backtest.bars df)[k]? = df[k + 1]?.map fun bar => (bar, df.take (k + 2)) := by
  simp [Backtest.bars, List.getElem?_tail, Function.comp_def]

/-- The loop over one bar more. -/
theorem run_bars_succ (b : Backtest γ) (s : State) {df : List (Bar γ)} {k : ℕ} {bar : Bar γ}
    (hbar : df[k + 1]? = some bar) :
    Foundations.run b.step s ((Backtest.bars df).take (k + 1)) =
      b.step (Foundations.run b.step s ((Backtest.bars df).take k)) (bar, df.take (k + 2)) := by
  have hinput : (Backtest.bars df)[k]? = some (bar, df.take (k + 2)) := by
    rw [bars_getElem?, hbar]
    rfl
  obtain ⟨hk, hget⟩ := List.getElem?_eq_some_iff.1 hinput
  rw [List.take_succ_eq_append_getElem hk, Foundations.run_append, hget]
  rfl

/-- There is a bar for each round of the loop. -/
theorem bar_of_lt_bars {df : List (Bar γ)} {k : ℕ} (hk : k < (Backtest.bars df).length) :
    ∃ bar, df[k + 1]? = some bar := by
  have hget := bars_getElem? df k
  rw [List.getElem?_eq_getElem hk] at hget
  obtain ⟨bar, hbar, -⟩ := Option.map_eq_some_iff.1 hget.symm
  exact ⟨bar, hbar⟩

/-- **The schedule of a run**: the trades closed after `k` bars are disjoint. -/
theorem run_scheduled (b : Backtest γ) (df : List (Bar γ)) {k : ℕ}
    (hk : k ≤ (Backtest.bars df).length) :
    Scheduled df k (Foundations.run b.step b.init ((Backtest.bars df).take k)) := by
  induction k with
  | zero => exact init_scheduled b df
  | succ k ih =>
    obtain ⟨bar, hbar⟩ := bar_of_lt_bars hk
    rw [run_bars_succ b _ hbar]
    exact step_scheduled (ih (Nat.le_of_succ_le hk)) (by simp [timeAt, hbar])

theorem finish_disjoint (h : Scheduled df n s) (hn : n + 1 ≤ df.length) :
    Disjoint df (b.finish df s).trades := by
  unfold Backtest.finish
  split
  · rename_i t last ht hlast
    have htime : timeAt df (df.length - 1) = some last.timestamp := by
      rw [List.getLast?_eq_getElem?] at hlast
      simp [timeAt, hlast]
    obtain ⟨spans, htrades, hdisj, -⟩ := h.close ht (settle b.config b.useRealFunding
      { t with
        exitPrice := some last.close
        exitTime := some last.timestamp
        exitReason := some .endOfData }) (by omega) rfl htime rfl
    exact ⟨spans, htrades, hdisj⟩
  · obtain ⟨spans, htrades, hdisj, -⟩ := h
    exact ⟨spans, htrades, hdisj⟩

/-- On a frame in time order, trades over disjoint stretches are disjoint in time. -/
theorem Disjoint.in_time {trades : List BacktestTrade} (h : Disjoint df trades)
    (hdf : df.Pairwise fun x y => x.timestamp < y.timestamp) :
    trades.Pairwise fun t u => ∀ x ∈ t.exitTime, x < u.entryTime := by
  obtain ⟨spans, htrades, hdisj⟩ := h
  have hlt : ∀ {i j : ℕ} {x y : Datetime}, i < j → timeAt df i = some x → timeAt df j = some y →
      x < y := by
    intro i j x y hij hx hy
    obtain ⟨r, hr, rfl⟩ := Option.map_eq_some_iff.1 hx
    obtain ⟨r', hr', rfl⟩ := Option.map_eq_some_iff.1 hy
    obtain ⟨hi, rfl⟩ := List.getElem?_eq_some_iff.1 hr
    obtain ⟨hj, rfl⟩ := List.getElem?_eq_some_iff.1 hr'
    exact List.pairwise_iff_getElem.1 hdf i j hi hj hij
  have hlen := htrades.length_eq
  refine List.pairwise_iff_getElem.2 fun i j hi hj hij x hx => ?_
  have ht := htrades.get hi (hlen ▸ hi)
  have hu := htrades.get hj (hlen ▸ hj)
  have hspans := List.pairwise_iff_getElem.1 hdisj i j (hlen ▸ hi) (hlen ▸ hj) hij
  exact hlt hspans (ht.exit.trans hx) hu.entry

end Schedule

/-! ## The accounts of a whole run -/

/-- Every bar so far was entered with a positive equity. -/
abbrev Solvent (b : Backtest γ) (inputs : List (Bar γ × List (Bar γ))) : Prop :=
  Guarded b.step (fun s _ => 0 < s.equity) b.init inputs

theorem run_balanced {b : Backtest γ} {inputs : List (Bar γ × List (Bar γ))}
    (h : Solvent b inputs) : Balanced b (Foundations.run b.step b.init inputs) ∧
      lastEquity b (Foundations.run b.step b.init inputs) =
        (Foundations.run b.step b.init inputs).equity :=
  (Always.of_guarded (P := fun s => Balanced b s ∧ lastEquity b s = s.equity)
    (fun _ i hs hpos => step_balanced i hs.1 hpos) (init_balanced b) h).last

/-- No trade is left open after the run. -/
theorem run_openTrade (b : Backtest γ) (df : List (Bar γ)) : (b.run df).openTrade = none := by
  cases df with
  | nil => rfl
  | cons bar rest =>
    unfold Backtest.run Backtest.finish
    split
    · rfl
    · rename_i hnot
      rw [List.getLast?_eq_some_getLast (List.cons_ne_nil bar rest)] at hnot
      cases ht : (Foundations.run b.step b.init (Backtest.bars (bar :: rest))).openTrade with
      | none => rfl
      | some t => exact (hnot t _ ht rfl).elim

/-- The trades of a run are disjoint. -/
theorem run_disjoint (b : Backtest γ) (df : List (Bar γ)) : Disjoint df (b.run df).trades := by
  cases df with
  | nil => exact ⟨[], .nil, .nil⟩
  | cons bar rest =>
    have hlen : (Backtest.bars (bar :: rest)).length = rest.length := by simp [Backtest.bars]
    have h := run_scheduled b (bar :: rest) le_rfl
    rw [List.take_length, hlen] at h
    exact finish_disjoint h le_rfl

/-- On a frame of two bars or more the equity curve of a run is not empty. -/
theorem run_equityCurve (b : Backtest γ) {df : List (Bar γ)} (hdf : 2 ≤ df.length) :
    (b.run df).equityCurve ≠ [] := by
  have hstep : ∀ s input, (b.step s input).equityCurve ≠ [] := by
    intro s input
    simp [Backtest.step, Backtest.recordEquity]
  have hrun : (Foundations.run b.step b.init (Backtest.bars df)).equityCurve ≠ [] := by
    rcases List.eq_nil_or_concat (Backtest.bars df) with hbars | ⟨inputs, input, hbars⟩
    · have hlen := congrArg List.length hbars
      simp only [Backtest.bars, List.length_tail, List.length_map, List.length_zipIdx,
        List.length_nil] at hlen
      omega
    · rw [hbars, List.concat_eq_append, Foundations.run_append]
      exact hstep _ input
  unfold Backtest.run Backtest.finish
  split
  · simp
  · exact hrun

/-- **Accounting conservation.** As long as the equity stays positive, the two accounts, the
closed trades and the count of open positions agree after every bar and after the run; no
position is open after the run and the equity curve ends in the initial capital plus the P&L of
all trades. The trades are disjoint whatever the equity does. -/
theorem accounting_conservation (b : Backtest γ) (df : List (Bar γ)) :
    (∀ k ≤ (Backtest.bars df).length, Solvent b ((Backtest.bars df).take k) →
      Balanced b (Foundations.run b.step b.init ((Backtest.bars df).take k))) ∧
    (Solvent b (Backtest.bars df) →
      0 < (Foundations.run b.step b.init (Backtest.bars df)).equity →
      Balanced b (b.run df) ∧ (b.run df).risk.state.positionsOpen = 0 ∧
        (2 ≤ df.length → ∃ point, (b.run df).equityCurve.getLast? = some point ∧
          point.equity = b.config.initialCapital + ((b.run df).trades.map BacktestTrade.pnl).sum)) ∧
    Disjoint df (b.run df).trades ∧
    (df.Pairwise (fun x y => x.timestamp < y.timestamp) →
      (b.run df).trades.Pairwise fun t u => ∀ x ∈ t.exitTime, x < u.entryTime) := by
  have hdisj := run_disjoint b df
  refine ⟨fun k _ h => (run_balanced h).1, ?_, hdisj, hdisj.in_time⟩
  intro h hpos
  obtain ⟨hb, hlast⟩ := run_balanced h
  obtain ⟨hb', hlast'⟩ : Balanced b (b.run df) ∧ lastEquity b (b.run df) = (b.run df).equity :=
    finish_balanced hb hpos hlast
  refine ⟨hb', ?_, ?_⟩
  · rw [hb'.positions, run_openTrade]
    rfl
  · intro hdf
    have hpoint := List.getLast?_eq_some_getLast (run_equityCurve b hdf)
    refine ⟨_, hpoint, ?_⟩
    rw [lastEquity, hpoint] at hlast'
    exact hlast'.trans hb'.equity

section Example

/-- A frame whose last bar reaches the target of the trade entered on the bar before it. -/
def targetFrame : List (Bar Unit) :=
  [⟨0, 100, 101, 99, 100, ()⟩, ⟨1, 100, 101, 99, 100, ()⟩, ⟨2, 100, 104, 99, 103, ()⟩,
    ⟨3, 103, 111, 102, 110, ()⟩]

/-- A strategy that goes long once, on the second bar. -/
def longOnce : Backtest Unit where
  today := 0
  signalFunc seen :=
    if seen.length = 2 then some { stopLoss := some 90, takeProfit1 := some 110 } else none

theorem longOnce_conservation :
    Balanced longOnce (longOnce.run targetFrame) ∧
      (longOnce.run targetFrame).trades.length = 1 ∧
      (longOnce.run targetFrame).risk.state.positionsOpen = 0 :=
  have h := (accounting_conservation longOnce targetFrame).2.1 (by decide +kernel)
    (by decide +kernel)
  ⟨h.1, by decide +kernel, h.2.1⟩

end Example

end AlphaOne.Backtester

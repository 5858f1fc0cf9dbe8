import AlphaOne.Backtester.Accounting
import Mathlib.Data.List.Perm.Basic

/-!
# A backtest does not look ahead

Two backtests with the same configuration and the same strategy, over frames that agree through
the position `k` and funding tables that agree on the events up to the bars through `k`, have done
the same after the bar at `k` (`Alike`): they run over the same inputs, and each stage of the loop
body reads nothing else. What has been done is final: later bars extend the trades, the entries
and the equity curve (`Extends`).

The two tables have to be both empty or both not. An empty table is taken for an omitted one and
its trades are charged the flat estimate, so that an event after `k` changes how the bars before
it are accounted. On a frame out of time order, events later than the bar at `k` may have been
charged by then; the tables have to agree up to each bar (`later_event_changes_the_past`).
-/

namespace AlphaOne.Backtester

open Foundations Risk

variable {γ : Type*}

/-! ## The risk engine's day -/

theorem resetDaily_new (config : RiskConfig) (initialEquity : ℚ) (today : ℤ) (now : Datetime) :
    (RiskEngine.new config initialEquity today).resetDaily now =
      RiskEngine.new config initialEquity now.date := by
  unfold RiskEngine.resetDaily
  split
  · rfl
  · rename_i h
    simp only [RiskEngine.new, ne_eq, not_not] at h
    simp [RiskEngine.new, h]

theorem resetDaily_recordPositionClose (e : RiskEngine) (now : Datetime) :
    e.recordPositionClose.resetDaily now = (e.resetDaily now).recordPositionClose := by
  unfold RiskEngine.resetDaily RiskEngine.recordPositionClose
  split
  · rfl
  · rfl

/-! ## Funding events -/

/-- The events up to a time. -/
def dueBy (time : Datetime) (events : List FundingEvent) : List FundingEvent :=
  events.filter (·.timestamp ≤ time)

/-- A funding table in time order, as the loop reads it. -/
def InOrder (events : List FundingEvent) : Prop :=
  events.Pairwise (·.timestamp ≤ ·.timestamp)

/-- What an event charges a trade at a mark price: nothing, unless the trade was open before it. -/
def charge (t : BacktestTrade) (mark : ℚ) (event : FundingEvent) : ℚ :=
  if t.entryTime < event.timestamp then fundingCost t event mark else 0

/-- **What a bar charges**: the sum of the charges of the events up to it, which are consumed. -/
theorem applyFundingEvents_eq (now : Datetime) (mark : ℚ) {events : List FundingEvent}
    (h : InOrder events) (trade : Option BacktestTrade) :
    applyFundingEvents now mark trade events =
      (trade.map fun t => { t with
        funding := t.funding + ((dueBy now events).map (charge t mark)).sum },
        events.filter (now < ·.timestamp)) := by
  induction events generalizing trade with
  | nil => cases trade <;> simp [applyFundingEvents, dueBy]
  | cons event events ih =>
    obtain ⟨hle, hrest⟩ := List.pairwise_cons.1 h
    by_cases hdue : event.timestamp ≤ now
    · rw [applyFundingEvents, if_pos hdue, ih hrest]
      have hlater : ¬now < event.timestamp := not_lt.2 hdue
      cases trade with
      | none => simp [hlater]
      | some t =>
        have hcharge : ∀ q, charge { t with funding := q } mark = charge t mark := fun q => rfl
        by_cases hexp : t.entryTime < event.timestamp
        · simp [hexp, hlater, hcharge, dueBy, hdue, charge, add_assoc]
        · simp [hexp, hlater, dueBy, hdue, charge]
    · have hall : ∀ e ∈ event :: events, now < e.timestamp := by
        intro e he
        rcases List.mem_cons.1 he with rfl | he
        · exact not_le.1 hdue
        · exact (not_le.1 hdue).trans_le (hle e he)
      have hnone : dueBy now (event :: events) = [] :=
        List.filter_eq_nil_iff.2 fun e he => by simpa using hall e he
      rw [applyFundingEvents, if_neg hdue, hnone,
        List.filter_eq_self.2 fun e he => by simpa using hall e he]
      cases trade <;> simp

/-! ## Two runs over the same bars -/

/-- Two states of backtests over the same frame that have done the same: they differ at most in the
day the risk engine was built on and in funding events after all bars of the frame. -/
structure Alike (frame : List (Bar γ)) (s s' : State) : Prop where
  trades : s.trades = s'.trades
  equityCurve : s.equityCurve = s'.equityCurve
  equity : s.equity = s'.equity
  openTrade : s.openTrade = s'.openTrade
  pendingSignal : s.pendingSignal = s'.pendingSignal
  tradeCounter : s.tradeCounter = s'.tradeCounter
  risk : ∀ now, s.risk.resetDaily now = s'.risk.resetDaily now
  inOrder : InOrder s.fundingEvents
  inOrder' : InOrder s'.fundingEvents
  funding : ∀ bar ∈ frame,
    (dueBy bar.timestamp s.fundingEvents).Perm (dueBy bar.timestamp s'.fundingEvents)

section Stages

variable {b b' : Backtest γ} {frame : List (Bar γ)} {s s' : State}

theorem fillPending_alike (bar : Bar γ) (hconfig : b.config = b'.config) (h : Alike frame s s') :
    Alike frame (b.fillPending bar s) (b'.fillPending bar s') := by
  have hcan : s.risk.canTrade bar.timestamp = s'.risk.canTrade bar.timestamp := by
    simp only [RiskEngine.canTrade, h.risk]
  unfold Backtest.fillPending
  rw [← h.pendingSignal, ← h.openTrade, ← hcan, ← h.tradeCounter, ← hconfig]
  split
  · split
    · exact ⟨h.trades, h.equityCurve, h.equity, rfl, rfl, rfl, fun _ => rfl, h.inOrder,
        h.inOrder', h.funding⟩
    · exact ⟨h.trades, h.equityCurve, h.equity, rfl, rfl, rfl, fun _ => rfl, h.inOrder,
        h.inOrder', h.funding⟩
  · exact h

theorem chargeFunding_alike {bar : Bar γ} (hreal : b.useRealFunding = b'.useRealFunding)
    (hbar : bar ∈ frame) (h : Alike frame s s') :
    Alike frame (b.chargeFunding bar s) (b'.chargeFunding bar s') := by
  unfold Backtest.chargeFunding
  rw [← hreal]
  split
  · rw [applyFundingEvents_eq _ _ h.inOrder, applyFundingEvents_eq _ _ h.inOrder']
    have hsum : ∀ t, ((dueBy bar.timestamp s.fundingEvents).map (charge t bar.open_)).sum =
        ((dueBy bar.timestamp s'.fundingEvents).map (charge t bar.open_)).sum :=
      fun t => ((h.funding bar hbar).map _).sum_eq
    refine ⟨h.trades, h.equityCurve, h.equity, ?_, h.pendingSignal, h.tradeCounter, h.risk,
      h.inOrder.filter _, h.inOrder'.filter _, ?_⟩
    · simp only [hsum, h.openTrade]
    · -- What stays due by a later bar is what was due by it and is not yet consumed.
      intro later hlater
      simp only [dueBy]
      rw [List.filter_comm, List.filter_comm _ _ s'.fundingEvents]
      exact (h.funding later hlater).filter _
  · exact h

theorem manage_alike (bar : Bar γ) (hconfig : b.config = b'.config)
    (hreal : b.useRealFunding = b'.useRealFunding) (h : Alike frame s s') :
    Alike frame (b.manage bar s) (b'.manage bar s') := by
  unfold Backtest.manage
  rw [← h.openTrade, ← hconfig, ← hreal, ← h.trades, ← h.equity]
  split
  · exact h
  · dsimp only
    split
    · have hclose : ∀ now, s.risk.recordPositionClose.resetDaily now =
          s'.risk.recordPositionClose.resetDaily now := by
        intro now
        rw [resetDaily_recordPositionClose, resetDaily_recordPositionClose, h.risk]
      refine ⟨rfl, h.equityCurve, rfl, rfl, h.pendingSignal, h.tradeCounter, fun now => ?_,
        h.inOrder, h.inOrder', h.funding⟩
      simp only [RiskEngine.recordTradeResult, hclose]
    · exact ⟨rfl, h.equityCurve, rfl, rfl, h.pendingSignal, h.tradeCounter, h.risk, h.inOrder,
        h.inOrder', h.funding⟩

theorem decide_alike (hsignal : b.signalFunc = b'.signalFunc) (seen : List (Bar γ))
    (h : Alike frame s s') : Alike frame (b.decide seen s) (b'.decide seen s') := by
  unfold Backtest.decide
  rw [← hsignal, ← h.openTrade]
  split
  · exact ⟨h.trades, h.equityCurve, h.equity, rfl, rfl, h.tradeCounter, h.risk, h.inOrder,
      h.inOrder', h.funding⟩
  · exact h

/-- **A bar keeps two runs alike.** -/
theorem step_alike (hconfig : b.config = b'.config) (hreal : b.useRealFunding = b'.useRealFunding)
    (hsignal : b.signalFunc = b'.signalFunc) {input : Bar γ × List (Bar γ)}
    (hbar : input.1 ∈ frame) (h : Alike frame s s') :
    Alike frame (b.step s input) (b'.step s' input) := by
  obtain ⟨bar, seen⟩ := input
  have hfilled := fillPending_alike bar hconfig h
  have hfunded := chargeFunding_alike hreal hbar hfilled
  have hmanaged := manage_alike bar hconfig hreal hfunded
  have hdecided := decide_alike hsignal seen hmanaged
  refine ⟨hdecided.trades, ?_, hdecided.equity, hdecided.openTrade, hdecided.pendingSignal,
    hdecided.tradeCounter, hdecided.risk, hdecided.inOrder, hdecided.inOrder', hdecided.funding⟩
  simp only [Backtest.step, Backtest.recordEquity, hdecided.equityCurve, hdecided.equity]

end Stages

/-- The state after the bars through the position `k` of the frame. -/
def Backtest.upTo (b : Backtest γ) (df : List (Bar γ)) (k : ℕ) : State :=
  Foundations.run b.step b.init ((Backtest.bars df).take k)

/-- The loop's inputs through `k` are determined by the frame through `k`. -/
theorem bars_take_congr {df df' : List (Bar γ)} {k : ℕ}
    (h : df.take (k + 1) = df'.take (k + 1)) :
    (Backtest.bars df).take k = (Backtest.bars df').take k := by
  refine List.ext_getElem? fun i => ?_
  by_cases hi : i < k
  · have hbar : df[i + 1]? = df'[i + 1]? := by
      have := congrArg (·[i + 1]?) h
      simpa [List.getElem?_take, hi] using this
    have hseen : df.take (i + 2) = df'.take (i + 2) := by
      have := congrArg (List.take (i + 2)) h
      simpa [List.take_take, show min (i + 2) (k + 1) = i + 2 by omega] using this
    rw [List.getElem?_take_of_lt hi, List.getElem?_take_of_lt hi, bars_getElem?, bars_getElem?,
      hbar, hseen]
  · rw [List.getElem?_eq_none, List.getElem?_eq_none]
    · simp only [List.length_take]
      omega
    · simp only [List.length_take]
      omega

/-- The bars of the loop's inputs through `k` are bars of the frame through `k`. -/
theorem mem_take_of_mem_bars {df : List (Bar γ)} {k : ℕ} {input : Bar γ × List (Bar γ)}
    (h : input ∈ (Backtest.bars df).take k) : input.1 ∈ df.take (k + 1) := by
  obtain ⟨i, hi⟩ := List.mem_iff_getElem?.1 h
  have hlt : i < k := by
    by_contra hge
    rw [List.getElem?_eq_none (by simp only [List.length_take]; omega)] at hi
    cases hi
  rw [List.getElem?_take_of_lt hlt, bars_getElem?] at hi
  obtain ⟨bar, hbar, rfl⟩ := Option.map_eq_some_iff.1 hi
  exact List.mem_iff_getElem?.2 ⟨i + 1, by rwa [List.getElem?_take_of_lt (by omega)]⟩

theorem init_alike (b : Backtest γ) (today : ℤ) (rates : List FundingEvent)
    {frame : List (Bar γ)} (hfunding : ∀ bar ∈ frame,
      (dueBy bar.timestamp b.fundingRates).Perm (dueBy bar.timestamp rates)) :
    Alike frame b.init (Backtest.init { b with today, fundingRates := rates }) := by
  refine ⟨rfl, rfl, rfl, rfl, rfl, rfl, fun now => ?_, ?_, ?_, fun bar hbar => ?_⟩
  · simp only [Backtest.init, resetDaily_new]
  · exact List.pairwise_insertionSort _ _
  · exact List.pairwise_insertionSort _ _
  · have hsort := (List.perm_insertionSort (fun e f : FundingEvent => e.timestamp ≤ f.timestamp)
      b.fundingRates).filter (·.timestamp ≤ bar.timestamp)
    have hsort' := (List.perm_insertionSort (fun e f : FundingEvent => e.timestamp ≤ f.timestamp)
      rates).filter (·.timestamp ≤ bar.timestamp)
    exact hsort.trans ((hfunding bar hbar).trans hsort'.symm)

/-! ## What has been done is final -/

/-- What a trade is entered with. -/
def BacktestTrade.entry (t : BacktestTrade) : BacktestTrade :=
  { tradeId := t.tradeId
    side := t.side
    entryPrice := t.entryPrice
    entryTime := t.entryTime
    stopLoss := t.stopLoss
    takeProfit := t.takeProfit
    quantity := t.quantity
    leverage := t.leverage
    marketRegime := t.marketRegime }

/-- The entries made so far, in order. -/
def State.entries (s : State) : List BacktestTrade :=
  (s.trades ++ s.openTrade.toList).map BacktestTrade.entry

/-- A later state has the entries, the exits and the equity points of an earlier one. -/
structure Extends (s r : State) : Prop where
  entries : s.entries <+: r.entries
  trades : s.trades <+: r.trades
  equityCurve : s.equityCurve <+: r.equityCurve

theorem Extends.refl (s : State) : Extends s s :=
  ⟨List.prefix_refl _, List.prefix_refl _, List.prefix_refl _⟩

theorem Extends.trans {s r q : State} (h : Extends s r) (h' : Extends r q) : Extends s q :=
  ⟨h.entries.trans h'.entries, h.trades.trans h'.trades, h.equityCurve.trans h'.equityCurve⟩

theorem entry_managePosition (config : BacktestConfig) (t : BacktestTrade) (o hi lo : ℚ)
    (time : Datetime) (real : Bool) :
    (managePosition config t o hi lo time real).entry = t.entry := by
  unfold managePosition
  split
  · rfl
  · rfl

section Extension

variable (b : Backtest γ) (s : State)

/-- Step 1 is the one that enters trades. -/
theorem fillPending_entries (bar : Bar γ) :
    (b.fillPending bar s).entries = s.entries ∨
      ∃ signal ∈ s.pendingSignal, ∃ risk id, (b.fillPending bar s).entries =
        s.entries ++ [(openTrade b.config risk signal bar.open_ bar.timestamp id).entry] := by
  unfold Backtest.fillPending
  split
  · rename_i signal hpending hopen
    split
    · rename_i risk hcan
      exact Or.inr ⟨signal, hpending, risk, s.tradeCounter + 1, by simp [State.entries, hopen]⟩
    · exact Or.inl rfl
  · exact Or.inl rfl

theorem chargeFunding_entries (bar : Bar γ) : (b.chargeFunding bar s).entries = s.entries := by
  unfold Backtest.chargeFunding
  split
  · obtain ⟨f, hf⟩ := applyFundingEvents_trade bar.timestamp bar.open_ s.fundingEvents s.openTrade
    cases hopen : s.openTrade with
    | none =>
      rw [hopen] at hf
      simpa [State.entries, hopen] using hf
    | some t =>
      rw [hopen] at hf
      simp [State.entries, hf, hopen, BacktestTrade.entry]
  · rfl

theorem manage_entries (bar : Bar γ) : (b.manage bar s).entries = s.entries := by
  unfold Backtest.manage
  split
  · rfl
  · rename_i t hopen
    dsimp only
    split
    · simp [State.entries, hopen, entry_managePosition]
    · simp [State.entries, hopen, entry_managePosition]

theorem decide_entries (seen : List (Bar γ)) : (b.decide seen s).entries = s.entries := by
  unfold Backtest.decide
  split
  · rfl
  · rfl

theorem finish_entries (df : List (Bar γ)) : (b.finish df s).entries = s.entries := by
  unfold Backtest.finish
  split
  · rename_i t last hopen hlast
    simp only [State.entries, hopen, Option.toList_some, Option.toList_none, List.append_nil]
    rw [List.map_append, List.map_append]
    rfl
  · rfl

/-- The entries after a bar are those after its first step. -/
theorem step_entries (input : Bar γ × List (Bar γ)) :
    (b.step s input).entries = (b.fillPending input.1 s).entries := by
  obtain ⟨bar, seen⟩ := input
  exact (decide_entries b _ seen).trans
    ((manage_entries b _ bar).trans (chargeFunding_entries b _ bar))

/-- A bar adds one point to the curve, the equity it leaves. -/
theorem step_equityCurve (bar : Bar γ) (seen : List (Bar γ)) :
    (b.step s (bar, seen)).equityCurve =
      s.equityCurve ++ [⟨bar.timestamp, (b.step s (bar, seen)).equity, bar.close⟩] := by
  have hfill : (b.fillPending bar s).equityCurve = s.equityCurve := by
    unfold Backtest.fillPending
    split
    · split <;> rfl
    · rfl
  have hcharge : ∀ r, (b.chargeFunding bar r).equityCurve = r.equityCurve := by
    intro r
    unfold Backtest.chargeFunding
    split <;> rfl
  have hmanage : ∀ r, (b.manage bar r).equityCurve = r.equityCurve := by
    intro r
    unfold Backtest.manage
    split
    · rfl
    · dsimp only
      split <;> rfl
  have hdecide : ∀ r, (b.decide seen r).equityCurve = r.equityCurve := by
    intro r
    unfold Backtest.decide
    split <;> rfl
  simp only [Backtest.step, Backtest.recordEquity, hdecide, hmanage, hcharge, hfill]

theorem step_trades (input : Bar γ × List (Bar γ)) : s.trades <+: (b.step s input).trades := by
  obtain ⟨bar, seen⟩ := input
  have hfill : (b.fillPending bar s).trades = s.trades := by
    unfold Backtest.fillPending
    split
    · split <;> rfl
    · rfl
  have hcharge : ∀ r, (b.chargeFunding bar r).trades = r.trades := by
    intro r
    unfold Backtest.chargeFunding
    split <;> rfl
  have hmanage : ∀ r, r.trades <+: (b.manage bar r).trades := by
    intro r
    unfold Backtest.manage
    split
    · exact List.prefix_refl _
    · dsimp only
      split
      · exact List.prefix_append _ _
      · exact List.prefix_refl _
  have hdecide : ∀ r, (b.decide seen r).trades = r.trades := by
    intro r
    unfold Backtest.decide
    split <;> rfl
  have hprefix := hmanage (b.chargeFunding bar (b.fillPending bar s))
  rw [hcharge, hfill] at hprefix
  simpa only [Backtest.step, Backtest.recordEquity, hdecide] using hprefix

theorem step_extends (input : Bar γ × List (Bar γ)) : Extends s (b.step s input) := by
  refine ⟨?_, step_trades b s input, ?_⟩
  · rw [step_entries]
    rcases fillPending_entries b s input.1 with h | ⟨_, -, _, _, h⟩
    · exact h ▸ List.prefix_refl _
    · exact h ▸ List.prefix_append _ _
  · rw [step_equityCurve]
    exact List.prefix_append _ _

theorem finish_extends (df : List (Bar γ)) : Extends s (b.finish df s) := by
  refine ⟨(finish_entries b s df) ▸ List.prefix_refl _, ?_, ?_⟩
  · unfold Backtest.finish
    split
    · exact List.prefix_append _ _
    · exact List.prefix_refl _
  · unfold Backtest.finish
    split
    · exact List.prefix_append _ _
    · exact List.prefix_refl _

/-- Later bars and the end of the data only add to what a run has done through `k`. -/
theorem run_extends (df : List (Bar γ)) (k : ℕ) : Extends (b.upTo df k) (b.run df) := by
  have hrun : ∀ (inputs : List (Bar γ × List (Bar γ))) (s : State),
      Extends s (Foundations.run b.step s inputs) := by
    intro inputs s
    exact (Always.of_step (P := Extends s) (fun r i hr => hr.trans (step_extends b r i))
      (Extends.refl s) inputs).last
  have hsplit : Foundations.run b.step b.init (Backtest.bars df) =
      Foundations.run b.step (b.upTo df k) ((Backtest.bars df).drop k) := by
    rw [Backtest.upTo, ← Foundations.run_append, List.take_append_drop]
  refine Extends.trans ?_ (finish_extends b _ df)
  rw [hsplit]
  exact hrun _ _

end Extension

/-! ## Every entry is filled at the open after its decision -/

/-- The trade was decided on the bar at `T` and filled at the open of the bar at `T + 1`, with the
slippage against the trader. -/
def FilledAtNextOpen (b : Backtest γ) (df : List (Bar γ)) (t : BacktestTrade) : Prop :=
  ∃ T signal bar, 1 ≤ T ∧ b.signalFunc (df.take (T + 1)) = some signal ∧ df[T + 1]? = some bar ∧
    t.side = signal.signalType ∧ t.entryTime = bar.timestamp ∧
    t.entryPrice = if t.side = .long then bar.open_ * (1 + b.config.slippageRate)
      else bar.open_ * (1 - b.config.slippageRate)

/-- After the bar at `n`, a pending order is the decision taken on that bar while no trade was open,
and every entry so far was filled at the open after its decision. -/
structure Decided (b : Backtest γ) (df : List (Bar γ)) (n : ℕ) (s : State) : Prop where
  flat : s.pendingSignal.isSome → s.openTrade = none
  pending : ∀ signal ∈ s.pendingSignal, 1 ≤ n ∧ b.signalFunc (df.take (n + 1)) = some signal
  filled : ∀ t ∈ s.entries, FilledAtNextOpen b df t

section Fills

variable {b : Backtest γ} {df : List (Bar γ)} {n : ℕ} {s : State}

/-- Step 1 fills or drops the pending order. -/
theorem fillPending_pendingSignal (bar : Bar γ) (h : s.pendingSignal.isSome → s.openTrade = none) :
    (b.fillPending bar s).pendingSignal = none := by
  unfold Backtest.fillPending
  split
  · split <;> rfl
  · rename_i hnot
    cases hp : s.pendingSignal with
    | none => rfl
    | some signal => exact (hnot signal hp (h (by simp [hp]))).elim

theorem step_decided (h : Decided b df n s) {bar : Bar γ} (hbar : df[n + 1]? = some bar) :
    Decided b df (n + 1) (b.step s (bar, df.take (n + 2))) := by
  have hdropped : ∀ r, r = b.manage bar (b.chargeFunding bar (b.fillPending bar s)) →
      r.pendingSignal = none := by
    rintro r rfl
    have hfill := fillPending_pendingSignal (b := b) bar h.flat
    unfold Backtest.manage
    split
    · unfold Backtest.chargeFunding
      split <;> exact hfill
    · dsimp only
      unfold Backtest.chargeFunding
      split_ifs <;> exact hfill
  refine ⟨?_, ?_, ?_⟩
  · simp only [Backtest.step, Backtest.recordEquity]
    unfold Backtest.decide
    split
    · rename_i signal hsignal hopen
      exact fun _ => hopen
    · intro hsome
      rw [hdropped _ rfl] at hsome
      cases hsome
  · simp only [Backtest.step, Backtest.recordEquity]
    unfold Backtest.decide
    split
    · rename_i signal hsignal hopen
      rintro _ ⟨⟩
      exact ⟨by omega, hsignal⟩
    · intro signal hsignal
      rw [hdropped _ rfl] at hsignal
      cases hsignal
  · rw [step_entries]
    intro t ht
    rcases fillPending_entries b s bar with heq | ⟨signal, hsignal, risk, id, heq⟩
    · exact h.filled t (heq ▸ ht)
    · rw [heq] at ht
      rcases List.mem_append.1 ht with ht | ht
      · exact h.filled t ht
      · obtain ⟨hn, hdecision⟩ := h.pending signal hsignal
        rw [List.mem_singleton.1 ht]
        exact ⟨n, signal, bar, hn, hdecision, hbar, rfl, rfl, rfl⟩

/-- **Every entry of a run is filled at the open after its decision.** -/
theorem upTo_decided (b : Backtest γ) (df : List (Bar γ)) {k : ℕ}
    (hk : k ≤ (Backtest.bars df).length) : Decided b df k (b.upTo df k) := by
  induction k with
  | zero => exact ⟨by simp [Backtest.upTo, Backtest.init], by simp [Backtest.upTo, Backtest.init],
      by simp [Backtest.upTo, Backtest.init, State.entries]⟩
  | succ k ih =>
    obtain ⟨bar, hbar⟩ := bar_of_lt_bars hk
    rw [Backtest.upTo, run_bars_succ b _ hbar]
    exact step_decided (ih (Nat.le_of_succ_le hk)) hbar

theorem run_filled (b : Backtest γ) (df : List (Bar γ)) :
    ∀ t ∈ (b.run df).trades, FilledAtNextOpen b df t := by
  intro t ht
  have h := (upTo_decided b df le_rfl).filled t.entry
  rw [Backtest.upTo, List.take_length, ← finish_entries b _ df] at h
  exact h (List.mem_map_of_mem (List.mem_append_left _ ht))

end Fills

/-! ## The decision on the last bar -/

theorem decide_pending (b : Backtest γ) (seen : List (Bar γ)) (s : State) :
    ∃ pending, b.decide seen s = { s with pendingSignal := pending } := by
  unfold Backtest.decide
  split
  · exact ⟨_, rfl⟩
  · exact ⟨s.pendingSignal, rfl⟩

theorem finish_pending (b : Backtest γ) (df : List (Bar γ)) (s : State) (pending : Option Signal) :
    (b.finish df { s with pendingSignal := pending }).trades = (b.finish df s).trades ∧
      (b.finish df { s with pendingSignal := pending }).equityCurve =
        (b.finish df s).equityCurve := by
  unfold Backtest.finish
  dsimp only
  split
  · exact ⟨rfl, rfl⟩
  · exact ⟨rfl, rfl⟩

/-- **A signal on the last bar is never executed**: a run does not depend on what the strategy
answers to the whole frame. -/
theorem run_last_signal (b : Backtest γ) (df : List (Bar γ))
    (f : List (Bar γ) → Option Signal) (hf : ∀ seen, seen ≠ df → f seen = b.signalFunc seen) :
    (Backtest.run { b with signalFunc := f } df).trades = (b.run df).trades ∧
      (Backtest.run { b with signalFunc := f } df).equityCurve = (b.run df).equityCurve := by
  rcases List.eq_nil_or_concat (Backtest.bars df) with hbars | ⟨inputs, ⟨bar, seen⟩, hbars⟩
  · simp only [Backtest.run, hbars, Foundations.run_nil]
    exact ⟨rfl, rfl⟩
  · rw [List.concat_eq_append] at hbars
    have hlen : inputs.length + 2 = df.length := by
      have := congrArg List.length hbars
      simp only [Backtest.bars, List.length_tail, List.length_map, List.length_zipIdx,
        List.length_append, List.length_singleton] at this
      omega
    have hseen : ∀ i ∈ inputs, i.2 ≠ df := by
      intro i hi heq
      obtain ⟨j, hj, rfl⟩ := List.mem_iff_getElem.1 hi
      have hget := bars_getElem? df j
      rw [hbars, List.getElem?_append_left hj, List.getElem?_eq_getElem hj] at hget
      obtain ⟨_, -, hinput⟩ := Option.map_eq_some_iff.1 hget.symm
      rw [← hinput] at heq
      have hcut := congrArg List.length heq
      rw [List.length_take] at hcut
      omega
    have hearlier : Foundations.run (Backtest.step { b with signalFunc := f }) b.init inputs =
        Foundations.run b.step b.init inputs := by
      refine run_relates (R := Eq) ?_ rfl
      rintro s _ ⟨bar, seen⟩ hi rfl
      simp only [Backtest.step, Backtest.decide, hf seen (hseen _ hi)]
      rfl
    have hlast : ∀ b' : Backtest γ, Foundations.run b'.step b'.init (Backtest.bars df) =
        b'.step (Foundations.run b'.step b'.init inputs) (bar, seen) := by
      intro b'
      rw [hbars, Foundations.run_append]
      rfl
    set r := Foundations.run b.step b.init inputs
    set m := b.manage bar (b.chargeFunding bar (b.fillPending bar r))
    obtain ⟨p, hp⟩ := decide_pending { b with signalFunc := f } seen m
    obtain ⟨q, hq⟩ := decide_pending b seen m
    have hstep : Backtest.step { b with signalFunc := f } r (bar, seen) =
        { Backtest.recordEquity bar m with pendingSignal := p } :=
      congrArg (Backtest.recordEquity bar) hp
    have hstep' : b.step r (bar, seen) =
        { Backtest.recordEquity bar m with pendingSignal := q } :=
      congrArg (Backtest.recordEquity bar) hq
    have hfinish := finish_pending b df (Backtest.recordEquity bar m)
    unfold Backtest.run
    rw [hlast, hlast, show Backtest.init { b with signalFunc := f } = b.init from rfl, hearlier,
      hstep, hstep']
    exact ⟨(hfinish p).1.trans (hfinish q).1.symm, (hfinish p).2.trans (hfinish q).2.symm⟩

/-! ## Two runs -/

/-- **A backtest does not look ahead.** When the frames agree through `k`, and the funding tables,
both empty or neither, agree on the events up to each bar through `k`, the two runs have made the
same entries and exits and recorded the same equity by the bar at `k`, and both results extend
what they have done by then. Every trade of a run is filled at the open after its decision, and a
signal on the last bar is never executed. -/
theorem no_look_ahead (b : Backtest γ) (today : ℤ) (rates : List FundingEvent)
    (df df' : List (Bar γ)) (k : ℕ) (hframe : df.take (k + 1) = df'.take (k + 1))
    (hempty : b.fundingRates = [] ↔ rates = [])
    (hrates : ∀ bar ∈ df.take (k + 1),
      (dueBy bar.timestamp b.fundingRates).Perm (dueBy bar.timestamp rates)) :
    let b' : Backtest γ := { b with today, fundingRates := rates }
    ((b.upTo df k).entries = (b'.upTo df' k).entries ∧
      (b.upTo df k).trades = (b'.upTo df' k).trades ∧
      (b.upTo df k).equityCurve = (b'.upTo df' k).equityCurve) ∧
    (Extends (b.upTo df k) (b.run df) ∧ Extends (b'.upTo df' k) (b'.run df')) ∧
    (∀ t ∈ (b.run df).trades, FilledAtNextOpen b df t) ∧
    ∀ f : List (Bar γ) → Option Signal, (∀ seen, seen ≠ df → f seen = b.signalFunc seen) →
      (Backtest.run { b with signalFunc := f } df).trades = (b.run df).trades ∧
        (Backtest.run { b with signalFunc := f } df).equityCurve = (b.run df).equityCurve := by
  intro b'
  have hreal : b.useRealFunding = b'.useRealFunding := by
    have hiff : b.fundingRates.isEmpty = true ↔ rates.isEmpty = true := by
      simpa [List.isEmpty_iff] using hempty
    simp only [Backtest.useRealFunding, b', Bool.eq_iff_iff.2 hiff]
  have hconfig : b.config = b'.config := rfl
  have hsignal : b.signalFunc = b'.signalFunc := rfl
  have halike : Alike (df.take (k + 1)) (b.upTo df k) (b'.upTo df' k) := by
    rw [Backtest.upTo, Backtest.upTo, ← bars_take_congr hframe]
    refine run_relates (fun s s' input hinput hs => ?_) (init_alike b today rates hrates)
    exact step_alike hconfig hreal hsignal (mem_take_of_mem_bars hinput) hs
  refine ⟨⟨?_, halike.trades, halike.equityCurve⟩, ⟨run_extends b df k, run_extends b' df' k⟩,
    run_filled b df, run_last_signal b df⟩
  simp only [State.entries, halike.trades, halike.openTrade]

section Example

/-- Two frames that go on differently after `targetFrame`. -/
def risingFrame : List (Bar Unit) := targetFrame ++ [⟨4, 110, 120, 109, 118, ()⟩]

def fallingFrame : List (Bar Unit) := targetFrame ++ [⟨4, 110, 111, 80, 82, ()⟩]

/-- A frame out of time order: its fourth bar is the last in time. -/
def unorderedFrame : List (Bar Unit) :=
  [⟨0, 100, 101, 99, 100, ()⟩, ⟨1, 100, 101, 99, 100, ()⟩, ⟨2, 100, 104, 99, 103, ()⟩,
    ⟨10, 103, 111, 102, 110, ()⟩, ⟨4, 110, 111, 109, 110, ()⟩, ⟨5, 110, 111, 109, 110, ()⟩]

/-- **An event after the bar changes what was done by then**, when one table is empty and the other
is not, and when the frame is out of time order. -/
theorem later_event_changes_the_past :
    (¬∀ (b : Backtest Unit) (rates : List FundingEvent) (df df' : List (Bar Unit)) (k : ℕ),
      df.Pairwise (fun x y => x.timestamp < y.timestamp) →
      df'.Pairwise (fun x y => x.timestamp < y.timestamp) →
      k + 1 < df.length → k + 1 < df'.length → df.take (k + 1) = df'.take (k + 1) →
      (∀ bar ∈ df[k]?, (dueBy bar.timestamp b.fundingRates).Perm (dueBy bar.timestamp rates)) →
      (b.upTo df k).equityCurve =
        (Backtest.upTo { b with fundingRates := rates } df' k).equityCurve) ∧
    ¬∀ (b : Backtest Unit) (rates : List FundingEvent) (df df' : List (Bar Unit)) (k : ℕ),
      b.fundingRates ≠ [] → rates ≠ [] →
      k + 1 < df.length → k + 1 < df'.length → df.take (k + 1) = df'.take (k + 1) →
      (∀ bar ∈ df[k]?, (dueBy bar.timestamp b.fundingRates).Perm (dueBy bar.timestamp rates)) →
      (b.upTo df k).equityCurve =
        (Backtest.upTo { b with fundingRates := rates } df' k).equityCurve := by
  constructor
  · intro h
    exact absurd (h longOnce [⟨4, 1 / 1000⟩] risingFrame fallingFrame 3 (by decide +kernel)
      (by decide +kernel) (by decide) (by decide) rfl (by decide +kernel)) (by decide +kernel)
  · intro h
    exact absurd (h { longOnce with fundingRates := [⟨7, 1 / 1000⟩] } [⟨8, 2 / 1000⟩]
      unorderedFrame unorderedFrame 4 (by decide) (by decide) (by decide) (by decide) rfl
      (by decide +kernel)) (by decide +kernel)

theorem no_look_ahead_targetFrame :
    (Backtest.upTo { longOnce with fundingRates := [⟨3, 1 / 1000⟩] } risingFrame 3).trades =
      (Backtest.upTo { longOnce with fundingRates := [⟨3, 1 / 1000⟩, ⟨4, 1⟩] }
        fallingFrame 3).trades :=
  (no_look_ahead { longOnce with fundingRates := [⟨3, 1 / 1000⟩] } 0
    [⟨3, 1 / 1000⟩, ⟨4, 1⟩] risingFrame fallingFrame 3 rfl (by decide) (by decide +kernel)).1.2.1

end Example

end AlphaOne.Backtester

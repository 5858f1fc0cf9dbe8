import AlphaOne.Backtester.LookAhead

/-!
# How a trade leaves

A trade that is filled on a bar leaves on the first bar, from that one on, whose range touches its
stop or its target, for the reason that `_manage_position` finds there; if no bar does, it is closed
at the end of the data (`exitReason_of_fills`).
-/

namespace AlphaOne.Backtester

open Foundations

variable {γ : Type*}

/-- The decision on the bar at `t` is filled at the open of the bar at `t + 1`. -/
def Fills (b : Backtest γ) (df : List (Bar γ)) (t : ℕ) (trade : BacktestTrade) : Prop :=
  (b.upTo df t).openTrade = none ∧
    ∃ bar, df[t + 1]? = some bar ∧ (b.fillPending bar (b.upTo df t)).openTrade = some trade

/-- The trades that have left by the bar at `n`, in the order they left: after the last bar, with
the one that is closed at the end of the data. -/
def exitedBy (b : Backtest γ) (df : List (Bar γ)) (n : ℕ) : List BacktestTrade :=
  if n + 1 < df.length then (b.upTo df n).trades else (b.run df).trades

/-- The reason for which a bar ends a trade, if it does. -/
def exitReasonOn (config : BacktestConfig) (trade : BacktestTrade) (bar : Bar γ) :
    Option ExitReason :=
  (barExit config trade bar.open_ bar.high bar.low).map Prod.snd

/-- A trade leaves on the levels it was entered with. -/
theorem barExit_congr {config : BacktestConfig} {t e : BacktestTrade} (h : t.entry = e.entry)
    (o hi lo : ℚ) : barExit config t o hi lo = barExit config e o hi lo := by
  have hside : t.side = e.side := show t.entry.side = e.entry.side by rw [h]
  have hstop : t.stopLoss = e.stopLoss := show t.entry.stopLoss = e.entry.stopLoss by rw [h]
  have htarget : t.takeProfit = e.takeProfit :=
    show t.entry.takeProfit = e.entry.takeProfit by rw [h]
  unfold barExit
  rw [hside, hstop, htarget]

/-- What a bar that touches a level leaves of a trade. -/
theorem managePosition_of_barExit {config : BacktestConfig} {t : BacktestTrade} {o hi lo : ℚ}
    {e : ℚ × ExitReason} (h : barExit config t o hi lo = some e) (time : Datetime) (real : Bool) :
    (managePosition config t o hi lo time real).exitPrice = some e.1 ∧
      (managePosition config t o hi lo time real).exitReason = some e.2 := by
  unfold managePosition
  rw [h]
  exact ⟨rfl, rfl⟩

/-- A bar that touches no level leaves a trade as it is. -/
theorem managePosition_of_barExit_none {config : BacktestConfig} {t : BacktestTrade} {o hi lo : ℚ}
    (h : barExit config t o hi lo = none) (time : Datetime) (real : Bool) :
    managePosition config t o hi lo time real = t := by
  rw [managePosition, h]

/-! ## A trade in a run -/

/-- The trade is open, after `k` trades that have left. -/
def StaysOpen (k : ℕ) (trade : BacktestTrade) (s : State) : Prop :=
  s.trades.length = k ∧ ∃ t, s.openTrade = some t ∧ t.entry = trade.entry ∧ t.exitPrice = none

/-- The trade has left, after `k` others, for the reason. -/
def HasLeft (k : ℕ) (trade : BacktestTrade) (reason : ExitReason) (s : State) : Prop :=
  ∃ t, s.trades[k]? = some t ∧ t.entry = trade.entry ∧ t.exitReason = some reason

/-- The trade has left for the reason, or is open without one. -/
def Outcome (k : ℕ) (trade : BacktestTrade) : Option ExitReason → State → Prop
  | none => StaysOpen k trade
  | some reason => HasLeft k trade reason

section Step

variable {b : Backtest γ} {k : ℕ} {trade : BacktestTrade} {reason : ExitReason} {s : State}

theorem HasLeft.of_prefix {r : State} (h : HasLeft k trade reason s) (hr : s.trades <+: r.trades) :
    HasLeft k trade reason r := by
  obtain ⟨t, ht, hentry, hreason⟩ := h
  obtain ⟨hk, -⟩ := List.getElem?_eq_some_iff.1 ht
  obtain ⟨later, hlater⟩ := hr
  refine ⟨t, ?_, hentry, hreason⟩
  rw [← hlater, List.getElem?_append_left hk]
  exact ht

theorem fillPending_of_staysOpen (h : StaysOpen k trade s) (bar : Bar γ) :
    b.fillPending bar s = s := by
  obtain ⟨-, t, ht, -⟩ := h
  unfold Backtest.fillPending
  rw [ht]
  split
  · rename_i hnone
    cases hnone
  · rfl

theorem StaysOpen.chargeFunding (h : StaysOpen k trade s) (bar : Bar γ) :
    StaysOpen k trade (b.chargeFunding bar s) := by
  obtain ⟨hk, t, ht, hentry, hexit⟩ := h
  unfold Backtest.chargeFunding
  split
  · obtain ⟨f, hf⟩ := applyFundingEvents_trade bar.timestamp bar.open_ s.fundingEvents s.openTrade
    refine ⟨hk, { t with funding := f t }, ?_, hentry, hexit⟩
    rw [ht] at hf
    exact ht ▸ hf
  · exact ⟨hk, t, ht, hentry, hexit⟩

/-- **Step 3 ends a trade on the first touch of its levels.** -/
theorem StaysOpen.manage (h : StaysOpen k trade s) (bar : Bar γ) :
    Outcome k trade (exitReasonOn b.config trade bar) (b.manage bar s) := by
  obtain ⟨hk, t, ht, hentry, hexit⟩ := h
  unfold exitReasonOn
  rw [← barExit_congr hentry]
  unfold Backtest.manage
  rw [ht]
  dsimp only
  cases hbar : barExit b.config t bar.open_ bar.high bar.low with
  | none =>
    rw [managePosition_of_barExit_none hbar, hexit]
    exact ⟨hk, t, rfl, hentry, hexit⟩
  | some e =>
    obtain ⟨hprice, hreason⟩ := managePosition_of_barExit hbar bar.timestamp b.useRealFunding
    rw [hprice]
    refine ⟨_, ?_, ?_, hreason⟩
    · rw [← hk]
      exact List.getElem?_concat_length
    · rw [entry_managePosition, hentry]

theorem Outcome.of_eq {o : Option ExitReason} {r : State} (h : Outcome k trade o s)
    (htrades : r.trades = s.trades) (hopen : r.openTrade = s.openTrade) : Outcome k trade o r := by
  cases o with
  | none =>
    obtain ⟨hk, t, ht, hrest⟩ := h
    exact ⟨htrades ▸ hk, t, hopen.trans ht, hrest⟩
  | some reason =>
    obtain ⟨t, ht, hrest⟩ := h
    exact ⟨t, htrades ▸ ht, hrest⟩

/-- **One bar of a trade's life**: the bar it is filled on, or one on which it is open. -/
theorem step_outcome {bar : Bar γ} (h : StaysOpen k trade (b.fillPending bar s))
    (seen : List (Bar γ)) :
    Outcome k trade (exitReasonOn b.config trade bar) (b.step s (bar, seen)) := by
  have hmanage := (h.chargeFunding (b := b) bar).manage (b := b) bar
  obtain ⟨pending, hdecide⟩ := decide_pending b seen
    (b.manage bar (b.chargeFunding bar (b.fillPending bar s)))
  refine hmanage.of_eq ?_ ?_
  · simp only [Backtest.step, Backtest.recordEquity, hdecide]
  · simp only [Backtest.step, Backtest.recordEquity, hdecide]

theorem HasLeft.run (h : HasLeft k trade reason s) (inputs : List (Bar γ × List (Bar γ))) :
    HasLeft k trade reason (Foundations.run b.step s inputs) :=
  (Always.of_step (P := HasLeft k trade reason)
    (fun r i hr => hr.of_prefix (step_extends b r i).trades) h inputs).last

/-- **The life of an open trade**: it ends on the first bar that touches one of its levels. -/
theorem StaysOpen.run (h : StaysOpen k trade s) (inputs : List (Bar γ × List (Bar γ))) :
    Outcome k trade ((inputs.map Prod.fst).findSome? (exitReasonOn b.config trade))
      (Foundations.run b.step s inputs) := by
  induction inputs generalizing s with
  | nil => exact h
  | cons input inputs ih =>
    obtain ⟨bar, seen⟩ := input
    have hstep := step_outcome (b := b) ((fillPending_of_staysOpen h bar).symm ▸ h) seen
    rw [Foundations.run_cons, List.map_cons, List.findSome?_cons]
    cases hexit : exitReasonOn b.config trade bar with
    | none =>
      rw [hexit] at hstep
      exact ih hstep
    | some reason =>
      rw [hexit] at hstep
      exact HasLeft.run hstep inputs

end Step

/-! ## From the fill to the exit -/

section Exit

variable {b : Backtest γ} {df : List (Bar γ)} {t : ℕ} {trade : BacktestTrade}

theorem bars_fst (df : List (Bar γ)) : (Backtest.bars df).map Prod.fst = df.tail := by
  simp [Backtest.bars, Function.comp_def]

/-- The bars through `t + n` are the bars through `t` and `n` more. -/
theorem upTo_add (b : Backtest γ) (df : List (Bar γ)) (t n : ℕ) :
    b.upTo df (t + n) =
      Foundations.run b.step (b.upTo df t) (((Backtest.bars df).drop t).take n) := by
  rw [Backtest.upTo, List.take_add, Foundations.run_append]
  rfl

/-- Step 1 ends no trade. -/
theorem fillPending_trades (b : Backtest γ) (bar : Bar γ) (s : State) :
    (b.fillPending bar s).trades = s.trades := by
  unfold Backtest.fillPending
  split
  · split <;> rfl
  · rfl

/-- A filled trade is the one that the pending order opens. -/
theorem Fills.opened (h : Fills b df t trade) : ∃ signal bar risk id,
    (b.upTo df t).pendingSignal = some signal ∧ df[t + 1]? = some bar ∧
      trade = openTrade b.config risk signal bar.open_ bar.timestamp id := by
  obtain ⟨hnone, bar, hbar, hfill⟩ := h
  revert hfill
  unfold Backtest.fillPending
  split
  · rename_i signal hpending hopen
    split
    · rename_i risk hcan
      intro hfill
      exact ⟨signal, bar, risk, _, hpending, hbar, (Option.some.inj hfill).symm⟩
    · intro hfill
      rw [show _ = none from hnone] at hfill
      cases hfill
  · intro hfill
    rw [hnone] at hfill
    cases hfill

theorem Fills.staysOpen (h : Fills b df t trade) {bar : Bar γ} (hbar : df[t + 1]? = some bar) :
    StaysOpen (b.upTo df t).trades.length trade (b.fillPending bar (b.upTo df t)) := by
  obtain ⟨signal, bar₁, risk, id, -, hbar₁, rfl⟩ := h.opened
  obtain ⟨-, bar₂, hbar₂, hfill⟩ := h
  obtain rfl : bar₁ = bar := Option.some.inj (hbar₁.symm.trans hbar)
  obtain rfl : bar₂ = bar₁ := Option.some.inj (hbar₂.symm.trans hbar)
  exact ⟨congrArg List.length (fillPending_trades b bar₂ _), _, hfill, rfl, rfl⟩

/-- **What a filled trade tests**: it has the side, the stop and the first target of the decision on
the bar at `t`. -/
theorem Fills.decided (h : Fills b df t trade) : ∃ signal,
    b.signalFunc (df.take (t + 1)) = some signal ∧ trade.side = signal.signalType ∧
      trade.stopLoss = signal.stopLoss ∧ trade.takeProfit = signal.takeProfit1 := by
  obtain ⟨signal, bar, risk, id, hpending, hbar, rfl⟩ := h.opened
  obtain ⟨hlt, -⟩ := List.getElem?_eq_some_iff.1 hbar
  have hinputs : t ≤ (Backtest.bars df).length := by
    simp only [Backtest.bars, List.length_tail, List.length_map, List.length_zipIdx]
    omega
  exact ⟨signal, ((upTo_decided b df hinputs).pending signal hpending).2, rfl, rfl, rfl⟩

/-- **The life of a filled trade.** -/
theorem Fills.outcome (h : Fills b df t trade) (n : ℕ) :
    Outcome (b.upTo df t).trades.length trade
      (((df.drop (t + 1)).take (n + 1)).findSome? (exitReasonOn b.config trade))
      (b.upTo df (t + (n + 1))) := by
  obtain ⟨bar, hbar, -⟩ := h.2
  have hbars : ((df.drop (t + 1)).take (n + 1)) =
      ((((Backtest.bars df).drop t).take (n + 1)).map Prod.fst) := by
    rw [List.map_take, List.map_drop, bars_fst, List.drop_tail]
  have hget : (Backtest.bars df)[t]? = some (bar, df.take (t + 2)) := by
    rw [bars_getElem?, hbar]
    rfl
  obtain ⟨hlt, hhead⟩ := List.getElem?_eq_some_iff.1 hget
  have hinputs : ((Backtest.bars df).drop t).take (n + 1) =
      (bar, df.take (t + 2)) :: ((Backtest.bars df).drop (t + 1)).take n := by
    rw [List.drop_eq_getElem_cons hlt, hhead, List.take_succ_cons]
  have hstep := step_outcome (h.staysOpen hbar) (df.take (t + 2))
  rw [upTo_add, hbars, hinputs, Foundations.run_cons, List.map_cons, List.findSome?_cons]
  cases hexit : exitReasonOn b.config trade bar with
  | none =>
    rw [hexit] at hstep
    exact StaysOpen.run hstep _
  | some reason =>
    rw [hexit] at hstep
    exact HasLeft.run hstep _

theorem StaysOpen.finish {k : ℕ} {s : State} (h : StaysOpen k trade s) (hdf : df ≠ []) :
    HasLeft k trade .endOfData (b.finish df s) := by
  obtain ⟨hk, t, ht, hentry, -⟩ := h
  have hfinish : ∃ closed, (b.finish df s).trades = s.trades ++ [closed] ∧
      closed.entry = t.entry ∧ closed.exitReason = some .endOfData := by
    unfold Backtest.finish
    rw [ht, List.getLast?_eq_getLast_of_ne_nil hdf]
    exact ⟨_, rfl, rfl, rfl⟩
  obtain ⟨closed, htrades, hclosed, hreason⟩ := hfinish
  refine ⟨closed, ?_, hclosed.trans hentry, hreason⟩
  rw [htrades, ← hk]
  exact List.getElem?_concat_length

/-- **How a filled trade leaves** within the first `n + 1` bars from its fill on: at the first touch
of its levels, or else at the end of the data. -/
theorem exitReason_of_fills (h : Fills b df t trade) {n : ℕ} (hn : t + 1 + n < df.length)
    {closed : BacktestTrade}
    (hclosed : (exitedBy b df (t + 1 + n))[(b.upTo df t).trades.length]? = some closed) :
    closed.exitReason = some ((((df.drop (t + 1)).take (n + 1)).findSome?
      (exitReasonOn b.config trade)).getD .endOfData) := by
  have houtcome := h.outcome n
  rw [show t + (n + 1) = t + 1 + n by omega] at houtcome
  unfold exitedBy at hclosed
  cases hfirst : ((df.drop (t + 1)).take (n + 1)).findSome? (exitReasonOn b.config trade) with
  | none =>
    rw [hfirst] at houtcome
    split_ifs at hclosed with hmore
    · -- The trade is still open, so it is not among those that have left.
      rw [List.getElem?_eq_none houtcome.1.le] at hclosed
      cases hclosed
    · have hall : b.upTo df (t + 1 + n) = Foundations.run b.step b.init (Backtest.bars df) := by
        rw [Backtest.upTo, List.take_of_length_le]
        simp only [Backtest.bars, List.length_tail, List.length_map, List.length_zipIdx]
        omega
      rw [hall] at houtcome
      have hdf : df ≠ [] := List.ne_nil_of_length_pos (by omega)
      obtain ⟨t', ht', -, hreason⟩ := StaysOpen.finish (b := b) houtcome hdf
      rw [← Option.some.inj (ht'.symm.trans hclosed)]
      exact hreason
  | some reason =>
    rw [hfirst] at houtcome
    have hleft : HasLeft (b.upTo df t).trades.length trade reason (b.run df) :=
      houtcome.of_prefix (run_extends b df (t + 1 + n)).trades
    split_ifs at hclosed with hmore
    · obtain ⟨t', ht', -, hreason⟩ := houtcome
      rw [← Option.some.inj (ht'.symm.trans hclosed)]
      exact hreason
    · obtain ⟨t', ht', -, hreason⟩ := hleft
      rw [← Option.some.inj (ht'.symm.trans hclosed)]
      exact hreason

end Exit

end AlphaOne.Backtester

import AlphaOne.Backtester.Exits

/-!
# Funding charged event by event

The loop reads the funding table through a pointer that every bar moves past the events up to its
time, and charges the open trade those it was exposed to, at the bar's open. `Charged` is the
invariant that ties the pointer to the open trade: what a trade has been charged is `realFunding`,
the sum over the events of the table between its entry and the last bar, each at the open of the
first bar that is not before it.

What a run returns therefore depends on the table through the events within the intervals of its
trades alone (`runFrom_books_congr`).
-/

namespace AlphaOne.Backtester

open Foundations Risk

variable {γ : Type*}

/-! ## What a trade is charged -/

/-- The open of the first bar that is not before a time. -/
def markAt (df : List (Bar γ)) (time : Datetime) : Option ℚ :=
  (df.find? fun bar => time ≤ bar.timestamp).map Bar.open_

/-- What a funding event costs a trade: its rate on the notional at the mark, which a long pays and
a short receives. -/
def eventCost (df : List (Bar γ)) (t : BacktestTrade) (event : FundingEvent) : ℚ :=
  (if t.side = .long then 1 else -1) * t.quantity * (markAt df event.timestamp).getD 0 * event.rate

/-- The events of a table after the entry of a trade and up to a time. -/
def exposures (table : List FundingEvent) (t : BacktestTrade) (time : Datetime) :
    List FundingEvent :=
  table.filter fun event => t.entryTime < event.timestamp ∧ event.timestamp ≤ time

def realFunding (df : List (Bar γ)) (table : List FundingEvent) (t : BacktestTrade)
    (time : Datetime) : ℚ :=
  ((exposures table t time).map (eventCost df t)).sum

theorem realFunding_perm {table table' : List FundingEvent} {df : List (Bar γ)} {t : BacktestTrade}
    {time : Datetime} (h : (exposures table t time).Perm (exposures table' t time)) :
    realFunding df table t time = realFunding df table' t time :=
  (h.map _).sum_eq

/-- A trade is not exposed to anything by the time of its entry. -/
theorem realFunding_of_le_entry (df : List (Bar γ)) (table : List FundingEvent) {t : BacktestTrade}
    {time : Datetime} (h : time ≤ t.entryTime) : realFunding df table t time = 0 := by
  have hnone : exposures table t time = [] := by
    refine List.filter_eq_nil_iff.2 fun e _ he => ?_
    obtain ⟨hentry, htime⟩ := of_decide_eq_true he
    exact absurd (hentry.trans_le htime) (not_lt.2 h)
  rw [realFunding, hnone]
  rfl

/-- **What one more stretch of time adds.** -/
theorem realFunding_add (df : List (Bar γ)) (table : List FundingEvent) (t : BacktestTrade)
    {now time : Datetime} (h : now ≤ time) :
    realFunding df table t time = realFunding df table t now +
      ((exposures (table.filter (now < ·.timestamp)) t time).map (eventCost df t)).sum := by
  have hbefore : (exposures table t time).filter (fun e => ¬now < e.timestamp) =
      exposures table t now := by
    rw [exposures, List.filter_filter]
    refine List.filter_congr fun e _ => ?_
    rw [← Bool.decide_and, decide_eq_decide, not_lt]
    exact ⟨fun he => ⟨he.2.1, he.1⟩, fun he => ⟨he.2, he.1, he.2.trans h⟩⟩
  have hafter : (exposures table t time).filter (fun e => now < e.timestamp) =
      exposures (table.filter (now < ·.timestamp)) t time :=
    List.filter_comm _ _ _
  have hsplit := List.sum_map_filter_add_sum_map_filter_not (fun e => now < e.timestamp)
    (eventCost df t) (exposures table t time)
  rw [hbefore, hafter, add_comm] at hsplit
  exact hsplit.symm

/-- The events of the stretch before a bar are marked at its open. -/
theorem markAt_of_stretch {df : List (Bar γ)}
    (hdf : df.Pairwise fun x y => x.timestamp < y.timestamp) {k : ℕ} {before bar : Bar γ}
    (hbefore : df[k]? = some before) (hbar : df[k + 1]? = some bar)
    {time : Datetime} (hlt : before.timestamp < time) (hle : time ≤ bar.timestamp) :
    markAt df time = some bar.open_ := by
  obtain ⟨hk, rfl⟩ := List.getElem?_eq_some_iff.1 hbefore
  obtain ⟨hk', rfl⟩ := List.getElem?_eq_some_iff.1 hbar
  have hfind : df.find? (fun bar => time ≤ bar.timestamp) = some df[k + 1] := by
    rw [List.find?_eq_some_iff_getElem]
    refine ⟨by simpa using hle, k + 1, hk', rfl, fun j hj => ?_⟩
    have hjk : df[j].timestamp ≤ df[k].timestamp := by
      rcases (Nat.lt_succ_iff.1 hj).lt_or_eq with hlt | rfl
      · exact (List.pairwise_iff_getElem.1 hdf j k _ hk hlt).le
      · exact le_rfl
    simpa using hjk.trans_lt hlt
  rw [markAt, hfind]
  rfl

/-! ## The pointer and the open trade -/

/-- After the bar at `now`: the pointer has left the events that are still to come, the open trade
has been charged its funding until now, and the closed trades theirs until their exits on bars of
the frame. -/
structure Charged (df : List (Bar γ)) (table : List FundingEvent) (now : Datetime) (s : State) :
    Prop where
  inOrder : InOrder s.fundingEvents
  left : (s.fundingEvents.filter (now < ·.timestamp)).Perm (table.filter (now < ·.timestamp))
  opened : ∀ t ∈ s.openTrade, t.exitPrice = none ∧ t.funding = realFunding df table t now ∧
    ∀ e ∈ s.fundingEvents, t.entryTime < e.timestamp → now < e.timestamp
  closed : ∀ t ∈ s.trades, ∃ exit ∈ t.exitTime, (∃ bar ∈ df, bar.timestamp = exit) ∧
    t.funding = realFunding df table t exit

section Loop

variable {b : Backtest γ} {df : List (Bar γ)} {table : List FundingEvent} {s : State} {bar : Bar γ}
  {now : Datetime}

theorem fillPending_charged (h : Charged df table now s) (ht : now ≤ bar.timestamp) :
    Charged df table now (b.fillPending bar s) := by
  unfold Backtest.fillPending
  split
  · split
    · refine ⟨h.inOrder, h.left, ?_, h.closed⟩
      rintro t ⟨⟩
      exact ⟨rfl, (realFunding_of_le_entry df table ht).symm, fun e _ he => ht.trans_lt he⟩
    · exact ⟨h.inOrder, h.left, h.opened, h.closed⟩
  · exact h

/-- The charges of a bar are the costs of the events since the bar before it. -/
theorem charge_eq_eventCost {t : BacktestTrade} {events : List FundingEvent}
    (hlater : ∀ e ∈ events, t.entryTime < e.timestamp → now < e.timestamp)
    (hmark : ∀ time, now < time → time ≤ bar.timestamp → markAt df time = some bar.open_) :
    ((dueBy bar.timestamp events).map (charge t bar.open_)).sum =
      ((exposures (events.filter (now < ·.timestamp)) t bar.timestamp).map
        (eventCost df t)).sum := by
  have hcharged : (dueBy bar.timestamp events).filter (fun e => t.entryTime < e.timestamp) =
      exposures (events.filter (now < ·.timestamp)) t bar.timestamp := by
    rw [dueBy, exposures, List.filter_filter, List.filter_filter]
    refine List.filter_congr fun e he => ?_
    rw [← Bool.decide_and, ← Bool.decide_and, decide_eq_decide]
    exact ⟨fun h => ⟨h, hlater e he h.1⟩, fun h => h.1⟩
  have hcost : ∀ e ∈ exposures (events.filter (now < ·.timestamp)) t bar.timestamp,
      fundingCost t e bar.open_ = eventCost df t e := by
    intro e he
    obtain ⟨hevent, hexposed⟩ := List.mem_filter.1 he
    have hnow : now < e.timestamp := of_decide_eq_true (List.mem_filter.1 hevent).2
    have hle : e.timestamp ≤ bar.timestamp := (of_decide_eq_true hexposed).2
    rw [eventCost, hmark _ hnow hle, Option.getD_some, fundingCost]
    split
    · ring
    · ring
  have hzero : ((dueBy bar.timestamp events).filter (fun e => ¬t.entryTime < e.timestamp)).map
      (fun _ => (0 : ℚ)) = List.replicate _ 0 := List.map_const' ..
  calc ((dueBy bar.timestamp events).map (charge t bar.open_)).sum
      = (((dueBy bar.timestamp events).filter (fun e => t.entryTime < e.timestamp)).map
          (fundingCost t · bar.open_)).sum + 0 := by
        unfold charge
        rw [List.sum_map_ite, hzero, List.sum_replicate, nsmul_zero]
    _ = _ := by
        rw [add_zero, hcharged, List.map_congr_left hcost]

/-- **What the charge of a bar makes of the open trade**: it has been charged until the bar. -/
theorem applyFundingEvents_charged (h : Charged df table now s) (ht : now ≤ bar.timestamp)
    (hmark : ∀ time, now < time → time ≤ bar.timestamp → markAt df time = some bar.open_) :
    applyFundingEvents bar.timestamp bar.open_ s.openTrade s.fundingEvents =
      (s.openTrade.map fun t => { t with funding := realFunding df table t bar.timestamp },
        s.fundingEvents.filter (bar.timestamp < ·.timestamp)) := by
  rw [applyFundingEvents_eq _ _ h.inOrder]
  refine Prod.ext (Option.map_congr fun t hopen => ?_) rfl
  obtain ⟨-, hfunding, hlater⟩ := h.opened t hopen
  have hperm := ((h.left.filter fun e : FundingEvent =>
    t.entryTime < e.timestamp ∧ e.timestamp ≤ bar.timestamp).map (eventCost df t)).sum_eq
  rw [charge_eq_eventCost hlater hmark, hfunding, realFunding_add df table t ht]
  exact congrArg (fun q => { t with funding := realFunding df table t now + q }) hperm

theorem chargeFunding_charged (hreal : b.useRealFunding = true) (h : Charged df table now s)
    (ht : now ≤ bar.timestamp)
    (hmark : ∀ time, now < time → time ≤ bar.timestamp → markAt df time = some bar.open_) :
    Charged df table bar.timestamp (b.chargeFunding bar s) := by
  unfold Backtest.chargeFunding
  rw [if_pos hreal, applyFundingEvents_charged h ht hmark]
  refine ⟨h.inOrder.filter _, ?_, ?_, h.closed⟩
  · have hlater (events : List FundingEvent) :
        (events.filter (now < ·.timestamp)).filter (bar.timestamp < ·.timestamp) =
          events.filter (bar.timestamp < ·.timestamp) := by
      rw [List.filter_filter]
      refine List.filter_congr fun e _ => ?_
      rw [← Bool.decide_and, decide_eq_decide]
      exact ⟨fun he => he.1, fun he => ⟨he, ht.trans_lt he⟩⟩
    have hleft := h.left.filter (bar.timestamp < ·.timestamp)
    rw [hlater, hlater] at hleft
    simpa using hleft
  · intro t hopen
    obtain ⟨u, hu, rfl⟩ := Option.map_eq_some_iff.1 hopen
    refine ⟨(h.opened u hu).1, rfl, fun e he _ => ?_⟩
    exact of_decide_eq_true (List.mem_filter.1 he).2

/-- **What step 3 does to an open trade**: nothing, or it closes it at the bar's time. -/
theorem manage_cases {t : BacktestTrade} (hopen : s.openTrade = some t)
    (hexit : t.exitPrice = none) :
    b.manage bar s = s ∨
      ∃ e, barExit b.config t bar.open_ bar.high bar.low = some e ∧
        let closed := managePosition b.config t bar.open_ bar.high bar.low bar.timestamp
          b.useRealFunding
        b.manage bar s = { s with
          trades := s.trades ++ [closed]
          equity := s.equity + closed.pnl
          openTrade := none
          risk := s.risk.recordPositionClose.recordTradeResult
            (Backtest.equityRelativePnlPct closed.pnl s.equity) bar.timestamp } := by
  unfold Backtest.manage
  rw [hopen]
  cases hbar : barExit b.config t bar.open_ bar.high bar.low with
  | none =>
    left
    dsimp only
    rw [managePosition_of_barExit_none hbar, hexit, ← hopen]
    rfl
  | some e =>
    obtain ⟨hprice, -⟩ := managePosition_of_barExit hbar bar.timestamp b.useRealFunding
    refine Or.inr ⟨e, rfl, ?_⟩
    dsimp only
    rw [if_pos (by rw [hprice]; rfl)]

/-- A trade that a bar closes keeps what it has been charged. -/
theorem funding_managePosition (df : List (Bar γ)) (table : List FundingEvent)
    {config : BacktestConfig} {t : BacktestTrade} {e : ℚ × ExitReason} {o hi lo : ℚ}
    (h : barExit config t o hi lo = some e) (time : Datetime) :
    (managePosition config t o hi lo time true).funding = t.funding ∧
      (managePosition config t o hi lo time true).exitTime = some time ∧
      realFunding df table (managePosition config t o hi lo time true) =
        realFunding df table t := by
  unfold managePosition
  rw [h]
  exact ⟨rfl, rfl, rfl⟩

theorem manage_charged (hreal : b.useRealFunding = true) (hmem : bar ∈ df)
    (h : Charged df table bar.timestamp s) :
    Charged df table bar.timestamp (b.manage bar s) := by
  cases hopen : s.openTrade with
  | none =>
    unfold Backtest.manage
    rw [hopen]
    exact h
  | some t =>
    obtain ⟨hexit, hfunding, -⟩ := h.opened t hopen
    have hcases : b.manage bar s = s ∨ _ := manage_cases hopen hexit
    rcases hcases with heq | ⟨e, hbar, heq⟩
    · rwa [heq]
    · rw [heq]
      refine ⟨h.inOrder, h.left, by simp, fun u hu => ?_⟩
      rcases List.mem_append.1 hu with hu | hu
      · exact h.closed u hu
      · obtain rfl := List.mem_singleton.1 hu
        rw [hreal]
        obtain ⟨hsame, htime, hreal'⟩ := funding_managePosition df table hbar bar.timestamp
        exact ⟨bar.timestamp, htime, ⟨bar, hmem, rfl⟩, by rw [hsame, hreal', hfunding]⟩

theorem decide_charged (seen : List (Bar γ)) (h : Charged df table now s) :
    Charged df table now (b.decide seen s) := by
  obtain ⟨pending, hdecide⟩ := decide_pending b seen s
  rw [hdecide]
  exact ⟨h.inOrder, h.left, h.opened, h.closed⟩

/-- **A bar keeps the account of the funding.** -/
theorem step_charged (hreal : b.useRealFunding = true) (hmem : bar ∈ df) (seen : List (Bar γ))
    (h : Charged df table now s) (ht : now ≤ bar.timestamp)
    (hmark : ∀ time, now < time → time ≤ bar.timestamp → markAt df time = some bar.open_) :
    Charged df table bar.timestamp (b.step s (bar, seen)) := by
  have hfunded := chargeFunding_charged hreal (fillPending_charged (b := b) h ht) ht hmark
  have hdecided := decide_charged (b := b) seen (manage_charged hreal hmem hfunded)
  exact ⟨hdecided.inOrder, hdecided.left, hdecided.opened, hdecided.closed⟩

end Loop

/-! ## Runs with any state of the risk engine -/

section Runs

variable (b : Backtest γ) (risk : RiskEngine)

/-- The run through the position `k` of a backtester whose risk engine has been used before. -/
def Backtest.upToFrom (df : List (Bar γ)) (k : ℕ) : State :=
  Foundations.run b.step { b.init with risk } ((Backtest.bars df).take k)

def Backtest.runFrom (df : List (Bar γ)) : State :=
  b.finish df (Foundations.run b.step { b.init with risk } (Backtest.bars df))

variable {df : List (Bar γ)}

/-- The run through one more bar. -/
theorem upToFrom_succ {k : ℕ} {bar : Bar γ} (hbar : df[k + 1]? = some bar) :
    b.upToFrom risk df (k + 1) = b.step (b.upToFrom risk df k) (bar, df.take (k + 2)) :=
  run_bars_succ b _ hbar

/-- The run has read the whole frame. -/
theorem upToFrom_last (first : Bar γ) (rest : List (Bar γ)) :
    b.upToFrom risk (first :: rest) rest.length =
      Foundations.run b.step { b.init with risk } (Backtest.bars (first :: rest)) := by
  have hlen : (Backtest.bars (first :: rest)).length = rest.length := by simp [Backtest.bars]
  rw [Backtest.upToFrom, List.take_of_length_le hlen.le]

theorem init_charged (df : List (Bar γ)) (now : Datetime) :
    Charged df b.fundingRates now { b.init with risk } where
  inOrder := List.pairwise_insertionSort _ _
  left := (List.perm_insertionSort _ _).filter _
  opened := by simp [Backtest.init]
  closed := by simp [Backtest.init]

variable {b}

/-- **The account of the funding in a run.** -/
theorem upToFrom_charged (hreal : b.useRealFunding = true)
    (hdf : df.Pairwise fun x y => x.timestamp < y.timestamp) {k : ℕ} {bar : Bar γ}
    (hbar : df[k]? = some bar) :
    Charged df b.fundingRates bar.timestamp (b.upToFrom risk df k) := by
  induction k generalizing bar with
  | zero => exact init_charged b risk df bar.timestamp
  | succ k ih =>
    obtain ⟨hlt, rfl⟩ := List.getElem?_eq_some_iff.1 hbar
    have hbefore := List.getElem?_eq_getElem (Nat.lt_of_succ_lt hlt)
    rw [upToFrom_succ b risk hbar]
    refine step_charged hreal (List.getElem_mem hlt) _ (ih hbefore) ?_
      fun time => markAt_of_stretch hdf hbefore hbar
    exact (List.pairwise_iff_getElem.1 hdf k (k + 1) _ hlt (Nat.lt_succ_self k)).le

/-- **The trades of a run have been charged their funding until their exits.** -/
theorem runFrom_charged (hreal : b.useRealFunding = true)
    (hdf : df.Pairwise fun x y => x.timestamp < y.timestamp) :
    ∀ t ∈ (b.runFrom risk df).trades, ∃ exit ∈ t.exitTime,
      (∃ bar ∈ df, bar.timestamp = exit) ∧ t.funding = realFunding df b.fundingRates t exit := by
  cases df with
  | nil =>
    intro t ht
    cases ht
  | cons first rest =>
    have hlast : (first :: rest)[rest.length]? = (first :: rest).getLast? := by
      rw [List.getLast?_eq_getElem?]
      rfl
    obtain ⟨last, hlast'⟩ : ∃ last, (first :: rest).getLast? = some last :=
      ⟨_, List.getLast?_eq_some_getLast (List.cons_ne_nil first rest)⟩
    have h := upToFrom_charged risk hreal hdf (hlast.trans hlast')
    rw [upToFrom_last] at h
    unfold Backtest.runFrom Backtest.finish
    split
    · rename_i t last' hopen hfinal
      obtain rfl : last = last' := Option.some.inj (hlast'.symm.trans hfinal)
      intro u hu
      rcases List.mem_append.1 hu with hu | hu
      · exact h.closed u hu
      · obtain rfl := List.mem_singleton.1 hu
        refine ⟨last.timestamp, rfl, ⟨last, List.mem_of_getLast? hlast', rfl⟩, ?_⟩
        rw [hreal]
        exact (h.opened t hopen).2.1
    · exact h.closed

end Runs

/-! ## What the run reads of the table -/

/-- A trade of an entry time is open, or has been closed not before a time. -/
def Lasts (entry now : Datetime) (s : State) : Prop :=
  (∃ t, s.openTrade = some t ∧ t.entryTime = entry ∧ t.exitPrice = none) ∨
    ∃ t ∈ s.trades, t.entryTime = entry ∧ ∃ exit ∈ t.exitTime, now ≤ exit

section Lasting

variable {b : Backtest γ} {s : State} {bar : Bar γ} {entry now : Datetime}

theorem Lasts.of_prefix {r : State} (h : ∃ t ∈ s.trades, t.entryTime = entry ∧
    ∃ exit ∈ t.exitTime, now ≤ exit) (hr : s.trades <+: r.trades) : Lasts entry now r := by
  obtain ⟨t, ht, hrest⟩ := h
  exact Or.inr ⟨t, hr.subset ht, hrest⟩

/-- An open trade is open after the bar, or closed at its time. -/
theorem step_lasts (seen : List (Bar γ)) (ht : now ≤ bar.timestamp)
    (h : Lasts entry now (b.fillPending bar s)) : Lasts entry now (b.step s (bar, seen)) := by
  rcases h with ⟨t, hopen, hentry, hexit⟩ | h
  · obtain ⟨-, t', hopen', hsame, hexit'⟩ :=
      StaysOpen.chargeFunding (b := b) ⟨rfl, t, hopen, rfl, hexit⟩ bar
    have hentry' : t'.entryTime = entry :=
      (congrArg BacktestTrade.entryTime hsame).trans hentry
    obtain ⟨pending, hdecide⟩ := decide_pending b seen
      (b.manage bar (b.chargeFunding bar (b.fillPending bar s)))
    rw [Backtest.step, hdecide]
    have hcases : b.manage bar _ = _ ∨ _ := manage_cases hopen' hexit'
    rcases hcases with heq | ⟨e, hbar, heq⟩
    · rw [heq]
      exact Or.inl ⟨t', hopen', hentry', hexit'⟩
    · rw [heq]
      refine Or.inr ⟨_, List.mem_append_right _ (List.mem_singleton.2 rfl), ?_⟩
      unfold managePosition
      rw [hbar]
      exact ⟨hentry', bar.timestamp, rfl, ht⟩
  · rw [fillPending_trades] at h
    exact Lasts.of_prefix h (step_extends b s (bar, seen)).trades

theorem fillPending_lasts (h : Lasts entry now s) : Lasts entry now (b.fillPending bar s) := by
  rcases h with ⟨t, ht, hrest⟩ | h
  · rw [fillPending_of_staysOpen ⟨rfl, t, ht, rfl, hrest.2⟩ bar]
    exact Or.inl ⟨t, ht, hrest⟩
  · exact Lasts.of_prefix h ((fillPending_trades b bar s ▸ List.prefix_refl _))

theorem run_lasts {inputs : List (Bar γ × List (Bar γ))}
    (ht : ∀ input ∈ inputs, now ≤ input.1.timestamp) (h : Lasts entry now s) :
    Lasts entry now (Foundations.run b.step s inputs) := by
  induction inputs generalizing s with
  | nil => exact h
  | cons input inputs ih =>
    rw [Foundations.run_cons]
    refine ih (fun i hi => ht i (List.mem_cons_of_mem _ hi)) ?_
    exact step_lasts input.2 (ht input List.mem_cons_self) (fillPending_lasts h)

/-- At the end of the data the trade is closed. -/
theorem finish_lasts {df : List (Bar γ)} {last : Bar γ} (hlast : df.getLast? = some last)
    (ht : now ≤ last.timestamp) (h : Lasts entry now s) :
    ∃ t ∈ (b.finish df s).trades, t.entryTime = entry ∧ ∃ exit ∈ t.exitTime, now ≤ exit := by
  rcases h with ⟨t, hopen, hentry, -⟩ | h
  · unfold Backtest.finish
    rw [hopen, hlast]
    exact ⟨_, List.mem_append_right _ (List.mem_singleton.2 rfl), hentry, last.timestamp, rfl, ht⟩
  · obtain ⟨t, hmem, hrest⟩ := h
    exact ⟨t, (finish_extends b s df).trades.subset hmem, hrest⟩

end Lasting

/-- **A trade that is open on a bar is closed not before it.** -/
theorem open_trade_closes {b : Backtest γ} {risk : RiskEngine} {df : List (Bar γ)}
    (hdf : df.Pairwise fun x y => x.timestamp < y.timestamp) {k : ℕ} {bar : Bar γ}
    (hbar : df[k + 1]? = some bar) {t : BacktestTrade}
    (ht : (b.fillPending bar (b.upToFrom risk df k)).openTrade = some t)
    (hexit : t.exitPrice = none) :
    ∃ u ∈ (b.runFrom risk df).trades, u.entryTime = t.entryTime ∧ ∃ exit ∈ u.exitTime,
      bar.timestamp ≤ exit := by
  obtain ⟨hlt, rfl⟩ := List.getElem?_eq_some_iff.1 hbar
  have hlater : ∀ i (hi : i < df.length), k + 1 ≤ i → df[k + 1].timestamp ≤ df[i].timestamp := by
    intro i hi hki
    rcases hki.eq_or_lt with rfl | hki
    · exact le_rfl
    · exact (List.pairwise_iff_getElem.1 hdf (k + 1) i hlt hi hki).le
  have hstep : Lasts t.entryTime df[k + 1].timestamp (b.upToFrom risk df (k + 1)) := by
    rw [upToFrom_succ b risk hbar]
    exact step_lasts _ le_rfl (Or.inl ⟨t, ht, rfl, hexit⟩)
  have hrest : ∀ input ∈ (Backtest.bars df).drop (k + 1),
      df[k + 1].timestamp ≤ input.1.timestamp := by
    intro input hinput
    obtain ⟨i, hi⟩ := List.mem_iff_getElem?.1 hinput
    rw [List.getElem?_drop, bars_getElem?] at hi
    obtain ⟨later, hget, rfl⟩ := Option.map_eq_some_iff.1 hi
    obtain ⟨hi', rfl⟩ := List.getElem?_eq_some_iff.1 hget
    exact hlater _ hi' (by omega)
  have hrun := run_lasts (b := b) hrest hstep
  have hsplit : Foundations.run b.step (b.upToFrom risk df (k + 1))
      ((Backtest.bars df).drop (k + 1)) =
      Foundations.run b.step { b.init with risk } (Backtest.bars df) := by
    rw [Backtest.upToFrom, ← Foundations.run_append, List.take_append_drop]
  have hlast : df.getLast? = some df[df.length - 1] := by
    rw [List.getLast?_eq_getElem?, List.getElem?_eq_getElem]
  rw [hsplit] at hrun
  exact finish_lasts hlast (hlater _ _ (by omega)) hrun

/-! ## Two funding tables -/

/-- What a run returns: everything but the events that are left. -/
def State.books (s : State) : State := { s with fundingEvents := [] }

section Books

variable (b : Backtest γ) (s : State) (bar : Bar γ)

theorem books_fillPending : (b.fillPending bar s).books = b.fillPending bar s.books := by
  unfold Backtest.fillPending State.books
  dsimp only
  split
  · split <;> rfl
  · rfl

theorem books_manage : (b.manage bar s).books = b.manage bar s.books := by
  unfold Backtest.manage State.books
  dsimp only
  split
  · rfl
  · split <;> rfl

theorem books_decide (seen : List (Bar γ)) : (b.decide seen s).books = b.decide seen s.books := by
  unfold Backtest.decide State.books
  dsimp only
  split <;> rfl

theorem books_finish (df : List (Bar γ)) : (b.finish df s).books = b.finish df s.books := by
  unfold Backtest.finish State.books
  dsimp only
  split <;> rfl

end Books

/-- The open trade has been charged its funding until a time. -/
def State.chargedUntil (df : List (Bar γ)) (table : List FundingEvent) (time : Datetime)
    (s : State) : State :=
  { s with openTrade := s.openTrade.map fun t => { t with funding := realFunding df table t time } }

theorem State.chargedUntil_congr {df : List (Bar γ)} {table table' : List FundingEvent}
    {time : Datetime} {s : State} (h : ∀ t, s.openTrade = some t →
      realFunding df table t time = realFunding df table' t time) :
    s.chargedUntil df table time = s.chargedUntil df table' time := by
  unfold State.chargedUntil
  rw [Option.map_congr fun t ht => by rw [h t ht]]

theorem books_chargeFunding {b : Backtest γ} {df : List (Bar γ)} {table : List FundingEvent}
    {s : State} {bar : Bar γ} {now : Datetime} (hreal : b.useRealFunding = true)
    (h : Charged df table now s) (ht : now ≤ bar.timestamp)
    (hmark : ∀ time, now < time → time ≤ bar.timestamp → markAt df time = some bar.open_) :
    (b.chargeFunding bar s).books = s.books.chargedUntil df table bar.timestamp := by
  unfold Backtest.chargeFunding
  rw [if_pos hreal, applyFundingEvents_charged h ht hmark]
  rfl

theorem useRealFunding_of_ne_nil {b : Backtest γ} (h : b.fundingRates ≠ []) :
    b.useRealFunding = true := by
  unfold Backtest.useRealFunding
  rw [List.isEmpty_eq_false_iff.2 h]
  rfl

section TwoTables

variable {b : Backtest γ} {risk : RiskEngine} {df : List (Bar γ)} {rates : List FundingEvent}

/-- Until a bar on which a trade of the run is open, the two tables have the same events for it. -/
theorem realFunding_congr (hdf : df.Pairwise fun x y => x.timestamp < y.timestamp)
    (hsame : ∀ t ∈ (b.runFrom risk df).trades, ∀ exit ∈ t.exitTime,
      (exposures b.fundingRates t exit).Perm (exposures rates t exit))
    {k : ℕ} {bar : Bar γ} (hbar : df[k + 1]? = some bar) {t : BacktestTrade}
    (ht : (b.fillPending bar (b.upToFrom risk df k)).openTrade = some t)
    (hexit : t.exitPrice = none) :
    realFunding df rates t bar.timestamp = realFunding df b.fundingRates t bar.timestamp := by
  obtain ⟨u, hu, hentry, exit, hmem, hle⟩ := open_trade_closes hdf hbar ht hexit
  have hcut (table : List FundingEvent) :
      (exposures table u exit).filter (·.timestamp ≤ bar.timestamp) =
        exposures table t bar.timestamp := by
    rw [exposures, exposures, List.filter_filter, hentry]
    refine List.filter_congr fun e _ => ?_
    rw [← Bool.decide_and, decide_eq_decide]
    exact ⟨fun h => ⟨h.2.1, h.1⟩, fun h => ⟨h.2, h.1, h.2.trans hle⟩⟩
  have hperm := (hsame u hu exit hmem).filter (·.timestamp ≤ bar.timestamp)
  rw [hcut, hcut] at hperm
  exact realFunding_perm hperm.symm

/-- **A bar under two tables.** -/
theorem upToFrom_books_congr (hdf : df.Pairwise fun x y => x.timestamp < y.timestamp)
    (hrates : b.fundingRates ≠ []) (hrates' : rates ≠ [])
    (hsame : ∀ t ∈ (b.runFrom risk df).trades, ∀ exit ∈ t.exitTime,
      (exposures b.fundingRates t exit).Perm (exposures rates t exit))
    {k : ℕ} (hk : k < df.length) :
    (Backtest.upToFrom { b with fundingRates := rates } risk df k).books =
      (b.upToFrom risk df k).books := by
  have hreal := useRealFunding_of_ne_nil hrates
  have hreal' : Backtest.useRealFunding { b with fundingRates := rates } = true :=
    useRealFunding_of_ne_nil hrates'
  induction k with
  | zero => rfl
  | succ k ih =>
    have hbar := List.getElem?_eq_getElem hk
    have hbefore := List.getElem?_eq_getElem (Nat.lt_of_succ_lt hk)
    have hlt : df[k].timestamp ≤ df[k + 1].timestamp :=
      (List.pairwise_iff_getElem.1 hdf k (k + 1) _ hk (Nat.lt_succ_self k)).le
    have hmark (time : Datetime) (hafter : df[k].timestamp < time)
        (hle : time ≤ df[k + 1].timestamp) : markAt df time = some df[k + 1].open_ :=
      markAt_of_stretch hdf hbefore hbar hafter hle
    rw [upToFrom_succ b risk hbar, upToFrom_succ _ risk hbar]
    have hfill : (Backtest.fillPending { b with fundingRates := rates } df[k + 1]
        (Backtest.upToFrom { b with fundingRates := rates } risk df k)).books =
        (b.fillPending df[k + 1] (b.upToFrom risk df k)).books := by
      rw [books_fillPending, books_fillPending, ih (Nat.lt_of_succ_lt hk)]
      rfl
    have hcharge : (Backtest.chargeFunding { b with fundingRates := rates } df[k + 1]
        (Backtest.fillPending { b with fundingRates := rates } df[k + 1]
          (Backtest.upToFrom { b with fundingRates := rates } risk df k))).books =
        (b.chargeFunding df[k + 1] (b.fillPending df[k + 1] (b.upToFrom risk df k))).books := by
      rw [books_chargeFunding hreal'
          (fillPending_charged (upToFrom_charged risk hreal' hdf hbefore) hlt) hlt hmark,
        books_chargeFunding hreal
          (fillPending_charged (upToFrom_charged risk hreal hdf hbefore) hlt) hlt hmark, hfill]
      refine State.chargedUntil_congr fun t ht => realFunding_congr hdf hsame hbar ht ?_
      exact ((fillPending_charged (upToFrom_charged risk hreal hdf hbefore) hlt).opened t ht).1
    have hmanage (s : State) : Backtest.manage { b with fundingRates := rates } df[k + 1] s =
        b.manage df[k + 1] s := by
      unfold Backtest.manage
      rw [hreal, hreal']
    have hstep (b : Backtest γ) (bar : Bar γ) (seen : List (Bar γ)) (s : State) :
        (b.step s (bar, seen)).books = Backtest.recordEquity bar
          (b.decide seen (b.manage bar (b.chargeFunding bar (b.fillPending bar s)).books)) := by
      rw [← books_manage, ← books_decide]
      rfl
    rw [hstep, hstep, hcharge, hmanage]
    rfl

/-- **What a run returns depends on the events within the intervals of its trades alone.** -/
theorem runFrom_books_congr (hdf : df.Pairwise fun x y => x.timestamp < y.timestamp)
    (hrates : b.fundingRates ≠ []) (hrates' : rates ≠ [])
    (hsame : ∀ t ∈ (b.runFrom risk df).trades, ∀ exit ∈ t.exitTime,
      (exposures b.fundingRates t exit).Perm (exposures rates t exit)) :
    (Backtest.runFrom { b with fundingRates := rates } risk df).books =
      (b.runFrom risk df).books := by
  cases df with
  | nil => rfl
  | cons first rest =>
    have hupTo := upToFrom_books_congr hdf hrates hrates' hsame (Nat.lt_succ_self rest.length)
    rw [upToFrom_last, upToFrom_last] at hupTo
    unfold Backtest.runFrom
    rw [books_finish, books_finish, hupTo]
    unfold Backtest.finish
    rw [useRealFunding_of_ne_nil hrates]
    rw [show Backtest.useRealFunding { b with fundingRates := rates } = true from
      useRealFunding_of_ne_nil hrates']

end TwoTables

/-! ## The funding of a whole run -/

/-- The funding of a closed trade is the sum over the events of the table after its entry and up to
its exit, each at the open of the first bar not before it, which exists. -/
def FundedByEvents (df : List (Bar γ)) (table : List FundingEvent) (t : BacktestTrade) : Prop :=
  ∃ exit, t.exitTime = some exit ∧ t.funding = realFunding df table t exit ∧
    ∀ e ∈ exposures table t exit, (markAt df e.timestamp).isSome

/-- An event up to the time of a bar has a mark. -/
theorem markAt_isSome {df : List (Bar γ)} {bar : Bar γ} (hbar : bar ∈ df) {time : Datetime}
    (h : time ≤ bar.timestamp) : (markAt df time).isSome := by
  rw [markAt, Option.isSome_map, List.find?_isSome]
  exact ⟨bar, hbar, by simpa using h⟩

/-- **Real funding is charged event by event**, on a frame in strict time order and with any table
that is not empty, whatever the state of the risk engine. Events outside the intervals of the trades
change nothing: any other table that has the same events within them leads to the same run. -/
theorem funding_event_by_event (b : Backtest γ) (risk : RiskEngine) (df : List (Bar γ))
    (hdf : df.Pairwise fun x y => x.timestamp < y.timestamp) (hrates : b.fundingRates ≠ []) :
    (∀ t ∈ (b.runFrom risk df).trades, FundedByEvents df b.fundingRates t) ∧
      ∀ rates : List FundingEvent, rates ≠ [] →
        (∀ t ∈ (b.runFrom risk df).trades, ∀ exit ∈ t.exitTime,
          (exposures b.fundingRates t exit).Perm (exposures rates t exit)) →
        (Backtest.runFrom { b with fundingRates := rates } risk df).books =
          (b.runFrom risk df).books := by
  refine ⟨fun t ht => ?_, fun rates hrates' => runFrom_books_congr hdf hrates hrates'⟩
  obtain ⟨exit, hexit, ⟨bar, hbar, rfl⟩, hfunding⟩ :=
    runFrom_charged risk (useRealFunding_of_ne_nil hrates) hdf t ht
  refine ⟨bar.timestamp, hexit, hfunding, fun e he => markAt_isSome hbar ?_⟩
  exact (of_decide_eq_true (List.mem_filter.1 he).2).2

section Example

/-- A table with an event before the first bar, two within the trade and one after the last bar. -/
def mixedRates : List FundingEvent := [⟨9, 1 / 1000⟩, ⟨3, 1 / 1000⟩, ⟨-1, 1⟩, ⟨3, 2 / 1000⟩]

theorem funding_event_by_event_targetFrame :
    (Backtest.run { longOnce with fundingRates := mixedRates } targetFrame).books =
      (Backtest.run { longOnce with fundingRates := [⟨3, 2 / 1000⟩, ⟨3, 1 / 1000⟩] }
        targetFrame).books :=
  (funding_event_by_event { longOnce with fundingRates := [⟨3, 2 / 1000⟩, ⟨3, 1 / 1000⟩] }
    longOnce.init.risk targetFrame (by decide) (by simp)).2 mixedRates (by decide)
    (by decide +kernel)

/-- **An empty table is taken for an omitted one**: the trade is charged the flat estimate, though
there is no event. -/
theorem empty_table_charges_flat_estimate :
    targetFrame.Pairwise (fun x y => x.timestamp < y.timestamp) ∧ longOnce.fundingRates = [] ∧
      ∃ t ∈ (longOnce.run targetFrame).trades, t.exitTime = some 3 ∧
        t.funding ≠ realFunding targetFrame longOnce.fundingRates t 3 := by
  refine ⟨by decide, rfl, ?_⟩
  decide +kernel

end Example

end AlphaOne.Backtester

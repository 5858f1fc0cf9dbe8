import AlphaOne.Backtester.LookAhead
import AlphaOne.Risk.History

/-!
# Which entries a backtest makes

The trades of a run follow one another, so that what is known when a trade is entered is the list
of the trades before it (`Gated`). The risk engine is told each close at the time of its bar and is
asked at the time of the bar of each entry; on a frame in time order its counters are those of the
closes so far (`Supervised`), and what it allows is what the limits permit.

The daily cap counts closes. It bounds the entries of a day as well, because a trade entered on a
day is closed, on the same day, before the next entry of that day.
-/

namespace AlphaOne.Backtester

open Foundations Risk

variable {γ : Type*}

/-! ## The closes of a list of trades -/

/-- The closes the risk engine is told of, from an equity on: each with its percentage of the
equity before it. -/
def closesFrom : ℚ → List BacktestTrade → List Close
  | _, [] => []
  | equity, t :: trades =>
    ⟨Backtest.equityRelativePnlPct t.pnl equity, t.exitTime.getD t.entryTime⟩ ::
      closesFrom (equity + t.pnl) trades

/-- The account after a list of trades. -/
def accountAfter (initialCapital : ℚ) (trades : List BacktestTrade) : ℚ :=
  initialCapital + (trades.map BacktestTrade.pnl).sum

theorem closesFrom_append (equity : ℚ) (l r : List BacktestTrade) :
    closesFrom equity (l ++ r) = closesFrom equity l ++ closesFrom (accountAfter equity l) r := by
  induction l generalizing equity with
  | nil => simp [closesFrom, accountAfter]
  | cons t l ih => simp [closesFrom, ih, accountAfter, add_assoc]

theorem accountAfter_concat (initialCapital : ℚ) (trades : List BacktestTrade)
    (t : BacktestTrade) :
    accountAfter initialCapital (trades ++ [t]) = accountAfter initialCapital trades + t.pnl := by
  simp [accountAfter, add_assoc]

/-- What the limits of the configuration ask of an entry at a time, given the trades before it.
Closes are reported relative to the account. -/
structure Gated (config : BacktestConfig) (before : List BacktestTrade) (entry : Datetime) :
    Prop where
  /-- The earlier trades have been closed. -/
  closed : ∀ u ∈ before, ∃ time ∈ u.exitTime, u.entryTime ≤ time ∧ time ≤ entry
  /-- The cap on the day's trades leaves room for one more entry. -/
  dailyTrades : (before.filter (·.entryTime.date = entry.date)).length <
    config.riskConfig.maxDailyTrades
  /-- The results of the day have not reached the loss limit. -/
  dailyLoss : -config.riskConfig.maxDailyLossPct <
    dayResult entry.date (closesFrom config.initialCapital before)
  /-- The cooldown after each streak of losses is over. -/
  cooldown : ∀ l c, l ++ [c] <+: closesFrom config.initialCapital before → c.pnlPct < 0 →
    config.riskConfig.cooldownConsecutiveLosses ≤ lossStreak config.riskConfig (l ++ [c]) →
    c.time + Timedelta.minutes config.riskConfig.cooldownMinutes ≤ entry
  /-- No close has reached the drawdown limit. -/
  drawdown : ∀ l c, l ++ [c] <+: closesFrom config.initialCapital before →
    drawdownPct config.initialCapital (l ++ [c]) < config.riskConfig.maxDrawdownPct

/-- Every trade of a list met the limits, given the trades before it. -/
def AllGated (config : BacktestConfig) (trades : List BacktestTrade) : Prop :=
  ∀ before t after, trades = before ++ t :: after → Gated config before t.entryTime

section Lists

variable {config : BacktestConfig} {trades : List BacktestTrade} {t : BacktestTrade}

theorem AllGated.concat (h : AllGated config trades) (ht : Gated config trades t.entryTime) :
    AllGated config (trades ++ [t]) := by
  intro before u after hsplit
  rcases List.eq_nil_or_concat after with rfl | ⟨after, last, rfl⟩
  · obtain ⟨rfl, hlast⟩ := List.append_inj' hsplit rfl
    rwa [← List.singleton_inj.1 hlast]
  · have hrest : trades ++ [t] = (before ++ u :: after) ++ [last] := by
      simpa [List.concat_eq_append] using hsplit
    exact h before u after (List.append_inj' hrest rfl).1

theorem AllGated.of_concat (h : AllGated config (trades ++ [t])) :
    AllGated config trades ∧ Gated config trades t.entryTime :=
  ⟨fun before u after hsplit => h before u (after ++ [t]) (by simp [hsplit]), h trades t [] rfl⟩

/-- **The cap on a day's entries.** -/
theorem AllGated.daily_entries (h : AllGated config trades) (day : ℤ) :
    (trades.filter (·.entryTime.date = day)).length ≤ config.riskConfig.maxDailyTrades.toNat := by
  induction trades using List.reverseRecOn with
  | nil => simp
  | append_singleton trades t ih =>
    obtain ⟨hall, ht⟩ := h.of_concat
    rw [List.filter_append, List.length_append]
    by_cases hday : t.entryTime.date = day
    · have hroom := ht.dailyTrades
      rw [hday] at hroom
      simp only [hday, decide_true, List.filter_cons_of_pos, List.filter_nil, List.length_singleton]
      omega
    · simpa [hday] using ih hall

/-- Entries of a day whose trades have been closed by that day are closes of that day. -/
theorem entries_le_closes {entry : Datetime} (equity : ℚ)
    (h : ∀ u ∈ trades, ∃ time ∈ u.exitTime, u.entryTime ≤ time ∧ time ≤ entry) :
    (trades.filter (·.entryTime.date = entry.date)).length ≤
      (onDay entry.date (closesFrom equity trades)).length := by
  induction trades generalizing equity with
  | nil => simp
  | cons u trades ih =>
    have hrest := ih (equity + u.pnl) fun v hv => h v (by simp [hv])
    obtain ⟨time, htime, hle, hle'⟩ := h u (by simp)
    have hsame : u.entryTime.date = entry.date → time.date = entry.date := fun heq =>
      le_antisymm (date_le_date hle') (heq ▸ date_le_date hle)
    simp only [closesFrom, onDay, Option.mem_def.1 htime, Option.getD_some] at hrest ⊢
    by_cases hentry : u.entryTime.date = entry.date
    · simpa [hentry, hsame hentry] using hrest
    · rw [List.filter_cons_of_neg (by simpa using hentry)]
      exact hrest.trans (List.Sublist.length_le ((List.sublist_cons_self _ _).filter _))

/-- Where the account has stayed positive, compounding the percentages gives the account. -/
theorem equityAfter_closesFrom {initialCapital : ℚ}
    (h : ∀ l, l <+: trades → l ≠ trades → 0 < accountAfter initialCapital l) :
    equityAfter initialCapital (closesFrom initialCapital trades) =
      accountAfter initialCapital trades := by
  induction trades using List.reverseRecOn with
  | nil => simp [closesFrom, accountAfter]
  | append_singleton trades t ih =>
    have hpos : 0 < accountAfter initialCapital trades :=
      h trades (List.prefix_append _ _) (by simp)
    have hprefix : equityAfter initialCapital (closesFrom initialCapital trades) =
        accountAfter initialCapital trades := by
      refine ih fun l hl hne => h l (hl.trans (List.prefix_append _ _)) fun heq => ?_
      have hlen := hl.length_le
      rw [heq, List.length_append, List.length_singleton] at hlen
      omega
    rw [closesFrom_append]
    simp only [closesFrom]
    rw [equityAfter_concat, hprefix, accountAfter_concat, Backtest.equityRelativePnlPct, if_pos hpos]
    field_simp

/-- **The equity of the limits is the account**: while no close has reached a drawdown limit of at
most 100 percent, the account stays positive and is the compounded equity. -/
theorem account_of_drawdown {initialCapital : ℚ} (hpos : 0 < initialCapital)
    (h : ∀ l c, l ++ [c] <+: closesFrom initialCapital trades →
      drawdownPct initialCapital (l ++ [c]) < 100) :
    ∀ l, l <+: trades → 0 < accountAfter initialCapital l ∧
      equityAfter initialCapital (closesFrom initialCapital l) = accountAfter initialCapital l := by
  induction trades using List.reverseRecOn with
  | nil =>
    intro l hl
    rw [List.prefix_nil.1 hl]
    simpa [accountAfter, closesFrom] using hpos
  | append_singleton trades t ih =>
    rw [closesFrom_append] at h
    have hbefore := ih fun l c hl => h l c (hl.trans (List.prefix_append _ _))
    intro l hl
    rcases List.prefix_concat_iff.1 hl with rfl | hl
    · have hequal : equityAfter initialCapital (closesFrom initialCapital (trades ++ [t])) =
          accountAfter initialCapital (trades ++ [t]) :=
        equityAfter_closesFrom fun l hl hne =>
          (hbefore l ((List.prefix_concat_iff.1 hl).resolve_left hne)).1
      refine ⟨?_, hequal⟩
      rw [← hequal, closesFrom_append]
      exact equityAfter_pos hpos (h _ _ (List.prefix_refl _))
    · exact hbefore l hl

end Lists

/-! ## The loop -/

/-- After the bars up to the time `now`: the risk engine tracks the closes so far, every trade met
the limits when it was entered, and all cooldowns but that of the last close are over. -/
structure Supervised (b : Backtest γ) (now : Datetime) (s : State) : Prop where
  tracks : Tracks b.config.initialCapital (closesFrom b.config.initialCapital s.trades) now s.risk
  config : s.risk.config = b.config.riskConfig
  equity : s.equity = accountAfter b.config.initialCapital s.trades
  gated : AllGated b.config s.trades
  closed : ∀ u ∈ s.trades, ∃ time ∈ u.exitTime, u.entryTime ≤ time ∧ time ≤ now
  opened : ∀ t ∈ s.openTrade, t.exitPrice = none ∧ t.entryTime ≤ now ∧
    Gated b.config s.trades t.entryTime
  cooled : ∀ l c, l ++ [c] <+: closesFrom b.config.initialCapital s.trades →
    l ++ [c] ≠ closesFrom b.config.initialCapital s.trades → c.pnlPct < 0 →
    b.config.riskConfig.cooldownConsecutiveLosses ≤ lossStreak b.config.riskConfig (l ++ [c]) →
    c.time + Timedelta.minutes b.config.riskConfig.cooldownMinutes ≤ now

section Loop

variable {b : Backtest γ} {s : State} {bar : Bar γ} {now : Datetime}

/-- The trades that have left by `now` have left by a later bar. -/
theorem Supervised.closed_later (h : Supervised b now s) (ht : now ≤ bar.timestamp) :
    ∀ u ∈ s.trades, ∃ time ∈ u.exitTime, u.entryTime ≤ time ∧ time ≤ bar.timestamp := by
  intro u hu
  obtain ⟨time, htime, hle, hle'⟩ := h.closed u hu
  exact ⟨time, htime, hle, hle'.trans ht⟩

/-- **What the gate allows meets the limits.** -/
theorem Supervised.gated_of_canTrade (h : Supervised b now s) (ht : now ≤ bar.timestamp)
    (hok : (s.risk.canTrade bar.timestamp).1 = .ok ()) :
    Gated b.config s.trades bar.timestamp := by
  have hpermitted := h.tracks.permitted ht hok
  rw [h.config] at hpermitted
  have hclosed := h.closed_later ht
  refine ⟨hclosed, ?_, hpermitted.dailyLoss, ?_, hpermitted.drawdown⟩
  · have hle := entries_le_closes b.config.initialCapital hclosed
    have hroom := hpermitted.dailyTrades
    omega
  · intro l c hl hloss hstreak
    by_cases hlast : l ++ [c] = closesFrom b.config.initialCapital s.trades
    · exact hpermitted.cooldown l c hlast.symm hloss (hlast ▸ hstreak)
    · exact (h.cooled l c hl hlast hloss hstreak).trans ht

theorem fillPending_supervised (h : Supervised b now s) (ht : now ≤ bar.timestamp) :
    Supervised b bar.timestamp (b.fillPending bar s) := by
  have hclosed := h.closed_later ht
  have hcooled := fun l c hl hne hloss hstreak => (h.cooled l c hl hne hloss hstreak).trans ht
  have htracks := h.tracks.canTrade ht
  have hconfig := (RiskEngine.canTrade_config s.risk bar.timestamp).trans h.config
  unfold Backtest.fillPending
  split
  · rename_i signal hpending hopen
    split
    · rename_i risk hcan
      have hgated := h.gated_of_canTrade ht (congrArg Prod.fst hcan)
      rw [hcan] at htracks hconfig
      refine ⟨htracks.positions _, hconfig, h.equity, h.gated, hclosed, ?_, hcooled⟩
      rintro t ⟨⟩
      exact ⟨rfl, le_rfl, hgated⟩
    · rename_i refusal risk hcan
      rw [hcan] at htracks hconfig
      refine ⟨htracks, hconfig, h.equity, h.gated, hclosed, ?_, hcooled⟩
      intro t hopen'
      rw [hopen] at hopen'
      cases hopen'
  · refine ⟨h.tracks.later ht, h.config, h.equity, h.gated, hclosed, ?_, hcooled⟩
    intro t hopen
    obtain ⟨hexit, hentry, hgated⟩ := h.opened t hopen
    exact ⟨hexit, hentry.trans ht, hgated⟩

theorem chargeFunding_supervised (h : Supervised b now s) :
    Supervised b now (b.chargeFunding bar s) := by
  unfold Backtest.chargeFunding
  split
  · obtain ⟨f, hf⟩ := applyFundingEvents_trade bar.timestamp bar.open_ s.fundingEvents s.openTrade
    refine ⟨h.tracks, h.config, h.equity, h.gated, h.closed, ?_, h.cooled⟩
    intro t ht
    simp only [hf, Option.mem_def, Option.map_eq_some_iff] at ht
    obtain ⟨u, hu, rfl⟩ := ht
    exact h.opened u hu
  · exact h

/-- What a bar that closes a trade leaves of it. -/
theorem managePosition_exit {config : BacktestConfig} {t : BacktestTrade} {o hi lo : ℚ}
    {time : Datetime} {real : Bool} (hopen : t.exitPrice = none)
    (h : (managePosition config t o hi lo time real).exitPrice.isSome) :
    (managePosition config t o hi lo time real).exitTime = some time ∧
      (managePosition config t o hi lo time real).entryTime = t.entryTime := by
  cases hexit : barExit config t o hi lo with
  | none => simp [managePosition, hexit, hopen] at h
  | some e =>
    simp only [managePosition, hexit]
    exact ⟨rfl, rfl⟩

theorem manage_supervised (h : Supervised b bar.timestamp s) :
    Supervised b bar.timestamp (b.manage bar s) := by
  unfold Backtest.manage
  split
  · exact h
  · rename_i t hopen
    obtain ⟨hnone, hentry, hgated⟩ := h.opened t hopen
    dsimp only
    split
    · rename_i hsome
      obtain ⟨hexit, hsame⟩ := managePosition_exit hnone hsome
      generalize managePosition b.config t bar.open_ bar.high bar.low bar.timestamp
        b.useRealFunding = u at hsome hexit hsame
      have hcloses : closesFrom b.config.initialCapital (s.trades ++ [u]) =
          closesFrom b.config.initialCapital s.trades ++
            [⟨Backtest.equityRelativePnlPct u.pnl s.equity, bar.timestamp⟩] := by
        simp [closesFrom_append, closesFrom, hexit, h.equity]
      have htracks : Tracks b.config.initialCapital
          (closesFrom b.config.initialCapital s.trades) bar.timestamp s.risk.recordPositionClose :=
        h.tracks.positions _
      refine ⟨?_, ?_, ?_, h.gated.concat (hsame ▸ hgated), ?_, by simp, ?_⟩
      · rw [hcloses]
        exact htracks.recordTradeResult le_rfl _
      · exact (RiskEngine.recordTradeResult_config _ _ _).trans h.config
      · rw [accountAfter_concat, h.equity]
      · intro v hv
        rcases List.mem_append.1 hv with hv | hv
        · exact h.closed v hv
        · rw [List.mem_singleton.1 hv]
          exact ⟨bar.timestamp, hexit, hsame ▸ hentry, le_rfl⟩
      · -- The trade was entered after the cooldowns of the closes before it.
        intro l c hl hne hloss hstreak
        rw [hcloses] at hl hne
        have hbefore := (List.prefix_concat_iff.1 hl).resolve_left hne
        exact (hgated.cooldown l c hbefore hloss hstreak).trans hentry
    · rename_i hsome
      refine ⟨h.tracks, h.config, h.equity, h.gated, h.closed, ?_, h.cooled⟩
      rintro u ⟨⟩
      have hsame := congrArg BacktestTrade.entryTime (entry_managePosition b.config t bar.open_
        bar.high bar.low bar.timestamp b.useRealFunding)
      exact ⟨by simpa using hsome, hsame.trans_le hentry, hsame ▸ hgated⟩

theorem decide_supervised (seen : List (Bar γ)) (h : Supervised b now s) :
    Supervised b now (b.decide seen s) := by
  unfold Backtest.decide
  split
  · exact ⟨h.tracks, h.config, h.equity, h.gated, h.closed, h.opened, h.cooled⟩
  · exact h

/-- **A bar keeps the run supervised**, at a time that does not go back. -/
theorem step_supervised (seen : List (Bar γ)) (h : Supervised b now s)
    (ht : now ≤ bar.timestamp) : Supervised b bar.timestamp (b.step s (bar, seen)) := by
  have hfunded : Supervised b bar.timestamp (b.chargeFunding bar (b.fillPending bar s)) :=
    chargeFunding_supervised (fillPending_supervised h ht)
  have hdecided := decide_supervised seen (manage_supervised hfunded)
  exact ⟨hdecided.tracks, hdecided.config, hdecided.equity, hdecided.gated, hdecided.closed,
    hdecided.opened, hdecided.cooled⟩

theorem init_supervised (b : Backtest γ) (now : Datetime) : Supervised b now b.init where
  tracks := tracks_new _ _ _ _
  config := rfl
  equity := by simp [Backtest.init, accountAfter]
  gated := by
    intro before t after hsplit
    simp [Backtest.init] at hsplit
  closed := by simp [Backtest.init]
  opened := by simp [Backtest.init]
  cooled := by
    intro l c hl
    simp [Backtest.init, closesFrom] at hl

/-- **A run over a frame in time order is supervised.** -/
theorem upTo_supervised (b : Backtest γ) {df : List (Bar γ)}
    (hdf : df.Pairwise fun x y => x.timestamp ≤ y.timestamp) {k : ℕ} {bar : Bar γ}
    (hbar : df[k]? = some bar) : Supervised b bar.timestamp (b.upTo df k) := by
  induction k generalizing bar with
  | zero => exact init_supervised b bar.timestamp
  | succ k ih =>
    obtain ⟨hlt, rfl⟩ := List.getElem?_eq_some_iff.1 hbar
    have hbefore := ih (List.getElem?_eq_getElem (Nat.lt_of_succ_lt hlt))
    rw [Backtest.upTo, run_bars_succ b _ hbar]
    exact step_supervised _ hbefore
      (List.pairwise_iff_getElem.1 hdf k (k + 1) (Nat.lt_of_succ_lt hlt) hlt (Nat.lt_succ_self k))

/-- All trades of a run met the limits, the one closed at the end of the data included. -/
theorem run_gated (b : Backtest γ) {df : List (Bar γ)}
    (hdf : df.Pairwise fun x y => x.timestamp ≤ y.timestamp) :
    AllGated b.config (b.run df).trades := by
  cases df with
  | nil =>
    intro before t after hsplit
    have hnone : (b.run []).trades = [] := rfl
    simp [hnone] at hsplit
  | cons first rest =>
    have hlen : (Backtest.bars (first :: rest)).length = rest.length := by simp [Backtest.bars]
    have h := upTo_supervised b hdf (List.getElem?_eq_getElem (Nat.lt_succ_self rest.length))
    rw [Backtest.upTo, List.take_of_length_le hlen.le] at h
    unfold Backtest.run Backtest.finish
    split
    · rename_i t last hopen hlast
      exact h.gated.concat (h.opened t hopen).2.2
    · exact h.gated

end Loop

/-- **Entry gating.** On a frame in time order, no UTC day has more entries than the daily cap, and
every trade was entered while its day's results were above the loss limit, outside the cooldown
after each streak of losses, and with no earlier close at the drawdown limit. With a positive
capital and a drawdown limit of at most 100 percent, the equity the drawdown is measured on is the
account. -/
theorem entries_gated (b : Backtest γ) (df : List (Bar γ))
    (hdf : df.Pairwise fun x y => x.timestamp ≤ y.timestamp) :
    (∀ day, ((b.run df).trades.filter (·.entryTime.date = day)).length ≤
      b.config.riskConfig.maxDailyTrades.toNat) ∧
    ∀ before t after, (b.run df).trades = before ++ t :: after →
      Gated b.config before t.entryTime ∧
      (0 < b.config.initialCapital → b.config.riskConfig.maxDrawdownPct ≤ 100 →
        ∀ l, l <+: before → 0 < accountAfter b.config.initialCapital l ∧
          equityAfter b.config.initialCapital (closesFrom b.config.initialCapital l) =
            accountAfter b.config.initialCapital l) := by
  have h := run_gated b hdf
  refine ⟨h.daily_entries, fun before t after hsplit => ?_⟩
  have hgated := h before t after hsplit
  refine ⟨hgated, fun hpos hlimit => ?_⟩
  exact account_of_drawdown hpos fun l c hl => (hgated.drawdown l c hl).trans_le hlimit

theorem entries_gated_targetFrame :
    ((longOnce.run targetFrame).trades.filter (·.entryTime.date = 0)).length ≤ 10 :=
  (entries_gated longOnce targetFrame (by decide)).1 0

end AlphaOne.Backtester

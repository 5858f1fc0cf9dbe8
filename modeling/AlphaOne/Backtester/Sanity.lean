import AlphaOne.Backtester.Gating
import AlphaOne.Backtester.Results

/-!
# Sane results

`services/backtester/sanity_checks.py`: the checks a result passes before it is reported. A run
passes them all where its configuration sizes no trade below zero (`run_passes_checks`): the
statistics agree with each other whatever the trades are, the gate lets no trade in once the equity
is gone, so that every quantity and every fee is nonnegative, and the points of the curve are sums
of the P&L of the trades so far.
-/

namespace AlphaOne.Backtester

open Foundations Risk

variable {γ : Type*}

/-! ## The checks -/

/-- A failed check, with the values its detail shows. -/
inductive SanityViolation
  | profitFactorNonNegative (profitFactor : ℚ)
  | winRateRange (winRate : ℚ)
  | drawdownNonNegative (maxDrawdown maxDrawdownPct : ℚ)
  | finalCapitalMatchesEquity (finalCapital expectedFinal : ℚ)
  | feesNonNegative (totalFees : ℚ)
  | tradeCountMatchesWinLossSplit (totalTrades winningTrades losingTrades : ℕ)
  | tradeCountMatchesRecordedTrades (totalTrades trades : ℕ)
  | exitNotBeforeEntry (tradeId : ℕ) (exitTime entryTime : Datetime)
  | positionSizeNonNegative (tradeId : ℕ) (quantity : ℚ)
  | leverageWithinConfiguredLimit (tradeId : ℕ) (leverage maxLeverage : ℤ)
  | equityCurveExplainedByTrades (unexplained : List ℚ)
  deriving DecidableEq, Repr

/-- `if failed: violations.append(violation)`. -/
def violationIf (failed : Prop) [Decidable failed] (violation : SanityViolation) :
    List SanityViolation :=
  if failed then [violation] else []

@[simp] theorem violationIf_eq_nil_iff {failed : Prop} [Decidable failed]
    {violation : SanityViolation} : violationIf failed violation = [] ↔ ¬failed := by
  unfold violationIf
  split <;> simp_all

/-- The checks of one trade. The leverage is checked where a configuration is given. -/
def checkTrade (config : Option BacktestConfig) (t : BacktestTrade) : List SanityViolation :=
  (match t.exitTime with
    | some exitTime =>
      violationIf (exitTime < t.entryTime) (.exitNotBeforeEntry t.tradeId exitTime t.entryTime)
    | none => []) ++
  violationIf (t.quantity < 0) (.positionSizeNonNegative t.tradeId t.quantity) ++
  (match config with
    | some config =>
      violationIf (t.leverage > config.exchangeSpec.maxLeverage)
        (.leverageWithinConfiguredLimit t.tradeId t.leverage config.exchangeSpec.maxLeverage)
    | none => [])

/-- The initial capital and the equity after each trade, in cents. -/
def prefixValues (result : BacktestResult) : List ℚ :=
  ((result.trades.map BacktestTrade.pnl).scanl (· + ·) result.initialCapital).map (roundTo · 2)

/-- The values of the curve that no number of trades explains. -/
def unexplainedValues (result : BacktestResult) : List ℚ :=
  ((result.equityCurve.map fun e => roundTo e.equity 2).filter (· ∉ prefixValues result)).dedup

/-- `check_result_sanity`. -/
def checkResultSanity (result : BacktestResult) (config : Option BacktestConfig) :
    List SanityViolation :=
  let expectedFinal := result.initialCapital + result.totalPnl
  violationIf (result.profitFactor < 0) (.profitFactorNonNegative result.profitFactor) ++
  violationIf (¬(0 ≤ result.winRate ∧ result.winRate ≤ 100)) (.winRateRange result.winRate) ++
  violationIf (result.maxDrawdown < 0 ∨ result.maxDrawdownPct < 0)
    (.drawdownNonNegative result.maxDrawdown result.maxDrawdownPct) ++
  violationIf (|result.finalCapital - expectedFinal| > max (1 / 100) (|expectedFinal| / 1000000))
    (.finalCapitalMatchesEquity result.finalCapital expectedFinal) ++
  violationIf (result.totalFees < 0) (.feesNonNegative result.totalFees) ++
  violationIf (result.totalTrades ≠ result.winningTrades + result.losingTrades)
    (.tradeCountMatchesWinLossSplit result.totalTrades result.winningTrades
      result.losingTrades) ++
  violationIf (result.totalTrades ≠ result.trades.length)
    (.tradeCountMatchesRecordedTrades result.totalTrades result.trades.length) ++
  result.trades.flatMap (checkTrade config) ++
  violationIf (unexplainedValues result ≠ [])
    (.equityCurveExplainedByTrades (((unexplainedValues result).insertionSort (· ≤ ·)).take 5))

/-! ## What the checks ask of the trades and the curve -/

theorem accountAfter_mem_scanl {l trades : List BacktestTrade} (h : l <+: trades) (capital : ℚ) :
    accountAfter capital l ∈ (trades.map BacktestTrade.pnl).scanl (· + ·) capital := by
  induction l generalizing capital trades with
  | nil => cases trades <;> simp [accountAfter]
  | cons t l ih =>
    obtain ⟨rest, rfl⟩ := h
    have hrest := ih (List.prefix_append l rest) (capital + t.pnl)
    simp only [List.cons_append, List.map_cons, List.scanl_cons, List.mem_cons]
    right
    simpa [accountAfter, add_assoc] using hrest

/-- The points of a curve are the account after some of the trades. -/
def Explained (config : BacktestConfig) (trades : List BacktestTrade)
    (equityCurve : List EquityPoint) : Prop :=
  ∀ p ∈ equityCurve, ∃ l, l <+: trades ∧ p.equity = accountAfter config.initialCapital l

/-- **Compiled results pass the checks** where the trades and the curve do. -/
theorem checkResultSanity_compileResults {config : BacktestConfig} {trades : List BacktestTrade}
    {equityCurve : List EquityPoint} {given : Option BacktestConfig}
    (hfees : ∀ t ∈ trades, 0 ≤ t.fees) (htrades : ∀ t ∈ trades, checkTrade given t = [])
    (hcurve : Explained config trades equityCurve) :
    checkResultSanity (compileResults config trades equityCurve) given = [] := by
  have hunexplained : unexplainedValues (compileResults config trades equityCurve) = [] := by
    unfold unexplainedValues
    rw [List.dedup_eq_nil, List.filter_eq_nil_iff]
    intro value hvalue
    rw [compileResults_equityCurve] at hvalue
    obtain ⟨p, hp, rfl⟩ := List.mem_map.1 hvalue
    obtain ⟨l, hl, hequity⟩ := hcurve p hp
    rw [decide_eq_true_eq, not_not, prefixValues, compileResults_trades,
      compileResults_initialCapital, hequity]
    exact List.mem_map_of_mem (accountAfter_mem_scanl hl config.initialCapital)
  have hcapital := abs_finalCapital_sub_le config trades equityCurve
  have hdrawdown := maxDrawdown_nonneg config trades equityCurve
  unfold checkResultSanity
  simp only [List.append_eq_nil_iff, violationIf_eq_nil_iff, compileResults_trades,
    compileResults_initialCapital, List.flatMap_eq_nil_iff]
  refine ⟨⟨⟨⟨⟨⟨⟨⟨?_, ?_⟩, ?_⟩, ?_⟩, ?_⟩, ?_⟩, ?_⟩, htrades⟩, not_not.2 hunexplained⟩
  · exact (profitFactor_nonneg config trades equityCurve).not_gt
  · exact not_not.2 (winRate_range config trades equityCurve)
  · exact not_or.2 ⟨hdrawdown.1.not_gt, hdrawdown.2.not_gt⟩
  · exact (hcapital.trans (le_max_left _ _)).not_gt
  · exact (totalFees_nonneg config trades equityCurve hfees).not_gt
  · exact not_not.2 (totalTrades_eq_split config trades equityCurve)
  · exact not_not.2 (totalTrades_eq_length config trades equityCurve)

/-! ## Sound trades -/

structure Bar.PositivePrices (bar : Bar γ) : Prop where
  open_ : 0 < bar.open_
  high : 0 < bar.high
  low : 0 < bar.low
  close : 0 < bar.close

structure Signal.WellFormed (signal : Signal) : Prop where
  leverage : 1 ≤ signal.leverage
  stopLoss : ∀ price ∈ signal.stopLoss, 0 < price
  takeProfit : ∀ price ∈ signal.takeProfit1, 0 < price
  positionPct : ∀ pct ∈ signal.positionPct, 0 ≤ pct

/-- A configuration with costs, limits and leverage within their ranges. -/
structure BacktestConfig.WithinRanges (config : BacktestConfig) : Prop where
  fee : 0 ≤ config.feeRate
  slippage : 0 ≤ config.slippageRate ∧ config.slippageRate < 1
  drawdown : config.riskConfig.maxDrawdownPct ≤ 100
  leverage : config.riskConfig.maxLeverage ≤ config.exchangeSpec.maxLeverage

/-- A configuration that sizes no trade below zero. -/
structure BacktestConfig.SizesNonneg (config : BacktestConfig) : Prop where
  capital : 0 ≤ config.initialCapital
  risk : 0 ≤ config.riskConfig.riskPerTradePct
  leverage : 0 ≤ config.riskConfig.maxLeverage

/-- A trade with a price, a size, a leverage, fees and exit levels that the checks accept now and
after its exit. -/
structure BacktestTrade.Sound (config : BacktestConfig) (t : BacktestTrade) : Prop where
  entryPrice : 0 < t.entryPrice
  quantity : 0 ≤ t.quantity
  leverage : t.leverage ≤ config.riskConfig.maxLeverage
  fees : 0 ≤ t.fees
  stopLoss : ∀ price ∈ t.stopLoss, 0 < price
  takeProfit : ∀ price ∈ t.takeProfit, 0 < price

section Sound

variable {config : BacktestConfig} {t : BacktestTrade}

/-- A price stays positive under the slippage of either side. -/
theorem BacktestConfig.WithinRanges.slipped (h : config.WithinRanges) {price : ℚ}
    (hprice : 0 < price) :
    0 < price * (1 + config.slippageRate) ∧ 0 < price * (1 - config.slippageRate) := by
  obtain ⟨hnonneg, hlt⟩ := h.slippage
  exact ⟨mul_pos hprice (by linarith), mul_pos hprice (by linarith)⟩

theorem calculatePositionSize_nonneg {e : RiskEngine} {entryPrice stopLoss : ℚ} {leverage : ℤ}
    (hequity : 0 ≤ e.state.currentEquity) (hrisk : 0 ≤ e.config.riskPerTradePct)
    (hmax : 0 ≤ e.config.maxLeverage) (hleverage : 0 ≤ leverage) (hentry : 0 < entryPrice) :
    0 ≤ e.calculatePositionSize entryPrice stopLoss leverage := by
  have hL : (0 : ℚ) ≤ (min leverage e.config.maxLeverage : ℤ) := by
    exact_mod_cast le_min hleverage hmax
  unfold RiskEngine.calculatePositionSize
  dsimp only
  split
  · exact le_rfl
  · exact le_min (by positivity) (by positivity)

/-- **A trade is sound when it is opened** with an equity that is not negative. -/
theorem openTrade_sound {e : RiskEngine} {signal : Signal} {price : ℚ} (time : Datetime) (id : ℕ)
    (hrange : config.WithinRanges) (hsizes : config.SizesNonneg)
    (hconfig : e.config = config.riskConfig) (hequity : 0 ≤ e.state.currentEquity)
    (hsignal : signal.WellFormed) (hprice : 0 < price) :
    (openTrade config e signal price time id).Sound config := by
  have hL : 0 ≤ min signal.leverage config.riskConfig.maxLeverage :=
    le_min (by linarith [hsignal.leverage]) hsizes.leverage
  have hentry : 0 < (openTrade config e signal price time id).entryPrice := by
    unfold openTrade
    dsimp only
    split
    · exact (hrange.slipped hprice).1
    · exact (hrange.slipped hprice).2
  have hquantity : 0 ≤ (openTrade config e signal price time id).quantity := by
    unfold openTrade at hentry ⊢
    dsimp only at hentry ⊢
    split
    · rename_i pct hpct
      have hpct' := hsignal.positionPct pct hpct
      have hL' : (0 : ℚ) ≤ (min signal.leverage config.riskConfig.maxLeverage : ℤ) := by
        exact_mod_cast hL
      rw [if_pos hentry]
      positivity
    · split
      · exact calculatePositionSize_nonneg hequity (hconfig ▸ hsizes.risk)
          (hconfig ▸ hsizes.leverage) hL hentry
      · exact le_rfl
  exact
    { entryPrice := hentry
      quantity := hquantity
      leverage := min_le_right _ _
      fees := mul_nonneg (mul_nonneg hentry.le hquantity) hrange.fee
      stopLoss := hsignal.stopLoss
      takeProfit := hsignal.takeProfit }

theorem level_eq_some {price : Option ℚ} {x : ℚ} (h : level price = some x) : price = some x :=
  (Option.filter_eq_some_iff.1 h).1

/-- A bar with a positive open is left at a positive price. -/
theorem barExit_pos (hrange : config.WithinRanges) (ht : t.Sound config) {o hi lo : ℚ}
    (ho : 0 < o) {e : ℚ × ExitReason} (h : barExit config t o hi lo = some e) : 0 < e.1 := by
  have hlevel {price : Option ℚ} {p : ℚ → Bool} {x : ℚ} (hpos : ∀ y ∈ price, 0 < y)
      (hx : (level price).filter p = some x) : 0 < x :=
    hpos x (level_eq_some (Option.filter_eq_some_iff.1 hx).1)
  have hstop (stopLoss : ℚ) (side : SignalType) (hpos : 0 < stopLoss) :
      0 < resolveStopFill config o stopLoss side := by
    unfold resolveStopFill
    dsimp only
    split
    · refine (hrange.slipped ?_).2
      split
      · exact ho
      · exact hpos
    · refine (hrange.slipped ?_).1
      split
      · exact ho
      · exact hpos
  unfold barExit at h
  split at h
  · split at h
    · rename_i stopLoss hx
      cases h
      exact hstop stopLoss .long (hlevel ht.stopLoss hx)
    · split at h
      · rename_i takeProfit hx
        cases h
        exact (hrange.slipped (hlevel ht.takeProfit hx)).2
      · cases h
  · split at h
    · rename_i stopLoss hx
      cases h
      exact hstop stopLoss .short (hlevel ht.stopLoss hx)
    · split at h
      · rename_i takeProfit hx
        cases h
        exact (hrange.slipped (hlevel ht.takeProfit hx)).1
      · cases h

/-- **A trade stays sound when it is closed** at a positive price. -/
theorem BacktestTrade.Sound.settle (hrange : config.WithinRanges) (h : t.Sound config)
    (real : Bool) {exitPrice : ℚ} (hprice : 0 < exitPrice) (exitTime : Datetime)
    (reason : ExitReason) :
    (settle config real { t with
      exitPrice := some exitPrice
      exitTime := some exitTime
      exitReason := some reason }).Sound config := by
  have hfee : 0 ≤ exitPrice * t.quantity * config.feeRate :=
    mul_nonneg (mul_nonneg hprice.le h.quantity) hrange.fee
  exact
    { entryPrice := h.entryPrice
      quantity := h.quantity
      leverage := h.leverage
      fees := add_nonneg h.fees hfee
      stopLoss := h.stopLoss
      takeProfit := h.takeProfit }

theorem BacktestTrade.Sound.managePosition (hrange : config.WithinRanges) (h : t.Sound config)
    {o : ℚ} (ho : 0 < o) (hi lo : ℚ) (time : Datetime) (real : Bool) :
    (managePosition config t o hi lo time real).Sound config := by
  unfold Backtester.managePosition
  split
  · exact h
  · rename_i exitPrice reason hexit
    have hclosed := h.settle hrange real (barExit_pos hrange h ho hexit) time reason
    exact ⟨hclosed.entryPrice, hclosed.quantity, hclosed.leverage, hclosed.fees,
      hclosed.stopLoss, hclosed.takeProfit⟩

end Sound

/-! ## Sane runs -/

/-- In the course of a run the trades are sound, and the curve is explained by those closed. -/
structure Sane (b : Backtest γ) (s : State) : Prop where
  pending : ∀ signal ∈ s.pendingSignal, signal.WellFormed
  opened : ∀ t ∈ s.openTrade, t.Sound b.config
  closed : ∀ t ∈ s.trades, t.Sound b.config
  explained : Explained b.config s.trades s.equityCurve

theorem Explained.mono {config : BacktestConfig} {trades trades' : List BacktestTrade}
    {equityCurve : List EquityPoint} (h : Explained config trades equityCurve)
    (hgrows : trades <+: trades') : Explained config trades' equityCurve := by
  intro p hp
  obtain ⟨l, hl, hequity⟩ := h p hp
  exact ⟨l, hl.trans hgrows, hequity⟩

theorem Explained.concat {config : BacktestConfig} {trades : List BacktestTrade}
    {equityCurve : List EquityPoint} (h : Explained config trades equityCurve) {p : EquityPoint}
    (hp : p.equity = accountAfter config.initialCapital trades) :
    Explained config trades (equityCurve ++ [p]) := by
  intro q hq
  rcases List.mem_append.1 hq with hq | hq
  · exact h q hq
  · rw [List.mem_singleton.1 hq]
    exact ⟨trades, List.prefix_refl _, hp⟩

section Run

variable {b : Backtest γ} {s : State} {bar : Bar γ} {now : Datetime}

/-- **Where the gate lets a trade in, the equity is not negative**: with a capital, no close has
reached a drawdown of all of it, and without one nothing is won or lost. -/
theorem Supervised.equity_nonneg (h : Supervised b now s) (ht : now ≤ bar.timestamp)
    (hcapital : 0 ≤ b.config.initialCapital) (hlimit : b.config.riskConfig.maxDrawdownPct ≤ 100)
    (hok : (s.risk.canTrade bar.timestamp).1 = .ok ()) : 0 ≤ s.risk.state.currentEquity := by
  rw [h.tracks.equity]
  rcases hcapital.eq_or_lt with hzero | hpos
  · simp [equityAfter, ← hzero]
  · rcases List.eq_nil_or_concat (closesFrom b.config.initialCapital s.trades) with
      hnone | ⟨l, c, hcloses⟩
    · rw [hnone, equityAfter_nil]
      exact hpos.le
    · have hdrawdown := (h.gated_of_canTrade ht hok).drawdown l c
      rw [hcloses, List.concat_eq_append] at hdrawdown ⊢
      exact (equityAfter_pos hpos ((hdrawdown (List.prefix_refl _)).trans_le hlimit)).le

theorem fillPending_sane (hrange : b.config.WithinRanges) (hsizes : b.config.SizesNonneg)
    (h : Sane b s) (hs : Supervised b now s) (ht : now ≤ bar.timestamp)
    (hbar : bar.PositivePrices) : Sane b (b.fillPending bar s) := by
  unfold Backtest.fillPending
  split
  · rename_i signal hpending hopen
    split
    · rename_i risk hcan
      have hequity := hs.equity_nonneg ht hsizes.capital hrange.drawdown (congrArg Prod.fst hcan)
      have hcap := RiskEngine.canTrade_currentEquity s.risk bar.timestamp
      have hconfig := RiskEngine.canTrade_config s.risk bar.timestamp
      rw [hcan] at hcap hconfig
      refine ⟨by simp, ?_, h.closed, h.explained⟩
      rintro t ⟨⟩
      exact openTrade_sound _ _ hrange hsizes (hconfig.trans hs.config) (hcap ▸ hequity)
        (h.pending signal hpending) hbar.open_
    · exact ⟨by simp, h.opened, h.closed, h.explained⟩
  · exact h

theorem chargeFunding_sane (h : Sane b s) : Sane b (b.chargeFunding bar s) := by
  unfold Backtest.chargeFunding
  split
  · obtain ⟨f, hf⟩ := applyFundingEvents_trade bar.timestamp bar.open_ s.fundingEvents s.openTrade
    refine ⟨h.pending, ?_, h.closed, h.explained⟩
    intro t ht
    simp only [hf, Option.mem_def, Option.map_eq_some_iff] at ht
    obtain ⟨u, hu, rfl⟩ := ht
    obtain ⟨hentry, hquantity, hleverage, hfees, hstop, htarget⟩ := h.opened u hu
    exact ⟨hentry, hquantity, hleverage, hfees, hstop, htarget⟩
  · exact h

theorem manage_sane (hrange : b.config.WithinRanges) (h : Sane b s) (hbar : bar.PositivePrices) :
    Sane b (b.manage bar s) := by
  unfold Backtest.manage
  split
  · exact h
  · rename_i t hopen
    have hmanaged := (h.opened t hopen).managePosition hrange hbar.open_ bar.high bar.low
      bar.timestamp b.useRealFunding
    dsimp only
    split
    · refine ⟨h.pending, by simp, fun u hu => ?_, h.explained.mono (List.prefix_append _ _)⟩
      rcases List.mem_append.1 hu with hu | hu
      · exact h.closed u hu
      · rw [List.mem_singleton.1 hu]
        exact hmanaged
    · exact ⟨h.pending, by simpa using hmanaged, h.closed, h.explained⟩

theorem decide_sane (hsignal : ∀ seen, ∀ signal ∈ b.signalFunc seen, signal.WellFormed)
    (seen : List (Bar γ)) (h : Sane b s) : Sane b (b.decide seen s) := by
  unfold Backtest.decide
  split
  · rename_i signal hdecision hopen
    refine ⟨?_, h.opened, h.closed, h.explained⟩
    rintro _ ⟨⟩
    exact hsignal seen signal hdecision
  · exact h

/-- **A bar keeps a run sane.** The point it records is the account after the trades so far. -/
theorem step_sane (hrange : b.config.WithinRanges) (hsizes : b.config.SizesNonneg)
    (hsignal : ∀ seen, ∀ signal ∈ b.signalFunc seen, signal.WellFormed) (seen : List (Bar γ))
    (h : Sane b s) (hs : Supervised b now s) (ht : now ≤ bar.timestamp)
    (hbar : bar.PositivePrices) : Sane b (b.step s (bar, seen)) := by
  have hcharged : Sane b (b.chargeFunding bar (b.fillPending bar s)) :=
    chargeFunding_sane (fillPending_sane hrange hsizes h hs ht hbar)
  have hdecided := decide_sane hsignal seen (manage_sane hrange hcharged hbar)
  refine ⟨hdecided.pending, hdecided.opened, hdecided.closed, ?_⟩
  exact hdecided.explained.concat (step_supervised seen hs ht).equity

theorem init_sane (b : Backtest γ) : Sane b b.init :=
  ⟨by simp [Backtest.init], by simp [Backtest.init], by simp [Backtest.init],
    by simp [Backtest.init, Explained]⟩

variable {df : List (Bar γ)}

theorem upTo_sane (hrange : b.config.WithinRanges) (hsizes : b.config.SizesNonneg)
    (hsignal : ∀ seen, ∀ signal ∈ b.signalFunc seen, signal.WellFormed)
    (hdf : df.Pairwise fun x y => x.timestamp ≤ y.timestamp)
    (hprices : ∀ bar ∈ df, bar.PositivePrices) {k : ℕ} (hk : k < df.length) :
    Sane b (b.upTo df k) := by
  induction k with
  | zero => exact init_sane b
  | succ k ih =>
    have hbefore := upTo_supervised b hdf (List.getElem?_eq_getElem (Nat.lt_of_succ_lt hk))
    rw [Backtest.upTo, run_bars_succ b _ (List.getElem?_eq_getElem hk)]
    exact step_sane hrange hsizes hsignal _ (ih (Nat.lt_of_succ_lt hk)) hbefore
      (List.pairwise_iff_getElem.1 hdf k (k + 1) _ hk (Nat.lt_succ_self k))
      (hprices _ (List.getElem_mem hk))

/-- Closing the trade that is still open at the last close keeps the run sane. -/
theorem finish_sane (hrange : b.config.WithinRanges) (h : Sane b s) (hs : Supervised b now s)
    (hprices : ∀ bar ∈ df, bar.PositivePrices) : Sane b (b.finish df s) := by
  unfold Backtest.finish
  split
  · rename_i t last hopen hlast
    have hsettled := (h.opened t hopen).settle hrange b.useRealFunding
      (hprices last (List.mem_of_getLast? hlast)).close last.timestamp .endOfData
    refine ⟨h.pending, by simp, fun u hu => ?_, ?_⟩
    · rcases List.mem_append.1 hu with hu | hu
      · exact h.closed u hu
      · rw [List.mem_singleton.1 hu]
        exact hsettled
    · refine (h.explained.mono (List.prefix_append _ _)).concat ?_
      rw [accountAfter_concat, hs.equity]
  · exact h

/-- **A run is sane.** -/
theorem run_sane (hrange : b.config.WithinRanges) (hsizes : b.config.SizesNonneg)
    (hsignal : ∀ seen, ∀ signal ∈ b.signalFunc seen, signal.WellFormed)
    (hdf : df.Pairwise fun x y => x.timestamp ≤ y.timestamp)
    (hprices : ∀ bar ∈ df, bar.PositivePrices) : Sane b (b.run df) := by
  cases df with
  | nil => exact init_sane b
  | cons first rest =>
    have hlen : (Backtest.bars (first :: rest)).length = rest.length := by simp [Backtest.bars]
    have hlast : rest.length < (first :: rest).length := Nat.lt_succ_self _
    have h := upTo_sane hrange hsizes hsignal hdf hprices hlast
    have hs := upTo_supervised b hdf (List.getElem?_eq_getElem hlast)
    rw [Backtest.upTo, List.take_of_length_le hlen.le] at h hs
    exact finish_sane hrange h hs hprices

/-- On a frame in time order no trade leaves before it enters. -/
theorem Disjoint.entry_le_exit {trades : List BacktestTrade} (h : Disjoint df trades)
    (hdf : df.Pairwise fun x y => x.timestamp ≤ y.timestamp) {t : BacktestTrade} (ht : t ∈ trades) :
    ∀ exitTime ∈ t.exitTime, t.entryTime ≤ exitTime := by
  intro exitTime hexitTime
  obtain ⟨spans, htrades, -⟩ := h
  obtain ⟨n, hn, rfl⟩ := List.getElem_of_mem ht
  have hspan : Spans df trades[n] _ := htrades.get hn (htrades.length_eq ▸ hn)
  obtain ⟨bar, hbar, hentry⟩ := Option.map_eq_some_iff.1 hspan.entry
  obtain ⟨bar', hbar', hexit⟩ := Option.map_eq_some_iff.1 (hspan.exit.trans hexitTime)
  obtain ⟨hi, rfl⟩ := List.getElem?_eq_some_iff.1 hbar
  obtain ⟨hj, rfl⟩ := List.getElem?_eq_some_iff.1 hbar'
  rw [← hentry, ← hexit]
  rcases hspan.le.eq_or_lt with heq | hlt
  · simp only [heq, le_refl]
  · exact List.pairwise_iff_getElem.1 hdf _ _ hi hj hlt

end Run

/-- The checks of a trade pass if it leaves no earlier than it enters, its quantity is not negative
and its leverage is within the limit that is given. -/
theorem checkTrade_eq_nil {given : Option BacktestConfig} {t : BacktestTrade}
    (hexit : ∀ exitTime ∈ t.exitTime, t.entryTime ≤ exitTime) (hquantity : 0 ≤ t.quantity)
    (hleverage : ∀ config ∈ given, t.leverage ≤ config.exchangeSpec.maxLeverage) :
    checkTrade given t = [] := by
  unfold checkTrade
  simp only [List.append_eq_nil_iff, violationIf_eq_nil_iff]
  refine ⟨⟨?_, hquantity.not_gt⟩, ?_⟩
  · split
    · rename_i exitTime hexitTime
      exact violationIf_eq_nil_iff.2 (hexit exitTime hexitTime).not_gt
    · rfl
  · split
    · exact violationIf_eq_nil_iff.2 (hleverage _ rfl).not_gt
    · rfl

/-- **Every run passes its own checks**, on a frame in time order with positive prices, for
well-formed decisions and any funding table, where the configuration is within its ranges and sizes
no trade below zero. -/
theorem run_passes_checks (b : Backtest γ) (df : List (Bar γ)) (given : Option BacktestConfig)
    (hgiven : ∀ config ∈ given, config = b.config) (hrange : b.config.WithinRanges)
    (hsizes : b.config.SizesNonneg)
    (hsignal : ∀ seen, ∀ signal ∈ b.signalFunc seen, signal.WellFormed)
    (hdf : df.Pairwise fun x y => x.timestamp ≤ y.timestamp)
    (hprices : ∀ bar ∈ df, bar.PositivePrices) :
    checkResultSanity (b.result df) given = [] := by
  have hsane := run_sane hrange hsizes hsignal hdf hprices
  refine checkResultSanity_compileResults (fun t ht => (hsane.closed t ht).fees) ?_ hsane.explained
  intro t ht
  refine checkTrade_eq_nil ((run_disjoint b df).entry_le_exit hdf ht)
    (hsane.closed t ht).quantity ?_
  intro config hconfig
  rw [hgiven config hconfig]
  exact (hsane.closed t ht).leverage.trans hrange.leverage

section Example

/-- The strategy that goes long once, under a configuration. -/
def longOnceUnder (config : BacktestConfig) : Backtest Unit := { longOnce with config }

theorem longOnceUnder_wellFormed (config : BacktestConfig) :
    ∀ seen, ∀ signal ∈ (longOnceUnder config).signalFunc seen, signal.WellFormed := by
  intro seen signal hsignal
  simp only [longOnceUnder, longOnce, Option.mem_def, Option.ite_none_right_eq_some,
    Option.some.injEq] at hsignal
  obtain ⟨-, rfl⟩ := hsignal
  exact ⟨by decide, by simp, by simp, by simp⟩

theorem targetFrame_positivePrices : ∀ bar ∈ targetFrame, bar.PositivePrices := by
  intro bar hbar
  simp only [targetFrame, List.mem_cons, List.not_mem_nil, or_false] at hbar
  rcases hbar with rfl | rfl | rfl | rfl
  · exact ⟨by norm_num, by norm_num, by norm_num, by norm_num⟩
  · exact ⟨by norm_num, by norm_num, by norm_num, by norm_num⟩
  · exact ⟨by norm_num, by norm_num, by norm_num, by norm_num⟩
  · exact ⟨by norm_num, by norm_num, by norm_num, by norm_num⟩

theorem run_passes_checks_targetFrame :
    checkResultSanity ((longOnceUnder {}).result targetFrame) (some {}) = [] :=
  run_passes_checks (longOnceUnder {}) targetFrame (some {}) (by rintro _ ⟨⟩; rfl)
    ⟨by decide +kernel, by decide +kernel, by decide +kernel, by decide⟩
    ⟨by decide +kernel, by decide +kernel, by decide⟩ (longOnceUnder_wellFormed {}) (by decide)
    targetFrame_positivePrices

/-- A negative capital, risk or leverage is within the ranges, and sizes the trade below zero. -/
theorem negative_sizes_fail_checks :
    targetFrame.Pairwise (fun x y => x.timestamp ≤ y.timestamp) ∧
      (∀ bar ∈ targetFrame, bar.PositivePrices) ∧
      ∀ config ∈ [({ initialCapital := -10000 } : BacktestConfig),
          { riskConfig := { riskPerTradePct := -1 } }, { riskConfig := { maxLeverage := -1 } }],
        config.WithinRanges ∧
          (∀ seen, ∀ signal ∈ (longOnceUnder config).signalFunc seen, signal.WellFormed) ∧
          checkResultSanity ((longOnceUnder config).result targetFrame) (some config) ≠ [] := by
  refine ⟨by decide, targetFrame_positivePrices, ?_⟩
  intro config hconfig
  have hrange : config.WithinRanges := by
    simp only [List.mem_cons, List.not_mem_nil, or_false] at hconfig
    rcases hconfig with rfl | rfl | rfl
    · exact ⟨by decide +kernel, by decide +kernel, by decide +kernel, by decide⟩
    · exact ⟨by decide +kernel, by decide +kernel, by decide +kernel, by decide⟩
    · exact ⟨by decide +kernel, by decide +kernel, by decide +kernel, by decide⟩
  refine ⟨hrange, longOnceUnder_wellFormed config, ?_⟩
  clear hrange
  revert config
  decide +kernel

end Example

end AlphaOne.Backtester

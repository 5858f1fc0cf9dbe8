import AlphaOne.Risk.Engine
import Mathlib.Data.List.DropRight
import Mathlib.Data.List.Infix
import Mathlib.Tactic.Linarith

/-!
# The risk engine and the history of closes

The counters of the risk engine summarise the closes reported to it: the results of the day, the
streak of losses, the equity and the drawdown from its peak. Here these quantities are defined on
the list of closes itself, and `Tracks` says that an engine's counters are those of a list of
closes. Asking whether a trade is allowed and recording a close, at times that do not go back,
keep it (`Tracks.canTrade`, `Tracks.recordTradeResult`), so that what `can_trade` allows is what
the history permits (`Tracks.permitted`).
-/

namespace AlphaOne.Risk

/-! ## Histories -/

/-- A recorded close: its result in percent of the equity, and its time. -/
structure Close where
  pnlPct : ℚ
  time : Datetime
  deriving DecidableEq, Repr

def onDay (day : ℤ) (closes : List Close) : List Close := closes.filter (·.time.date = day)

/-- The sum of the results of a day. -/
def dayResult (day : ℤ) (closes : List Close) : ℚ := ((onDay day closes).map Close.pnlPct).sum

/-- A win ends a streak of losses, and so does a breakeven where it is configured to. -/
def EndsStreak (config : RiskConfig) (close : Close) : Prop :=
  0 < close.pnlPct ∨ close.pnlPct = 0 ∧ config.breakevenResetsConsecutiveLosses = true

instance (config : RiskConfig) (close : Close) : Decidable (EndsStreak config close) :=
  inferInstanceAs (Decidable (_ ∨ _ ∧ _))

/-- The losses since the last close that ended a streak. -/
def lossStreak (config : RiskConfig) (closes : List Close) : ℕ :=
  (closes.rtakeWhile fun c => ¬EndsStreak config c).countP (·.pnlPct < 0)

/-- The initial equity, compounded by the results. -/
def equityAfter (initialEquity : ℚ) (closes : List Close) : ℚ :=
  initialEquity * (closes.map fun c => 1 + c.pnlPct / 100).prod

/-- The highest equity there has been, the initial one included. -/
def peakEquity (initialEquity : ℚ) (closes : List Close) : ℚ :=
  (closes.inits.map (equityAfter initialEquity)).foldl max initialEquity

/-- The drawdown from the peak in percent. A peak that is not positive has none. -/
def drawdownPct (initialEquity : ℚ) (closes : List Close) : ℚ :=
  if 0 < peakEquity initialEquity closes then
    (peakEquity initialEquity closes - equityAfter initialEquity closes) /
      peakEquity initialEquity closes * 100
  else 0

section Concat

variable (config : RiskConfig) (initialEquity : ℚ) (closes : List Close) (close : Close) (day : ℤ)

theorem onDay_concat : onDay day (closes ++ [close]) =
    if close.time.date = day then onDay day closes ++ [close] else onDay day closes := by
  unfold onDay
  rw [List.filter_append]
  split_ifs with h <;> simp [h]

theorem onDay_eq_nil (h : ∀ c ∈ closes, c.time.date < day) : onDay day closes = [] :=
  List.filter_eq_nil_iff.2 fun c hc => by simpa using (h c hc).ne

theorem dayResult_concat : dayResult day (closes ++ [close]) =
    if close.time.date = day then dayResult day closes + close.pnlPct
    else dayResult day closes := by
  unfold dayResult
  rw [onDay_concat]
  split_ifs <;> simp

theorem lossStreak_concat : lossStreak config (closes ++ [close]) =
    if close.pnlPct < 0 then lossStreak config closes + 1
    else if EndsStreak config close then 0 else lossStreak config closes := by
  unfold lossStreak
  rw [List.rtakeWhile_concat]
  by_cases hloss : close.pnlPct < 0
  · have hgoes : ¬EndsStreak config close := by
      rintro (hwin | ⟨heven, -⟩)
      · exact absurd hloss hwin.asymm
      · exact absurd hloss (by rw [heven]; exact lt_irrefl _)
    simp [hloss, hgoes]
  · split_ifs <;> simp_all

theorem equityAfter_concat : equityAfter initialEquity (closes ++ [close]) =
    equityAfter initialEquity closes * (1 + close.pnlPct / 100) := by
  simp [equityAfter, mul_assoc]

theorem peakEquity_concat : peakEquity initialEquity (closes ++ [close]) =
    max (peakEquity initialEquity closes) (equityAfter initialEquity (closes ++ [close])) := by
  simp [peakEquity, List.inits_append]

end Concat

@[simp] theorem equityAfter_nil (initialEquity : ℚ) :
    equityAfter initialEquity [] = initialEquity := by
  simp [equityAfter]

@[simp] theorem peakEquity_nil (initialEquity : ℚ) :
    peakEquity initialEquity [] = initialEquity := by
  simp [peakEquity]

theorem le_peakEquity (initialEquity : ℚ) (closes : List Close) :
    initialEquity ≤ peakEquity initialEquity closes := by
  induction closes using List.reverseRecOn with
  | nil => simp
  | append_singleton closes close ih =>
    rw [peakEquity_concat]
    exact ih.trans (le_max_left _ _)

/-- A drawdown of less than all leaves some equity. -/
theorem equityAfter_pos {initialEquity : ℚ} {closes : List Close} (hpos : 0 < initialEquity)
    (h : drawdownPct initialEquity closes < 100) : 0 < equityAfter initialEquity closes := by
  have hpeak : 0 < peakEquity initialEquity closes :=
    hpos.trans_le (le_peakEquity initialEquity closes)
  rw [drawdownPct, if_pos hpeak] at h
  have hlt : (peakEquity initialEquity closes - equityAfter initialEquity closes) /
      peakEquity initialEquity closes < 1 := by linarith
  rw [div_lt_one hpeak] at hlt
  linarith

/-! ## What recording a result does -/

namespace RiskEngine

variable (e : RiskEngine) (now : Datetime) (pnlPct : ℚ)

@[simp] theorem resetDaily_config : (e.resetDaily now).config = e.config := by
  unfold resetDaily
  split <;> rfl

@[simp] theorem resetDaily_tradeDate : (e.resetDaily now).tradeDate = now.date := by
  unfold resetDaily
  split
  · rfl
  · rename_i h
    exact not_not.1 h

theorem armKillSwitch_eq : e.armKillSwitch =
    { e with state := { e.state with
      killSwitch := e.state.killSwitch ||
        decide (e.config.maxDrawdownPct ≤ e.state.currentDrawdownPct) } } := by
  unfold armKillSwitch
  split
  · rename_i h
    simp [ge_iff_le.1 h]
  · rename_i h
    simp [mt ge_iff_le.2 h]

theorem updateStreak_eq : e.updateStreak pnlPct now =
    { e with state := { e.state with
      consecutiveLosses :=
        if pnlPct < 0 then e.state.consecutiveLosses + 1
        else if EndsStreak e.config ⟨pnlPct, now⟩ then 0 else e.state.consecutiveLosses
      lastLossTime := if pnlPct < 0 then some now else e.state.lastLossTime
      cooldownUntil :=
        if pnlPct < 0 then
          if e.config.cooldownConsecutiveLosses ≤ e.state.consecutiveLosses + 1 then
            some (now + Timedelta.minutes e.config.cooldownMinutes)
          else e.state.cooldownUntil
        else if EndsStreak e.config ⟨pnlPct, now⟩ then none else e.state.cooldownUntil } } := by
  unfold updateStreak
  by_cases hloss : pnlPct < 0
  · simp [hloss]
  · have hends : EndsStreak e.config ⟨pnlPct, now⟩ ↔
        (!decide (pnlPct = 0) || e.config.breakevenResetsConsecutiveLosses) = true := by
      rcases (not_lt.1 hloss).lt_or_eq with hwin | heven
      · simp [EndsStreak, hwin, hwin.ne']
      · simp [EndsStreak, ← heven]
    simp only [hloss, if_false, decide_false, Bool.not_false, Bool.true_and, hends]
    simp only [Bool.false_eq_true, if_false]
    split_ifs
    · rfl
    · rfl

@[simp] theorem canTrade_config : (e.canTrade now).2.config = e.config :=
  resetDaily_config e now

@[simp] theorem recordTradeResult_config : (e.recordTradeResult pnlPct now).config = e.config := by
  rw [recordTradeResult, armKillSwitch_eq, updateStreak_eq]
  exact resetDaily_config e now

end RiskEngine

/-! ## Engines that track a history -/

/-- The counters of the engine are those of the closes, the last of which is not after `now`. -/
structure Tracks (initialEquity : ℚ) (closes : List Close) (now : Datetime) (e : RiskEngine) :
    Prop where
  /-- The day of the counters is not before that of a close, -/
  past : ∀ c ∈ closes, c.time.date ≤ e.tradeDate
  /-- nor, once there is a close, later than now. -/
  today : closes ≠ [] → e.tradeDate ≤ now.date
  dailyPnl : e.state.dailyPnlPct = dayResult e.tradeDate closes
  dailyTrades : e.state.dailyTrades = (onDay e.tradeDate closes).length
  equity : e.state.currentEquity = equityAfter initialEquity closes
  peak : e.state.peakEquity = peakEquity initialEquity closes
  drawdown : e.state.currentDrawdownPct = drawdownPct initialEquity closes
  streak : e.state.consecutiveLosses = lossStreak e.config closes
  cooldown : ∀ l c, closes = l ++ [c] → c.pnlPct < 0 →
    e.config.cooldownConsecutiveLosses ≤ lossStreak e.config closes →
    e.state.cooldownUntil = some (c.time + Timedelta.minutes e.config.cooldownMinutes)
  killSwitch : ∀ l c, l ++ [c] <+: closes →
    e.config.maxDrawdownPct ≤ drawdownPct initialEquity (l ++ [c]) → e.state.killSwitch = true

/-- What the four limits ask of an entry at a time, given the closes before it. The cooldown is
that of the last close. -/
structure Permitted (config : RiskConfig) (initialEquity : ℚ) (closes : List Close)
    (now : Datetime) : Prop where
  dailyTrades : (onDay now.date closes).length < config.maxDailyTrades
  dailyLoss : -config.maxDailyLossPct < dayResult now.date closes
  cooldown : ∀ l c, closes = l ++ [c] → c.pnlPct < 0 →
    config.cooldownConsecutiveLosses ≤ lossStreak config closes →
    c.time + Timedelta.minutes config.cooldownMinutes ≤ now
  drawdown : ∀ l c, l ++ [c] <+: closes →
    drawdownPct initialEquity (l ++ [c]) < config.maxDrawdownPct

variable {initialEquity : ℚ} {closes : List Close} {now t : Datetime} {e : RiskEngine}

/-- A new engine tracks the empty history. -/
theorem tracks_new (config : RiskConfig) (initialEquity : ℚ) (today : ℤ) (now : Datetime) :
    Tracks initialEquity [] now (RiskEngine.new config initialEquity today) where
  past := by simp
  today := by simp
  dailyPnl := rfl
  dailyTrades := rfl
  equity := (equityAfter_nil initialEquity).symm
  peak := (peakEquity_nil initialEquity).symm
  drawdown := by simp [drawdownPct, RiskEngine.new]
  streak := rfl
  cooldown := by simp
  killSwitch := by
    intro l c h
    simp at h

theorem date_le_date (h : now ≤ t) : now.date ≤ t.date :=
  Int.ediv_le_ediv (by decide) h

/-- The day rollover keeps the counters right: the days that have closes are over when the day
changes. -/
theorem Tracks.resetDaily (h : Tracks initialEquity closes now e) (ht : now ≤ t) :
    Tracks initialEquity closes t (e.resetDaily t) := by
  by_cases hday : e.tradeDate = t.date
  · have hkeep : e.resetDaily t = e := by simp [RiskEngine.resetDaily, hday]
    rw [hkeep]
    exact { h with today := fun _ => hday.le }
  · have hnew : e.resetDaily t = { e with
        state := { e.state with dailyPnlPct := 0, dailyTrades := 0 }, tradeDate := t.date } := by
      simp [RiskEngine.resetDaily, hday]
    have hpast : ∀ c ∈ closes, c.time.date < t.date := by
      intro c hc
      have hbefore : e.tradeDate ≤ t.date :=
        (h.today (List.ne_nil_of_mem hc)).trans (date_le_date ht)
      exact (h.past c hc).trans_lt (lt_of_le_of_ne hbefore hday)
    rw [hnew]
    exact { past := fun c hc => (hpast c hc).le
            today := fun _ => le_rfl
            dailyPnl := by simp [dayResult, onDay_eq_nil _ _ hpast]
            dailyTrades := by simp [onDay_eq_nil _ _ hpast]
            equity := h.equity
            peak := h.peak
            drawdown := h.drawdown
            streak := h.streak
            cooldown := h.cooldown
            killSwitch := h.killSwitch }

/-- The count of open positions is not part of the history. -/
theorem Tracks.positions (h : Tracks initialEquity closes now e) (n : ℤ) :
    Tracks initialEquity closes now { e with state := { e.state with positionsOpen := n } } :=
  { h with }

theorem Tracks.later (h : Tracks initialEquity closes now e) (ht : now ≤ t) :
    Tracks initialEquity closes t e :=
  { h with today := fun hne => (h.today hne).trans (date_le_date ht) }

theorem Tracks.canTrade (h : Tracks initialEquity closes now e) (ht : now ≤ t) :
    Tracks initialEquity closes t (e.canTrade t).2 :=
  h.resetDaily ht

/-- **What the gate allows, the history permits.** -/
theorem Tracks.permitted (h : Tracks initialEquity closes now e) (ht : now ≤ t)
    (hok : (e.canTrade t).1 = .ok ()) : Permitted e.config initialEquity closes t := by
  have hr := h.resetDaily ht
  have hconfig := RiskEngine.resetDaily_config e t
  have hdate := RiskEngine.resetDaily_tradeDate e t
  simp only [RiskEngine.canTrade] at hok
  split_ifs at hok with hkill hloss htrades hpos
  split at hok
  · cases hok
  · rename_i hcool
    refine ⟨?_, ?_, ?_, ?_⟩
    · rw [hr.dailyTrades, hdate, hconfig] at htrades
      exact not_le.1 htrades
    · rw [hr.dailyPnl, hdate, hconfig] at hloss
      exact not_le.1 hloss
    · intro l c hl hc hstreak
      rw [← hconfig] at hstreak
      have huntil := hr.cooldown l c hl hc hstreak
      rw [RiskEngine.pendingCooldown, if_pos (by rw [hr.streak]; exact hstreak), huntil,
        Option.filter_eq_none_iff] at hcool
      have := hcool _ rfl
      rw [← hconfig]
      simpa using this
    · intro l c hl
      rw [← hconfig]
      by_contra hge
      exact hkill (hr.killSwitch l c hl (not_lt.1 hge))

/-- What a result makes of the equity, the peak and the drawdown. -/
theorem Tracks.applyResult (h : Tracks initialEquity closes now e) (pnlPct : ℚ) (t : Datetime) :
    (e.applyResult pnlPct).state.currentEquity =
        equityAfter initialEquity (closes ++ [⟨pnlPct, t⟩]) ∧
      (e.applyResult pnlPct).state.peakEquity =
        peakEquity initialEquity (closes ++ [⟨pnlPct, t⟩]) ∧
      (e.applyResult pnlPct).state.currentDrawdownPct =
        drawdownPct initialEquity (closes ++ [⟨pnlPct, t⟩]) := by
  have hequity : e.state.currentEquity * (1 + pnlPct / 100) =
      equityAfter initialEquity (closes ++ [⟨pnlPct, t⟩]) := by
    rw [equityAfter_concat, h.equity]
  have hpeak : (if e.state.currentEquity * (1 + pnlPct / 100) > e.state.peakEquity then
      e.state.currentEquity * (1 + pnlPct / 100) else e.state.peakEquity) =
      peakEquity initialEquity (closes ++ [⟨pnlPct, t⟩]) := by
    rw [peakEquity_concat, hequity, h.peak]
    split_ifs with hlt
    · exact (max_eq_right hlt.le).symm
    · exact (max_eq_left (not_lt.1 hlt)).symm
  refine ⟨hequity, hpeak, ?_⟩
  simp only [RiskEngine.applyResult, hpeak]
  rw [hequity, drawdownPct]
  split_ifs with hpos
  · rfl
  · -- A peak that is not positive has not been so before.
    have hbefore : peakEquity initialEquity closes ≤ 0 := by
      rw [peakEquity_concat] at hpos
      exact (le_max_left _ _).trans (not_lt.1 hpos)
    rw [h.drawdown, drawdownPct, if_neg (not_lt.2 hbefore)]

/-- **Recording a close tracks the history with that close.** -/
theorem Tracks.recordTradeResult (h : Tracks initialEquity closes now e) (ht : now ≤ t)
    (pnlPct : ℚ) :
    Tracks initialEquity (closes ++ [⟨pnlPct, t⟩]) t (e.recordTradeResult pnlPct t) := by
  have hr := h.resetDaily ht
  have hdate := RiskEngine.resetDaily_tradeDate e t
  rw [RiskEngine.recordTradeResult]
  generalize e.resetDaily t = r at hr hdate
  obtain ⟨hequity, hpeak, hdrawdown⟩ := hr.applyResult pnlPct t
  have hstreak : (if pnlPct < 0 then r.state.consecutiveLosses + 1
      else if EndsStreak r.config ⟨pnlPct, t⟩ then 0 else r.state.consecutiveLosses) =
      lossStreak r.config (closes ++ [⟨pnlPct, t⟩]) := by
    rw [lossStreak_concat, hr.streak]
    split_ifs <;> simp
  rw [RiskEngine.armKillSwitch_eq, RiskEngine.updateStreak_eq]
  refine ⟨?_, fun _ => hdate.le, ?_, ?_, hequity, hpeak, hdrawdown, hstreak, ?_, ?_⟩
  · intro c hc
    rcases List.mem_append.1 hc with hc | hc
    · exact hr.past c hc
    · rw [List.mem_singleton.1 hc]
      exact hdate.ge
  · change r.state.dailyPnlPct + pnlPct = dayResult r.tradeDate _
    rw [dayResult_concat, if_pos hdate.symm, hr.dailyPnl]
  · change r.state.dailyTrades + 1 = ((onDay r.tradeDate _).length : ℤ)
    rw [onDay_concat, if_pos hdate.symm, hr.dailyTrades]
    simp
  · intro l c hl hloss hcool
    obtain ⟨-, rfl⟩ := List.append_inj' hl rfl |>.imp_right List.singleton_inj.1
    have hstreak' := lossStreak_concat r.config closes ⟨pnlPct, t⟩
    rw [if_pos hloss] at hstreak'
    replace hcool : r.config.cooldownConsecutiveLosses ≤
        lossStreak r.config (closes ++ [⟨pnlPct, t⟩]) := hcool
    have hreached : r.config.cooldownConsecutiveLosses ≤ r.state.consecutiveLosses + 1 := by
      rw [hr.streak]
      rw [hstreak'] at hcool
      exact_mod_cast hcool
    exact (if_pos hloss).trans (if_pos hreached)
  · intro l c hl hreached
    simp only [Bool.or_eq_true, decide_eq_true_eq]
    rcases List.prefix_concat_iff.1 hl with heq | hbefore
    · right
      rw [hdrawdown, ← heq]
      exact hreached
    · left
      exact hr.killSwitch l c hbefore hreached

end AlphaOne.Risk

import AlphaOne.Risk.Operations

/-!
# The daily loss limit and the order of the reports

The engine keeps one sum of results and the date it belongs to, and starts again at zero whenever a
call brings a clock of another date, a later or an earlier one. The journal reports a closed trade
with the exit time that the user gives, so that the dates of the calls may go back: what has been
counted for a date is then lost when the calls leave it.

`countedResult` is what is left of a date in the history of the calls, `lostResult` what is not.
`daily_limit_iff` says exactly when the limit is reported as it should be.
-/

namespace AlphaOne.Risk

open Foundations

/-! ## What a history says of a date -/

/-- The clock with which a call rolls the day over. -/
def EngineOp.clock : EngineOp → Option Datetime
  | .resetDaily now | .getRiskStatus now | .canTrade now | .validateTrade _ _ _ now
  | .recordTradeResult _ now | .getStatus now => some now
  | .calculatePositionSize _ _ _ | .activateKillSwitch | .resetHardKill | .deactivateKillSwitch
  | .recordPositionOpen | .recordPositionClose => none

/-- The close that a call reports. -/
def EngineOp.close? : EngineOp → Option Close
  | .recordTradeResult pnlPct now => some ⟨pnlPct, now⟩
  | _ => none

def closesOf (ops : List EngineOp) : List Close := ops.filterMap EngineOp.close?

/-- The call does not bring a clock of another date. -/
def EngineOp.StaysOn (day : ℤ) (op : EngineOp) : Prop := ∀ t ∈ op.clock, t.date = day

instance (day : ℤ) (op : EngineOp) : Decidable (op.StaysOn day) := by
  unfold EngineOp.StaysOn; infer_instance

/-- The results of a date that have been reported since the last call on another date. -/
def countedResult (day : ℤ) (ops : List EngineOp) : ℚ :=
  dayResult day (closesOf (ops.rtakeWhile fun op => op.StaysOn day))

/-- The results of a date that have been reported before the last call on another date. -/
def lostResult (day : ℤ) (ops : List EngineOp) : ℚ :=
  dayResult day (closesOf (ops.rdropWhile fun op => op.StaysOn day))

theorem dayResult_append (day : ℤ) (closes closes' : List Close) :
    dayResult day (closes ++ closes') = dayResult day closes + dayResult day closes' := by
  simp [dayResult, onDay]

/-- All results of a date are those that are counted and those that are lost. -/
theorem lostResult_add_countedResult (day : ℤ) (ops : List EngineOp) :
    lostResult day ops + countedResult day ops = dayResult day (closesOf ops) := by
  unfold lostResult countedResult
  rw [← dayResult_append, closesOf, closesOf, ← List.filterMap_append,
    List.rdropWhile_append_rtakeWhile]
  rfl

/-- The results of a date, after one more call. -/
theorem countedResult_concat (day : ℤ) (ops : List EngineOp) (op : EngineOp) :
    countedResult day (ops ++ [op]) =
      if op.StaysOn day then countedResult day ops + dayResult day op.close?.toList else 0 := by
  unfold countedResult
  rw [List.rtakeWhile_concat]
  by_cases h : op.StaysOn day
  · simp only [h, decide_true, if_true]
    rw [closesOf, List.filterMap_append, ← closesOf, dayResult_append]
    congr 2
  · simp only [h, decide_false, Bool.false_eq_true, if_false]
    rfl

/-! ## What the engine has counted -/

namespace RiskEngine

/-- What the engine holds of the results of a date. -/
def heldResult (e : RiskEngine) (day : ℤ) : ℚ :=
  if e.tradeDate = day then e.state.dailyPnlPct else 0

theorem dailyPnlPct_resetDaily (e : RiskEngine) (now : Datetime) :
    (e.resetDaily now).state.dailyPnlPct = e.heldResult now.date := by
  unfold resetDaily heldResult
  by_cases h : e.tradeDate = now.date <;> simp [h]

theorem heldResult_resetDaily (e : RiskEngine) (now : Datetime) (day : ℤ) :
    (e.resetDaily now).heldResult day = if now.date = day then e.heldResult day else 0 := by
  rw [heldResult, resetDaily_tradeDate, dailyPnlPct_resetDaily]
  by_cases h : now.date = day
  · rw [if_pos h, if_pos h, h]
  · rw [if_neg h, if_neg h]

theorem heldResult_recordTradeResult (e : RiskEngine) (pnlPct : ℚ) (now : Datetime) (day : ℤ) :
    (e.recordTradeResult pnlPct now).heldResult day =
      if now.date = day then e.heldResult day + pnlPct else 0 := by
  have hdate : (e.recordTradeResult pnlPct now).tradeDate = now.date := by
    rw [recordTradeResult, armKillSwitch_eq, updateStreak_eq]
    exact resetDaily_tradeDate e now
  have hdaily : (e.recordTradeResult pnlPct now).state.dailyPnlPct =
      e.heldResult now.date + pnlPct := by
    rw [recordTradeResult, armKillSwitch_eq, updateStreak_eq]
    exact congrArg (· + pnlPct) (dailyPnlPct_resetDaily e now)
  rw [heldResult, hdate, hdaily]
  split_ifs with h
  · rw [h]
  · rfl

/-- **One call**: what is held of its date grows by what it reports, and what is held of every other
date is lost. -/
theorem heldResult_engineStep (e : RiskEngine) (op : EngineOp) (day : ℤ) :
    (engineStep e op).heldResult day =
      if op.StaysOn day then e.heldResult day + dayResult day op.close?.toList else 0 := by
  have hroll (now : Datetime) (h : op.clock = some now) (hclose : op.close? = none) :
      (e.resetDaily now).heldResult day =
        if op.StaysOn day then e.heldResult day + dayResult day op.close?.toList else 0 := by
    rw [heldResult_resetDaily, hclose]
    simp [EngineOp.StaysOn, h, dayResult, onDay]
  have hstay (h : op.clock = none) (hclose : op.close? = none) : e.heldResult day =
      if op.StaysOn day then e.heldResult day + dayResult day op.close?.toList else 0 := by
    rw [hclose]
    simp [EngineOp.StaysOn, h, dayResult, onDay]
  cases op with
  | recordTradeResult pnlPct now =>
    refine (heldResult_recordTradeResult e pnlPct now day).trans ?_
    by_cases h : now.date = day <;>
      simp [EngineOp.StaysOn, EngineOp.clock, EngineOp.close?, dayResult, onDay, h]
  | resetDaily now | getRiskStatus now | canTrade now | validateTrade _ _ _ now =>
    exact hroll now rfl rfl
  | getStatus now =>
    refine Eq.trans ?_ (hroll now rfl rfl)
    exact congrArg (heldResult · day) (e.resetDaily_resetDaily now)
  | calculatePositionSize | activateKillSwitch | resetHardKill | deactivateKillSwitch
  | recordPositionOpen | recordPositionClose => exact hstay rfl rfl

end RiskEngine

/-- **The engine holds what its history has counted**, in every run. -/
theorem heldResult_run (config : RiskConfig) (initialEquity : ℚ) (today : ℤ)
    (ops : List EngineOp) (day : ℤ) :
    (run engineStep (.new config initialEquity today) ops).heldResult day =
      countedResult day ops := by
  induction ops using List.reverseRecOn with
  | nil =>
    unfold RiskEngine.heldResult
    split_ifs <;> rfl
  | append_singleton ops op ih =>
    rw [run_append, run_cons, run_nil, RiskEngine.heldResult_engineStep, ih, countedResult_concat]

/-! ## What the engine reports -/

namespace RiskEngine

variable {e : RiskEngine} {now : Datetime}

theorem killSwitch_resetDaily (e : RiskEngine) (now : Datetime) :
    (e.resetDaily now).state.killSwitch = e.state.killSwitch := by
  obtain ⟨dailyPnlPct, dailyTrades, h⟩ := e.resetDaily_footprint now
  rw [h]

/-- Without a hard kill both observers look at what is held of the date. -/
theorem getRiskStatus_eq_dailyLimit_iff (hkill : e.state.killSwitch = false) :
    (e.getRiskStatus now).1 = .dailyLimit ↔
      e.heldResult now.date ≤ -e.config.maxDailyLossPct := by
  rw [getRiskStatus, killSwitch_resetDaily, hkill, dailyPnlPct_resetDaily, resetDaily_config]
  simp only [Bool.false_eq_true, if_false]
  by_cases h : e.heldResult now.date ≤ -e.config.maxDailyLossPct
  · rw [if_pos h]
    exact iff_of_true rfl h
  · rw [if_neg h]
    refine iff_of_false ?_ h
    split_ifs <;> simp

theorem canTrade_dailyLimit_iff (hkill : e.state.killSwitch = false) :
    (∃ pct, (e.canTrade now).1 = .error (.dailyLimit pct)) ↔
      e.heldResult now.date ≤ -e.config.maxDailyLossPct := by
  simp only [canTrade, killSwitch_resetDaily, hkill, dailyPnlPct_resetDaily, resetDaily_config,
    Bool.false_eq_true, if_false]
  by_cases h : e.heldResult now.date ≤ -e.config.maxDailyLossPct
  · simp [h]
  · simp only [h, if_false, iff_false]
    rintro ⟨pct, hpct⟩
    split_ifs at hpct
    · cases hpct
    · cases hpct
    · split at hpct <;> cases hpct

end RiskEngine

/-- `can_trade` and `get_risk_status` report the daily limit exactly when the results recorded for
the date of `now` have reached it. -/
def ReportsDailyLimit (e : RiskEngine) (ops : List EngineOp) (now : Datetime) : Prop :=
  let reached := dayResult now.date (closesOf ops) ≤ -e.config.maxDailyLossPct
  ((e.getRiskStatus now).1 = .dailyLimit ↔ reached) ∧
    ((∃ pct, (e.canTrade now).1 = .error (.dailyLimit pct)) ↔ reached)

/-- **The daily limit is reported as it should be if and only if the results that were lost do not
decide**: after any history of calls and for any clock, without a hard kill. -/
theorem daily_limit_iff (config : RiskConfig) (initialEquity : ℚ) (today : ℤ)
    (ops : List EngineOp) (now : Datetime)
    (hkill : (run engineStep (.new config initialEquity today) ops).state.killSwitch = false) :
    ReportsDailyLimit (run engineStep (.new config initialEquity today) ops) ops now ↔
      (countedResult now.date ops ≤ -config.maxDailyLossPct ↔
        lostResult now.date ops + countedResult now.date ops ≤ -config.maxDailyLossPct) := by
  unfold ReportsDailyLimit
  dsimp only
  rw [RiskEngine.getRiskStatus_eq_dailyLimit_iff hkill, RiskEngine.canTrade_dailyLimit_iff hkill,
    heldResult_run, run_config, lostResult_add_countedResult, and_self]
  rfl

/-- A loss of today, and then the exit of an older trade that is entered with its date. -/
def backDatedReport : List EngineOp :=
  [.recordTradeResult (-3) (Timedelta.days 1), .recordTradeResult (1 / 2) 0]

/-- Before the older exit the limit is reported. -/
theorem daily_limit_in_order :
    (run engineStep (.new {} 10000 0) (backDatedReport.take 1)).state.killSwitch = false ∧
      ReportsDailyLimit (run engineStep (.new {} 10000 0) (backDatedReport.take 1))
        (backDatedReport.take 1) (Timedelta.days 1) :=
  have hkill : (run engineStep (.new {} 10000 0) (backDatedReport.take 1)).state.killSwitch =
      false := by decide +kernel
  ⟨hkill, (daily_limit_iff {} 10000 0 (backDatedReport.take 1) (Timedelta.days 1) hkill).mpr
    (by decide +kernel)⟩

/-- After it the loss of today is forgotten, and trading is allowed. -/
theorem back_dated_exit_lifts_daily_limit :
    let e := run engineStep (.new {} 10000 0) backDatedReport
    e.state.killSwitch = false ∧
      (e.getRiskStatus (Timedelta.days 1)).1 = .active ∧
      (e.canTrade (Timedelta.days 1)).1 = .ok () ∧
      ¬ ReportsDailyLimit e backDatedReport (Timedelta.days 1) := by
  refine ⟨by decide +kernel, by decide +kernel, by decide +kernel, fun h => ?_⟩
  have hreported := h.1.mpr (by decide +kernel)
  exact absurd hreported (by decide +kernel)

end AlphaOne.Risk

import AlphaOne.Foundations.Rounding
import AlphaOne.Foundations.Run
import AlphaOne.Risk.History
import AlphaOne.Schema.IsoFormat

/-!
# Runs of the risk engine

Every public method of `services/risk_engine/engine.py` as one operation, with the clock it reads
and the answer it gives, and what holds of the engine after any sequence of them. The daily loss
limit, the cooldown and the hard kill share one state; `engineStep_cases` says once what an
operation can do, and the properties of runs follow from it:

* `peakEquity_run`: the peak is the running maximum of the equity;
* `killSwitch_run`: a hard kill lasts until it is reset;
* `canTrade_iff`: the two observers, `can_trade` and `get_risk_status`, agree.
-/

namespace AlphaOne.Risk

open Foundations

/-- Why `validate_trade` refuses, with the values its reason is formatted from. -/
inductive TradeRefusal
  /-- The reason of `can_trade`. -/
  | cannotTrade (reason : Refusal)
  /-- `Invalid price levels` -/
  | invalidPriceLevels
  /-- `Zero risk - invalid stop loss` -/
  | zeroRisk
  /-- `Risk/reward too low: 1:{rr:.2f}` -/
  | riskRewardTooLow (rr : ℚ)
  /-- `Position size is zero` -/
  | zeroPositionSize
  deriving DecidableEq, Repr

/-- What `get_status` returns. -/
structure StatusReport where
  riskPerTradePct : ℚ
  maxDailyLossPct : ℚ
  maxDrawdownPct : ℚ
  currentDailyPnlPct : ℚ
  currentDrawdownPct : ℚ
  positionsOpen : ℤ
  maxPositions : ℤ
  tradesToday : ℤ
  maxDailyTrades : ℤ
  killSwitchActive : Bool
  currentEquity : ℚ
  peakEquity : ℚ
  consecutiveLosses : ℤ
  cooldownUntil : Option (List Char)
  riskStatus : RiskStatus
  deriving DecidableEq, Repr

namespace RiskEngine

/-- `validate_trade`, on the quantity it approves. The side is not read. -/
def validateTrade (entryPrice stopLoss takeProfit : ℚ) (utcnow : Datetime) (e : RiskEngine) :
    Except TradeRefusal ℚ × RiskEngine :=
  let (answer, e) := e.canTrade utcnow
  let risk := |entryPrice - stopLoss|
  let reward := |takeProfit - entryPrice|
  let rr := reward / risk
  let quantity := e.calculatePositionSize entryPrice stopLoss 1
  let result :=
    match answer with
    | .error reason => .error (.cannotTrade reason)
    | .ok () =>
      if entryPrice ≤ 0 ∨ stopLoss ≤ 0 ∨ takeProfit ≤ 0 then .error .invalidPriceLevels
      else if risk = 0 then .error .zeroRisk
      else if rr < 1 then .error (.riskRewardTooLow rr)
      else if quantity ≤ 0 then .error .zeroPositionSize
      else .ok quantity
  (result, e)

def getStatus (utcnow : Datetime) (e : RiskEngine) : StatusReport × RiskEngine :=
  let (riskStatus, e) := (e.resetDaily utcnow).getRiskStatus utcnow
  ({ riskPerTradePct := e.config.riskPerTradePct
     maxDailyLossPct := e.config.maxDailyLossPct
     maxDrawdownPct := e.config.maxDrawdownPct
     currentDailyPnlPct := roundTo e.state.dailyPnlPct 4
     currentDrawdownPct := roundTo e.state.currentDrawdownPct 4
     positionsOpen := e.state.positionsOpen
     maxPositions := e.config.maxPositions
     tradesToday := e.state.dailyTrades
     maxDailyTrades := e.config.maxDailyTrades
     killSwitchActive := e.state.killSwitch
     currentEquity := roundTo e.state.currentEquity 2
     peakEquity := roundTo e.state.peakEquity 2
     consecutiveLosses := e.state.consecutiveLosses
     cooldownUntil := e.state.cooldownUntil.map Datetime.isoformat
     riskStatus }, e)

end RiskEngine

/-- A call of a method of the engine. Where the method has a default clock, the time is what it
reads. -/
inductive EngineOp
  | resetDaily (now : Datetime)
  | getRiskStatus (now : Datetime)
  | canTrade (now : Datetime)
  | calculatePositionSize (entryPrice stopLoss : ℚ) (leverage : ℤ)
  | validateTrade (entryPrice stopLoss takeProfit : ℚ) (utcnow : Datetime)
  | recordTradeResult (pnlPct : ℚ) (now : Datetime)
  | activateKillSwitch
  | resetHardKill
  /-- The alias of `reset_hard_kill`. -/
  | deactivateKillSwitch
  | recordPositionOpen
  | recordPositionClose
  | getStatus (utcnow : Datetime)
  deriving DecidableEq, Repr

/-- What a call returns. -/
inductive EngineAnswer
  | nothing
  | status (status : RiskStatus)
  | decision (decision : Except Refusal Unit)
  | size (quantity : ℚ)
  | validated (result : Except TradeRefusal ℚ)
  | report (report : StatusReport)
  deriving DecidableEq

def EngineOp.apply : EngineOp → RiskEngine → EngineAnswer × RiskEngine
  | .resetDaily now, e => (.nothing, e.resetDaily now)
  | .getRiskStatus now, e => (e.getRiskStatus now).map .status id
  | .canTrade now, e => (e.canTrade now).map .decision id
  | .calculatePositionSize entryPrice stopLoss leverage, e =>
    (.size (e.calculatePositionSize entryPrice stopLoss leverage), e)
  | .validateTrade entryPrice stopLoss takeProfit utcnow, e =>
    (e.validateTrade entryPrice stopLoss takeProfit utcnow).map .validated id
  | .recordTradeResult pnlPct now, e => (.nothing, e.recordTradeResult pnlPct now)
  | .activateKillSwitch, e => (.nothing, e.activateKillSwitch)
  | .resetHardKill, e => (.nothing, e.resetHardKill)
  | .deactivateKillSwitch, e => (.nothing, e.resetHardKill)
  | .recordPositionOpen, e => (.nothing, e.recordPositionOpen)
  | .recordPositionClose, e => (.nothing, e.recordPositionClose)
  | .getStatus utcnow, e => (e.getStatus utcnow).map .report id

/-- The engine after a call. -/
def engineStep (e : RiskEngine) (op : EngineOp) : RiskEngine := (op.apply e).2

/-! ## What a call can do -/

/-- The calls that clear a hard kill. -/
def EngineOp.ClearsHardKill (op : EngineOp) : Prop :=
  op = .resetHardKill ∨ op = .deactivateKillSwitch

instance (op : EngineOp) : Decidable op.ClearsHardKill := inferInstanceAs (Decidable (_ ∨ _))

theorem RiskEngine.resetDaily_resetDaily (e : RiskEngine) (now : Datetime) :
    (e.resetDaily now).resetDaily now = e.resetDaily now := by
  rw [resetDaily, resetDaily_tradeDate, if_neg (not_not.2 rfl)]

/-- A call rolls the day over, reports a result, arms or clears the hard kill, or counts a
position. -/
theorem engineStep_cases (e : RiskEngine) (op : EngineOp) :
    engineStep e op = e ∨
    (∃ now, engineStep e op = e.resetDaily now) ∨
    (∃ pnlPct now, op = .recordTradeResult pnlPct now ∧
      engineStep e op = e.recordTradeResult pnlPct now) ∨
    (op = .activateKillSwitch ∧ engineStep e op = e.activateKillSwitch) ∨
    (op.ClearsHardKill ∧ engineStep e op = e.resetHardKill) ∨
    ∃ n, engineStep e op = { e with state := { e.state with positionsOpen := n } } := by
  cases op with
  | resetDaily now => exact .inr (.inl ⟨now, rfl⟩)
  | getRiskStatus now => exact .inr (.inl ⟨now, rfl⟩)
  | canTrade now => exact .inr (.inl ⟨now, rfl⟩)
  | calculatePositionSize entryPrice stopLoss leverage => exact .inl rfl
  | validateTrade entryPrice stopLoss takeProfit utcnow => exact .inr (.inl ⟨utcnow, rfl⟩)
  | recordTradeResult pnlPct now => exact .inr (.inr (.inl ⟨pnlPct, now, rfl, rfl⟩))
  | activateKillSwitch => exact .inr (.inr (.inr (.inl ⟨rfl, rfl⟩)))
  | resetHardKill => exact .inr (.inr (.inr (.inr (.inl ⟨.inl rfl, rfl⟩))))
  | deactivateKillSwitch => exact .inr (.inr (.inr (.inr (.inl ⟨.inr rfl, rfl⟩))))
  | recordPositionOpen => exact .inr (.inr (.inr (.inr (.inr ⟨_, rfl⟩))))
  | recordPositionClose => exact .inr (.inr (.inr (.inr (.inr ⟨_, rfl⟩))))
  | getStatus utcnow =>
    exact .inr (.inl ⟨utcnow, RiskEngine.resetDaily_resetDaily e utcnow⟩)

namespace RiskEngine

variable (e : RiskEngine) (now : Datetime) (pnlPct : ℚ)

/-- **The day rollover** leaves everything but the counters of the day. -/
theorem resetDaily_footprint : ∃ dailyPnlPct dailyTrades,
    e.resetDaily now = { e with
      state := { e.state with dailyPnlPct, dailyTrades }, tradeDate := now.date } := by
  unfold resetDaily
  split_ifs with h
  · exact ⟨0, 0, rfl⟩
  · rw [← not_not.1 h]
    exact ⟨e.state.dailyPnlPct, e.state.dailyTrades, rfl⟩

theorem recordTradeResult_peakEquity : (e.recordTradeResult pnlPct now).state.peakEquity =
    max e.state.peakEquity (e.recordTradeResult pnlPct now).state.currentEquity := by
  obtain ⟨dailyPnlPct, dailyTrades, h⟩ := e.resetDaily_footprint now
  rw [recordTradeResult_currentEquity, recordTradeResult, armKillSwitch_eq, updateStreak_eq, h]
  simp only [applyResult]
  split_ifs with hlt
  · exact (max_eq_right hlt.le).symm
  · exact (max_eq_left (not_lt.1 hlt)).symm

theorem recordTradeResult_consecutiveLosses :
    (e.recordTradeResult pnlPct now).state.consecutiveLosses =
      if pnlPct < 0 then e.state.consecutiveLosses + 1
      else if EndsStreak e.config ⟨pnlPct, now⟩ then 0 else e.state.consecutiveLosses := by
  obtain ⟨dailyPnlPct, dailyTrades, h⟩ := e.resetDaily_footprint now
  rw [recordTradeResult, armKillSwitch_eq, updateStreak_eq, h]
  rfl

theorem recordTradeResult_cooldownUntil :
    (e.recordTradeResult pnlPct now).state.cooldownUntil =
      if pnlPct < 0 then
        if e.config.cooldownConsecutiveLosses ≤ e.state.consecutiveLosses + 1 then
          some (now + Timedelta.minutes e.config.cooldownMinutes)
        else e.state.cooldownUntil
      else if EndsStreak e.config ⟨pnlPct, now⟩ then none else e.state.cooldownUntil := by
  obtain ⟨dailyPnlPct, dailyTrades, h⟩ := e.resetDaily_footprint now
  rw [recordTradeResult, armKillSwitch_eq, updateStreak_eq, h]
  rfl

theorem recordTradeResult_killSwitch : (e.recordTradeResult pnlPct now).state.killSwitch =
    (e.state.killSwitch || decide (e.config.maxDrawdownPct ≤
      (e.recordTradeResult pnlPct now).state.currentDrawdownPct)) := by
  obtain ⟨dailyPnlPct, dailyTrades, h⟩ := e.resetDaily_footprint now
  rw [recordTradeResult, armKillSwitch_eq, updateStreak_eq, h]
  rfl

theorem recordTradeResult_currentDrawdownPct :
    (e.recordTradeResult pnlPct now).state.currentDrawdownPct =
      if 0 < (e.recordTradeResult pnlPct now).state.peakEquity then
        ((e.recordTradeResult pnlPct now).state.peakEquity -
          (e.recordTradeResult pnlPct now).state.currentEquity) /
          (e.recordTradeResult pnlPct now).state.peakEquity * 100
      else e.state.currentDrawdownPct := by
  obtain ⟨dailyPnlPct, dailyTrades, h⟩ := e.resetDaily_footprint now
  rw [recordTradeResult, armKillSwitch_eq, updateStreak_eq, h]
  rfl

end RiskEngine

@[simp] theorem engineStep_config (e : RiskEngine) (op : EngineOp) :
    (engineStep e op).config = e.config := by
  rcases engineStep_cases e op with h | ⟨now, h⟩ | ⟨pnlPct, now, -, h⟩ | ⟨-, h⟩ | ⟨-, h⟩ | ⟨n, h⟩
  · rw [h]
  · rw [h, RiskEngine.resetDaily_config]
  · rw [h, RiskEngine.recordTradeResult_config]
  · rw [h]
    rfl
  · rw [h]
    rfl
  · rw [h]

@[simp] theorem run_config (e : RiskEngine) (ops : List EngineOp) :
    (run engineStep e ops).config = e.config := by
  induction ops generalizing e with
  | nil => rfl
  | cons op ops ih => rw [run_cons, ih, engineStep_config]

/-! ## The peak of the equity -/

/-- The equity a call records, when it reports a result. -/
def recordedEquity (e : RiskEngine) : EngineOp → List ℚ
  | .recordTradeResult pnlPct now => [(e.recordTradeResult pnlPct now).state.currentEquity]
  | _ => []

/-- The equity that the results of a run leave, in their order. -/
def recordedEquities (e : RiskEngine) : List EngineOp → List ℚ
  | [] => []
  | op :: ops => recordedEquity e op ++ recordedEquities (engineStep e op) ops

theorem engineStep_peakEquity (e : RiskEngine) (op : EngineOp) :
    (engineStep e op).state.peakEquity =
      (recordedEquity e op).foldl max e.state.peakEquity := by
  cases op with
  | recordTradeResult pnlPct now => exact e.recordTradeResult_peakEquity now pnlPct
  | resetDaily now | getRiskStatus now | canTrade now | validateTrade _ _ _ now =>
    obtain ⟨dailyPnlPct, dailyTrades, h⟩ := e.resetDaily_footprint now
    exact congrArg (fun e => e.state.peakEquity) h
  | getStatus now =>
    obtain ⟨dailyPnlPct, dailyTrades, h⟩ := e.resetDaily_footprint now
    exact congrArg (fun e => e.state.peakEquity) ((e.resetDaily_resetDaily now).trans h)
  | _ => rfl

/-- **The peak is the running maximum of the equity.** -/
theorem peakEquity_run (e : RiskEngine) (ops : List EngineOp) :
    (run engineStep e ops).state.peakEquity =
      (recordedEquities e ops).foldl max e.state.peakEquity := by
  induction ops generalizing e with
  | nil => rfl
  | cons op ops ih =>
    rw [run_cons, ih, recordedEquities, List.foldl_append, engineStep_peakEquity]

/-! ## The hard kill -/

/-- The drawdown from the peak in percent. -/
def RiskEngine.drawdownFromPeak (e : RiskEngine) : ℚ :=
  (e.state.peakEquity - e.state.currentEquity) / e.state.peakEquity * 100

/-- The equity is not above its peak, and a peak that is not positive has recorded no drawdown. -/
structure DrawdownTracked (e : RiskEngine) : Prop where
  equity_le : e.state.currentEquity ≤ e.state.peakEquity
  noDrawdown : e.state.peakEquity ≤ 0 → e.state.currentDrawdownPct = 0

theorem drawdownTracked_new (config : RiskConfig) (initialEquity : ℚ) (today : ℤ) :
    DrawdownTracked (RiskEngine.new config initialEquity today) :=
  ⟨le_rfl, fun _ => rfl⟩

theorem DrawdownTracked.recordTradeResult {e : RiskEngine} (h : DrawdownTracked e) (pnlPct : ℚ)
    (now : Datetime) : DrawdownTracked (e.recordTradeResult pnlPct now) where
  equity_le := by
    rw [RiskEngine.recordTradeResult_peakEquity]
    exact le_max_right _ _
  noDrawdown := by
    intro hpeak
    rw [RiskEngine.recordTradeResult_currentDrawdownPct, if_neg (not_lt.2 hpeak)]
    rw [RiskEngine.recordTradeResult_peakEquity] at hpeak
    exact h.noDrawdown ((le_max_left _ _).trans hpeak)

theorem DrawdownTracked.step {e : RiskEngine} (h : DrawdownTracked e) (op : EngineOp) :
    DrawdownTracked (engineStep e op) := by
  rcases engineStep_cases e op with hop | ⟨now, hop⟩ | ⟨pnlPct, now, -, hop⟩ | ⟨-, hop⟩ |
    ⟨-, hop⟩ | ⟨n, hop⟩
  · rwa [hop]
  · obtain ⟨dailyPnlPct, dailyTrades, hday⟩ := e.resetDaily_footprint now
    rw [hop, hday]
    exact ⟨h.equity_le, h.noDrawdown⟩
  · rw [hop]
    exact h.recordTradeResult pnlPct now
  · rw [hop]
    exact ⟨h.equity_le, h.noDrawdown⟩
  · rw [hop]
    exact ⟨h.equity_le, h.noDrawdown⟩
  · rw [hop]
    exact ⟨h.equity_le, h.noDrawdown⟩

/-- The drawdown the engine compares with its limit is at least that from the peak. -/
theorem drawdownFromPeak_le {e : RiskEngine} (h : DrawdownTracked e) (pnlPct : ℚ)
    (now : Datetime) : (e.recordTradeResult pnlPct now).drawdownFromPeak ≤
      (e.recordTradeResult pnlPct now).state.currentDrawdownPct := by
  have hafter := h.recordTradeResult pnlPct now
  by_cases hpeak : 0 < (e.recordTradeResult pnlPct now).state.peakEquity
  · rw [RiskEngine.recordTradeResult_currentDrawdownPct, if_pos hpeak]
    rfl
  · rw [hafter.noDrawdown (not_lt.1 hpeak)]
    have hratio := div_nonpos_of_nonneg_of_nonpos (sub_nonneg.2 hafter.equity_le) (not_lt.1 hpeak)
    exact mul_nonpos_of_nonpos_of_nonneg hratio (by norm_num)

/-- A result that leaves the drawdown at its limit arms the hard kill. -/
theorem killSwitch_of_drawdown {e : RiskEngine} (h : DrawdownTracked e) (pnlPct : ℚ)
    (now : Datetime)
    (hlimit : e.config.maxDrawdownPct ≤ (e.recordTradeResult pnlPct now).drawdownFromPeak) :
    (e.recordTradeResult pnlPct now).state.killSwitch = true := by
  rw [RiskEngine.recordTradeResult_killSwitch, Bool.or_eq_true, decide_eq_true_eq]
  exact .inr (hlimit.trans (drawdownFromPeak_le h pnlPct now))

theorem engineStep_killSwitch {e : RiskEngine} {op : EngineOp} (hop : ¬op.ClearsHardKill)
    (h : e.state.killSwitch = true) : (engineStep e op).state.killSwitch = true := by
  rcases engineStep_cases e op with hstep | ⟨now, hstep⟩ | ⟨pnlPct, now, -, hstep⟩ |
    ⟨-, hstep⟩ | ⟨hclears, -⟩ | ⟨n, hstep⟩
  · rwa [hstep]
  · obtain ⟨dailyPnlPct, dailyTrades, hday⟩ := e.resetDaily_footprint now
    rwa [hstep, hday]
  · rw [hstep, RiskEngine.recordTradeResult_killSwitch, h, Bool.true_or]
  · rw [hstep]
    rfl
  · exact absurd hclears hop
  · rwa [hstep]

/-- **A hard kill lasts until it is reset.** -/
theorem killSwitch_run {e : RiskEngine} {ops : List EngineOp}
    (hops : ∀ op ∈ ops, ¬op.ClearsHardKill) (h : e.state.killSwitch = true) :
    (run engineStep e ops).state.killSwitch = true := by
  induction ops generalizing e with
  | nil => exact h
  | cons op ops ih =>
    exact ih (fun op hop => hops op (by simp [hop]))
      (engineStep_killSwitch (hops op (by simp)) h)

/-! ## The streak and the cooldown -/

/-- Only a result and a reset of the hard kill move the streak and the cooldown. -/
theorem engineStep_streak {e : RiskEngine} {op : EngineOp} (hclears : ¬op.ClearsHardKill)
    (hrecords : ∀ pnlPct now, op ≠ .recordTradeResult pnlPct now) :
    (engineStep e op).state.consecutiveLosses = e.state.consecutiveLosses ∧
      (engineStep e op).state.cooldownUntil = e.state.cooldownUntil := by
  rcases engineStep_cases e op with hstep | ⟨now, hstep⟩ | ⟨pnlPct, now, hop, -⟩ |
    ⟨-, hstep⟩ | ⟨hop, -⟩ | ⟨n, hstep⟩
  · rw [hstep]
    exact ⟨rfl, rfl⟩
  · obtain ⟨dailyPnlPct, dailyTrades, hday⟩ := e.resetDaily_footprint now
    rw [hstep, hday]
    exact ⟨rfl, rfl⟩
  · exact absurd hop (hrecords pnlPct now)
  · rw [hstep]
    exact ⟨rfl, rfl⟩
  · exact absurd hop hclears
  · rw [hstep]
    exact ⟨rfl, rfl⟩

/-! ## The two observers -/

/-- **The observers agree**: a trade is allowed when no mechanism blocks it and there is room for
it, on the day of the question. -/
theorem canTrade_iff (e : RiskEngine) (now : Datetime) :
    (e.canTrade now).1 = .ok () ↔
      (e.getRiskStatus now).1 = .active ∧
        (e.getRiskStatus now).2.state.dailyTrades < e.config.maxDailyTrades ∧
        (e.getRiskStatus now).2.state.positionsOpen < e.config.maxPositions := by
  have hconfig := e.resetDaily_config now
  simp only [RiskEngine.canTrade, RiskEngine.getRiskStatus]
  generalize e.resetDaily now = r at hconfig
  rw [hconfig]
  cases hcool : r.pendingCooldown now with
  | none => split_ifs <;> simp_all
  | some until_ => split_ifs <;> simp_all

/-- What a run of the engine guarantees about its three mechanisms. -/
theorem state_machine (config : RiskConfig) (initialEquity : ℚ) (today : ℤ)
    (ops : List EngineOp) :
    let start := RiskEngine.new config initialEquity today
    let e := run engineStep start ops
    e.state.peakEquity = (recordedEquities start ops).foldl max initialEquity ∧
    (∀ pnlPct now,
      config.maxDrawdownPct ≤ (e.recordTradeResult pnlPct now).drawdownFromPeak →
        (e.recordTradeResult pnlPct now).state.killSwitch = true) ∧
    (∀ later, (∀ op ∈ later, ¬op.ClearsHardKill) → e.state.killSwitch = true →
      (run engineStep e later).state.killSwitch = true) ∧
    (∀ op, ¬op.ClearsHardKill → (∀ pnlPct now, op ≠ .recordTradeResult pnlPct now) →
      (engineStep e op).state.consecutiveLosses = e.state.consecutiveLosses ∧
        (engineStep e op).state.cooldownUntil = e.state.cooldownUntil) ∧
    (∀ pnlPct now,
      -- The day of a result does not matter to the streak.
      (e.recordTradeResult pnlPct now).state.consecutiveLosses =
        if pnlPct < 0 then e.state.consecutiveLosses + 1
        else if EndsStreak config ⟨pnlPct, now⟩ then 0 else e.state.consecutiveLosses) ∧
    ∀ now, (e.canTrade now).1 = .ok () ↔
      (e.getRiskStatus now).1 = .active ∧
        (e.getRiskStatus now).2.state.dailyTrades < config.maxDailyTrades ∧
        (e.getRiskStatus now).2.state.positionsOpen < config.maxPositions := by
  intro start e
  have hconfig : e.config = config := run_config start ops
  have hkeep : ∀ e op, DrawdownTracked e → DrawdownTracked (engineStep e op) :=
    fun _ op h => h.step op
  have htracked : DrawdownTracked e :=
    (Always.of_step hkeep (drawdownTracked_new config initialEquity today) ops).last
  refine ⟨peakEquity_run start ops, ?_, ?_, ?_, ?_, ?_⟩
  · intro pnlPct now hlimit
    exact killSwitch_of_drawdown htracked pnlPct now (hconfig ▸ hlimit)
  · intro later hlater h
    exact killSwitch_run hlater h
  · intro op hclears hrecords
    exact engineStep_streak hclears hrecords
  · intro pnlPct now
    rw [← hconfig]
    exact e.recordTradeResult_consecutiveLosses now pnlPct
  · intro now
    rw [← hconfig]
    exact canTrade_iff e now

end AlphaOne.Risk

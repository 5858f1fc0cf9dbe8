import AlphaOne.Schema.Time
import Mathlib.Algebra.Order.Field.Basic
import Mathlib.Algebra.Order.Group.Unbundled.Abs
import Mathlib.Algebra.Order.Ring.Rat
import Mathlib.Tactic.FieldSimp
import Mathlib.Tactic.Ring

/-!
# The risk engine

`services/risk_engine/engine.py`: the daily loss limit, the cooldown after consecutive losses,
the hard kill on drawdown, and the sizing of a position from its stop distance. Each method
takes the time it reads as an argument, which is the caller's `now` where the source has one,
and returns the engine it leaves. Logging is left out.
-/

namespace AlphaOne.Risk

/-- The named risk states. -/
inductive RiskStatus
  | active
  | dailyLimit
  | cooldown
  | hardKill
  deriving DecidableEq, Repr

structure RiskConfig where
  riskPerTradePct : ℚ := 1 / 2
  maxDailyLossPct : ℚ := 2
  maxDrawdownPct : ℚ := 10
  maxLeverage : ℤ := 5
  maxPositions : ℤ := 1
  maxDailyTrades : ℤ := 10
  cooldownConsecutiveLosses : ℤ := 3
  cooldownMinutes : ℤ := 60
  breakevenResetsConsecutiveLosses : Bool := true
  deriving DecidableEq, Repr

structure RiskState where
  dailyPnlPct : ℚ := 0
  dailyTrades : ℤ := 0
  currentDrawdownPct : ℚ := 0
  peakEquity : ℚ := 10000
  currentEquity : ℚ := 10000
  consecutiveLosses : ℤ := 0
  lastLossTime : Option Datetime := none
  cooldownUntil : Option Datetime := none
  killSwitch : Bool := false
  positionsOpen : ℤ := 0
  deriving DecidableEq, Repr

structure RiskEngine where
  config : RiskConfig
  state : RiskState
  initialEquity : ℚ
  /-- `_trade_date`, the day the daily counters belong to. -/
  tradeDate : ℤ
  deriving DecidableEq, Repr

/-- Why `can_trade` refuses, with the values its reason is formatted from. -/
inductive Refusal
  /-- `HARD_KILL: Kill switch is active (max drawdown breached) …` -/
  | hardKill
  /-- `DAILY_LIMIT: Max daily loss exceeded: {daily_pnl_pct:.2f}% …` -/
  | dailyLimit (dailyPnlPct : ℚ)
  /-- `Max daily trades reached: {daily_trades}` -/
  | maxDailyTrades (dailyTrades : ℤ)
  /-- `Max positions reached: {positions_open}` -/
  | maxPositions (positionsOpen : ℤ)
  /-- `COOLDOWN: Cooldown after {consecutive_losses} consecutive losses, resumes at …` -/
  | cooldown (consecutiveLosses : ℤ) (cooldownUntil : Datetime)
  deriving DecidableEq, Repr

namespace RiskEngine

/-- `RiskEngine(config, initial_equity)`, built on the day `today`. -/
def new (config : RiskConfig) (initialEquity : ℚ) (today : ℤ) : RiskEngine :=
  { config
    state := { peakEquity := initialEquity, currentEquity := initialEquity }
    initialEquity
    tradeDate := today }

/-- Reset the daily counters when the UTC day has changed. -/
def resetDaily (now : Datetime) (e : RiskEngine) : RiskEngine :=
  if e.tradeDate ≠ now.date then
    { e with
      state := { e.state with dailyPnlPct := 0, dailyTrades := 0 }
      tradeDate := now.date }
  else e

/-- The expiry of the cooldown, while it lasts. -/
def pendingCooldown (now : Datetime) (e : RiskEngine) : Option Datetime :=
  if e.state.consecutiveLosses ≥ e.config.cooldownConsecutiveLosses then
    e.state.cooldownUntil.filter fun until_ => now < until_
  else none

def getRiskStatus (now : Datetime) (e : RiskEngine) : RiskStatus × RiskEngine :=
  let e := e.resetDaily now
  let status :=
    if e.state.killSwitch then .hardKill
    else if e.state.dailyPnlPct ≤ -e.config.maxDailyLossPct then .dailyLimit
    else if (e.pendingCooldown now).isSome then .cooldown
    else .active
  (status, e)

def canTrade (now : Datetime) (e : RiskEngine) : Except Refusal Unit × RiskEngine :=
  let e := e.resetDaily now
  let answer :=
    if e.state.killSwitch then .error .hardKill
    else if e.state.dailyPnlPct ≤ -e.config.maxDailyLossPct then
      .error (.dailyLimit e.state.dailyPnlPct)
    else if e.state.dailyTrades ≥ e.config.maxDailyTrades then
      .error (.maxDailyTrades e.state.dailyTrades)
    else if e.state.positionsOpen ≥ e.config.maxPositions then
      .error (.maxPositions e.state.positionsOpen)
    else
      match e.pendingCooldown now with
      | some until_ => .error (.cooldown e.state.consecutiveLosses until_)
      | none => .ok ()
  (answer, e)

/-- The quantity that risks `risk_per_trade_pct` of the equity at the stop, capped by the
leverage. The entry price is not zero in the source, which divides by it. -/
def calculatePositionSize (entryPrice stopLoss : ℚ) (leverage : ℤ) (e : RiskEngine) : ℚ :=
  let riskAmount := e.state.currentEquity * (e.config.riskPerTradePct / 100)
  let priceRisk := |entryPrice - stopLoss|
  if priceRisk = 0 then 0
  else
    let leverage := min leverage e.config.maxLeverage
    let positionSize := riskAmount * leverage / priceRisk
    let maxNotional := e.state.currentEquity * leverage
    let maxQuantity := maxNotional / entryPrice
    min positionSize maxQuantity

/-- The equity, the peak and the drawdown after a result of `pnlPct` percent. -/
def applyResult (pnlPct : ℚ) (e : RiskEngine) : RiskEngine :=
  let currentEquity := e.state.currentEquity * (1 + pnlPct / 100)
  let peakEquity := if currentEquity > e.state.peakEquity then currentEquity else e.state.peakEquity
  { e with
    state :=
      { e.state with
        dailyPnlPct := e.state.dailyPnlPct + pnlPct
        currentEquity
        dailyTrades := e.state.dailyTrades + 1
        peakEquity
        currentDrawdownPct :=
          if peakEquity > 0 then (peakEquity - currentEquity) / peakEquity * 100
          else e.state.currentDrawdownPct } }

/-- The loss streak and the cooldown after a result of `pnlPct` percent. -/
def updateStreak (pnlPct : ℚ) (now : Datetime) (e : RiskEngine) : RiskEngine :=
  let isLoss : Bool := pnlPct < 0
  let isBreakeven : Bool := pnlPct = 0
  let resetsStreak := !isLoss && (!isBreakeven || e.config.breakevenResetsConsecutiveLosses)
  if isLoss then
    let consecutiveLosses := e.state.consecutiveLosses + 1
    { e with
      state :=
        { e.state with
          consecutiveLosses
          lastLossTime := some now
          cooldownUntil :=
            if consecutiveLosses ≥ e.config.cooldownConsecutiveLosses then
              some (now + Timedelta.minutes e.config.cooldownMinutes)
            else e.state.cooldownUntil } }
  else if resetsStreak then
    { e with state := { e.state with consecutiveLosses := 0, cooldownUntil := none } }
  else e

/-- Arm the kill switch on a drawdown breach. -/
def armKillSwitch (e : RiskEngine) : RiskEngine :=
  if e.state.currentDrawdownPct ≥ e.config.maxDrawdownPct then
    { e with state := { e.state with killSwitch := true } }
  else e

def recordTradeResult (pnlPct : ℚ) (now : Datetime) (e : RiskEngine) : RiskEngine :=
  (((e.resetDaily now).applyResult pnlPct).updateStreak pnlPct now).armKillSwitch

def activateKillSwitch (e : RiskEngine) : RiskEngine :=
  { e with state := { e.state with killSwitch := true } }

/-- `reset_hard_kill`, also under its alias `deactivate_kill_switch`. -/
def resetHardKill (e : RiskEngine) : RiskEngine :=
  { e with state := { e.state with killSwitch := false, consecutiveLosses := 0,
                                   cooldownUntil := none } }

def recordPositionOpen (e : RiskEngine) : RiskEngine :=
  { e with state := { e.state with positionsOpen := e.state.positionsOpen + 1 } }

def recordPositionClose (e : RiskEngine) : RiskEngine :=
  { e with state := { e.state with positionsOpen := max 0 (e.state.positionsOpen - 1) } }

/-! ## What each operation does to the equity and to the count of open positions -/

variable (e : RiskEngine) (now : Datetime) (pnlPct : ℚ)

@[simp] theorem new_currentEquity (c : RiskConfig) (q : ℚ) (d : ℤ) :
    (new c q d).state.currentEquity = q := rfl

@[simp] theorem new_positionsOpen (c : RiskConfig) (q : ℚ) (d : ℤ) :
    (new c q d).state.positionsOpen = 0 := rfl

@[simp] theorem resetDaily_currentEquity :
    (e.resetDaily now).state.currentEquity = e.state.currentEquity := by
  unfold resetDaily
  split <;> rfl

@[simp] theorem resetDaily_positionsOpen :
    (e.resetDaily now).state.positionsOpen = e.state.positionsOpen := by
  unfold resetDaily
  split <;> rfl

@[simp] theorem canTrade_currentEquity :
    (e.canTrade now).2.state.currentEquity = e.state.currentEquity :=
  resetDaily_currentEquity e now

@[simp] theorem canTrade_positionsOpen :
    (e.canTrade now).2.state.positionsOpen = e.state.positionsOpen :=
  resetDaily_positionsOpen e now

@[simp] theorem updateStreak_currentEquity :
    (e.updateStreak pnlPct now).state.currentEquity = e.state.currentEquity := by
  simp only [updateStreak]
  split_ifs <;> rfl

@[simp] theorem updateStreak_positionsOpen :
    (e.updateStreak pnlPct now).state.positionsOpen = e.state.positionsOpen := by
  simp only [updateStreak]
  split_ifs <;> rfl

@[simp] theorem armKillSwitch_currentEquity :
    e.armKillSwitch.state.currentEquity = e.state.currentEquity := by
  unfold armKillSwitch
  split <;> rfl

@[simp] theorem armKillSwitch_positionsOpen :
    e.armKillSwitch.state.positionsOpen = e.state.positionsOpen := by
  unfold armKillSwitch
  split <;> rfl

@[simp] theorem recordPositionOpen_currentEquity :
    e.recordPositionOpen.state.currentEquity = e.state.currentEquity := rfl

@[simp] theorem recordPositionOpen_positionsOpen :
    e.recordPositionOpen.state.positionsOpen = e.state.positionsOpen + 1 := rfl

@[simp] theorem recordPositionClose_currentEquity :
    e.recordPositionClose.state.currentEquity = e.state.currentEquity := rfl

@[simp] theorem recordPositionClose_positionsOpen :
    e.recordPositionClose.state.positionsOpen = max 0 (e.state.positionsOpen - 1) := rfl

@[simp] theorem recordTradeResult_currentEquity :
    (e.recordTradeResult pnlPct now).state.currentEquity =
      e.state.currentEquity * (1 + pnlPct / 100) := by
  simp [recordTradeResult, applyResult]

@[simp] theorem recordTradeResult_positionsOpen :
    (e.recordTradeResult pnlPct now).state.positionsOpen = e.state.positionsOpen := by
  simp [recordTradeResult, applyResult]

/-- Recording a P&L as a percentage of the equity it is earned on adds the P&L. -/
theorem recordTradeResult_relative (pnl : ℚ) (h : e.state.currentEquity ≠ 0) :
    (e.recordTradeResult (pnl / e.state.currentEquity * 100) now).state.currentEquity =
      e.state.currentEquity + pnl := by
  rw [recordTradeResult_currentEquity]
  field_simp

end RiskEngine

end AlphaOne.Risk

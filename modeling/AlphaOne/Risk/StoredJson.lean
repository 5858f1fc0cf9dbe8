import AlphaOne.Risk.Operations
import AlphaOne.Risk.StateStore

/-!
# The stored value of the risk engine

The value `_serialize` writes and `_deserialize` reads, as the JSON object it is: dictionaries by
the keys of the source, dates and times as ISO text. `ofJson_toJson` says that an engine whose dates
Python has is read back as it was, and `store_transparent` that saving and reloading it at any
points of a run changes neither an answer nor the engine the run ends with.
-/

namespace AlphaOne.Risk

open Foundations

/-- The JSON values of the store. -/
inductive Json
  | null
  | bool (value : Bool)
  | int (value : ℤ)
  | float (value : ℚ)
  | str (text : List Char)
  | object (items : List (String × Json))

namespace Json

/-- `value[key]`; `none` is its `KeyError`, or its `TypeError` on what is not a dictionary. -/
def get (key : String) : Json → Option Json
  | object items => items.lookup key
  | _ => none

def asBool : Json → Option Bool
  | bool value => some value
  | _ => none

def asInt : Json → Option ℤ
  | int value => some value
  | _ => none

def asFloat : Json → Option ℚ
  | float value => some value
  | _ => none

def asText : Json → Option (List Char)
  | str text => some text
  | _ => none

/-- `datetime.fromisoformat(value) if value else None`. -/
def asOptionalTime : Json → Option (Option Datetime)
  | null | str [] => some none
  | str text => (Datetime.fromisoformat text).map some
  | _ => none

/-- `value.isoformat() if value else None`. -/
def ofOptionalTime : Option Datetime → Json
  | none => null
  | some t => str t.isoformat

/-- The argument `key` of a call with keyword arguments, or its default. -/
def kwarg {α : Type} (kwargs : List (String × Json)) (key : String) (read : Json → Option α)
    (default : α) : Option α :=
  match kwargs.lookup key with
  | none => some default
  | some value => read value

end Json

/-! ## The configuration -/

namespace RiskConfig

/-- The fields of the dataclass; any other keyword is a `TypeError`. -/
def fieldNames : List String :=
  ["risk_per_trade_pct", "max_daily_loss_pct", "max_drawdown_pct", "max_leverage", "max_positions",
    "max_daily_trades", "cooldown_consecutive_losses", "cooldown_minutes",
    "breakeven_resets_consecutive_losses"]

def toItems (c : RiskConfig) : List (String × Json) :=
  [("risk_per_trade_pct", .float c.riskPerTradePct),
    ("max_daily_loss_pct", .float c.maxDailyLossPct),
    ("max_drawdown_pct", .float c.maxDrawdownPct),
    ("max_leverage", .int c.maxLeverage),
    ("max_positions", .int c.maxPositions),
    ("max_daily_trades", .int c.maxDailyTrades),
    ("cooldown_consecutive_losses", .int c.cooldownConsecutiveLosses),
    ("cooldown_minutes", .int c.cooldownMinutes),
    ("breakeven_resets_consecutive_losses", .bool c.breakevenResetsConsecutiveLosses)]

/-- `RiskConfig(**kwargs)`. -/
def ofKwargs (kwargs : List (String × Json)) : Option RiskConfig :=
  let defaults : RiskConfig := {}
  if kwargs.all fun item => item.1 ∈ fieldNames then do
    return {
      riskPerTradePct := ← Json.kwarg kwargs "risk_per_trade_pct" Json.asFloat
        defaults.riskPerTradePct
      maxDailyLossPct := ← Json.kwarg kwargs "max_daily_loss_pct" Json.asFloat
        defaults.maxDailyLossPct
      maxDrawdownPct := ← Json.kwarg kwargs "max_drawdown_pct" Json.asFloat
        defaults.maxDrawdownPct
      maxLeverage := ← Json.kwarg kwargs "max_leverage" Json.asInt defaults.maxLeverage
      maxPositions := ← Json.kwarg kwargs "max_positions" Json.asInt defaults.maxPositions
      maxDailyTrades := ← Json.kwarg kwargs "max_daily_trades" Json.asInt defaults.maxDailyTrades
      cooldownConsecutiveLosses := ← Json.kwarg kwargs "cooldown_consecutive_losses" Json.asInt
        defaults.cooldownConsecutiveLosses
      cooldownMinutes := ← Json.kwarg kwargs "cooldown_minutes" Json.asInt
        defaults.cooldownMinutes
      breakevenResetsConsecutiveLosses :=
        ← Json.kwarg kwargs "breakeven_resets_consecutive_losses" Json.asBool
          defaults.breakevenResetsConsecutiveLosses }
  else none

theorem ofKwargs_toItems (c : RiskConfig) : ofKwargs c.toItems = some c := by
  rfl

end RiskConfig

/-! ## The state -/

/-- The engine's dates and times are such as Python has. -/
structure RiskPayload.Representable (p : RiskPayload) : Prop where
  tradeDate : Date.Representable p.tradeDate
  lastLossTime : ∀ t, p.state.lastLossTime = some t → t.Representable
  cooldownUntil : ∀ t, p.state.cooldownUntil = some t → t.Representable

namespace RiskState

def toItems (s : RiskState) : List (String × Json) :=
  [("daily_pnl_pct", .float s.dailyPnlPct),
    ("daily_trades", .int s.dailyTrades),
    ("current_drawdown_pct", .float s.currentDrawdownPct),
    ("peak_equity", .float s.peakEquity),
    ("current_equity", .float s.currentEquity),
    ("consecutive_losses", .int s.consecutiveLosses),
    ("last_loss_time", Json.ofOptionalTime s.lastLossTime),
    ("cooldown_until", Json.ofOptionalTime s.cooldownUntil),
    ("kill_switch", .bool s.killSwitch),
    ("positions_open", .int s.positionsOpen)]

def ofJson (s : Json) : Option RiskState := do
  return {
    dailyPnlPct := ← (← s.get "daily_pnl_pct").asFloat
    dailyTrades := ← (← s.get "daily_trades").asInt
    currentDrawdownPct := ← (← s.get "current_drawdown_pct").asFloat
    peakEquity := ← (← s.get "peak_equity").asFloat
    currentEquity := ← (← s.get "current_equity").asFloat
    consecutiveLosses := ← (← s.get "consecutive_losses").asInt
    lastLossTime := ← (← s.get "last_loss_time").asOptionalTime
    cooldownUntil := ← (← s.get "cooldown_until").asOptionalTime
    killSwitch := ← (← s.get "kill_switch").asBool
    positionsOpen := ← (← s.get "positions_open").asInt }

end RiskState

theorem Json.asOptionalTime_ofOptionalTime {time : Option Datetime}
    (h : ∀ t, time = some t → t.Representable) :
    (Json.ofOptionalTime time).asOptionalTime = some time := by
  cases time with
  | none => rfl
  | some t =>
    have hread := Datetime.fromisoformat_isoformat (h t rfl)
    rw [Json.ofOptionalTime]
    cases htext : t.isoformat with
    | nil =>
      have hlength := congrArg List.length htext
      simp [Datetime.isoformat] at hlength
    | cons c text =>
      rw [← htext, Json.asOptionalTime, hread, Option.map_some]
      rw [htext]
      simp

theorem RiskState.ofJson_toItems {s : RiskState}
    (hloss : ∀ t, s.lastLossTime = some t → t.Representable)
    (hcooldown : ∀ t, s.cooldownUntil = some t → t.Representable) :
    RiskState.ofJson (.object s.toItems) = some s := by
  have hloss' := Json.asOptionalTime_ofOptionalTime hloss
  have hcooldown' := Json.asOptionalTime_ofOptionalTime hcooldown
  change (do
    let lastLossTime ← (Json.ofOptionalTime s.lastLossTime).asOptionalTime
    let cooldownUntil ← (Json.ofOptionalTime s.cooldownUntil).asOptionalTime
    return { s with lastLossTime, cooldownUntil }) = some s
  rw [hloss', hcooldown']
  rfl

/-! ## The whole value -/

namespace RiskPayload

/-- The dictionary of `_serialize`. -/
def toJson (p : RiskPayload) : Json :=
  .object
    [("initial_equity", .float p.initialEquity),
      ("trade_date", .str (Date.isoformat p.tradeDate)),
      ("config", .object p.config.toItems),
      ("state", .object p.state.toItems)]

/-- What `_deserialize` reads of a dictionary; `none` where it raises. -/
def ofJson (payload : Json) : Option RiskPayload := do
  let config ←
    match ← payload.get "config" with
    | .object kwargs => RiskConfig.ofKwargs kwargs
    | _ => none
  let initialEquity ← (← payload.get "initial_equity").asFloat
  let tradeDate ← Date.fromisoformat (← (← payload.get "trade_date").asText)
  let state ← RiskState.ofJson (← payload.get "state")
  return { initialEquity, tradeDate, config, state }

/-- **The value reads back as it was written.** -/
theorem ofJson_toJson {p : RiskPayload} (h : p.Representable) : ofJson p.toJson = some p := by
  have hconfig := RiskConfig.ofKwargs_toItems p.config
  have hdate := Date.fromisoformat_isoformat h.tradeDate
  have hstate := RiskState.ofJson_toItems h.lastLossTime h.cooldownUntil
  have hitems : p.toJson.get "config" = some (.object p.config.toItems) ∧
      p.toJson.get "initial_equity" = some (.float p.initialEquity) ∧
      p.toJson.get "trade_date" = some (.str (Date.isoformat p.tradeDate)) ∧
      p.toJson.get "state" = some (.object p.state.toItems) := ⟨rfl, rfl, rfl, rfl⟩
  obtain ⟨hconfigItem, hequity, hdateItem, hstateItem⟩ := hitems
  unfold ofJson
  simp only [hconfigItem, hequity, hdateItem, hstateItem, Json.asFloat, Json.asText,
    Option.bind_eq_bind, Option.bind_some, hconfig, hdate, hstate]
  rfl

end RiskPayload

/-- `load_risk_engine` on the row of the table, on the day `today`; `none` where it raises. -/
def loadStored (today : ℤ) : Option Json → Option RiskEngine
  | none => some (RiskEngine.new {} 10000 today)
  | some value => (RiskPayload.ofJson value).map deserialize

/-- The row after `save_risk_engine`, which adds it or overwrites its value. -/
def saveStored (e : RiskEngine) : Option Json → Option Json
  | none => some (serialize e).toJson
  | some _ => some (serialize e).toJson

/-- Loading a saved engine does not roll the day over, or change it in any other way. -/
theorem loadStored_saveStored {e : RiskEngine} (h : (serialize e).Representable)
    (row : Option Json) (today : ℤ) : loadStored today (saveStored e row) = some e := by
  have hload : loadStored today (some (serialize e).toJson) = some e := by
    rw [loadStored, RiskPayload.ofJson_toJson h, Option.map_some, deserialize_serialize]
  cases row with
  | none => exact hload
  | some value => exact hload

/-! ## Runs through the store -/

/-- The call is made at a time Python has, and its arithmetic stays within these times: otherwise
it raises `OverflowError`. -/
def EngineOp.InRange (e : RiskEngine) : EngineOp → Prop
  | .resetDaily now | .getRiskStatus now | .canTrade now | .validateTrade _ _ _ now
  | .getStatus now => now.Representable
  | .recordTradeResult pnlPct now =>
    now.Representable ∧
      (pnlPct < 0 ∧ e.config.cooldownConsecutiveLosses ≤ e.state.consecutiveLosses + 1 →
        Datetime.Representable (now + Timedelta.minutes e.config.cooldownMinutes))
  | _ => True

instance (e : RiskEngine) : ∀ op, Decidable (EngineOp.InRange e op)
  | .resetDaily now | .getRiskStatus now | .canTrade now | .validateTrade _ _ _ now
  | .getStatus now => inferInstanceAs (Decidable now.Representable)
  | .recordTradeResult _ now => inferInstanceAs (Decidable (now.Representable ∧ (_ ∧ _ → _)))
  | .calculatePositionSize .. | .activateKillSwitch | .resetHardKill | .deactivateKillSwitch
  | .recordPositionOpen | .recordPositionClose => inferInstanceAs (Decidable True)

theorem representable_resetDaily {e : RiskEngine} (h : (serialize e).Representable)
    {now : Datetime} (hnow : now.Representable) : (serialize (e.resetDaily now)).Representable := by
  obtain ⟨dailyPnlPct, dailyTrades, hday⟩ := e.resetDaily_footprint now
  rw [hday]
  exact ⟨hnow, h.lastLossTime, h.cooldownUntil⟩

theorem RiskEngine.recordTradeResult_lastLossTime (e : RiskEngine) (pnlPct : ℚ) (now : Datetime) :
    (e.recordTradeResult pnlPct now).state.lastLossTime =
      if pnlPct < 0 then some now else e.state.lastLossTime := by
  obtain ⟨dailyPnlPct, dailyTrades, h⟩ := e.resetDaily_footprint now
  rw [recordTradeResult, armKillSwitch_eq, updateStreak_eq, h]
  rfl

theorem RiskEngine.recordTradeResult_tradeDate (e : RiskEngine) (pnlPct : ℚ) (now : Datetime) :
    (e.recordTradeResult pnlPct now).tradeDate = now.date := by
  rw [recordTradeResult, armKillSwitch_eq, updateStreak_eq]
  exact resetDaily_tradeDate e now

theorem representable_recordTradeResult {e : RiskEngine} (h : (serialize e).Representable)
    {pnlPct : ℚ} {now : Datetime} (hop : EngineOp.InRange e (.recordTradeResult pnlPct now)) :
    (serialize (e.recordTradeResult pnlPct now)).Representable := by
  obtain ⟨hnow, hexpiry⟩ := hop
  refine ⟨?_, ?_, ?_⟩
  · change Date.Representable (e.recordTradeResult pnlPct now).tradeDate
    rw [RiskEngine.recordTradeResult_tradeDate]
    exact hnow
  · intro t ht
    change (e.recordTradeResult pnlPct now).state.lastLossTime = some t at ht
    rw [RiskEngine.recordTradeResult_lastLossTime] at ht
    split_ifs at ht with hloss
    · exact Option.some.inj ht ▸ hnow
    · exact h.lastLossTime t ht
  · intro t ht
    change (e.recordTradeResult pnlPct now).state.cooldownUntil = some t at ht
    rw [RiskEngine.recordTradeResult_cooldownUntil] at ht
    split_ifs at ht with hloss harmed
    · exact Option.some.inj ht ▸ hexpiry ⟨hloss, harmed⟩
    · exact h.cooldownUntil t ht
    · exact h.cooldownUntil t ht

theorem representable_engineStep {e : RiskEngine} (h : (serialize e).Representable) {op : EngineOp}
    (hop : op.InRange e) : (serialize (engineStep e op)).Representable := by
  cases op with
  | resetDaily now | getRiskStatus now | canTrade now | validateTrade _ _ _ now =>
    exact representable_resetDaily h hop
  | getStatus now => exact representable_resetDaily (representable_resetDaily h hop) hop
  | recordTradeResult pnlPct now => exact representable_recordTradeResult h hop
  | resetHardKill | deactivateKillSwitch => exact ⟨h.tradeDate, h.lastLossTime, nofun⟩
  | _ => exact ⟨h.tradeDate, h.lastLossTime, h.cooldownUntil⟩

/-- A step of a program that keeps its engine in the store. -/
inductive StoredStep
  | call (op : EngineOp)
  /-- Save the engine, and on the day `today` load it again. -/
  | saveAndReload (today : ℤ)
  deriving DecidableEq, Repr

/-- The calls of a run, without the saves and the reloads. -/
def calls : List StoredStep → List EngineOp
  | [] => []
  | .call op :: steps => op :: calls steps
  | .saveAndReload _ :: steps => calls steps

/-- The answers of a run of calls, in their order. -/
def answers (e : RiskEngine) : List EngineOp → List EngineAnswer
  | [] => []
  | op :: ops => (op.apply e).1 :: answers (engineStep e op) ops

/-- The answers of a run through the store and the engine it ends with; `none` where a reload
raises. -/
def storedRun : Option Json → RiskEngine → List StoredStep →
    Option (List EngineAnswer × RiskEngine)
  | _, e, [] => some ([], e)
  | row, e, .call op :: steps =>
    (storedRun row (engineStep e op) steps).map fun result =>
      ((op.apply e).1 :: result.1, result.2)
  | row, e, .saveAndReload today :: steps =>
    (loadStored today (saveStored e row)).bind fun e' => storedRun (saveStored e row) e' steps

/-- **The store is transparent**: wherever a run saves and reloads the engine, its answers and the
engine it ends with are those of the calls alone. -/
theorem store_transparent (row : Option Json) {e : RiskEngine} {steps : List StoredStep}
    (h : (serialize e).Representable)
    (hrange : Guarded engineStep EngineOp.InRange e (calls steps)) :
    storedRun row e steps = some (answers e (calls steps), run engineStep e (calls steps)) := by
  induction steps generalizing row e with
  | nil => rfl
  | cons step steps ih =>
    cases step with
    | call op =>
      obtain ⟨hop, hlater⟩ := hrange
      rw [storedRun, ih row (representable_engineStep h hop) hlater]
      rfl
    | saveAndReload today =>
      rw [storedRun, loadStored_saveStored h]
      exact ih _ h hrange

/-- Three losses on one day, with the engine reloaded on later ones. -/
def reloadedLosses : List StoredStep :=
  [.call (.recordTradeResult (-1 / 2) 1709164800000000), .saveAndReload 19783,
    .call (.recordTradeResult (-1 / 2) 1709164800000250),
    .call (.recordTradeResult (-1 / 2) 1709164900000000), .saveAndReload 19784,
    .call (.canTrade 1709165000000000), .saveAndReload 19785,
    .call (.getRiskStatus 1709254800000000),
    .call (.calculatePositionSize 100 98 3)]

theorem store_transparent_reloadedLosses :
    storedRun none (RiskEngine.new {} 10000 19782) reloadedLosses =
      some (answers (RiskEngine.new {} 10000 19782) (calls reloadedLosses),
        run engineStep (RiskEngine.new {} 10000 19782) (calls reloadedLosses)) :=
  store_transparent none ⟨by decide, nofun, nofun⟩ (by decide +kernel)

end AlphaOne.Risk

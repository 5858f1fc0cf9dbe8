import AlphaOne.Journal.Journal

/-!
# Exit alerts

`services/position_monitor/monitor.py`: an open trade of the account whose stop or first target
the current price has reached is reported once. What has been reported is kept in
`notification_logs`, under a key made of the trade id and the reason, as the type of a message.
-/

namespace AlphaOne.PositionMonitor

open Journal

inductive AlertReason
  | stopLossHit
  | takeProfitHit
  deriving DecidableEq, Repr

/-- `STOP_LOSS_HIT` and `TAKE_PROFIT_HIT`. -/
def AlertReason.text : AlertReason → String
  | .stopLossHit => "stop_loss_hit"
  | .takeProfitHit => "take_profit_hit"

structure ExitAlert where
  tradeId : String
  symbol : String
  side : Side
  reason : AlertReason
  triggerPrice : ℚ
  currentPrice : ℚ
  entryPrice : ℚ
  pnl : ℚ
  deriving DecidableEq, Repr

/-- `_make_alert`, with the P&L of closing the whole trade at the current price. -/
def makeAlert (trade : Trade) (reason : AlertReason) (triggerPrice currentPrice : ℚ) : ExitAlert :=
  { tradeId := trade.tradeId
    symbol := trade.symbol
    side := trade.side
    reason
    triggerPrice
    currentPrice
    entryPrice := trade.entryPrice
    pnl := (computeSlicePnl trade.side trade.entryPrice currentPrice trade.quantity
      trade.leverage).pnl }

/-- The level is set and the price has reached it, from above or from below. -/
def reached (falling : Bool) (level : Option ℚ) (currentPrice : ℚ) : Option ℚ :=
  level.filter fun level => if falling then currentPrice ≤ level else currentPrice ≥ level

/-- `_check_trade`. -/
def checkTrade (trade : Trade) (currentPrice : ℚ) : Option ExitAlert :=
  let isLong : Bool := trade.side = .long
  match reached isLong trade.stopLoss currentPrice,
    reached (!isLong) trade.takeProfit1 currentPrice with
  | some stopLoss, _ => some (makeAlert trade .stopLossHit stopLoss currentPrice)
  | none, some takeProfit1 => some (makeAlert trade .takeProfitHit takeProfit1 currentPrice)
  | none, none => none

/-- `_dedup_key`. -/
def dedupKey (alert : ExitAlert) : String :=
  "exit_alert:" ++ alert.tradeId ++ ":" ++ alert.reason.text

/-- `MultipleResultsFound`: two rows have the key that is looked up. -/
inductive LookupError
  | multipleResultsFound
  deriving DecidableEq, Repr

/-- `_already_alerted`. -/
def alreadyAlerted (logs : List NotificationLog) (key : String) : Except LookupError Bool :=
  match logs.filter fun l => l.messageType = key with
  | [] => .ok false
  | [_] => .ok true
  | _ => .error .multipleResultsFound

/-- `check_open_positions` for the account. -/
def checkOpenPositions (db : Tables) (accountId : ℕ) (currentPrice : ℚ)
    (symbol : String := "BTC/USDT") : List ExitAlert :=
  ((getOpenTrades db (some accountId)).filter fun t => t.symbol = symbol).filterMap
    (checkTrade · currentPrice)

/-- The row an alert is recorded as. -/
def alertLog (alert : ExitAlert) : NotificationLog :=
  { channel := "internal", messageType := dedupKey alert, status := "pending" }

/-- The loop of `get_new_exit_alerts`: the alerts that are new, and the log with their rows. -/
def newExitAlerts : List ExitAlert → List NotificationLog →
    Except LookupError (List ExitAlert × List NotificationLog)
  | [], logs => .ok ([], logs)
  | alert :: alerts, logs => do
    if ← alreadyAlerted logs (dedupKey alert) then newExitAlerts alerts logs
    else
      let (rest, logs) ← newExitAlerts alerts (logs ++ [alertLog alert])
      .ok (alert :: rest, logs)

/-- `get_new_exit_alerts`: what it returns or raises, and the log it leaves. The rows are committed
at the end, so that a raise leaves none. -/
def getNewExitAlerts (db : Tables) (accountId : ℕ) (currentPrice : ℚ) (symbol : String)
    (logs : List NotificationLog) : Except LookupError (List ExitAlert) × List NotificationLog :=
  match newExitAlerts (checkOpenPositions db accountId currentPrice symbol) logs with
  | .ok (alerts, logs) => (.ok alerts, logs)
  | .error e => (.error e, logs)

/-! ## The length of a key -/

/-- A key is longer than a trade id by the texts around it. -/
theorem length_dedupKey (alert : ExitAlert) :
    (dedupKey alert).length = 12 + alert.tradeId.length + alert.reason.text.length := by
  simp only [dedupKey, String.length_append]
  have hprefix : "exit_alert:".length = 11 ∧ ":".length = 1 := by decide
  omega

theorem length_reason (reason : AlertReason) : 13 ≤ reason.text.length := by
  cases reason <;> decide

/-! ## What the loop leaves -/

/-- A step of the loop on an alert whose key has no row. -/
theorem newExitAlerts_of_new {alert : ExitAlert} {alerts : List ExitAlert}
    {logs : List NotificationLog} (h : ∀ l ∈ logs, l.messageType ≠ dedupKey alert) :
    newExitAlerts (alert :: alerts) logs =
      (newExitAlerts alerts (logs ++ [alertLog alert])).map fun r => (alert :: r.1, r.2) := by
  have hfree : (logs.filter fun l => l.messageType = dedupKey alert) = [] := by
    simpa [List.filter_eq_nil_iff] using h
  have halready : alreadyAlerted logs (dedupKey alert) = .ok false := by
    simp only [alreadyAlerted, hfree]
  rw [newExitAlerts, halready]
  rfl

/-- The loop only adds rows. -/
theorem mem_newExitAlerts {alerts new : List ExitAlert} {logs logs' : List NotificationLog}
    (h : newExitAlerts alerts logs = .ok (new, logs')) {l : NotificationLog} (hl : l ∈ logs) :
    l ∈ logs' := by
  induction alerts generalizing logs new with
  | nil =>
    simp only [newExitAlerts, Except.ok.injEq, Prod.mk.injEq] at h
    exact h.2 ▸ hl
  | cons alert alerts ih =>
    rw [newExitAlerts] at h
    cases halready : alreadyAlerted logs (dedupKey alert) with
    | error e =>
      rw [halready] at h
      cases h
    | ok known =>
      rw [halready] at h
      cases known with
      | true => exact ih h hl
      | false =>
        cases hrest : newExitAlerts alerts (logs ++ [alertLog alert]) with
        | error e =>
          simp only [hrest, bind, Except.bind, if_false, Bool.false_eq_true] at h
          cases h
        | ok rest =>
          simp only [hrest, bind, Except.bind, if_false, Bool.false_eq_true, Except.ok.injEq,
            Prod.mk.injEq] at h
          obtain ⟨-, rfl⟩ := h
          exact ih hrest (List.mem_append_left _ hl)

end AlphaOne.PositionMonitor

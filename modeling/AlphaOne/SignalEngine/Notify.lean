import AlphaOne.PositionMonitor.Monitor

/-!
# The notification of a signal

`services/signal_engine/notify.py`: a new tradeable signal is sent once. What has been sent is kept
in `notification_logs`, under a key made of the signal id, as the type of a message.
-/

namespace AlphaOne.SignalEngine

open PositionMonitor

/-- `_dedup_key`. -/
def signalDedupKey (signalId : String) : String := "signal_alert:" ++ signalId

/-- How `notify_new_signal` raises. -/
inductive NotifyError
  | lookupError (e : LookupError)
  /-- The bot's `send_signal` raises. -/
  | sendError
  deriving DecidableEq, Repr

/-- The row a sent signal is recorded as. -/
def signalLog (signal : Signal) : NotificationLog :=
  { signalId := some signal.signalId
    channel := "telegram"
    messageType := signalDedupKey signal.signalId
    status := "sent" }

/-- `notify_new_signal`: what it returns or raises, and the log it leaves. `sends` is whether the
bot's `send_signal` returns. -/
def notifyNewSignal (signal : Signal) (sends : Bool) (logs : List NotificationLog) :
    Except NotifyError Bool × List NotificationLog :=
  if signal.signalType = .noTrade then (.ok false, logs)
  else
    match alreadyAlerted logs (signalDedupKey signal.signalId) with
    | .error e => (.error (.lookupError e), logs)
    | .ok true => (.ok false, logs)
    | .ok false =>
      if sends then (.ok true, logs ++ [signalLog signal]) else (.error .sendError, logs)

theorem length_signalDedupKey (signalId : String) :
    (signalDedupKey signalId).length = 13 + signalId.length := by
  have htext : "signal_alert:".length = 13 := by decide
  rw [signalDedupKey, String.length_append, htext]

end AlphaOne.SignalEngine

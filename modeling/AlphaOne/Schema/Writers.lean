import AlphaOne.Journal.Lifecycle
import AlphaOne.Paper.System
import AlphaOne.Schema.Widths
import AlphaOne.SignalEngine.Notify

/-!
# Which writes fit their columns

The writers of trades, executions and notification logs, on a database that enforces the widths
of its columns. An operation is performed as on a database that does not; it would be refused
when a row it leaves is too long. `fits_iff` says for each operation which of its inputs are
refused, and two operations always are: a partial exit, whose status has 16 letters for a column
of 10, and the opening of a Telegram trade, whose id has 39 for a column of 30.
-/

namespace AlphaOne.Schema

open Foundations Journal Paper PositionMonitor SignalEngine TelegramSignals

/-- The tables the writers read and write. -/
structure Store where
  tables : Tables := {}
  signals : List Signal := []
  notificationLogs : List NotificationLog := []

/-- Every stored text fits its column. -/
structure Store.Fits (s : Store) : Prop where
  trades : ∀ t ∈ s.tables.trades, AllFit t.varchars
  executions : ∀ e ∈ s.tables.executions, AllFit e.varchars
  signals : ∀ x ∈ s.signals, AllFit x.varchars
  notificationLogs : ∀ l ∈ s.notificationLogs, AllFit l.varchars

/-- An operation that writes texts. -/
inductive Operation
  /-- `open_trade`, `record_exit` or `cancel_trade`. -/
  | journal (call : Journal.Call)
  /-- The AI book opens a position for a stored signal. -/
  | aiOpen (trader : PaperTrader) (signal : Signal) (now : Datetime)
  | telegramOpen (trader : PaperTrader) (call : ExecuteCall)
  | paperEvent (event : PaperEvent)
  | exitAlerts (accountId : ℕ) (currentPrice : ℚ) (symbol : String)
  | notify (signal : Signal)

namespace Operation

/-- The operation on a database without widths. -/
def perform (s : Store) : Operation → Store
  | journal call => { s with tables := (call.perform s.tables).2 }
  | aiOpen trader signal now =>
    match (trader.openPosition signal now).1 with
    | none => s
    | some position =>
      { s with tables := (persistPaperOpen position signal.symbol .aiPaper true s.tables).2 }
  | telegramOpen trader call =>
    { s with tables := (executeValidSignal call s.tables trader).tables }
  | paperEvent event => { s with tables := (persistPaperEvent event true s.tables).2 }
  | exitAlerts accountId currentPrice symbol =>
    { s with notificationLogs :=
        (getNewExitAlerts s.tables accountId currentPrice symbol s.notificationLogs).2 }
  | notify signal =>
    { s with notificationLogs := (notifyNewSignal signal true s.notificationLogs).2 }

/-- The operation passes the program's own checks and writes; the ids the program makes have the
lengths it makes them with. -/
def Accepted (s : Store) : Operation → Prop
  | journal (.openTrade args uuidHex) =>
    uuidHex.length = 10 ∧ ∃ t, (openTrade args uuidHex s.tables).1 = .ok t
  | journal (.recordExit args) => ∃ t, (recordExit args s.tables).1 = .ok t
  | journal (.cancelTrade tradeId reason utcnow) =>
    ∃ t, (cancelTrade tradeId reason utcnow s.tables).1 = .ok t
  | aiOpen trader signal now => signal ∈ s.signals ∧ ∃ position,
    (trader.openPosition signal now).1 = some position ∧ s.tables.trade? position.tradeId = none
  | telegramOpen _ call => call.signal.id.length = 36 ∧ call.commits = true ∧ ∃ plan position,
    gates call s.tables = .ok (plan, position) ∧ s.tables.trade? position.tradeId = none
  | paperEvent event => ∃ t, s.tables.trade? event.tradeId = some t
  | exitAlerts accountId currentPrice symbol => ∃ alerts,
    (getNewExitAlerts s.tables accountId currentPrice symbol s.notificationLogs).1 = .ok alerts
  | notify signal => signal ∈ s.signals ∧
    (notifyNewSignal signal true s.notificationLogs).1 = .ok true

/-- The inputs of an operation that are not refused for their length. -/
def Admissible (s : Store) : Operation → Prop
  | journal (.openTrade args _) =>
    args.symbol.length ≤ 20 ∧ ∀ id ∈ args.signalId, id.length ≤ 30
  | journal (.recordExit args) =>
    (∃ trade, s.tables.trade? args.tradeId = some trade ∧
      isFullClose args s.tables trade = true) ∧ ∀ r ∈ args.reason, r.length ≤ 50
  | journal (.cancelTrade _ reason _) => ∀ r ∈ reason, r.length ≤ 50
  | aiOpen trader _ _ => trader.tradeCounter + 1 < 10 ^ 24
  | telegramOpen _ _ => False
  | paperEvent event => event.IsExit
  | exitAlerts accountId currentPrice symbol =>
    checkOpenPositions s.tables accountId currentPrice symbol = []
  | notify signal => signal.signalId.length ≤ 7

end Operation

section Writers

variable {s : Store}

/-! ## Rows that are added or saved -/

theorem fits_with_tables (hs : s.Fits) {db : Tables} : Store.Fits { s with tables := db } ↔
    (∀ t ∈ db.trades, t.Fits) ∧ ∀ e ∈ db.executions, AllFit e.varchars := by
  constructor
  · intro h
    exact ⟨fun t ht => t.allFit_iff.1 (h.trades t ht), h.executions⟩
  · rintro ⟨htrades, hexecutions⟩
    exact ⟨fun t ht => t.allFit_iff.2 (htrades t ht), hexecutions, hs.signals, hs.notificationLogs⟩

/-- A new trade with its execution. -/
theorem fits_append (hs : s.Fits) {t : Trade} {e : TradeExecution} (hid : e.tradeId = t.tradeId)
    (hkey : e.exchangeTransactionId = none) :
    Store.Fits { s with tables := ⟨s.tables.trades ++ [t], s.tables.executions ++ [e]⟩ } ↔
      t.Fits := by
  rw [fits_with_tables hs]
  constructor
  · rintro ⟨h, -⟩
    exact h t (by simp)
  · intro h
    refine ⟨fun r hr => ?_, fun x hx => ?_⟩
    · rcases List.mem_append.1 hr with hr | hr
      · exact r.allFit_iff.1 (hs.trades r hr)
      · exact List.mem_singleton.1 hr ▸ h
    · rcases List.mem_append.1 hx with hx | hx
      · exact hs.executions x hx
      · rw [List.mem_singleton.1 hx, TradeExecution.allFit_iff, hid, hkey]
        exact ⟨h.tradeId, by simp⟩

/-- A trade that is saved, with the executions that are added for it. -/
theorem fits_save (hs : s.Fits) {t t' : Trade} (es : List TradeExecution)
    (hrow : s.tables.trade? t.tradeId = some t) (hid' : t'.tradeId = t.tradeId)
    (hid : ∀ e ∈ es, e.tradeId = t.tradeId) (hkey : ∀ e ∈ es, e.exchangeTransactionId = none) :
    Store.Fits { s with
      tables := ⟨save Trade.tradeId t' s.tables.trades, s.tables.executions ++ es⟩ } ↔ t'.Fits := by
  have hmem := mem_of_lookup hrow
  rw [fits_with_tables hs]
  constructor
  · rintro ⟨h, -⟩
    exact h t' (mem_save.2 (Or.inr ⟨rfl, t, hmem, hid'.symm⟩))
  · intro h
    refine ⟨fun r hr => ?_, fun x hx => ?_⟩
    · rcases mem_save.1 hr with ⟨hr, -⟩ | ⟨rfl, -⟩
      · exact r.allFit_iff.1 (hs.trades r hr)
      · exact h
    · rcases List.mem_append.1 hx with hx | hx
      · exact hs.executions x hx
      · rw [TradeExecution.allFit_iff, hid x hx, hkey x hx]
        exact ⟨hid' ▸ h.tradeId, by simp⟩

/-! ## The journal -/

/-- The row and the execution `open_trade` inserts. -/
theorem openTrade_ok {args : OpenTradeArgs} {uuidHex : String} {db : Tables} {t : Trade}
    (h : (openTrade args uuidHex db).1 = .ok t) :
    ∃ e : TradeExecution, (openTrade args uuidHex db).2 = ⟨db.trades ++ [t], db.executions ++ [e]⟩ ∧
      (e.tradeId = t.tradeId ∧ e.exchangeTransactionId = none) ∧
      t.tradeId = newTradeId uuidHex ∧ t.symbol = args.symbol ∧ t.status = .open_ ∧
      t.signalId = args.signalId ∧ t.exitReason = none ∧ t.marketRegime = none ∧
      t.exchangePositionId = none := by
  revert h
  unfold openTrade
  split
  · simp
  · split
    · simp
    · dsimp only
      split
      · simp
      · intro h
        obtain rfl := Except.ok.inj h
        exact ⟨_, rfl, ⟨rfl, rfl⟩, rfl, rfl, rfl, rfl, rfl, rfl, rfl⟩

theorem fits_openTrade (hs : s.Fits) {args : OpenTradeArgs} {uuidHex : String}
    (ha : (Operation.journal (.openTrade args uuidHex)).Accepted s) :
    ((Operation.journal (.openTrade args uuidHex)).perform s).Fits ↔
      (Operation.journal (.openTrade args uuidHex)).Admissible s := by
  obtain ⟨hhex, t, ht⟩ := ha
  obtain ⟨e, htables, ⟨hid, hkey⟩, hnew, hsymbol, hstatus, hsignal, hreason, hregime, hposition⟩ :=
    openTrade_ok ht
  have hlength : t.tradeId.length = 17 := by
    have htext : "MANUAL-".length = 7 := by decide
    rw [hnew, newTradeId, String.length_append, htext, hhex]
  show Store.Fits { s with tables := (openTrade args uuidHex s.tables).2 } ↔ _
  rw [htables, fits_append hs hid hkey]
  constructor
  · intro h
    exact ⟨hsymbol ▸ h.symbol, hsignal ▸ h.signalId⟩
  · rintro ⟨h1, h2⟩
    exact
      { tradeId := by omega
        symbol := hsymbol ▸ h1
        status := by rw [hstatus]; decide
        signalId := hsignal ▸ h2
        exitReason := by simp [hreason]
        marketRegime := by simp [hregime]
        exchangePositionId := by simp [hposition] }

/-- The text columns `withExit` changes are the status and, at a full close, the reason. -/
theorem withExit_texts (t : Trade) (args : RecordExitArgs) (q : ℚ) (full : Bool) :
    (withExit t args q full).symbol = t.symbol ∧ (withExit t args q full).signalId = t.signalId ∧
      (withExit t args q full).marketRegime = t.marketRegime ∧
      (withExit t args q full).exchangePositionId = t.exchangePositionId ∧
      (withExit t args q full).exitReason = if full then args.reason else t.exitReason := by
  cases full <;> exact ⟨rfl, rfl, rfl, rfl, rfl⟩

theorem fits_recordExit (hs : s.Fits) {args : RecordExitArgs}
    (ha : (Operation.journal (.recordExit args)).Accepted s) :
    ((Operation.journal (.recordExit args)).perform s).Fits ↔
      (Operation.journal (.recordExit args)).Admissible s := by
  obtain ⟨t, ht⟩ := ha
  rcases recordExit_cases args s.tables with ⟨e, he⟩ | ⟨trade, h⟩
  · rw [he] at ht
    cases ht
  have hold := trade.allFit_iff.1 (hs.trades trade (mem_of_lookup h.row))
  have hid : (exitedTrade args s.tables trade).tradeId = trade.tradeId := withExit_tradeId ..
  have hrow : s.tables.trade? trade.tradeId = some trade := h.tradeId ▸ h.row
  have hexecution : ∀ e ∈ [exitExecution args s.tables trade],
      e.tradeId = trade.tradeId ∧ e.exchangeTransactionId = none := by
    intro e he
    rw [List.mem_singleton.1 he]
    exact ⟨h.tradeId.symm, rfl⟩
  obtain ⟨hsymbol, hsignal, hregime, hposition, hreason⟩ := withExit_texts trade args
    (closedQuantity s.tables args.tradeId) (isFullClose args s.tables trade)
  show Store.Fits { s with tables := (recordExit args s.tables).2 } ↔ _
  rw [recordExit_of_accepted h, fits_save hs _ hrow hid (fun e he => (hexecution e he).1)
    fun e he => (hexecution e he).2]
  have hstatus : (exitedTrade args s.tables trade).status =
      if isFullClose args s.tables trade then .closed else .partiallyClosed := withExit_status ..
  constructor
  · intro hfits
    have hfull : isFullClose args s.tables trade = true := by
      by_contra hpartial
      have hlong := hfits.status
      rw [hstatus, if_neg hpartial] at hlong
      exact hlong rfl
    refine ⟨⟨trade, h.row, hfull⟩, ?_⟩
    have hfit := hfits.exitReason
    rw [exitedTrade, hreason, if_pos hfull] at hfit
    exact hfit
  · rintro ⟨⟨trade', hrow', hfull⟩, hfit⟩
    obtain rfl : trade = trade' := Option.some.inj (h.row.symm.trans hrow')
    exact
      { tradeId := hid ▸ hold.tradeId
        symbol := by rw [exitedTrade, hsymbol]; exact hold.symbol
        status := by rw [hstatus, if_pos hfull]; decide
        signalId := by rw [exitedTrade, hsignal]; exact hold.signalId
        exitReason := by rw [exitedTrade, hreason, if_pos hfull]; exact hfit
        marketRegime := by rw [exitedTrade, hregime]; exact hold.marketRegime
        exchangePositionId := by rw [exitedTrade, hposition]; exact hold.exchangePositionId }

/-- The row `cancel_trade` leaves. -/
theorem cancelTrade_ok {tradeId : String} {reason : Option String} {utcnow : Datetime}
    {db : Tables} {t' : Trade} (h : (cancelTrade tradeId reason utcnow db).1 = .ok t') :
    ∃ t text, db.trade? t.tradeId = some t ∧ t' = cancelledTrade t (some text) (some utcnow) ∧
      (cancelTrade tradeId reason utcnow db).2 = ⟨save Trade.tradeId t' db.trades, db.executions⟩ ∧
      (text.length ≤ 50 ↔ ∀ r ∈ reason, r.length ≤ 50) := by
  have hdefault : "cancelled".length = 9 := by decide
  revert h
  unfold cancelTrade
  split
  · simp
  · rename_i t hrow
    split
    · simp
    · intro h
      obtain rfl := Except.ok.inj h
      obtain rfl := key_of_lookup hrow
      refine ⟨t, _, hrow, rfl, rfl, ?_⟩
      cases reason with
      | none => simp [hdefault]
      | some r =>
        by_cases hr : r = ""
        · simp [hr, hdefault]
        · simp [hr]

theorem fits_cancelTrade (hs : s.Fits) {tradeId : String} {reason : Option String}
    {utcnow : Datetime} (ha : (Operation.journal (.cancelTrade tradeId reason utcnow)).Accepted s) :
    ((Operation.journal (.cancelTrade tradeId reason utcnow)).perform s).Fits ↔
      (Operation.journal (.cancelTrade tradeId reason utcnow)).Admissible s := by
  obtain ⟨t', ht'⟩ := ha
  obtain ⟨t, text, hrow, rfl, htables, htext⟩ := cancelTrade_ok ht'
  have hold := t.allFit_iff.1 (hs.trades t (mem_of_lookup hrow))
  have hid : (cancelledTrade t (some text) (some utcnow)).tradeId = t.tradeId := rfl
  have hsave := fits_save hs [] hrow hid (by simp) (by simp)
  rw [List.append_nil] at hsave
  show Store.Fits { s with tables := (cancelTrade tradeId reason utcnow s.tables).2 } ↔ _
  rw [htables, hsave]
  refine Iff.trans ?_ htext
  constructor
  · intro h
    exact h.exitReason text rfl
  · intro h
    exact
      { hold with
        status := by simp [cancelledTrade]
        exitReason := by
          rintro r ⟨⟩
          exact h }

/-! ## The paper traders -/

/-- A trade id keeps to its column up to the counter `10 ^ 24 - 1`. -/
theorem length_paperTradeId (n : ℕ) : (paperTradeId n).length ≤ 30 ↔ n < 10 ^ 24 := by
  have hdigits := Nat.length_toDigits_le_iff (n := n) (k := 24) (b := 10) (by decide) (by decide)
  rw [← String.length_toList, toList_paperTradeId, ← hdigits]
  simp only [List.length_append, List.length_replicate, String.length_toList]
  have htext : "PAPER-".length = 6 := by decide
  omega

/-- The market regime of a position is that of its signal. -/
theorem openPosition_marketRegime {trader : PaperTrader} {signal : Signal} {now : Datetime}
    {position : PaperPosition} (h : (trader.openPosition signal now).1 = some position) :
    position.marketRegime = signal.marketRegime := by
  revert h
  unfold PaperTrader.openPosition
  split
  · simp
  · dsimp only
    split
    · simp
    · split
      · simp
      · intro h
        obtain rfl := Option.some.inj h
        rfl

theorem fits_aiOpen (hs : s.Fits) {trader : PaperTrader} {signal : Signal} {now : Datetime}
    (ha : (Operation.aiOpen trader signal now).Accepted s) :
    ((Operation.aiOpen trader signal now).perform s).Fits ↔
      (Operation.aiOpen trader signal now).Admissible s := by
  obtain ⟨hsignal, position, hposition, hnew⟩ := ha
  have hopened := PaperTrader.openPosition_some hposition
  have hregime := openPosition_marketRegime hposition
  have htexts := hs.signals signal hsignal
  rw [Signal.varchars, allFit_append, allFit_append, allFit_append, allFit_nullable] at htexts
  obtain ⟨⟨⟨hfixed, hregimeFits⟩, -⟩, -⟩ := htexts
  have hid : signal.signalId.length ≤ 30 := hfixed ⟨"signal_id", 30, signal.signalId⟩ (by simp)
  have hsymbol : signal.symbol.length ≤ 20 := hfixed ⟨"symbol", 20, signal.symbol⟩ (by simp)
  have hperform : (Operation.aiOpen trader signal now).perform s = { s with tables :=
      ⟨s.tables.trades ++ [paperTrade position signal.symbol .aiPaper],
        s.tables.executions ++ [entryExecution position]⟩ } := by
    rcases persistPaperOpen_cases position signal.symbol .aiPaper true s.tables with
      ⟨-, -, hp⟩ | ⟨hrefused | hrefused, -⟩
    · simp only [Operation.perform, hposition, hp]
    · exact absurd hnew hrefused
    · cases hrefused
  rw [hperform, fits_append hs rfl rfl]
  refine Iff.trans ?_ (length_paperTradeId (trader.tradeCounter + 1))
  rw [← hopened.tradeId]
  constructor
  · intro h
    exact h.tradeId
  · intro h
    exact
      { tradeId := h
        symbol := hsymbol
        status := by simp [paperTrade]
        signalId := by simpa [paperTrade, hopened.signalId] using hid
        exitReason := by simp [paperTrade]
        marketRegime := by simpa [paperTrade, hregime] using hregimeFits
        exchangePositionId := by simp [paperTrade] }

/-- The id of a Telegram trade is never short enough. -/
theorem fits_telegramOpen (hs : s.Fits) {trader : PaperTrader} {call : ExecuteCall}
    (ha : (Operation.telegramOpen trader call).Accepted s) :
    ((Operation.telegramOpen trader call).perform s).Fits ↔
      (Operation.telegramOpen trader call).Admissible s := by
  obtain ⟨hlength, hcommits, plan, position, hgates, hnew⟩ := ha
  obtain ⟨-, -, sizing, rfl⟩ := gates_ok hgates
  have htables : (executeValidSignal call s.tables trader).tables =
      (persistPaperOpen (positionOf call plan sizing) plan.symbol .telegramExternal call.commits
        s.tables).2 := (executeValidSignal_entered hgates).2
  rcases persistPaperOpen_cases (positionOf call plan sizing) plan.symbol .telegramExternal
    call.commits s.tables with ⟨-, -, hp⟩ | ⟨hrefused | hrefused, -⟩
  · rw [hp] at htables
    show Store.Fits { s with tables := (executeValidSignal call s.tables trader).tables } ↔ _
    rw [htables, fits_append hs rfl rfl]
    refine ⟨fun h => ?_, False.elim⟩
    have hid := h.tradeId
    have htext : "TG-".length = 3 := by decide
    simp only [paperTrade, positionOf, String.length_append, htext, hlength] at hid
    omega
  · exact absurd hnew hrefused
  · rw [hcommits] at hrefused
    cases hrefused

theorem fits_paperEvent (hs : s.Fits) {event : PaperEvent}
    (ha : (Operation.paperEvent event).Accepted s) :
    ((Operation.paperEvent event).perform s).Fits ↔ (Operation.paperEvent event).Admissible s := by
  obtain ⟨t, hrow⟩ := ha
  have hid : t.tradeId = event.tradeId := key_of_lookup hrow
  have hold := t.allFit_iff.1 (hs.trades t (mem_of_lookup hrow))
  show Store.Fits { s with tables := (persistPaperEvent event true s.tables).2 } ↔ event.IsExit
  rw [persistPaperEvent_of_row hrow, fits_save hs _ (hid ▸ hrow) (withEvent_tradeId event t)
    (by simp [eventExecution, hid]) (by simp [eventExecution])]
  constructor
  · intro h
    have hstatus := h.status
    rw [withEvent_status] at hstatus
    by_contra hpartial
    rw [if_neg hpartial] at hstatus
    exact hstatus rfl
  · intro hexit
    cases hdetail : event.detail with
    | partialExit index =>
      rw [PaperEvent.IsExit, hdetail] at hexit
      exact hexit.elim
    | exit entryPrice entryTime stopLoss takeProfit leverage pnlPct rMultiple reason regime =>
      have hreason : reason.text.length ≤ 50 := by cases reason <;> decide
      simp only [withEvent, hdetail]
      exact
        { hold with
          status := by simp
          exitReason := by
            rintro r ⟨⟩
            exact hreason }

/-! ## The notification log -/

/-- The key of an alert is too long to be in a log that fits. -/
theorem dedupKey_not_logged (hs : s.Fits) (alert : ExitAlert) :
    ∀ l ∈ s.notificationLogs, l.messageType ≠ dedupKey alert := by
  intro l hl heq
  have hfit := (l.allFit_iff.1 (hs.notificationLogs l hl)).1.2.1
  have hkey := length_dedupKey alert
  have hreason := length_reason alert.reason
  rw [heq] at hfit
  omega

theorem fits_with_logs (hs : s.Fits) {logs : List NotificationLog} :
    Store.Fits { s with notificationLogs := logs } ↔ ∀ l ∈ logs, AllFit l.varchars :=
  ⟨fun h => h.notificationLogs, fun h => ⟨hs.trades, hs.executions, hs.signals, h⟩⟩

theorem fits_exitAlerts (hs : s.Fits) {accountId : ℕ} {currentPrice : ℚ} {symbol : String}
    (ha : (Operation.exitAlerts accountId currentPrice symbol).Accepted s) :
    ((Operation.exitAlerts accountId currentPrice symbol).perform s).Fits ↔
      (Operation.exitAlerts accountId currentPrice symbol).Admissible s := by
  obtain ⟨alerts, halerts⟩ := ha
  show Store.Fits { s with notificationLogs :=
    (getNewExitAlerts s.tables accountId currentPrice symbol s.notificationLogs).2 } ↔
      checkOpenPositions s.tables accountId currentPrice symbol = []
  rw [fits_with_logs hs]
  unfold getNewExitAlerts at halerts ⊢
  cases hopen : checkOpenPositions s.tables accountId currentPrice symbol with
  | nil => simpa [newExitAlerts] using hs.notificationLogs
  | cons alert rest =>
    refine iff_of_false (fun h => ?_) (by simp)
    rw [hopen, newExitAlerts_of_new (dedupKey_not_logged hs alert)] at halerts
    rw [newExitAlerts_of_new (dedupKey_not_logged hs alert)] at h
    cases hrest : newExitAlerts rest (s.notificationLogs ++ [alertLog alert]) with
    | error e =>
      rw [hrest] at halerts
      cases halerts
    | ok out =>
      obtain ⟨new, logs⟩ := out
      rw [hrest] at h
      have hlogged : alertLog alert ∈ logs := mem_newExitAlerts hrest (by simp)
      have hfit := ((alertLog alert).allFit_iff.1 (h _ hlogged)).1.2.1
      have hkey := length_dedupKey alert
      have hreason := length_reason alert.reason
      simp only [alertLog] at hfit
      omega

theorem fits_notify (hs : s.Fits) {signal : Signal} (ha : (Operation.notify signal).Accepted s) :
    ((Operation.notify signal).perform s).Fits ↔ (Operation.notify signal).Admissible s := by
  obtain ⟨hsignal, hsent⟩ := ha
  have hlogs : (notifyNewSignal signal true s.notificationLogs).2 =
      s.notificationLogs ++ [signalLog signal] := by
    revert hsent
    unfold notifyNewSignal
    split
    · simp
    · split <;> simp
  have hid : signal.signalId.length ≤ 30 :=
    hs.signals signal hsignal ⟨"signal_id", 30, signal.signalId⟩ (by simp [Signal.varchars])
  have hlog : AllFit (signalLog signal).varchars ↔ signal.signalId.length ≤ 7 := by
    have hkey := length_signalDedupKey signal.signalId
    have htexts : "telegram".length ≤ 20 ∧ "sent".length ≤ 20 := by decide
    rw [NotificationLog.allFit_iff]
    simp only [signalLog, Option.mem_some_iff, forall_eq']
    omega
  show Store.Fits { s with notificationLogs :=
    (notifyNewSignal signal true s.notificationLogs).2 } ↔ _
  rw [fits_with_logs hs, hlogs]
  refine Iff.trans ?_ hlog
  constructor
  · intro h
    exact h _ (by simp)
  · intro h l hl
    rcases List.mem_append.1 hl with hl | hl
    · exact hs.notificationLogs l hl
    · exact List.mem_singleton.1 hl ▸ h

end Writers

/-- **Which operations fit their columns.** On a store all of whose texts fit, an operation that the
program accepts leaves only texts that fit if and only if it is admissible. -/
theorem fits_iff (s : Store) (op : Operation) (hs : s.Fits) (ha : op.Accepted s) :
    (op.perform s).Fits ↔ op.Admissible s := by
  match op with
  | .journal (.openTrade args uuidHex) => exact fits_openTrade hs ha
  | .journal (.recordExit args) => exact fits_recordExit hs ha
  | .journal (.cancelTrade tradeId reason utcnow) => exact fits_cancelTrade hs ha
  | .aiOpen trader signal now => exact fits_aiOpen hs ha
  | .telegramOpen trader call => exact fits_telegramOpen hs ha
  | .paperEvent event => exact fits_paperEvent hs ha
  | .exitAlerts accountId currentPrice symbol => exact fits_exitAlerts hs ha
  | .notify signal => exact fits_notify hs ha

/-- The opening of a trade of two bitcoins at 100. -/
def sampleOpen : Operation :=
  .journal (.openTrade
    { symbol := "BTC/USDT"
      side := "LONG"
      entryPrice := 100
      quantity := 2
      entryTime := 0 } "0123456789")

theorem fits_empty : Store.Fits {} := ⟨by simp, by simp, by simp, by simp⟩

theorem accepted_sampleOpen : sampleOpen.Accepted {} := by
  refine ⟨by decide, ?_⟩
  exact ⟨_, rfl⟩

/-- The law at the opening of a trade. -/
theorem fits_iff_sampleOpen : Store.Fits {} ∧ sampleOpen.Accepted {} ∧
    ((sampleOpen.perform {}).Fits ↔ sampleOpen.Admissible {}) ∧ sampleOpen.Admissible {} :=
  ⟨fits_empty, accepted_sampleOpen, fits_iff {} sampleOpen fits_empty accepted_sampleOpen,
    by decide, by rintro id ⟨⟩⟩

/-- Selling half of it writes `PARTIALLY_CLOSED`. -/
def sampleHalfExit : Operation :=
  .journal (.recordExit
    { tradeId := "MANUAL-0123456789"
      exitPrice := 110
      quantity := 1
      timestamp := 0 })

/-- A partial exit is accepted by the journal and too long for the database. -/
theorem partial_exit_too_long : (sampleOpen.perform {}).Fits ∧
    sampleHalfExit.Accepted (sampleOpen.perform {}) ∧
    ¬(sampleHalfExit.perform (sampleOpen.perform {})).Fits := by
  refine ⟨⟨by decide +kernel, by decide +kernel, by decide +kernel, by decide +kernel⟩, ?_,
    fun h => absurd h.trades (by decide +kernel)⟩
  have hok : ((recordExit
      { tradeId := "MANUAL-0123456789", exitPrice := 110, quantity := 1, timestamp := 0 }
      (sampleOpen.perform {}).tables).1).isOk = true := by decide +kernel
  show ∃ t, (recordExit _ (sampleOpen.perform {}).tables).1 = .ok t
  cases hexit : (recordExit
      { tradeId := "MANUAL-0123456789", exitPrice := 110, quantity := 1, timestamp := 0 }
      (sampleOpen.perform {}).tables).1 with
  | error e =>
    rw [hexit] at hok
    cases hok
  | ok t => exact ⟨t, rfl⟩

end AlphaOne.Schema

import AlphaOne.Exchange.CoinDCX
import AlphaOne.Journal.Journal
import AlphaOne.SignalMatching.Matcher

/-!
# The CoinDCX position sync

`sync_positions` of `services/exchange/coindcx_sync.py`. The positions the exchange shows are
compared with the open synced trades: a known one is updated, a new one becomes a trade, and a
trade whose position has disappeared is closed with the fills of its symbol since it was last
seen.

The journal commits every exit it records, so that a sync that raises may leave a part of its
work behind. A `Session` is the database as it is committed, and with what has been added since.
-/

namespace AlphaOne.Exchange

open Foundations Journal SignalMatching

/-- What a failed synchronization says, with the values its text is formatted from. -/
inductive SyncDetail
  /-- `position {exchange_position_id} ({trade_id}) disappeared but no closing fill was found` -/
  | noClosingFill (exchangePositionId : Option String) (tradeId : String)
  /-- `str(e)` of a journal error. -/
  | journalError (e : TradeJournalError)
  deriving DecidableEq, Repr

/-- The row of the account. -/
structure Account where
  id : ℕ
  lastSyncedAt : Option Datetime := none
  deriving DecidableEq, Repr

/-- The tables a sync reads and writes; of `sync_events` the details of the failed ones. -/
structure SyncTables where
  tables : Tables := {}
  signals : List Signal := []
  syncEvents : List SyncDetail := []
  account : Account
  deriving DecidableEq, Repr

/-- How a sync raises. -/
inductive SyncError
  | integrityError
  | zeroDivisionError
  deriving DecidableEq, Repr

structure Session where
  committed : SyncTables
  working : SyncTables

namespace Session

/-- Writes the journal tables. -/
def write (s : Session) (tables : Tables) : Session :=
  { s with working := { s.working with tables } }

/-- Adds a failed sync event. -/
def fail (s : Session) (detail : SyncDetail) : Session :=
  { s with working := { s.working with syncEvents := s.working.syncEvents ++ [detail] } }

def commit (s : Session) : Session := { s with committed := s.working }

@[simp] theorem write_tables (s : Session) (tables : Tables) :
    (s.write tables).working.tables = tables := rfl

@[simp] theorem fail_tables (s : Session) (detail : SyncDetail) :
    (s.fail detail).working.tables = s.working.tables := rfl

@[simp] theorem commit_working (s : Session) : s.commit.working = s.working := rfl

end Session

/-- A sync: what it reads from the exchange, from the clock and from the UUID generator. -/
structure SyncCall where
  /-- The response of the positions endpoint. -/
  positions : Option (List PositionRow)
  trades : TradesEndpoint
  now : Datetime
  /-- The clock when a trade is created, by position. -/
  createdAt : String → Datetime
  /-- The clock when the history of a trade is asked for, by trade id. -/
  askedAt : String → Datetime
  /-- The clock when the exit of a trade is recorded, by trade id. -/
  closedAt : String → Datetime
  /-- Ten hex digits of a fresh UUID, by position. -/
  uuidHex : String → String

/-! ## New positions -/

/-- `int(pos["leverage"]) if pos.get("leverage") else 1`. -/
def leverageOf (pos : Position) : ℤ :=
  match pos.leverage with
  | none => 1
  | some l => if l = 0 then 1 else l.num.tdiv l.den

/-- The trade of a position that is seen for the first time. -/
def tradeOfPosition (db : SyncTables) (uuidHex : String) (entryTime : Datetime)
    (pos : Position) : Trade :=
  let symbol := denormalizeSymbol pos.symbol
  let candidates := findCandidateSignals db.signals symbol pos.side pos.entryPrice entryTime
  let found := pickConfidentMatch candidates
  { tradeId := "COINDCX-" ++ uuidHex
    signalId := found.map SignalMatchCandidate.signalId
    symbol
    side := pos.side
    status := .open_
    mode := .live
    entryPrice := pos.entryPrice
    quantity := pos.quantity
    leverage := leverageOf pos
    entryTime
    isManualEntry := false
    source := .coindcxSync
    matchedSignalConfidence := found.map SignalMatchCandidate.confidence
    accountId := some db.account.id
    exchangePositionId := some pos.exchangePositionId
    markPrice := pos.markPrice
    liquidationPrice := pos.liquidationPrice
    unrealizedPnl := pos.unrealizedPnl
    margin := some pos.margin
    dataSource := .live
    matchStatus :=
      if found.isSome then .autoMatched else if candidates ≠ [] then .ambiguous else .unmatched
    lastSyncedAt := some entryTime }

/-- The entry execution of a new trade. -/
def entryOf (pos : Position) (trade : Trade) : TradeExecution :=
  { tradeId := trade.tradeId
    executionType := .entry
    price := pos.entryPrice
    quantity := pos.quantity
    timestamp := trade.entryTime }

/-- `_create_trade_from_position`. The flush meets the unique index on `trade_id`. -/
def createTradeFromPosition (call : SyncCall) (pos : Position) (s : Session) :
    Except SyncError Session :=
  let trade := tradeOfPosition s.working (call.uuidHex pos.exchangePositionId)
    (call.createdAt pos.exchangePositionId) pos
  if (s.working.tables.trade? trade.tradeId).isSome then .error .integrityError
  else
    .ok (s.write
      { trades := s.working.tables.trades ++ [trade]
        executions := s.working.tables.executions ++ [entryOf pos trade] })

/-! ## Disappeared positions -/

/-- The side of the fills that close a trade. -/
def closingSide : Side → OrderSide
  | .long => .sell
  | .short => .buy

/-- The fills that the history of a trade is read for. -/
def closingFills (trade : Trade) (fills : List Fill) : List Fill :=
  fills.filter fun f => f.side = closingSide trade.side

/-- The history that a sync reads for a trade: whole days, from when it was last seen. -/
def SyncCall.historyOf (call : SyncCall) (trade : Trade) : List Fill :=
  let since := trade.lastSyncedAt.getD trade.entryTime
  getTradeHistory call.trades trade.symbol (Datetime.date since)
    (Datetime.date (call.askedAt trade.tradeId))

/-- `total_qty`. -/
def totalQuantity (fills : List Fill) : ℚ := (fills.map Fill.quantity).sum

/-- The exit that the closing fills of a trade are recorded as. -/
def exitArgs (call : SyncCall) (trade : Trade) (relevant : List Fill) : RecordExitArgs :=
  let totalQty := totalQuantity relevant
  let vwapExit := (relevant.map fun f => f.price * f.quantity).sum / totalQty
  let remaining := trade.quantity
  { tradeId := trade.tradeId
    exitPrice := vwapExit
    quantity := min totalQty remaining
    timestamp := call.closedAt trade.tradeId
    reason := some "coindcx_position_closed" }

/-- `_close_disappeared_position`: the closed trade, if an exit was recorded. -/
def closeDisappearedPosition (call : SyncCall) (trade : Trade) (s : Session) :
    Except SyncError (Option Trade) × Session :=
  let relevant := closingFills trade (call.historyOf trade)
  if relevant = [] then
    (.ok none, s.fail (.noClosingFill trade.exchangePositionId trade.tradeId))
  else if totalQuantity relevant = 0 then (.error .zeroDivisionError, s)
  else
    match recordExit (exitArgs call trade relevant) s.working.tables with
    | (.ok closed, tables) => (.ok (some closed), (s.write tables).commit)
    | (.error (.tradeJournalError e), _) => (.ok none, s.fail (.journalError e))
    | (.error .integrityError, _) => (.error .integrityError, s)

/-! ## The sync -/

/-- A row that the sync keeps track of. -/
def IsTracked (db : SyncTables) (t : Trade) : Prop :=
  t.accountId = some db.account.id ∧ t.source = .coindcxSync ∧
    (t.status = .open_ ∨ t.status = .partiallyClosed)

instance (db : SyncTables) : DecidablePred (IsTracked db) := fun t => by
  unfold IsTracked
  infer_instance

/-- `live_by_id`. -/
def liveById (call : SyncCall) : List Position :=
  dictOf Position.exchangePositionId (getOpenPositions call.positions)

/-- `existing_open`. -/
def existingOpen (db : SyncTables) : List Trade :=
  dictOf Trade.exchangePositionId (db.tables.trades.filter (IsTracked db))

/-- A tracked trade whose position is still open. -/
def seen (pos : Position) (now : Datetime) (trade : Trade) : Trade :=
  { trade with
    markPrice := pos.markPrice
    unrealizedPnl := pos.unrealizedPnl
    liquidationPrice := pos.liquidationPrice
    margin := some pos.margin
    lastSyncedAt := some now }

/-- The loop over the live positions. -/
def takeLive (call : SyncCall) (existing : List Trade) :
    List Position → Session → Except SyncError Session
  | [], s => .ok s
  | pos :: rest, s =>
    match lookup Trade.exchangePositionId (some pos.exchangePositionId) existing with
    | some trade =>
      takeLive call existing rest (s.write { s.working.tables with
        trades := save Trade.tradeId (seen pos call.now trade) s.working.tables.trades })
    | none =>
      match createTradeFromPosition call pos s with
      | .error e => .error e
      | .ok s => takeLive call existing rest s

/-- The tracked trades whose position is not among the live ones. -/
def disappeared (call : SyncCall) (existing : List Trade) : List Trade :=
  existing.filter fun t =>
    ¬∃ pos ∈ liveById call, t.exchangePositionId = some pos.exchangePositionId

/-- The loop over the disappeared positions: the trades an exit was recorded for. -/
def closeAll (call : SyncCall) : List Trade → Session → Except SyncError (List Trade) × Session
  | [], s => (.ok [], s)
  | trade :: rest, s =>
    match closeDisappearedPosition call trade s with
    | (.error e, s) => (.error e, s)
    | (.ok closed, s) =>
      match closeAll call rest s with
      | (.error e, s) => (.error e, s)
      | (.ok more, s) => (.ok (closed.toList ++ more), s)

/-- `sync_positions`: the trades it closed, and the committed tables. -/
def syncPositions (call : SyncCall) (db : SyncTables) :
    Except SyncError (List Trade) × SyncTables :=
  let existing := existingOpen db
  match takeLive call existing (liveById call) ⟨db, db⟩ with
  | .error e => (.error e, db)
  | .ok s =>
    match closeAll call (disappeared call existing) s with
    | (.error e, s) => (.error e, s.committed)
    | (.ok closed, s) =>
      (.ok closed, { s.working with
        account := { s.working.account with lastSyncedAt := some call.now } })

end AlphaOne.Exchange

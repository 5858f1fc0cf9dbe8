import AlphaOne.Exchange.CoinDCXSync
import AlphaOne.Journal.ConcurrentExits

/-!
# Concurrent syncs

`sync_positions` is called by the scheduler and by `POST /accounts/sync`, each call on a session of
its own. It selects the open trades once, goes through the positions with what it has selected, and
commits with every exit it records and at its end. What it has flushed in between nobody else sees,
and any other sync may read or commit between two of its statements.

A `SyncRun` is a call with the local variables it has filled so far, and `SyncRun.move` its next
statement on the committed tables. The row locks of the store make some statements wait, which only
takes schedules away.
-/

namespace AlphaOne.Exchange

open Foundations Journal

/-! ## What a session has flushed -/

/-- What a session has flushed since its last commit. -/
structure Changes where
  /-- The tracked trades that are still open, as they were loaded and as they are now. -/
  seen : List (Trade × Trade) := []
  opened : List (Trade × TradeExecution) := []
  syncEvents : List SyncDetail := []
  deriving DecidableEq, Repr

/-- A flushed `UPDATE`: `row` with the columns in which `changed` differs from `loaded`, of those
that the loop over the live positions assigns. -/
def writeSeen (loaded changed row : Trade) : Trade :=
  { row with
    markPrice := if changed.markPrice = loaded.markPrice then row.markPrice else changed.markPrice
    unrealizedPnl :=
      if changed.unrealizedPnl = loaded.unrealizedPnl then row.unrealizedPnl
      else changed.unrealizedPnl
    liquidationPrice :=
      if changed.liquidationPrice = loaded.liquidationPrice then row.liquidationPrice
      else changed.liquidationPrice
    margin := if changed.margin = loaded.margin then row.margin else changed.margin
    lastSyncedAt :=
      if changed.lastSyncedAt = loaded.lastSyncedAt then row.lastSyncedAt
      else changed.lastSyncedAt }

namespace Changes

/-- The updates of one row. -/
def update (changes : Changes) (row : Trade) : Trade :=
  changes.seen.foldl (fun row s =>
    if row.tradeId = s.1.tradeId then writeSeen s.1 s.2 row else row) row

/-- The trades that are inserted. -/
def inserted (changes : Changes) : List Trade := changes.opened.map Prod.fst

/-- The tables with the changes of a session: what its own queries see, and what its commit leaves.
-/
def apply (changes : Changes) (db : SyncTables) : SyncTables :=
  { db with
    tables :=
      { trades := db.tables.trades.map changes.update ++ changes.inserted
        executions := db.tables.executions ++ changes.opened.map Prod.snd }
    syncEvents := db.syncEvents ++ changes.syncEvents }

/-- Adds a failed sync event. -/
def fail (changes : Changes) (detail : SyncDetail) : Changes :=
  { changes with syncEvents := changes.syncEvents ++ [detail] }

/-- Another session has meanwhile committed a trade with the id of one that is inserted. -/
def Conflicts (changes : Changes) (db : SyncTables) : Prop :=
  ∃ t ∈ changes.inserted, (db.tables.trade? t.tradeId).isSome

instance (changes : Changes) (db : SyncTables) : Decidable (changes.Conflicts db) := by
  unfold Conflicts
  infer_instance

end Changes

/-! ## The statements of a sync -/

/-- How far a sync has come. -/
inductive SyncStage
  /-- About to select the open trades. -/
  | start
  /-- In the loop over the live positions. -/
  | taking (existing : List Trade) (positions : List Position) (changes : Changes)
  /-- In the loop over the disappeared positions. -/
  | closing (trades : List Trade) (changes : Changes) (closed : List Trade)
  /-- In `record_exit` for a trade. -/
  | exiting (trade : Trade) (exit : ExitCall) (rest : List Trade) (changes : Changes)
      (closed : List Trade)
  | ended (result : Except SyncError (List Trade))

structure SyncRun where
  call : SyncCall
  stage : SyncStage := .start

/-- One turn of the loop over the live positions. -/
def takePosition (call : SyncCall) (existing : List Trade) (pos : Position) (rest : List Position)
    (changes : Changes) (db : SyncTables) : SyncStage :=
  match lookup Trade.exchangePositionId (some pos.exchangePositionId) existing with
  | some trade =>
    .taking existing rest
      { changes with seen := changes.seen ++ [(trade, seen pos call.now trade)] }
  | none =>
    let view := changes.apply db
    let trade := tradeOfPosition view (call.uuidHex pos.exchangePositionId)
      (call.createdAt pos.exchangePositionId) pos
    if (view.tables.trade? trade.tradeId).isSome then .ended (.error .integrityError)
    else .taking existing rest
      { changes with opened := changes.opened ++ [(trade, entryOf pos trade)] }

/-- `_close_disappeared_position` up to its call of `record_exit`. -/
def startClosing (call : SyncCall) (trade : Trade) (rest : List Trade) (changes : Changes)
    (closed : List Trade) : SyncStage :=
  let relevant := closingFills trade (call.historyOf trade)
  if relevant = [] then
    .closing rest (changes.fail (.noClosingFill trade.exchangePositionId trade.tradeId)) closed
  else if totalQuantity relevant = 0 then .ended (.error .zeroDivisionError)
  else .exiting trade { args := exitArgs call trade relevant } rest changes closed

/-- The next statement of `record_exit`, or what its caller does with its result. -/
def moveExit (trade : Trade) (exit : ExitCall) (rest : List Trade) (changes : Changes)
    (closed : List Trade) (db : SyncTables) : SyncTables × SyncStage :=
  let view := (changes.apply db).tables
  match exit.stage with
  | .start =>
    -- the session holds the trade already, and its `select` does not load the columns anew
    let held := { view with trades := save Trade.tradeId trade view.trades }
    (db, .exiting trade (exit.move held).2 rest changes closed)
  | .checked _ _ =>
    if changes.Conflicts db then (db, .ended (.error .integrityError))
    else
      ({ changes.apply db with tables := (exit.move view).1 },
        .exiting trade (exit.move view).2 rest {} closed)
  | .loaded _ | .committed _ => (db, .exiting trade (exit.move view).2 rest changes closed)
  | .ended (.ok exited) => (db, .closing rest changes (closed ++ [exited]))
  | .ended (.error (.tradeJournalError e)) =>
    (db, .closing rest (changes.fail (.journalError e)) closed)
  | .ended (.error .integrityError) => (db, .ended (.error .integrityError))

/-- The last commit of a sync. -/
def finish (call : SyncCall) (changes : Changes) (closed : List Trade) (db : SyncTables) :
    SyncTables × SyncStage :=
  if changes.Conflicts db then (db, .ended (.error .integrityError))
  else
    let view := changes.apply db
    ({ view with account := { view.account with lastSyncedAt := some call.now } },
      .ended (.ok closed))

/-- The next statement of a sync. -/
def moveSync (call : SyncCall) (stage : SyncStage) (db : SyncTables) : SyncTables × SyncStage :=
  match stage with
  | .start => (db, .taking (existingOpen db) (liveById call) {})
  | .taking existing [] changes => (db, .closing (disappeared call existing) changes [])
  | .taking existing (pos :: rest) changes => (db, takePosition call existing pos rest changes db)
  | .closing [] changes closed => finish call changes closed db
  | .closing (trade :: rest) changes closed => (db, startClosing call trade rest changes closed)
  | .exiting trade exit rest changes closed => moveExit trade exit rest changes closed db
  | .ended result => (db, .ended result)

def SyncRun.move (sync : SyncRun) (db : SyncTables) : SyncTables × SyncRun :=
  let (db, stage) := moveSync sync.call sync.stage db
  (db, { sync with stage })

/-- The syncs of a list of calls, none of them begun. -/
def syncRuns (calls : List SyncCall) : List SyncRun := calls.map fun call => { call }

/-! ## What a session sees -/

@[simp] theorem writeSeen_tradeId (loaded changed row : Trade) :
    (writeSeen loaded changed row).tradeId = row.tradeId := rfl

@[simp] theorem writeSeen_position (loaded changed row : Trade) :
    (writeSeen loaded changed row).exchangePositionId = row.exchangePositionId := rfl

@[simp] theorem writeSeen_status (loaded changed row : Trade) :
    (writeSeen loaded changed row).status = row.status := rfl

/-- The columns of a row that seeing its position leaves. -/
theorem Changes.update_keeps (changes : Changes) (row : Trade) :
    (changes.update row).tradeId = row.tradeId ∧
      (changes.update row).exchangePositionId = row.exchangePositionId ∧
      (changes.update row).status = row.status := by
  unfold Changes.update
  induction changes.seen generalizing row with
  | nil => exact ⟨rfl, rfl, rfl⟩
  | cons s rest ih =>
    rw [List.foldl_cons]
    obtain ⟨hid, hpos, hstatus⟩ :=
      ih (if row.tradeId = s.1.tradeId then writeSeen s.1 s.2 row else row)
    rw [hid, hpos, hstatus]
    split <;> exact ⟨rfl, rfl, rfl⟩

variable {call : SyncCall} {db : SyncTables} {changes : Changes} {trade row t : Trade}

/-- A row that is not seen is not updated. -/
theorem Changes.update_of_not_seen (h : ∀ s ∈ changes.seen, s.1.tradeId ≠ row.tradeId) :
    changes.update row = row := by
  unfold Changes.update
  generalize changes.seen = updates at h ⊢
  induction updates with
  | nil => rfl
  | cons s rest ih =>
    have hne : row.tradeId ≠ s.1.tradeId := (h s (by simp)).symm
    rw [List.foldl_cons, if_neg hne]
    exact ih fun s hs => h s (by simp [hs])

@[simp] theorem Changes.apply_empty (db : SyncTables) : ({} : Changes).apply db = db := by
  have hupdate : ({} : Changes).update = id := rfl
  simp [Changes.apply, Changes.inserted, hupdate]

theorem Changes.apply_fail (changes : Changes) (detail : SyncDetail) (db : SyncTables) :
    (changes.fail detail).apply db =
      { changes.apply db with syncEvents := (changes.apply db).syncEvents ++ [detail] } := by
  have hupdate : (changes.fail detail).update = changes.update := rfl
  simp [Changes.apply, Changes.fail, Changes.inserted, Changes.update]

/-- The session sees the trade it has inserted. -/
theorem Changes.apply_opened (changes : Changes) (t : Trade) (e : TradeExecution)
    (db : SyncTables) :
    ({ changes with opened := changes.opened ++ [(t, e)] } : Changes).apply db =
      { changes.apply db with
        tables :=
          { trades := (changes.apply db).tables.trades ++ [t]
            executions := (changes.apply db).tables.executions ++ [e] } } := by
  simp [Changes.apply, Changes.inserted, Changes.update]

theorem writeSeen_self (pos : Position) (now : Datetime) (t : Trade) :
    writeSeen t (seen pos now t) t = seen pos now t := by
  simp only [writeSeen, ite_changed]
  rfl

/-- The inserted trades have ids of their own, if the session sees no id twice. -/
theorem Changes.inserted_ne (hu : UniqueKey Trade.tradeId (changes.apply db).tables.trades)
    (ht : t ∈ changes.inserted) (hrow : row ∈ db.tables.trades) : row.tradeId ≠ t.tradeId := by
  have hnodup : (((db.tables.trades.map changes.update) ++ changes.inserted).map
      Trade.tradeId).Nodup := hu
  rw [List.map_append, List.nodup_append] at hnodup
  have hne := hnodup.2.2 _ (List.mem_map_of_mem (List.mem_map_of_mem hrow)) _
    (List.mem_map_of_mem ht)
  rwa [(changes.update_keeps row).1] at hne

theorem Changes.not_conflicts (hu : UniqueKey Trade.tradeId (changes.apply db).tables.trades) :
    ¬changes.Conflicts db := by
  rintro ⟨t, ht, hsome⟩
  obtain ⟨row, hrow⟩ := Option.isSome_iff_exists.1 hsome
  exact changes.inserted_ne hu ht (mem_of_lookup hrow) (key_of_lookup hrow)

/-- The session sees the update of a row that it had not touched. -/
theorem Changes.apply_seen (hu : UniqueKey Trade.tradeId (changes.apply db).tables.trades)
    (hrow : trade ∈ db.tables.trades)
    (hnew : ∀ s ∈ changes.seen, s.1.tradeId ≠ trade.tradeId) (pos : Position) (now : Datetime) :
    ({ changes with seen := changes.seen ++ [(trade, Exchange.seen pos now trade)] } :
        Changes).apply db =
      { changes.apply db with
        tables :=
          { (changes.apply db).tables with
            trades := save Trade.tradeId (Exchange.seen pos now trade)
              (changes.apply db).tables.trades } } := by
  set seenTrade := Exchange.seen pos now trade with hseen
  set changes' : Changes := { changes with seen := changes.seen ++ [(trade, seenTrade)] }
    with hchanges
  have hkept : trade ∈ db.tables.trades.map changes.update :=
    List.mem_map.2 ⟨trade, hrow, changes.update_of_not_seen hnew⟩
  have hupdate : ∀ row ∈ db.tables.trades, changes'.update row =
      if (changes.update row).tradeId = seenTrade.tradeId then seenTrade
      else changes.update row := by
    intro row hrow'
    have hstep : changes'.update row =
        if (changes.update row).tradeId = trade.tradeId then
          writeSeen trade seenTrade (changes.update row)
        else changes.update row := by
      rw [hchanges, Changes.update, List.foldl_append]
      rfl
    rw [hstep]
    refine ite_congr rfl (fun hid => ?_) fun _ => rfl
    have heq : changes.update row = trade := hu.eq_of_key
      (List.mem_append_left _ (List.mem_map_of_mem hrow')) (List.mem_append_left _ hkept) hid
    rw [heq, writeSeen_self]
  have hinserted : ∀ t ∈ changes.inserted,
      (if t.tradeId = seenTrade.tradeId then seenTrade else t) = t := fun t ht =>
    if_neg (changes.inserted_ne hu ht hrow).symm
  have htrades : db.tables.trades.map changes'.update ++ changes.inserted =
      save Trade.tradeId seenTrade (db.tables.trades.map changes.update ++ changes.inserted) := by
    rw [save, List.map_append, List.map_map, List.map_congr_left hupdate,
      List.map_congr_left hinserted, List.map_id']
    rfl
  simp only [Changes.apply, ← htrades]
  rfl

/-! ## A sync alone -/

/-- A statement of a sync that nobody interrupts. -/
theorem reaches_moveSync {stage stage' : SyncStage} {db' : SyncTables}
    (h : moveSync call stage db = (db', stage')) :
    Reaches SyncRun.move ⟨call, stage⟩ db ⟨call, stage'⟩ db' :=
  .single (by simp only [SyncRun.move, h])

/-- What a sync that nobody interrupts knows in the loop over the live positions. -/
structure TakesAlone (call : SyncCall) (db : SyncTables) (existing : List Trade)
    (positions : List Position) (changes : Changes) : Prop where
  unique : UniqueKey Trade.tradeId (changes.apply db).tables.trades
  existing : ∀ t ∈ existing, t ∈ db.tables.trades
  seen : ∀ s ∈ changes.seen, s.1 ∈ db.tables.trades ∧
    ∃ pos ∈ liveById call, s.1.exchangePositionId = some pos.exchangePositionId
  live : ∀ pos ∈ positions, pos ∈ liveById call
  distinct : UniqueKey Position.exchangePositionId positions
  ahead : ∀ s ∈ changes.seen, ∀ pos ∈ positions,
    s.1.exchangePositionId ≠ some pos.exchangePositionId

section TakesAlone

variable {existing : List Trade} {pos : Position} {rest : List Position}
  (h : TakesAlone call db existing (pos :: rest) changes)
include h

/-- The positions that are left. -/
theorem TakesAlone.tail : TakesAlone call db existing rest changes where
  unique := h.unique
  existing := h.existing
  seen := h.seen
  live q hq := h.live q (by simp [hq])
  distinct := (List.nodup_cons.1 (show (_ :: rest.map _).Nodup from h.distinct)).2
  ahead s hs q hq := h.ahead s hs q (by simp [hq])

/-- A known position: the session sees what the sync alone writes. -/
theorem TakesAlone.see (hu : UniqueKey Trade.tradeId db.tables.trades)
    (hknown : lookup Trade.exchangePositionId (some pos.exchangePositionId) existing =
      some trade) :
    ({ changes with seen := changes.seen ++ [(trade, Exchange.seen pos call.now trade)] } :
        Changes).apply db =
      { changes.apply db with
        tables :=
          { (changes.apply db).tables with
            trades := save Trade.tradeId (Exchange.seen pos call.now trade)
              (changes.apply db).tables.trades } } ∧
      TakesAlone call db existing rest
        { changes with seen := changes.seen ++ [(trade, Exchange.seen pos call.now trade)] } := by
  have hpos : trade.exchangePositionId = some pos.exchangePositionId := key_of_lookup hknown
  have hrow : trade ∈ db.tables.trades := h.existing trade (mem_of_lookup hknown)
  have hnew : ∀ s ∈ changes.seen, s.1.tradeId ≠ trade.tradeId := by
    intro s hs hid
    refine h.ahead s hs pos (by simp) ?_
    rw [hu.eq_of_key (h.seen s hs).1 hrow hid, hpos]
  have hne : pos.exchangePositionId ∉ rest.map Position.exchangePositionId :=
    (List.nodup_cons.1 (show (_ :: rest.map _).Nodup from h.distinct)).1
  have happly := Changes.apply_seen h.unique hrow hnew pos call.now
  refine ⟨happly, ?_, h.existing, ?_, h.tail.live, h.tail.distinct, ?_⟩
  · rw [happly]
    exact h.unique.save
  · intro s hs
    rcases List.mem_append.1 hs with hs | hs
    · exact h.seen s hs
    · obtain rfl := List.mem_singleton.1 hs
      exact ⟨hrow, pos, h.live pos (by simp), hpos⟩
  · intro s hs q hq
    rcases List.mem_append.1 hs with hs | hs
    · exact h.tail.ahead s hs q hq
    · obtain rfl := List.mem_singleton.1 hs
      rw [hpos]
      exact fun heq => hne (Option.some.inj heq ▸ List.mem_map_of_mem hq)

/-- A new position, whose trade has an id of its own. -/
theorem TakesAlone.insert (hfree : ¬((changes.apply db).tables.trade? t.tradeId).isSome)
    (e : TradeExecution) :
    TakesAlone call db existing rest { changes with opened := changes.opened ++ [(t, e)] } := by
  refine ⟨?_, h.existing, h.seen, h.tail.live, h.tail.distinct, h.tail.ahead⟩
  rw [Option.not_isSome_iff_eq_none, Tables.trade?, lookup_eq_none_iff] at hfree
  rw [changes.apply_opened]
  exact h.unique.append_singleton hfree

end TakesAlone

/-- The loop over the live positions comes, statement by statement, to what `takeLive` comes to. -/
def TakesLive (call : SyncCall) (db : SyncTables) (existing : List Trade)
    (positions : List Position) (changes : Changes) : Prop :=
  (∃ e, takeLive call existing positions ⟨db, changes.apply db⟩ = .error e ∧
    Reaches SyncRun.move ⟨call, .taking existing positions changes⟩ db
      ⟨call, .ended (.error e)⟩ db) ∨
  ∃ changes', takeLive call existing positions ⟨db, changes.apply db⟩ =
      .ok ⟨db, changes'.apply db⟩ ∧
    TakesAlone call db existing [] changes' ∧
    Reaches SyncRun.move ⟨call, .taking existing positions changes⟩ db
      ⟨call, .taking existing [] changes'⟩ db

theorem reaches_taking {existing : List Trade} (positions : List Position)
    (hu : UniqueKey Trade.tradeId db.tables.trades)
    (h : TakesAlone call db existing positions changes) :
    TakesLive call db existing positions changes := by
  induction positions generalizing changes with
  | nil => exact Or.inr ⟨changes, rfl, h, .refl⟩
  | cons pos rest ih =>
    -- one turn, and then the rest
    have hturn : ∀ changes' : Changes, TakesAlone call db existing rest changes' →
        takeLive call existing (pos :: rest) ⟨db, changes.apply db⟩ =
          takeLive call existing rest ⟨db, changes'.apply db⟩ →
        takePosition call existing pos rest changes db = .taking existing rest changes' →
        TakesLive call db existing (pos :: rest) changes := by
      intro changes' h' hstep hmove
      unfold TakesLive
      rw [hstep]
      have hreach : Reaches SyncRun.move ⟨call, .taking existing (pos :: rest) changes⟩ db
          ⟨call, .taking existing rest changes'⟩ db :=
        reaches_moveSync (by simp only [moveSync, hmove])
      exact (ih h').imp (fun ⟨e, htake, hend⟩ => ⟨e, htake, hreach.trans hend⟩)
        fun ⟨changes'', htake, hend, hend'⟩ => ⟨changes'', htake, hend, hreach.trans hend'⟩
    cases hknown : lookup Trade.exchangePositionId (some pos.exchangePositionId) existing with
    | some trade =>
      obtain ⟨happly, h'⟩ := h.see hu hknown
      refine hturn _ h' ?_ (by simp only [takePosition, hknown])
      rw [takeLive, hknown, happly]
      rfl
    | none =>
      set trade := tradeOfPosition (changes.apply db) (call.uuidHex pos.exchangePositionId)
        (call.createdAt pos.exchangePositionId) pos with htrade
      by_cases htaken : ((changes.apply db).tables.trade? trade.tradeId).isSome
      · refine Or.inl ⟨.integrityError, ?_, ?_⟩
        · simp only [takeLive, hknown, createTradeFromPosition, ← htrade, if_pos htaken]
        · exact reaches_moveSync (by
            simp only [moveSync, takePosition, hknown, ← htrade, if_pos htaken])
      · refine hturn _ (h.insert htaken (entryOf pos trade)) ?_
          (by simp only [takePosition, hknown, ← htrade, if_neg htaken])
        simp only [takeLive, hknown, createTradeFromPosition, ← htrade, if_neg htaken,
          changes.apply_opened]
        rfl

section ExitAlone

variable (call) (args : RecordExitArgs) (rest closed : List Trade)
  (hu : UniqueKey Trade.tradeId (changes.apply db).tables.trades)
  (hrow : trade ∈ (changes.apply db).tables.trades)
include hu hrow

/-- The trade that the session holds is the one that `record_exit` would select. -/
theorem reaches_selectTrade :
    Reaches SyncRun.move ⟨call, .exiting trade { args } rest changes closed⟩ db
      ⟨call, .exiting trade { args, stage := selectTrade args (changes.apply db).tables } rest
        changes closed⟩ db := by
  refine reaches_moveSync ?_
  simp only [moveSync, moveExit, hu.save_self hrow, ExitCall.move]

/-- `record_exit`, for a trade whose row is as it was loaded: the error becomes a sync event, or the
exit is committed with all that the session has flushed. -/
theorem reaches_recordExit :
    (∃ e, recordExit args (changes.apply db).tables =
        (.error (.tradeJournalError e), (changes.apply db).tables) ∧
      Reaches SyncRun.move ⟨call, .exiting trade { args } rest changes closed⟩ db
        ⟨call, .closing rest (changes.fail (.journalError e)) closed⟩ db) ∨
    ∃ t, ExitAccepted args (changes.apply db).tables t ∧
      Reaches SyncRun.move ⟨call, .exiting trade { args } rest changes closed⟩ db
        ⟨call, .closing rest {} (closed ++ [exitedTrade args (changes.apply db).tables t])⟩
        { changes.apply db with tables := (recordExit args (changes.apply db).tables).2 } := by
  have hstart := reaches_selectTrade call args rest closed hu hrow
  have hfree := changes.not_conflicts hu
  set view := (changes.apply db).tables with hview
  rcases recordExit_queries args view with ⟨e, hexit, hselect | ⟨t, hselect, hclosed⟩⟩ |
    ⟨t, hacc, hselect, hclosed⟩
  · rw [hselect] at hstart
    exact Or.inl ⟨e, hexit, hstart.trans (reaches_moveSync rfl)⟩
  · rw [hselect] at hstart
    have hquery : Reaches SyncRun.move
        ⟨call, .exiting trade ⟨args, .loaded t⟩ rest changes closed⟩ db
        ⟨call, .exiting trade ⟨args, .ended (.error (.tradeJournalError e))⟩ rest changes closed⟩
        db := reaches_moveSync (by simp only [moveSync, moveExit, ExitCall.move, ← hview, hclosed])
    exact Or.inl ⟨e, hexit, hstart.trans (hquery.trans (reaches_moveSync rfl))⟩
  · rw [hselect] at hstart
    obtain ⟨hcommit, hrefresh⟩ := commitExit_of_accepted hu hacc
    set q := closedQuantity view args.tradeId with hq
    have hquery : Reaches SyncRun.move
        ⟨call, .exiting trade ⟨args, .loaded t⟩ rest changes closed⟩ db
        ⟨call, .exiting trade ⟨args, .checked t q⟩ rest changes closed⟩ db :=
      reaches_moveSync (by simp only [moveSync, moveExit, ExitCall.move, ← hview, hclosed])
    have hbook : Reaches SyncRun.move
        ⟨call, .exiting trade ⟨args, .checked t q⟩ rest changes closed⟩ db
        ⟨call, .exiting trade ⟨args, .committed (exitedOf args t q)⟩ rest {} closed⟩
        { changes.apply db with tables := (recordExit args view).2 } :=
      reaches_moveSync (by
        simp only [moveSync, moveExit, ExitCall.move, if_neg hfree, ← hview, hcommit])
    have hend : Reaches SyncRun.move
        ⟨call, .exiting trade ⟨args, .committed (exitedOf args t q)⟩ rest {} closed⟩
        { changes.apply db with tables := (recordExit args view).2 }
        ⟨call, .exiting trade ⟨args, .ended (.ok (exitedTrade args view t))⟩ rest {} closed⟩
        { changes.apply db with tables := (recordExit args view).2 } :=
      reaches_moveSync (by
        simp only [moveSync, moveExit, ExitCall.move, Changes.apply_empty, hrefresh,
          Option.getD_some])
    exact Or.inr ⟨t, hacc, hstart.trans (hquery.trans (hbook.trans (hend.trans
      (reaches_moveSync rfl))))⟩

end ExitAlone

/-- How a sync ends whose loop over the disappeared positions comes to this. -/
def endOf (call : SyncCall) (closed : List Trade) :
    Except SyncError (List Trade) × Session → SyncTables × SyncStage
  | (.error e, s) => (s.committed, .ended (.error e))
  | (.ok more, s) =>
    ({ s.working with account := { s.working.account with lastSyncedAt := some call.now } },
      .ended (.ok (closed ++ more)))

/-- One trade less to close. -/
theorem endOf_closeAll_cons {closed rest : List Trade} {exited : Option Trade} {s s' : Session}
    (h : closeDisappearedPosition call trade s = (.ok exited, s')) :
    endOf call closed (closeAll call (trade :: rest) s) =
      endOf call (closed ++ exited.toList) (closeAll call rest s') := by
  rw [closeAll, h]
  dsimp only
  cases closeAll call rest s' with
  | mk result s'' => cases result <;> simp [endOf]

/-- What a sync that nobody interrupts makes of one disappeared position, and what it leaves of the
rows that it still has to close. -/
structure ClosesAlone (call : SyncCall) (trade : Trade) (rest closed : List Trade)
    (changes : Changes) (db : SyncTables) (exited : Option Trade) (changes' : Changes)
    (db' : SyncTables) : Prop where
  result : closeDisappearedPosition call trade ⟨db, changes.apply db⟩ =
    (.ok exited, ⟨db', changes'.apply db'⟩)
  reaches : Reaches SyncRun.move ⟨call, .closing (trade :: rest) changes closed⟩ db
    ⟨call, .closing rest changes' (closed ++ exited.toList)⟩ db'
  unique : UniqueKey Trade.tradeId (changes'.apply db').tables.trades
  others : ∀ t ∈ (changes.apply db).tables.trades, t.tradeId ≠ trade.tradeId →
    t ∈ (changes'.apply db').tables.trades

/-- A trade that is not closed: the sync adds an event. -/
theorem ClosesAlone.of_fail {rest closed : List Trade} (detail : SyncDetail)
    (hu : UniqueKey Trade.tradeId (changes.apply db).tables.trades)
    (hresult : closeDisappearedPosition call trade ⟨db, changes.apply db⟩ =
      (.ok none, ⟨db, (changes.fail detail).apply db⟩))
    (hreach : Reaches SyncRun.move ⟨call, .closing (trade :: rest) changes closed⟩ db
      ⟨call, .closing rest (changes.fail detail) closed⟩ db) :
    ClosesAlone call trade rest closed changes db none (changes.fail detail) db where
  result := hresult
  reaches := by rwa [Option.toList_none, List.append_nil]
  unique := by rwa [changes.apply_fail]
  others t ht _ := by rwa [changes.apply_fail]

/-- One turn of the loop over the disappeared positions. -/
theorem reaches_closeOne (call : SyncCall) (trade : Trade) (rest closed : List Trade)
    (hu : UniqueKey Trade.tradeId (changes.apply db).tables.trades)
    (hrow : trade ∈ (changes.apply db).tables.trades) :
    (∃ e, closeDisappearedPosition call trade ⟨db, changes.apply db⟩ =
        (.error e, ⟨db, changes.apply db⟩) ∧
      Reaches SyncRun.move ⟨call, .closing (trade :: rest) changes closed⟩ db
        ⟨call, .ended (.error e)⟩ db) ∨
    ∃ exited changes' db', ClosesAlone call trade rest closed changes db exited changes' db' := by
  by_cases hnone : closingFills trade (call.historyOf trade) = []
  · refine Or.inr ⟨_, _, _, .of_fail
      (.noClosingFill trade.exchangePositionId trade.tradeId) hu ?_ ?_⟩
    · simp only [closeDisappearedPosition, if_pos hnone, changes.apply_fail]
      rfl
    · exact reaches_moveSync (by simp only [moveSync, startClosing, if_pos hnone])
  by_cases hzero : totalQuantity (closingFills trade (call.historyOf trade)) = 0
  · refine Or.inl ⟨.zeroDivisionError, ?_, reaches_moveSync ?_⟩
    · simp only [closeDisappearedPosition, if_neg hnone, if_pos hzero]
    · simp only [moveSync, startClosing, if_neg hnone, if_pos hzero]
  set args := exitArgs call trade (closingFills trade (call.historyOf trade)) with hargs
  have hstart : Reaches SyncRun.move ⟨call, .closing (trade :: rest) changes closed⟩ db
      ⟨call, .exiting trade { args } rest changes closed⟩ db :=
    reaches_moveSync (by simp only [moveSync, startClosing, if_neg hnone, if_neg hzero, hargs])
  rcases reaches_recordExit call args rest closed hu hrow with
    ⟨e, hexit, hreach⟩ | ⟨t, hacc, hreach⟩
  · refine Or.inr ⟨_, _, _, .of_fail (.journalError e) hu ?_ (hstart.trans hreach)⟩
    simp only [closeDisappearedPosition, if_neg hnone, if_neg hzero, ← hargs, hexit,
      changes.apply_fail]
    rfl
  · have hexit := recordExit_of_accepted hacc
    set view := (changes.apply db).tables with hview
    have hid : (exitedTrade args view t).tradeId = trade.tradeId := by
      rw [exitedTrade, withExit_tradeId, hacc.tradeId]
      rfl
    refine Or.inr ⟨some (exitedTrade args view t), {},
      { changes.apply db with tables := (recordExit args view).2 }, ?_, hstart.trans hreach,
      ?_, ?_⟩
    · simp only [closeDisappearedPosition, if_neg hnone, if_neg hzero, ← hargs, ← hview, hexit,
        Changes.apply_empty]
      rfl
    · rw [Changes.apply_empty, hexit]
      exact hu.save
    · intro u hu' hne
      rw [Changes.apply_empty, hexit]
      exact mem_save_of_ne hu' (hid ▸ hne)

/-- The loop over the disappeared positions, and the end of the sync. -/
theorem reaches_closing (call : SyncCall) (trades closed : List Trade)
    (hu : UniqueKey Trade.tradeId (changes.apply db).tables.trades)
    (hrows : ∀ t ∈ trades, t ∈ (changes.apply db).tables.trades)
    (hids : UniqueKey Trade.tradeId trades) :
    Reaches SyncRun.move ⟨call, .closing trades changes closed⟩ db
      ⟨call, (endOf call closed (closeAll call trades ⟨db, changes.apply db⟩)).2⟩
      (endOf call closed (closeAll call trades ⟨db, changes.apply db⟩)).1 := by
  induction trades generalizing db changes closed with
  | nil =>
    refine reaches_moveSync ?_
    simp only [moveSync, finish, if_neg (changes.not_conflicts hu), closeAll, endOf,
      List.append_nil]
  | cons trade rest ih =>
    obtain ⟨hne, hids'⟩ := List.nodup_cons.1 (show (_ :: rest.map _).Nodup from hids)
    rcases reaches_closeOne call trade rest closed hu (hrows trade (by simp)) with
      ⟨e, hclose, hreach⟩ | ⟨exited, changes', db', h⟩
    · rw [closeAll, hclose]
      exact hreach
    · rw [endOf_closeAll_cons h.result]
      refine h.reaches.trans (ih _ h.unique (fun t ht => ?_) hids')
      exact h.others t (hrows t (by simp [ht])) fun heq => hne (heq ▸ List.mem_map_of_mem ht)

/-- **A sync that nobody interrupts is `syncPositions`.** -/
theorem sync_alone (call : SyncCall) (hu : UniqueKey Trade.tradeId db.tables.trades) :
    Reaches SyncRun.move { call } db
      { call, stage := .ended (syncPositions call db).1 } (syncPositions call db).2 := by
  have htracked : ∀ t ∈ existingOpen db, t ∈ db.tables.trades := fun t ht =>
    List.mem_of_mem_filter (mem_of_mem_dictOf ht)
  have h : TakesAlone call db (existingOpen db) (liveById call) {} := by
    refine ⟨?_, htracked, by simp, fun pos hpos => hpos, uniqueKey_dictOf, by simp⟩
    rwa [Changes.apply_empty]
  have hstart : Reaches SyncRun.move { call } db
      ⟨call, .taking (existingOpen db) (liveById call) {}⟩ db := reaches_moveSync rfl
  have htake := reaches_taking (liveById call) hu h
  rw [TakesLive, Changes.apply_empty] at htake
  rcases htake with ⟨e, htake, hreach⟩ | ⟨changes, htake, hend, hreach⟩
  · simp only [syncPositions, htake]
    exact hstart.trans hreach
  · have hids : UniqueKey Trade.tradeId (disappeared call (existingOpen db)) := by
      have hnodup : (existingOpen db).Nodup := List.Nodup.of_map _ uniqueKey_dictOf
      exact (hnodup.filter _).map_on fun t ht u ht' => hu.eq_of_key
        (htracked t (List.mem_of_mem_filter ht)) (htracked u (List.mem_of_mem_filter ht'))
    have hrows : ∀ t ∈ disappeared call (existingOpen db),
        t ∈ (changes.apply db).tables.trades := by
      intro t ht
      obtain ⟨hmem, hgone⟩ := List.mem_filter.1 ht
      have hrow := htracked t hmem
      have hnew : ∀ s ∈ changes.seen, s.1.tradeId ≠ t.tradeId := by
        intro s hs hid
        obtain ⟨hrow', pos, hlive, hpos⟩ := hend.seen s hs
        obtain rfl := hu.eq_of_key hrow' hrow hid
        simp only [decide_eq_true_eq] at hgone
        exact hgone ⟨pos, hlive, hpos⟩
      exact List.mem_append_left _ (List.mem_map.2 ⟨t, hrow, changes.update_of_not_seen hnew⟩)
    have hclose := reaches_closing call (disappeared call (existingOpen db)) [] hend.unique hrows
      hids
    refine hstart.trans (hreach.trans (.trans (reaches_moveSync rfl) ?_))
    simp only [syncPositions, htake]
    generalize closeAll call (disappeared call (existingOpen db)) ⟨db, changes.apply db⟩ = r
      at hclose ⊢
    obtain ⟨result, s⟩ := r
    cases result with
    | error e => exact hclose
    | ok more => exact hclose

end AlphaOne.Exchange

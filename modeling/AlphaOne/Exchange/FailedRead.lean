import AlphaOne.Exchange.SyncEffects

/-!
# Positions that a sync is not shown

`get_open_positions` asks for one page of positions and answers a failed request with an empty
list, so that a sync cannot tell a position it was not shown from one that was closed.
`PositionsRead` is how the request can end, given the rows the exchange has.

A tracked trade that is missing from the read is closed as soon as its history holds fills that
the journal accepts as an exit: `failed_read_keeps_iff`.
-/

namespace AlphaOne.Exchange

open Foundations Journal

/-- The `size` of the page of positions that is asked for. -/
def positionsPageSize : ℕ := 50

/-- How the request for the open positions ends. -/
inductive PositionsRead
  | httpStatusError (status : ℕ)
  | timeout
  | connectionError
  /-- The first page arrives. -/
  | page
  deriving DecidableEq, Repr

/-- What the client makes of it: every `httpx.HTTPError` is caught. -/
def PositionsRead.response (book : List PositionRow) : PositionsRead → Option (List PositionRow)
  | .httpStatusError _ | .timeout | .connectionError => none
  | .page => some (book.take positionsPageSize)

/-- A sync whose request for the positions, of which the exchange has the rows `book`, ends
so. -/
def SyncCall.withRead (call : SyncCall) (book : List PositionRow) (read : PositionsRead) :
    SyncCall :=
  { call with positions := read.response book }

/-- The position of the trade is open on the exchange. -/
def IsOpenOn (book : List PositionRow) (t : Trade) : Prop :=
  ∃ row ∈ book, row.activePos ≠ 0 ∧ t.exchangePositionId = some row.id

instance (book : List PositionRow) : DecidablePred (IsOpenOn book) := fun t =>
  inferInstanceAs (Decidable (∃ row ∈ book, row.activePos ≠ 0 ∧
    t.exchangePositionId = some row.id))

/-- The sync records no exit of a tracked trade that is open on the exchange, and leaves its
status. -/
def KeepsOpen (book : List PositionRow) (call : SyncCall) (db : SyncTables) : Prop :=
  ∀ t ∈ db.tables.trades, IsTracked db t → IsOpenOn book t →
    SameStatus t.tradeId db.tables (syncPositions call db).2.tables

/-- **A read that fails, or is cut off, keeps every open trade exactly when** no trade that is open
on the exchange and that the sync takes for closed has fills in its history which the journal
accepts as its exit. -/
theorem failed_read_keeps_iff (db : SyncTables) (book : List PositionRow) (read : PositionsRead)
    (call : SyncCall) (hu : UniqueKey Trade.tradeId db.tables.trades) :
    KeepsOpen book (call.withRead book read) db ↔
      ∀ t ∈ (call.withRead book read).closes db, IsOpenOn book t →
        ¬Books (call.withRead book read) db.tables t := by
  have hsynced : Synced (call.withRead book read) db
      (syncPositions (call.withRead book read) db).2 := syncPositions_synced hu
  constructor
  · intro hkeeps t ht hopen hbooks
    obtain ⟨hmem, htracked⟩ := mem_existingOpen (mem_disappeared.1 (mem_closes ht)).1
    have hexits := (hkeeps t hmem htracked hopen).exits
    rw [(hsynced.booked t ht hbooks).2] at hexits
    simp at hexits
  · intro hnot t ht _ hopen
    exact hsynced.open_ t ht fun hcloses => hnot t hcloses hopen

/-- The sample trade's position on the exchange. -/
def sampleRow : PositionRow := { id := "p1", pair := "B-BTC_INR", activePos := 2, avgPrice := 90 }

/-- Without a fill, a timeout keeps the trade. -/
theorem failed_read_keeps_sampleTrade :
    KeepsOpen [sampleRow] ((sampleSync []).withRead [sampleRow] .timeout) sampleTables :=
  (failed_read_keeps_iff sampleTables [sampleRow] .timeout (sampleSync [])
    (List.nodup_singleton _)).2 (by decide +kernel)

/-- After a sale earlier in the day, a timeout closes it. -/
theorem timeout_closes_sampleTrade : ¬KeepsOpen [sampleRow] ((sampleSync
    [{ orderId := "o1", timestamp := Timedelta.hours 9, price := 95, quantity := 2,
       side := .sell }]).withRead [sampleRow] .timeout) sampleTables := by
  intro h
  have hstatus := (h sampleTrade (by decide) (by decide) (by decide)).status
  exact absurd hstatus (by decide +kernel)

end AlphaOne.Exchange

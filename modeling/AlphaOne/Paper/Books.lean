import AlphaOne.Paper.System
import Mathlib.Data.List.Perm.Basic
import Mathlib.Tactic.Linarith

/-!
# The paper ledger and the books

Between two operations the open paper rows and the positions of the two books should be the same
positions, with the same side and the same quantity left. `BookAgrees` says so of a list of
positions, and every single thing the program does to a position keeps it: a partial exit, a full
exit and an insert, each with its row (`BookAgrees.slice`, `BookAgrees.close`,
`BookAgrees.insert`). Nothing else keeps it: a restart forgets the positions of open rows, and an
insert that fails leaves a position without its row.

`books_agree` is the law that holds: in every run whose restarts find the books empty and in which
every open position is inserted under a free id and every commit is accepted, ledger and books
agree after every operation.
-/

namespace AlphaOne.Paper

open Foundations Journal Risk Scheduler TelegramSignals

/-- A row that counts as an open paper position. -/
def IsOpenRow (row : Trade) : Prop :=
  row.mode = .paper ∧ (row.status = .open_ ∨ row.status = .partiallyClosed)

instance : DecidablePred IsOpenRow := fun row => by
  unfold IsOpenRow
  infer_instance

/-- The row is that of the position: same id, same side, same quantity left. -/
structure RowOf (db : Tables) (p : PaperPosition) (row : Trade) : Prop where
  tradeId : row.tradeId = p.tradeId
  side : row.side = p.side
  remaining : row.quantity - closedQuantity db row.tradeId = p.remainingQuantity

/-- The open paper rows are, one to one, the rows of the positions of the book. -/
structure BookAgrees (db : Tables) (book : List PaperPosition) : Prop where
  unique : UniqueKey Trade.tradeId db.trades
  /-- Executions belong to trades, as the foreign key demands. -/
  foreign : ∀ x ∈ db.executions, x.tradeId ∈ db.trades.map Trade.tradeId
  book_unique : UniqueKey PaperPosition.tradeId book
  row_of_position : ∀ p ∈ book, ∃ row ∈ db.trades, IsOpenRow row ∧ RowOf db p row
  position_of_row : ∀ row ∈ db.trades, IsOpenRow row → ∃ p ∈ book, RowOf db p row

variable {db : Tables} {book pre post : List PaperPosition} {p p' : PaperPosition} {e : PaperEvent}
  {row : Trade}

theorem bookAgrees_nil : BookAgrees {} [] where
  unique := List.nodup_nil
  foreign := by simp
  book_unique := List.nodup_nil
  row_of_position := by simp
  position_of_row := by simp

/-- The order of the positions does not matter. -/
theorem BookAgrees.perm {book' : List PaperPosition} (h : BookAgrees db book)
    (hp : book.Perm book') : BookAgrees db book' where
  unique := h.unique
  foreign := h.foreign
  book_unique := (hp.map PaperPosition.tradeId).nodup_iff.1 h.book_unique
  row_of_position := fun p hmem => h.row_of_position p (hp.mem_iff.2 hmem)
  position_of_row := fun row hrow hopen => by
    obtain ⟨p, hmem, hmatch⟩ := h.position_of_row row hrow hopen
    exact ⟨p, hp.mem_iff.1 hmem, hmatch⟩

/-! ## Recording an event -/

/-- The tables after an event whose commit is accepted. -/
def recordEvent (db : Tables) (e : PaperEvent) : Tables := (persistPaperEvent e true db).2

theorem recordEvent_of_row (h : db.trade? e.tradeId = some row) : recordEvent db e =
    { trades := save Trade.tradeId (withEvent e row) db.trades
      executions := db.executions ++ [eventExecution e] } := by
  rw [recordEvent, persistPaperEvent_of_row h]

theorem closedQuantity_recordEvent (h : db.trade? e.tradeId = some row) (id : String) :
    closedQuantity (recordEvent db e) id =
      closedQuantity db id + if e.tradeId = id then e.quantity else 0 := by
  rw [recordEvent_of_row h, closedQuantity, exits_append_exit db _ (eventExecution_isExit e)]
  by_cases hid : e.tradeId = id
  · have hexec : (eventExecution e).tradeId = id := hid
    rw [if_pos hid, if_pos hexec, List.map_append, List.sum_append]
    simp [closedQuantity, eventExecution]
  · have hexec : (eventExecution e).tradeId ≠ id := hid
    rw [if_neg hid, if_neg hexec, List.append_nil, add_zero, closedQuantity]

/-- What an event of a position leaves of the rows: its own row, changed, and the others. -/
structure EventRecorded (db : Tables) (e : PaperEvent) (row : Trade) : Prop where
  row_mem : row ∈ db.trades
  row_id : row.tradeId = e.tradeId
  unique : UniqueKey Trade.tradeId (recordEvent db e).trades
  foreign : ∀ x ∈ (recordEvent db e).executions,
    x.tradeId ∈ (recordEvent db e).trades.map Trade.tradeId
  rows : ∀ r, r ∈ (recordEvent db e).trades ↔
    (r ∈ db.trades ∧ r.tradeId ≠ e.tradeId) ∨ r = withEvent e row
  closed : ∀ id, closedQuantity (recordEvent db e) id =
    closedQuantity db id + if e.tradeId = id then e.quantity else 0

theorem BookAgrees.eventRecorded (h : BookAgrees db book) (hp : p ∈ book)
    (hid : e.tradeId = p.tradeId) :
    ∃ row, EventRecorded db e row ∧ IsOpenRow row ∧ RowOf db p row := by
  obtain ⟨row, hrow, hopen, hmatch⟩ := h.row_of_position p hp
  have hrid : row.tradeId = e.tradeId := hmatch.tradeId.trans hid.symm
  have hlookup : db.trade? e.tradeId = some row := (lookup_eq_some_iff h.unique).2 ⟨hrow, hrid⟩
  have hrec := recordEvent_of_row hlookup
  refine ⟨row, ⟨hrow, hrid, ?_, ?_, ?_, closedQuantity_recordEvent hlookup⟩, hopen, hmatch⟩
  · rw [hrec]
    exact h.unique.save
  · rw [hrec]
    intro x hx
    rw [map_key_save]
    rcases List.mem_append.1 hx with hx | hx
    · exact h.foreign x hx
    · rw [List.mem_singleton.1 hx]
      exact List.mem_map.2 ⟨row, hrow, hrid⟩
  · intro r
    rw [hrec, mem_save, withEvent_tradeId, hrid]
    exact or_congr_right ⟨And.left, fun h => ⟨h, row, hrow, hrid⟩⟩

/-- A row of another position stays as it is. -/
theorem EventRecorded.rowOf_other (hr : EventRecorded db e row) {q : PaperPosition} {r : Trade}
    (hne : r.tradeId ≠ e.tradeId) : RowOf (recordEvent db e) q r ↔ RowOf db q r := by
  have hclosed : closedQuantity (recordEvent db e) r.tradeId = closedQuantity db r.tradeId := by
    rw [hr.closed, if_neg (Ne.symm hne), add_zero]
  constructor
  · rintro ⟨hid, hside, hrem⟩
    exact ⟨hid, hside, hclosed ▸ hrem⟩
  · rintro ⟨hid, hside, hrem⟩
    exact ⟨hid, hside, hclosed.symm ▸ hrem⟩

/-- The other positions keep their rows. -/
theorem BookAgrees.other_rows (h : BookAgrees db (pre ++ p :: post))
    (hr : EventRecorded db e row) (hid : e.tradeId = p.tradeId) {q : PaperPosition}
    (hq : q ∈ pre ++ post) :
    ∃ r ∈ (recordEvent db e).trades, IsOpenRow r ∧ RowOf (recordEvent db e) q r := by
  have hne : q.tradeId ≠ p.tradeId := by
    obtain ⟨hpre, hpost⟩ := h.book_unique.ne_of_append_cons
    rcases List.mem_append.1 hq with hq | hq
    · exact hpre q hq
    · exact hpost q hq
  have hmem : q ∈ pre ++ p :: post := by
    rcases List.mem_append.1 hq with hq | hq <;> simp [hq]
  obtain ⟨r, hrmem, hopen, hmatch⟩ := h.row_of_position q hmem
  have hrne : r.tradeId ≠ e.tradeId := by
    rw [hmatch.tradeId, hid]
    exact hne
  exact ⟨r, (hr.rows r).2 (Or.inl ⟨hrmem, hrne⟩), hopen, (hr.rowOf_other hrne).2 hmatch⟩

/-- The rows of other trades belong to the other positions. -/
theorem BookAgrees.other_positions (h : BookAgrees db (pre ++ p :: post))
    (hr : EventRecorded db e row) (hid : e.tradeId = p.tradeId) {r : Trade} (hrmem : r ∈ db.trades)
    (hne : r.tradeId ≠ e.tradeId) (hopen : IsOpenRow r) :
    ∃ q ∈ pre ++ post, RowOf (recordEvent db e) q r := by
  obtain ⟨q, hq, hmatch⟩ := h.position_of_row r hrmem hopen
  refine ⟨q, ?_, (hr.rowOf_other hne).2 hmatch⟩
  rw [List.mem_append, List.mem_cons] at hq
  rcases hq with hq | rfl | hq
  · exact List.mem_append_left _ hq
  · exact absurd (hmatch.tradeId.trans hid.symm) hne
  · exact List.mem_append_right _ hq

/-- **A partial exit with its event**: the position loses what the execution records. -/
theorem BookAgrees.slice (h : BookAgrees db (pre ++ p :: post)) (hid : e.tradeId = p.tradeId)
    (hexit : ¬e.IsExit) (hsame : p.SamePosition p')
    (hrem : p'.remainingQuantity = p.remainingQuantity - e.quantity) :
    BookAgrees (recordEvent db e) (pre ++ p' :: post) := by
  obtain ⟨row, hr, hopen, hmatch⟩ := h.eventRecorded (by simp) hid
  obtain ⟨-, hside, hmode, -, hquantity⟩ := withEvent_entry e row
  have hopen' : IsOpenRow (withEvent e row) := by
    refine ⟨hmode.trans hopen.1, Or.inr ?_⟩
    rw [withEvent_status, if_neg hexit]
  have hmatch' : RowOf (recordEvent db e) p' (withEvent e row) := by
    refine ⟨?_, ?_, ?_⟩
    · rw [withEvent_tradeId, hmatch.tradeId, hsame.tradeId]
    · rw [hside, hmatch.side, hsame.side]
    · rw [hquantity, withEvent_tradeId, hr.closed, if_pos hr.row_id.symm, hrem,
        ← hmatch.remaining]
      ring
  refine ⟨hr.unique, hr.foreign, ?_, ?_, ?_⟩
  · have hids : (pre ++ p' :: post).map PaperPosition.tradeId =
        (pre ++ p :: post).map PaperPosition.tradeId := by simp [hsame.tradeId]
    unfold UniqueKey
    rw [hids]
    exact h.book_unique
  · intro q hq
    rw [List.mem_append, List.mem_cons] at hq
    rcases hq with hq | rfl | hq
    · exact h.other_rows hr hid (List.mem_append_left _ hq)
    · exact ⟨_, (hr.rows _).2 (Or.inr rfl), hopen', hmatch'⟩
    · exact h.other_rows hr hid (List.mem_append_right _ hq)
  · intro r hrmem hropen
    rcases (hr.rows r).1 hrmem with ⟨hrmem, hne⟩ | rfl
    · obtain ⟨q, hq, hqmatch⟩ := h.other_positions hr hid hrmem hne hropen
      refine ⟨q, ?_, hqmatch⟩
      rcases List.mem_append.1 hq with hq | hq <;> simp [hq]
    · exact ⟨p', by simp, hmatch'⟩

/-- **A full exit with its event**: position and row leave the correspondence together. -/
theorem BookAgrees.close (h : BookAgrees db (pre ++ p :: post)) (hid : e.tradeId = p.tradeId)
    (hexit : e.IsExit) : BookAgrees (recordEvent db e) (pre ++ post) := by
  obtain ⟨row, hr, -, -⟩ := h.eventRecorded (by simp) hid
  refine ⟨hr.unique, hr.foreign, ?_, fun q hq => h.other_rows hr hid hq, ?_⟩
  · have := h.book_unique.remove (k := p.tradeId)
    rwa [remove_append_cons h.book_unique] at this
  · intro r hrmem hropen
    rcases (hr.rows r).1 hrmem with ⟨hrmem, hne⟩ | rfl
    · exact h.other_positions hr hid hrmem hne hropen
    · have hstatus := withEvent_status e row
      rw [if_pos hexit] at hstatus
      rcases hropen.2 with hopen | hopen <;> rw [hstatus] at hopen <;> cases hopen

/-! ## Recording the events of a candle -/

/-- The tables after events whose commits are all accepted. -/
def recordEvents (db : Tables) (events : List PaperEvent) : Tables := events.foldl recordEvent db

theorem recordEvents_append (db : Tables) (es fs : List PaperEvent) :
    recordEvents db (es ++ fs) = recordEvents (recordEvents db es) fs := List.foldl_append ..

/-- The equity of the trader is not recorded. -/
theorem recordEvents_bare (db : Tables) (events : List PaperEvent) :
    recordEvents db (events.map PaperEvent.bare) = recordEvents db events := by
  rw [recordEvents, List.foldl_map]
  rfl

theorem persistPaperEvents_of_accepted {commits : PaperEvent → Bool} {events : List PaperEvent}
    (h : ∀ e ∈ events, commits e = true) (db : Tables) :
    persistPaperEvents commits events db = (.ok (), recordEvents db events) := by
  induction events generalizing db with
  | nil => rfl
  | cons e rest ih =>
    have hok : (persistPaperEvent e true db).1 = .ok () := by
      unfold persistPaperEvent
      split <;> rfl
    have hstep : persistPaperEvent e (commits e) db = (.ok (), recordEvent db e) := by
      rw [h e (by simp), recordEvent, ← hok]
    rw [persistPaperEvents, hstep]
    exact ih (fun f hf => h f (by simp [hf])) _

theorem BookAgrees.reactTargets {candle : Candle} {targets : List ℚ}
    (h : BookAgrees db (pre ++ p :: post)) :
    BookAgrees (recordEvents db (p.reactTargets candle targets).1)
      (pre ++ (p.reactTargets candle targets).2.toList ++ post) := by
  induction targets generalizing p db with
  | nil => simpa [PaperPosition.reactTargets, recordEvents] using h
  | cons target rest ih =>
    unfold PaperPosition.reactTargets
    split
    · simpa [recordEvents] using h
    · split
      · simpa [recordEvents] using h.close (e := p.exitEvent target candle.timestamp .takeProfit)
          rfl trivial
      · exact ih (h.slice (e := p.sliceEvent target candle.timestamp) rfl not_false
          (PaperPosition.samePosition_afterSlice target p) rfl)

theorem BookAgrees.react (candle : Candle) (h : BookAgrees db (pre ++ p :: post)) :
    BookAgrees (recordEvents db (p.react candle).1)
      (pre ++ (p.react candle).2.toList ++ post) := by
  unfold PaperPosition.react
  split
  · simpa [recordEvents] using h.close (e := p.exitEvent p.stopLoss candle.timestamp .stopLoss)
      rfl trivial
  · exact h.reactTargets

/-- **A candle with its events**: the book after the reactions agrees with the recorded rows. -/
theorem BookAgrees.reactions (candle : Candle) (h : BookAgrees db (pre ++ book ++ post)) :
    BookAgrees (recordEvents db (PaperTrader.reactions candle book))
      (pre ++ PaperTrader.after candle book ++ post) := by
  induction book generalizing pre db with
  | nil => simpa [PaperTrader.reactions, PaperTrader.after, recordEvents] using h
  | cons p rest ih =>
    have hp : BookAgrees db (pre ++ p :: (rest ++ post)) := by simpa using h
    have hp := hp.react candle
    rw [← List.append_assoc] at hp
    have hrest := ih hp
    have hevents : PaperTrader.reactions candle (p :: rest) =
        (p.react candle).1 ++ PaperTrader.reactions candle rest := by
      simp [PaperTrader.reactions]
    rw [hevents, recordEvents_append, PaperTrader.after_cons, ← List.append_assoc pre]
    exact hrest

/-! ## Inserting a position -/

/-- **A new position with its row**, under an id that no row has. -/
theorem BookAgrees.insert (h : BookAgrees db book) (symbol : String) (source : TradeSource)
    (hfree : db.trade? p.tradeId = none) (hrem : p.remainingQuantity = p.quantity) :
    BookAgrees
      { trades := db.trades ++ [paperTrade p symbol source]
        executions := db.executions ++ [entryExecution p] } (book ++ [p]) := by
  have hnew : ∀ row ∈ db.trades, row.tradeId ≠ p.tradeId := lookup_eq_none_iff.1 hfree
  have hclosed : ∀ id, closedQuantity
      { trades := db.trades ++ [paperTrade p symbol source]
        executions := db.executions ++ [entryExecution p] } id = closedQuantity db id := by
    intro id
    have hentry : (entryExecution p).executionType = .entry := rfl
    rw [closedQuantity, exits_append_entry hentry, closedQuantity]
  have hnone : closedQuantity db p.tradeId = 0 := by
    have hexits : db.exits p.tradeId = [] := by
      rw [Tables.exits, List.filter_eq_nil_iff]
      intro x hx hxid
      obtain ⟨row, hrow, hid⟩ := List.mem_map.1 (h.foreign x hx)
      simp only [decide_eq_true_eq] at hxid
      exact hnew row hrow (hid.trans hxid.1)
    simp [closedQuantity, hexits]
  have hmatch : ∀ {q : PaperPosition} {row : Trade}, RowOf db q row → RowOf
      { trades := db.trades ++ [paperTrade p symbol source]
        executions := db.executions ++ [entryExecution p] } q row :=
    fun hq => ⟨hq.tradeId, hq.side, (hclosed _).symm ▸ hq.remaining⟩
  have hmatch_new : RowOf
      { trades := db.trades ++ [paperTrade p symbol source]
        executions := db.executions ++ [entryExecution p] } p (paperTrade p symbol source) :=
    ⟨rfl, rfl, by
      rw [hclosed]
      change p.quantity - closedQuantity db p.tradeId = _
      rw [hnone, hrem, sub_zero]⟩
  refine ⟨h.unique.append_singleton hnew, ?_, ?_, ?_, ?_⟩
  · intro x hx
    rw [List.map_append, List.mem_append]
    rcases List.mem_append.1 hx with hx | hx
    · exact Or.inl (h.foreign x hx)
    · rw [List.mem_singleton.1 hx]
      exact Or.inr (by simp [entryExecution, paperTrade])
  · refine h.book_unique.append_singleton fun q hq hqid => ?_
    obtain ⟨row, hrow, -, hq⟩ := h.row_of_position q hq
    exact hnew row hrow (hq.tradeId.trans hqid)
  · intro q hq
    rcases List.mem_append.1 hq with hq | hq
    · obtain ⟨row, hrow, hopen, hqrow⟩ := h.row_of_position q hq
      exact ⟨row, List.mem_append_left _ hrow, hopen, hmatch hqrow⟩
    · obtain rfl := List.mem_singleton.1 hq
      exact ⟨_, List.mem_append_right _ (by simp), ⟨rfl, Or.inl rfl⟩, hmatch_new⟩
  · intro row hrow hopen
    rcases List.mem_append.1 hrow with hrow | hrow
    · obtain ⟨q, hq, hqrow⟩ := h.position_of_row row hrow hopen
      exact ⟨q, List.mem_append_left _ hq, hmatch hqrow⟩
    · rw [List.mem_singleton.1 hrow]
      exact ⟨p, by simp, hmatch_new⟩

end AlphaOne.Paper

import AlphaOne.Foundations.Interleaving
import AlphaOne.Journal.Lifecycle

/-!
# Concurrent exits

`record_exit` reads the trade, reads its closed quantity, checks and commits, and holds no lock
between these four statements. Its calls come from the API and from the exchange sync, each on a
session of its own, and any other call may read or commit between two statements of one call. An
`ExitCall` is a call with the local variables it has filled so far, and `ExitCall.move` its next
statement; `exitCall_alone` is the atomic `recordExit` that a call without rivals performs.

A commit writes back the columns the call has changed, computed from the row it loaded
(`writeBack`). The tables stay accounted for exactly if at every commit the quantity still
fits and the loaded P&L is still that of the row (`exits_accounted_iff`).
-/

namespace AlphaOne.Journal

open Foundations

/-! ## The statements of a call -/

/-- How far a call of `record_exit` has come. -/
inductive ExitStage
  /-- About to select the trade. -/
  | start
  /-- The trade may be exited; about to select its closed quantity. -/
  | loaded (trade : Trade)
  /-- The quantity is not more than what remains; about to commit. -/
  | checked (trade : Trade) (alreadyClosed : ℚ)
  /-- About to refresh the trade it has changed. -/
  | committed (trade : Trade)
  | ended (result : Except Failure Trade)
  deriving DecidableEq, Repr

structure ExitCall where
  args : RecordExitArgs
  stage : ExitStage := .start
  deriving DecidableEq, Repr

/-- The trade is selected and looked at. -/
def selectTrade (args : RecordExitArgs) (db : Tables) : ExitStage :=
  match db.trade? args.tradeId with
  | none => .ended (.error (.tradeJournalError (.noTrade args.tradeId)))
  | some trade =>
    if trade.status = .closed ∨ trade.status = .cancelled then
      .ended (.error (.tradeJournalError (.alreadyFinal args.tradeId trade.status)))
    else if args.exitPrice ≤ 0 ∨ args.quantity ≤ 0 then
      .ended (.error (.tradeJournalError .exitNotPositive))
    else .loaded trade

/-- The closed quantity is selected and the exit is checked against what remains of the trade. -/
def selectClosed (args : RecordExitArgs) (trade : Trade) (db : Tables) : ExitStage :=
  let alreadyClosed := closedQuantity db args.tradeId
  let remaining := trade.quantity - alreadyClosed
  if args.quantity > remaining + tolerance then
    .ended (.error (.tradeJournalError (.exceedsRemaining args.tradeId args.quantity remaining)))
  else .checked trade alreadyClosed

/-- The test of a full close, on the values the call has read. -/
def closesFully (args : RecordExitArgs) (trade : Trade) (alreadyClosed : ℚ) : Bool :=
  args.quantity ≥ trade.quantity - alreadyClosed - tolerance

/-- The execution a call inserts. -/
def executionOf (args : RecordExitArgs) (trade : Trade) (alreadyClosed : ℚ) : TradeExecution :=
  { tradeId := args.tradeId
    executionType := if closesFully args trade alreadyClosed then .exit else .partialExit
    price := args.exitPrice
    quantity := args.quantity
    timestamp := args.timestamp
    note := args.note.map .text }

/-- The trade as a call has changed it, before the commit. -/
def exitedOf (args : RecordExitArgs) (trade : Trade) (alreadyClosed : ℚ) : Trade :=
  withExit trade args alreadyClosed (closesFully args trade alreadyClosed)

/-- A flushed `UPDATE`: `row` with the columns in which `changed` differs from `loaded`, of those
that `record_exit` assigns. -/
def writeBack (loaded changed row : Trade) : Trade :=
  { row with
    exitPrice := if changed.exitPrice = loaded.exitPrice then row.exitPrice else changed.exitPrice
    pnl := if changed.pnl = loaded.pnl then row.pnl else changed.pnl
    fees := if changed.fees = loaded.fees then row.fees else changed.fees
    pnlPct := if changed.pnlPct = loaded.pnlPct then row.pnlPct else changed.pnlPct
    status := if changed.status = loaded.status then row.status else changed.status
    exitTime := if changed.exitTime = loaded.exitTime then row.exitTime else changed.exitTime
    exitReason :=
      if changed.exitReason = loaded.exitReason then row.exitReason else changed.exitReason
    rMultiple := if changed.rMultiple = loaded.rMultiple then row.rMultiple else changed.rMultiple }

/-- The commit: the execution is inserted and the row of the trade is updated. -/
def commitExit (args : RecordExitArgs) (trade : Trade) (alreadyClosed : ℚ) (db : Tables) : Tables :=
  { trades := db.trades.map fun row =>
      if row.tradeId = args.tradeId then
        writeBack trade (exitedOf args trade alreadyClosed) row
      else row
    executions := db.executions ++ [executionOf args trade alreadyClosed] }

/-- The next statement of a call. -/
def ExitCall.move (call : ExitCall) (db : Tables) : Tables × ExitCall :=
  match call.stage with
  | .start => (db, { call with stage := selectTrade call.args db })
  | .loaded trade => (db, { call with stage := selectClosed call.args trade db })
  | .checked trade alreadyClosed =>
    (commitExit call.args trade alreadyClosed db,
      { call with stage := .committed (exitedOf call.args trade alreadyClosed) })
  | .committed trade =>
    (db, { call with stage := .ended (.ok ((db.trade? call.args.tradeId).getD trade)) })
  | .ended _ => (db, call)

/-- The calls of a list of arguments, none of them begun. -/
def exitCalls (args : List RecordExitArgs) : List ExitCall := args.map fun a => { args := a }

/-! ## A call without rivals -/

@[simp] theorem closesFully_closedQuantity (args : RecordExitArgs) (db : Tables) (t : Trade) :
    closesFully args t (closedQuantity db args.tradeId) = isFullClose args db t := rfl

/-- A column that is written only when it has changed has the new value. -/
theorem ite_changed {α : Type} [DecidableEq α] (new old : α) :
    (if new = old then old else new) = new := by
  split
  · rename_i h
    exact h.symm
  · rfl

/-- A row that nobody has touched since it was loaded is written as the call has changed it. -/
theorem writeBack_self (args : RecordExitArgs) (t : Trade) (closed : ℚ) :
    writeBack t (exitedOf args t closed) t = exitedOf args t closed := by
  simp only [writeBack, ite_changed]
  cases h : closesFully args t closed <;> simp [exitedOf, withExit, h]

/-- The commit of a call on an untouched row saves the row that `recordExit` returns. -/
theorem commitExit_of_row {args : RecordExitArgs} {db : Tables} {t : Trade}
    (hu : UniqueKey Trade.tradeId db.trades) (hrow : db.trade? args.tradeId = some t) :
    commitExit args t (closedQuantity db args.tradeId) db =
      { trades := save Trade.tradeId (exitedTrade args db t) db.trades
        executions := db.executions ++ [exitExecution args db t] } := by
  have hid : t.tradeId = args.tradeId := key_of_lookup hrow
  have hrows : ∀ row ∈ db.trades,
      (if row.tradeId = args.tradeId then
        writeBack t (exitedOf args t (closedQuantity db args.tradeId)) row else row) =
      if row.tradeId = (exitedTrade args db t).tradeId then exitedTrade args db t else row := by
    intro row hmem
    rw [exitedTrade, withExit_tradeId, hid]
    by_cases h : row.tradeId = args.tradeId
    · obtain rfl := hu.eq_of_key hmem (mem_of_lookup hrow) (h.trans hid.symm)
      rw [if_pos h, if_pos h, writeBack_self]
      rfl
    · rw [if_neg h, if_neg h]
  simp only [commitExit, save, List.map_congr_left hrows]
  rfl

/-- The two queries of a call that nobody interrupts: one of them ends in the error that
`recordExit` raises, or the exit is accepted. -/
theorem recordExit_queries (args : RecordExitArgs) (db : Tables) :
    (∃ e, recordExit args db = (.error (.tradeJournalError e), db) ∧
      (selectTrade args db = .ended (.error (.tradeJournalError e)) ∨
        ∃ t, selectTrade args db = .loaded t ∧
          selectClosed args t db = .ended (.error (.tradeJournalError e)))) ∨
    ∃ t, ExitAccepted args db t ∧ selectTrade args db = .loaded t ∧
      selectClosed args t db = .checked t (closedQuantity db args.tradeId) := by
  cases hrow : db.trade? args.tradeId with
  | none => exact Or.inl ⟨.noTrade args.tradeId, by simp [recordExit, hrow, selectTrade]⟩
  | some t =>
    by_cases hfinal : t.status = .closed ∨ t.status = .cancelled
    · exact Or.inl ⟨.alreadyFinal args.tradeId t.status, by
        simp [recordExit, hrow, selectTrade, hfinal]⟩
    by_cases hpos : args.exitPrice ≤ 0 ∨ args.quantity ≤ 0
    · exact Or.inl ⟨.exitNotPositive, by simp [recordExit, hrow, selectTrade, hfinal, hpos]⟩
    have hselect : selectTrade args db = .loaded t := by simp [selectTrade, hrow, hfinal, hpos]
    by_cases hle : args.quantity > t.quantity - closedQuantity db args.tradeId + tolerance
    · refine Or.inl ⟨.exceedsRemaining args.tradeId args.quantity
        (t.quantity - closedQuantity db args.tradeId), ?_, Or.inr ⟨t, hselect, ?_⟩⟩
      · simp only [recordExit, hrow, if_neg hfinal, if_neg hpos, if_pos hle]
      · simp only [selectClosed, if_pos hle]
    · refine Or.inr ⟨t, ?_, hselect, by simp only [selectClosed, if_neg hle]⟩
      push Not at hfinal hpos hle
      exact ⟨hrow, hfinal.1, hfinal.2, hpos.1, hpos.2, hle⟩

/-- An accepted exit, committed on the tables it has read and refreshed. -/
theorem commitExit_of_accepted {args : RecordExitArgs} {db : Tables} {t : Trade}
    (hu : UniqueKey Trade.tradeId db.trades) (hacc : ExitAccepted args db t) :
    commitExit args t (closedQuantity db args.tradeId) db = (recordExit args db).2 ∧
      (recordExit args db).2.trade? args.tradeId = some (exitedTrade args db t) := by
  have hid : (exitedTrade args db t).tradeId = args.tradeId := by
    rw [exitedTrade, withExit_tradeId, hacc.tradeId]
  have hrow := hacc.row
  rw [recordExit_of_accepted hacc]
  refine ⟨commitExit_of_row hu hrow, ?_⟩
  rw [← hid] at hrow ⊢
  exact lookup_save hrow

/-- **A call that nobody interrupts is `recordExit`.** -/
theorem exitCall_alone (args : RecordExitArgs) {db : Tables}
    (hu : UniqueKey Trade.tradeId db.trades) :
    alone ExitCall.move { args } db 4 =
      ((recordExit args db).2, { args, stage := .ended (recordExit args db).1 }) := by
  rcases recordExit_queries args db with ⟨e, hexit, hselect | ⟨t, hselect, hclosed⟩⟩ |
    ⟨t, hacc, hselect, hclosed⟩
  · simp [alone, ExitCall.move, hselect, hexit]
  · simp [alone, ExitCall.move, hselect, hclosed, hexit]
  · obtain ⟨hcommit, hrefresh⟩ := commitExit_of_accepted hu hacc
    simp only [alone, ExitCall.move, hselect, hclosed, hcommit, hrefresh, Option.getD_some]
    rw [recordExit_of_accepted hacc]

/-! ## The account of a trade -/

/-- The P&L of the committed exits of a trade. -/
def bookedPnl (db : Tables) (t : Trade) : ℚ :=
  ((db.exits t.tradeId).map fun e =>
    (computeSlicePnl t.side t.entryPrice e.price e.quantity t.leverage).pnl).sum

/-- The exits of every trade are within its quantity, and its P&L is theirs. -/
structure Tables.Accounted (db : Tables) : Prop where
  /-- The unique index. -/
  unique : UniqueKey Trade.tradeId db.trades
  closed_le : ∀ t ∈ db.trades, closedQuantity db t.tradeId ≤ t.quantity + tolerance
  pnl : ∀ t ∈ db.trades, t.pnl = bookedPnl db t

/-- Two rows of one trade that agree in the columns an exit reads and never writes. -/
structure SameTerms (t u : Trade) : Prop where
  side : t.side = u.side
  entryPrice : t.entryPrice = u.entryPrice
  quantity : t.quantity = u.quantity
  leverage : t.leverage = u.leverage

/-- The P&L of the exit a call books on a trade. -/
def slicePnlOf (args : RecordExitArgs) (t : Trade) : ℚ :=
  (computeSlicePnl t.side t.entryPrice args.exitPrice args.quantity t.leverage).pnl

/-- **What a commit needs**: with the exits committed by now the quantity still fits into the trade,
and the P&L of the row is still the loaded one, unless the call adds nothing to it. -/
structure CommitFits (args : RecordExitArgs) (loaded : Trade) (db : Tables) : Prop where
  quantity : closedQuantity db args.tradeId + args.quantity ≤ loaded.quantity + tolerance
  pnl : slicePnlOf args loaded = 0 ∨ (db.trade? args.tradeId).map Trade.pnl = some loaded.pnl

instance (args : RecordExitArgs) (loaded : Trade) (db : Tables) :
    Decidable (CommitFits args loaded db) :=
  decidable_of_iff (closedQuantity db args.tradeId + args.quantity ≤ loaded.quantity + tolerance ∧
      (slicePnlOf args loaded = 0 ∨ (db.trade? args.tradeId).map Trade.pnl = some loaded.pnl))
    ⟨fun h => ⟨h.1, h.2⟩, fun h => ⟨h.quantity, h.pnl⟩⟩

section Commit

variable {args : RecordExitArgs} {loaded row : Trade} {closed : ℚ} {db : Tables}

variable (args loaded closed) in
theorem executionOf_isExit : (executionOf args loaded closed).isExit = true := by
  simp only [executionOf, TradeExecution.isExit]
  cases closesFully args loaded closed <;> rfl

variable (args loaded closed db) in
theorem exits_commitExit (tradeId : String) : (commitExit args loaded closed db).exits tradeId =
    db.exits tradeId ++
      if args.tradeId = tradeId then [executionOf args loaded closed] else [] :=
  exits_append_exit db _ (executionOf_isExit args loaded closed) tradeId

variable (args loaded closed db) in
theorem closedQuantity_commitExit (tradeId : String) :
    closedQuantity (commitExit args loaded closed db) tradeId =
      closedQuantity db tradeId + if args.tradeId = tradeId then args.quantity else 0 := by
  rw [closedQuantity, exits_commitExit]
  split <;> simp [closedQuantity, executionOf]

variable (args loaded closed db) in
/-- The P&L of the exits depends on a row through its terms only. -/
theorem bookedPnl_commitExit {t u : Trade} (hid : t.tradeId = u.tradeId) (h : SameTerms t u) :
    bookedPnl (commitExit args loaded closed db) t =
      bookedPnl db u + if args.tradeId = u.tradeId then slicePnlOf args u else 0 := by
  rw [bookedPnl, exits_commitExit, hid, h.side, h.entryPrice, h.leverage]
  split <;> simp [bookedPnl, executionOf, slicePnlOf]

variable (args loaded closed) in
theorem exitedOf_pnl : (exitedOf args loaded closed).pnl = loaded.pnl + slicePnlOf args loaded := by
  rw [exitedOf]
  cases closesFully args loaded closed <;> rfl

variable (closed) in
/-- The row has the P&L of its exits after a commit exactly if the call has computed with the P&L of
the row, or adds nothing to it. -/
theorem writeBack_pnl_iff : (writeBack loaded (exitedOf args loaded closed) row).pnl =
    row.pnl + slicePnlOf args loaded ↔ slicePnlOf args loaded = 0 ∨ row.pnl = loaded.pnl := by
  have hpnl : (writeBack loaded (exitedOf args loaded closed) row).pnl =
      if slicePnlOf args loaded = 0 then row.pnl else loaded.pnl + slicePnlOf args loaded := by
    simp only [writeBack, exitedOf_pnl, add_eq_left]
  rw [hpnl]
  by_cases h : slicePnlOf args loaded = 0
  · simp [h]
  · simp only [h, if_false, false_or, add_left_inj]
    exact eq_comm

variable (args loaded closed) in
/-- What a commit makes of the rows. -/
def updateRow (t : Trade) : Trade :=
  if t.tradeId = args.tradeId then writeBack loaded (exitedOf args loaded closed) t else t

theorem updateRow_tradeId (t : Trade) : (updateRow args loaded closed t).tradeId = t.tradeId := by
  unfold updateRow
  split <;> rfl

variable (args loaded closed) in
theorem updateRow_terms (t : Trade) : SameTerms (updateRow args loaded closed t) t := by
  unfold updateRow
  split <;> exact ⟨rfl, rfl, rfl, rfl⟩

variable (args loaded closed db) in
theorem trade?_commitExit (tradeId : String) : (commitExit args loaded closed db).trade? tradeId =
    (db.trade? tradeId).map (updateRow args loaded closed) :=
  lookup_map updateRow_tradeId

variable (loaded closed) in
/-- A commit leaves the account of the other trades. -/
theorem account_commitExit_of_ne {t : Trade} (hne : t.tradeId ≠ args.tradeId) :
    closedQuantity (commitExit args loaded closed db) t.tradeId = closedQuantity db t.tradeId ∧
      bookedPnl (commitExit args loaded closed db) t = bookedPnl db t := by
  have hsame : SameTerms t t := ⟨rfl, rfl, rfl, rfl⟩
  rw [closedQuantity_commitExit, bookedPnl_commitExit args loaded closed db rfl hsame,
    if_neg hne.symm, if_neg hne.symm, add_zero, add_zero]
  exact ⟨rfl, rfl⟩

variable (closed) in
/-- What a commit makes of the account of its trade. -/
theorem account_commitExit (h : db.Accounted) (hrow : db.trade? args.tradeId = some row)
    (hterms : SameTerms loaded row) :
    let row' := writeBack loaded (exitedOf args loaded closed) row
    closedQuantity (commitExit args loaded closed db) row'.tradeId =
        closedQuantity db args.tradeId + args.quantity ∧
      bookedPnl (commitExit args loaded closed db) row' = row.pnl + slicePnlOf args loaded := by
  intro row'
  have hid : row.tradeId = args.tradeId := key_of_lookup hrow
  have hslice : slicePnlOf args loaded = slicePnlOf args row := by
    simp only [slicePnlOf, hterms.side, hterms.entryPrice, hterms.leverage]
  refine ⟨?_, ?_⟩
  · have hid' : row'.tradeId = args.tradeId := hid
    rw [hid', closedQuantity_commitExit, if_pos rfl]
  · have hterms' : SameTerms row' row := ⟨rfl, rfl, rfl, rfl⟩
    rw [bookedPnl_commitExit (t := row') (u := row) args loaded closed db rfl hterms',
      if_pos hid.symm, ← h.pnl row (mem_of_lookup hrow), hslice]

/-- **One commit**: accounted tables stay so exactly if the commit fits. -/
theorem accounted_commitExit_iff (h : db.Accounted) (hrow : db.trade? args.tradeId = some row)
    (hterms : SameTerms loaded row) :
    (commitExit args loaded closed db).Accounted ↔ CommitFits args loaded db := by
  have hid : row.tradeId = args.tradeId := key_of_lookup hrow
  have hmem : row ∈ db.trades := mem_of_lookup hrow
  obtain ⟨hclosed, hbooked⟩ := account_commitExit closed h hrow hterms
  set row' := writeBack loaded (exitedOf args loaded closed) row with hrow'
  constructor
  · intro h'
    have hmem' : row' ∈ (commitExit args loaded closed db).trades :=
      List.mem_map.2 ⟨row, hmem, by rw [if_pos hid]⟩
    have hle := h'.closed_le row' hmem'
    have hpnl := h'.pnl row' hmem'
    rw [hclosed] at hle
    rw [hbooked, writeBack_pnl_iff closed] at hpnl
    refine ⟨?_, ?_⟩
    · rw [hterms.quantity]
      exact hle
    · rw [hrow]
      simpa using hpnl
  · rintro ⟨hle, hpnl⟩
    rw [hrow, Option.map_some, Option.some.injEq, ← writeBack_pnl_iff closed] at hpnl
    refine ⟨h.unique.map updateRow_tradeId, ?_, ?_⟩
    · intro t ht
      obtain ⟨u, hu, rfl⟩ := List.mem_map.1 ht
      by_cases hne : u.tradeId = args.tradeId
      · obtain rfl := h.unique.eq_of_key hu hmem (hne.trans hid.symm)
        rw [if_pos hne, hclosed]
        rw [hterms.quantity] at hle
        exact hle
      · rw [if_neg hne, (account_commitExit_of_ne loaded closed hne).1]
        exact h.closed_le u hu
    · intro t ht
      obtain ⟨u, hu, rfl⟩ := List.mem_map.1 ht
      by_cases hne : u.tradeId = args.tradeId
      · obtain rfl := h.unique.eq_of_key hu hmem (hne.trans hid.symm)
        rw [if_pos hne, hbooked]
        exact hpnl
      · rw [if_neg hne, (account_commitExit_of_ne loaded closed hne).2]
        exact h.pnl u hu

end Commit

/-! ## Any number of calls -/

/-- What a call knows of the row it has loaded: another call may have changed it since, but not its
terms. -/
def ExitCall.Knows (db : Tables) (call : ExitCall) : Prop :=
  match call.stage with
  | .loaded trade | .checked trade _ =>
    ∃ row, db.trade? call.args.tradeId = some row ∧ SameTerms trade row
  | .start | .committed _ | .ended _ => True

/-- The condition on the next statement of a call: if it is the commit, the commit fits. -/
def ExitCall.Fits (db : Tables) (call : ExitCall) : Prop :=
  match call.stage with
  | .checked trade _ => CommitFits call.args trade db
  | .start | .loaded _ | .committed _ | .ended _ => True

instance (db : Tables) (call : ExitCall) : Decidable (call.Fits db) :=
  match h : call.stage with
  | .checked trade _ =>
    decidable_of_iff (CommitFits call.args trade db) (by simp [ExitCall.Fits, h])
  | .start | .loaded _ | .committed _ | .ended _ => isTrue (by simp [ExitCall.Fits, h])

/-- A call that has not committed leaves the tables. -/
theorem ExitCall.move_store {call : ExitCall} {db : Tables}
    (h : ∀ t q, call.stage ≠ .checked t q) : (call.move db).1 = db := by
  unfold ExitCall.move
  cases hs : call.stage with
  | checked t q => exact absurd hs (h t q)
  | start | loaded t | committed t | ended r => rfl

theorem ExitCall.Knows.commitExit {call : ExitCall} {db : Tables} (h : call.Knows db)
    (args : RecordExitArgs) (loaded : Trade) (closed : ℚ) :
    call.Knows (commitExit args loaded closed db) := by
  unfold ExitCall.Knows at *
  cases hs : call.stage with
  | start | committed t | ended r => trivial
  | loaded t | checked t q =>
    rw [hs] at h
    obtain ⟨row, hrow, hterms⟩ := h
    have hrow' := trade?_commitExit args loaded closed db call.args.tradeId
    rw [hrow, Option.map_some] at hrow'
    have hu := updateRow_terms args loaded closed row
    exact ⟨_, hrow', hterms.side.trans hu.side.symm, hterms.entryPrice.trans hu.entryPrice.symm,
      hterms.quantity.trans hu.quantity.symm, hterms.leverage.trans hu.leverage.symm⟩

/-- **One statement**: if its commits fit, a call keeps the tables accounted for, and what every
call knows of its row. -/
theorem exitCalls_stable : Stable ExitCall.move Tables.Accounted (fun db call => call.Knows db)
    (fun _ _ => True) (fun db call => call.Fits db) where
  symm := by simp
  store db call h hknows hfits := by
    by_cases hs : ∃ t q, call.stage = .checked t q
    · obtain ⟨t, q, hs⟩ := hs
      simp only [ExitCall.Knows, ExitCall.Fits, hs] at hknows hfits
      obtain ⟨row, hrow, hterms⟩ := hknows
      have hmove : (call.move db).1 = commitExit call.args t q db := by
        simp only [ExitCall.move, hs]
      rw [hmove]
      exact (accounted_commitExit_iff h hrow hterms).2 hfits
    · push Not at hs
      rwa [ExitCall.move_store hs]
  own db call h hknows _ := by
    unfold ExitCall.move
    cases hs : call.stage with
    | start =>
      simp only [selectTrade]
      split
      · trivial
      · rename_i t hrow
        split
        · trivial
        · split
          · trivial
          · exact ⟨t, hrow, rfl, rfl, rfl, rfl⟩
    | loaded t =>
      simp only [ExitCall.Knows, hs] at hknows
      simp only [selectClosed]
      split
      · trivial
      · exact hknows
    | checked t q => trivial
    | committed t => trivial
    | ended r => simp only [ExitCall.Knows, hs]
  others db call other _ _ _ hother _ := by
    refine ⟨?_, trivial⟩
    by_cases hs : ∃ t q, call.stage = .checked t q
    · obtain ⟨t, q, hs⟩ := hs
      have hmove : (call.move db).1 = commitExit call.args t q db := by
        simp only [ExitCall.move, hs]
      rw [hmove]
      exact hother.commitExit call.args t q
    · push Not at hs
      rwa [ExitCall.move_store hs]

/-- **No over-exit under concurrency**, exactly: in any interleaving of any number of calls of
`record_exit`, on one trade or on several, the committed exits of every trade stay within its
quantity and its P&L stays theirs if and only if at every commit the quantity still fits and the
loaded P&L is still that of the row. -/
theorem exits_accounted_iff {db : Tables} (h : db.Accounted) (args : List RecordExitArgs)
    (schedule : List ℕ) :
    Always (Pool.step ExitCall.move) (fun c => c.store.Accounted) ⟨db, exitCalls args⟩ schedule ↔
      Guarded (Pool.step ExitCall.move) (Pool.Meets fun db call => call.Fits db)
        ⟨db, exitCalls args⟩ schedule := by
  apply exitCalls_stable.always_iff
  · exact fun c hc => hc.store
  · intro c l₁ call l₂ hc hprocs hafter
    have hknows := hc.procs call (by simp [hprocs])
    unfold ExitCall.Fits
    cases hs : call.stage with
    | start | loaded t | committed t | ended r => trivial
    | checked t q =>
      simp only [ExitCall.Knows, hs] at hknows
      obtain ⟨row, hrow, hterms⟩ := hknows
      have hmove : (call.move c.store).1 = commitExit call.args t q c.store := by
        simp only [ExitCall.move, hs]
      rw [hmove] at hafter
      exact (accounted_commitExit_iff hc.store hrow hterms).1 hafter
  · refine ⟨h, ?_, List.pairwise_of_forall (by simp)⟩
    intro call hcall
    obtain ⟨a, -, rfl⟩ := List.mem_map.1 hcall
    trivial

/-- One trade, without exits. -/
def oneTrade : Tables :=
  { trades := [{ tradeId := "MANUAL-1", symbol := "BTC/USDT", side := .long, entryPrice := 100,
                 quantity := 1, entryTime := 0 }] }

/-- A full exit of the trade at a price. -/
def fullExit (exitPrice : ℚ) : RecordExitArgs :=
  { tradeId := "MANUAL-1", exitPrice, quantity := 1, timestamp := 60 }

theorem oneTrade_accounted : oneTrade.Accounted where
  unique := List.nodup_singleton _
  closed_le := by decide +kernel
  pnl := by decide +kernel

/-- Two exits, one after the other: the second is refused. -/
theorem exits_accounted_iff_in_turn :
    Always (Pool.step ExitCall.move) (fun c => c.store.Accounted)
      ⟨oneTrade, exitCalls [fullExit 110, fullExit 90]⟩ [0, 0, 0, 0, 1, 1] :=
  (exits_accounted_iff oneTrade_accounted [fullExit 110, fullExit 90] [0, 0, 0, 0, 1, 1]).2
    (by decide +kernel)

/-- Two exits that both read before either commits: the trade is closed twice. -/
theorem overlapping_exits_close_twice :
    oneTrade.Accounted ∧ ¬ Always (Pool.step ExitCall.move) (fun c => c.store.Accounted)
      ⟨oneTrade, exitCalls [fullExit 110, fullExit 90]⟩ [0, 0, 1, 1, 0, 1] := by
  refine ⟨oneTrade_accounted, fun h => ?_⟩
  have hle := h.last.closed_le
  revert hle
  decide +kernel

end AlphaOne.Journal

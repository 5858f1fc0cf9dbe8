import AlphaOne.Journal.Lifecycle
import AlphaOne.PositionMonitor.Monitor

/-!
# The preview in an exit alert

An alert shows the P&L of the trade if it was exited at the current price. `_make_alert` computes
it for the quantity the trade was opened with, `record_exit` books the slice that is closed. Both
slices are multiples of the P&L of one unit (`computeSlicePnl_eq_unitPnl_mul`), so that the preview
of a partially closed trade is right only where a unit earns nothing.

* `Booked`: the consistent tables of the journal, in which every trade has a quantity.
* `bookedChange_eq`: what closing the remaining quantity adds to the P&L of a trade.
* `preview_eq_booked_iff`: when the alert of an open trade shows that amount, in every state the
  journal reaches.
-/

namespace AlphaOne.PositionMonitor

open Foundations Journal

/-- A call on the journal, the link of a trade to its signal included. -/
inductive JournalOp
  | call (call : Call)
  | setSignalMatch (tradeId signalId : String) (confidence : Option ℚ)
  deriving DecidableEq, Repr

/-- The tables after a call, whether it returned or raised. -/
def journalStep (db : Tables) : JournalOp → Tables
  | .call call => Journal.step db call
  | .setSignalMatch tradeId signalId confidence =>
    (setSignalMatch tradeId signalId confidence db).2

/-- The exit of all that remains of a trade at a price. -/
def exitRemaining (db : Tables) (t : Trade) (price : ℚ) (timestamp : Datetime)
    (reason note : Option String) : RecordExitArgs :=
  { tradeId := t.tradeId
    exitPrice := price
    quantity := remaining db t
    timestamp, reason, note }

/-- The amount by which an exit changes the P&L of its trade, or the error it raises. -/
def bookedChange (db : Tables) (t : Trade) (args : RecordExitArgs) : Except Failure ℚ :=
  (recordExit args db).1.map fun exited => exited.pnl - t.pnl

/-- The P&L of closing one unit of a trade. -/
def unitPnl (t : Trade) (price : ℚ) : ℚ :=
  (computeSlicePnl t.side t.entryPrice price 1 t.leverage).pnl

/-! ## The tables of the journal -/

/-- The tables are consistent, and nothing is a trade without a quantity. -/
structure Booked (db : Tables) : Prop where
  consistent : db.Consistent
  quantity_pos : ∀ t ∈ db.trades, 0 < t.quantity

theorem quantity_pos_of_effect {db db' : Tables} (h : Effect db db')
    (hpos : ∀ t ∈ db.trades, 0 < t.quantity) : ∀ t ∈ db'.trades, 0 < t.quantity := by
  cases h with
  | opened t e _ ht _ _ =>
    intro r hr
    rcases List.mem_append.1 hr with hr | hr
    · exact hpos r hr
    · obtain rfl := List.mem_singleton.1 hr
      exact ht.quantity_pos
  | exited args t h =>
    intro r hr
    rcases mem_save.1 hr with ⟨hr, -⟩ | ⟨rfl, -⟩
    · exact hpos r hr
    · rw [exitedTrade, withExit_quantity]
      exact hpos t (mem_of_lookup h.row)
  | cancelled t hrow _ reason time =>
    intro r hr
    rcases mem_save.1 hr with ⟨hr, -⟩ | ⟨rfl, -⟩
    · exact hpos r hr
    · exact hpos t (mem_of_lookup hrow)

theorem Booked.call {db : Tables} (h : Booked db) (call : Call) :
    Booked (Journal.step db call) := by
  refine ⟨consistent_step db call h.consistent, ?_⟩
  rcases perform_cases call db with ⟨f, herror⟩ | ⟨t, -, heffect⟩
  · rw [Journal.step, herror]
    exact h.quantity_pos
  · exact quantity_pos_of_effect heffect h.quantity_pos

theorem Booked.setSignalMatch {db : Tables} (h : Booked db) (tradeId signalId : String)
    (confidence : Option ℚ) : Booked (setSignalMatch tradeId signalId confidence db).2 := by
  unfold Journal.setSignalMatch
  cases hrow : db.trade? tradeId with
  | none => exact h
  | some t =>
    have htrade : t ∈ db.trades := mem_of_lookup hrow
    -- the link is none of the entries the ledger of a trade is about
    have hledger := h.consistent.ledger t htrade
    refine ⟨⟨h.consistent.unique.save, ?_, ?_⟩, ?_⟩
    · intro e he
      obtain ⟨r, hr, hre⟩ := h.consistent.foreign e he
      have hmem := List.mem_map_of_mem (f := Trade.tradeId) hr
      rw [hre, ← map_key_save (r := { t with
        signalId := some signalId, matchedSignalConfidence := confidence })] at hmem
      exact List.mem_map.1 hmem
    · exact ledger_save (t := t) h.consistent rfl rfl (fun _ _ => rfl)
        ⟨hledger.exits_pos, hledger.closed_le, hledger.status, hledger.exitPrice, hledger.pnl⟩
    · intro r hr
      rcases mem_save.1 hr with ⟨hr, -⟩ | ⟨rfl, -⟩
      · exact h.quantity_pos r hr
      · exact h.quantity_pos t htrade

theorem Booked.step {db : Tables} (h : Booked db) (op : JournalOp) :
    Booked (journalStep db op) := by
  cases op with
  | call call => exact h.call call
  | setSignalMatch tradeId signalId confidence => exact h.setSignalMatch tradeId signalId confidence

/-! ## The two slices -/

variable {db : Tables} {t : Trade} {price : ℚ} {alert : ExitAlert}

/-- The P&L of a slice is its quantity times that of a unit. -/
theorem computeSlicePnl_eq_unitPnl_mul (t : Trade) (price quantity : ℚ) :
    (computeSlicePnl t.side t.entryPrice price quantity t.leverage).pnl =
      unitPnl t price * quantity := by
  unfold unitPnl
  cases t.side <;> simp only [computeSlicePnl] <;> ring

theorem pnl_checkTrade (h : checkTrade t price = some alert) :
    alert.pnl = unitPnl t price * t.quantity := by
  rw [← computeSlicePnl_eq_unitPnl_mul]
  unfold checkTrade at h
  dsimp only at h
  split at h
  · obtain rfl := Option.some.inj h
    rfl
  · obtain rfl := Option.some.inj h
    rfl
  · cases h

theorem pnl_exitedTrade (args : RecordExitArgs) (db : Tables) (t : Trade) :
    (exitedTrade args db t).pnl - t.pnl = unitPnl t args.exitPrice * args.quantity := by
  have hbooked : (exitedTrade args db t).pnl = t.pnl +
      (computeSlicePnl t.side t.entryPrice args.exitPrice args.quantity t.leverage).pnl := by
    unfold exitedTrade
    cases isFullClose args db t <;> rfl
  rw [hbooked, computeSlicePnl_eq_unitPnl_mul]
  ring

/-- What remains of a trade that the journal counts as open. -/
theorem remaining_pos (h : Booked db) (ht : t ∈ getOpenTrades db none) : 0 < remaining db t := by
  obtain ⟨htrade, hopen⟩ := List.mem_filter.1 ht
  simp only [true_or, and_true, decide_eq_true_eq] at hopen
  have hstatus := (h.consistent.ledger t htrade).status
  rcases hopen with hs | hs <;> rw [hs] at hstatus
  · have hnone : db.exits t.tradeId = [] := not_not.1 hstatus
    simpa [remaining, closedQuantity, hnone] using h.quantity_pos t htrade
  · exact tolerance_pos.trans hstatus.2

/-- The journal has closed nothing of an open trade, and something of one partially closed. -/
theorem closedQuantity_eq_zero_iff (h : Booked db) (ht : t ∈ getOpenTrades db none) :
    closedQuantity db t.tradeId = 0 ↔ t.status = .open_ := by
  obtain ⟨htrade, hopen⟩ := List.mem_filter.1 ht
  simp only [true_or, and_true, decide_eq_true_eq] at hopen
  have hledger := h.consistent.ledger t htrade
  have hstatus := hledger.status
  rcases hopen with hs | hs <;> rw [hs] at hstatus
  · have hnone : db.exits t.tradeId = [] := not_not.1 hstatus
    simp [closedQuantity, hnone, hs]
  · have hslices : db.slices t.tradeId ≠ [] := by simpa [Tables.slices] using hstatus.1
    have hpos : 0 < closedQuantity db t.tradeId := by
      rw [closedQuantity_eq_total]
      exact List.sum_pos _ (by simpa using hledger.exits_pos) (by simpa using hslices)
    simp [hs, hpos.ne']

/-- Closing what remains books its multiple of a unit, or is refused for its price. -/
theorem bookedChange_eq (h : Booked db) (ht : t ∈ getOpenTrades db none) (timestamp : Datetime)
    (reason note : Option String) :
    bookedChange db t (exitRemaining db t price timestamp reason note) =
      if price ≤ 0 then .error (.tradeJournalError .exitNotPositive)
      else .ok (unitPnl t price * remaining db t) := by
  set args := exitRemaining db t price timestamp reason note with hargs
  obtain ⟨htrade, hopen⟩ := List.mem_filter.1 ht
  simp only [true_or, and_true, decide_eq_true_eq] at hopen
  have hrow : db.trade? args.tradeId = some t :=
    (lookup_eq_some_iff h.consistent.unique).2 ⟨htrade, rfl⟩
  have hfinal : ¬(t.status = .closed ∨ t.status = .cancelled) := by
    rcases hopen with hs | hs <;> simp [hs]
  have hprice : args.exitPrice = price := rfl
  by_cases hpos : price ≤ 0
  · simp only [bookedChange, recordExit, hrow, if_neg hfinal, hprice, hpos, true_or, if_true]
    rfl
  · have haccepted : ExitAccepted args db t :=
      { row := hrow
        not_closed := fun hs => hfinal (Or.inl hs)
        not_cancelled := fun hs => hfinal (Or.inr hs)
        price_pos := not_le.1 hpos
        quantity_pos := remaining_pos h ht
        quantity_le := (le_add_of_nonneg_right tolerance_pos.le :) }
    rw [bookedChange, recordExit_of_accepted haccepted, if_neg hpos]
    exact congrArg Except.ok (pnl_exitedTrade args db t)

/-- **When the preview is the exit.** In every state the journal reaches, the alert of an open or
partially closed trade shows the amount by which closing what remains at that price changes the P&L
of the trade if and only if the price is one at which an exit is booked at all, and nothing of the
trade has been exited or a unit earns nothing at the price. -/
theorem preview_eq_booked_iff (ops : List JournalOp) :
    Always journalStep (fun db => ∀ t ∈ getOpenTrades db none, ∀ price, ∀ alert,
      checkTrade t price = some alert → ∀ timestamp reason note,
        (bookedChange db t (exitRemaining db t price timestamp reason note) = .ok alert.pnl ↔
          0 < price ∧ (t.status = .open_ ∨ unitPnl t price = 0))) {} ops := by
  have hempty : Booked {} := ⟨consistent_empty, by simp⟩
  refine (Always.of_step (fun _ op h => h.step op) hempty ops).mono ?_
  intro db h t ht price alert halert timestamp reason note
  rw [bookedChange_eq h ht, pnl_checkTrade halert, ← closedQuantity_eq_zero_iff h ht]
  split
  · rename_i hprice
    simp [not_lt.2 hprice]
  · rename_i hprice
    have hsplit : unitPnl t price * remaining db t = unitPnl t price * t.quantity ↔
        closedQuantity db t.tradeId = 0 ∨ unitPnl t price = 0 := by
      rw [mul_eq_mul_left_iff, remaining, sub_eq_self]
    simpa [not_le.1 hprice] using hsplit

/-! ## A trade half of which is exited -/

/-- Two units are bought at 100 with the stop at 90, and one is sold at 105. -/
def halfExited : List JournalOp :=
  [.call (.openTrade
      { symbol := "BTC/USDT", side := "LONG", entryPrice := 100, quantity := 2, entryTime := 0
        stopLoss := some 90 } "A1B2C3D4E5"),
    .call (.recordExit
      { tradeId := "MANUAL-A1B2C3D4E5", exitPrice := 105, quantity := 1, timestamp := 1 })]

/-- **The alert shows twice the loss**: at 90 the unit that is left loses 10.076, and the alert says
20.152. -/
theorem preview_of_half_exited :
    ((getOpenTrades (run journalStep {} halfExited) none).map fun t =>
      ((checkTrade t 90).map ExitAlert.pnl, bookedChange (run journalStep {} halfExited) t
        (exitRemaining (run journalStep {} halfExited) t 90 2 none none))) =
      [(some (-20152 / 1000), .ok (-10076 / 1000))] ∧
    ¬∀ ops, Always journalStep (fun db => ∀ t ∈ getOpenTrades db none, ∀ price, 0 < price →
      ∀ alert, checkTrade t price = some alert → ∀ timestamp reason note,
        bookedChange db t (exitRemaining db t price timestamp reason note) = .ok alert.pnl)
      {} ops := by
  refine ⟨by decide +kernel, fun h => ?_⟩
  have hlast : ∀ t ∈ getOpenTrades (run journalStep {} halfExited) none,
      ∀ alert ∈ checkTrade t 90, bookedChange (run journalStep {} halfExited) t
        (exitRemaining (run journalStep {} halfExited) t 90 2 none none) = .ok alert.pnl :=
    fun t ht alert halert => (h halfExited).last t ht 90 (by norm_num) alert halert 2 none none
  revert hlast
  decide +kernel

end AlphaOne.PositionMonitor

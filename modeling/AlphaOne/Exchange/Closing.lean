import AlphaOne.Exchange.SyncEffects
import AlphaOne.Foundations.Run
import Mathlib.Data.List.Perm.Subperm

/-!
# Closing fills, sync after sync

A trade whose position has disappeared is closed by the syncs that follow, from the fills of its
symbol that the exchange shows by then. Every sync reads the whole window again, and nothing is
remembered of the fills that were booked before.

`Monitored` is the database with a record of the past that the code does not keep: the history
that was last read for each trade, and the fills of every exit that was recorded. `ExactlyOnce`
is what the fills of one trade should come to, and `BooksOnce` the condition under which a sync
gets there: `closing_fills_booked_once_iff` is the exact law over all runs.
-/

namespace AlphaOne.Exchange

open Foundations Journal

/-- The fills an exit was recorded for. -/
structure Booking where
  tradeId : String
  fills : List Fill
  deriving DecidableEq, Repr

/-- The database and the record of its past. -/
structure Monitored where
  db : SyncTables
  /-- The history that was last read for a trade. -/
  visible : String → List Fill := fun _ => []
  bookings : List Booking := []

namespace Monitored

/-- The trades a sync reads the history of. -/
def asked (w : Monitored) (call : SyncCall) : List Trade := call.closes w.db

def step (w : Monitored) (call : SyncCall) : Monitored :=
  match syncPositions call w.db with
  | (.error _, db) => { w with db }
  | (.ok closed, db) =>
    { db
      visible := fun id => match lookup Trade.tradeId id (w.asked call) with
        | some t => call.historyOf t
        | none => w.visible id
      bookings := w.bookings ++ closed.map fun t => ⟨t.tradeId, call.closing t⟩ }

end Monitored

/-- The closing fills of a trade that were executed after its entry. -/
def laterFills (t : Trade) (fills : List Fill) : List Fill :=
  (closingFills t fills).filter fun f => t.entryTime < f.timestamp

/-- The volume-weighted average price of fills. -/
def averagePrice (fills : List Fill) : ℚ := Slice.vwap (fills.map Fill.slice)

namespace Monitored

/-- The fills of a trade that are visible so far are booked exactly once. -/
structure ExactlyOnce (t : Trade) (w : Monitored) : Prop where
  /-- The recorded exits come to the later closing fills, up to the quantity of the trade. -/
  quantity : closedQuantity w.db.tables t.tradeId =
    min t.quantity (totalQuantity (laterFills t (w.visible t.tradeId)))
  /-- No fill contributes to two exits of the trade. -/
  own : (w.bookings.filter fun b => b.tradeId = t.tradeId).Pairwise
    fun b b' => List.Disjoint b.fills b'.fills
  /-- No fill contributes to an exit of the trade and to one of another trade. -/
  others : ∀ b ∈ w.bookings, b.tradeId = t.tradeId → ∀ b' ∈ w.bookings, b'.tradeId ≠ t.tradeId →
    List.Disjoint b.fills b'.fills
  /-- Fills that cover the quantity have closed the trade, at their average price. -/
  closed : t.quantity ≤ totalQuantity (laterFills t (w.visible t.tradeId)) →
    ∃ row, w.db.tables.trade? t.tradeId = some row ∧ row.status = .closed ∧
      row.exitPrice = some (averagePrice (laterFills t (w.visible t.tradeId)))

/-- The exits that a sync records, with their fills. -/
def booked (w : Monitored) (call : SyncCall) : List Booking :=
  ((w.asked call).filter (Books call w.db.tables)).map fun t => ⟨t.tradeId, call.closing t⟩

/-- A sync that books the fills of the trade once. -/
structure BooksOnce (t : Trade) (w : Monitored) (call : SyncCall) : Prop where
  /-- While no exit is recorded, no closing fill from before the entry is shown, or the later
  ones cover the quantity and the earlier ones do not change their average. -/
  first : ∀ r ∈ w.asked call, r.tradeId = t.tradeId → w.db.tables.exits t.tradeId = [] →
    laterFills t (call.historyOf r) = call.closing r ∨
      t.quantity ≤ totalQuantity (laterFills t (call.historyOf r)) ∧
        averagePrice (call.closing r) = averagePrice (laterFills t (call.historyOf r))
  /-- After a partial exit no further closing fill is shown, and the visible ones come to more
  than what remains, so that they are not booked again. -/
  again : ∀ r ∈ w.asked call, r.tradeId = t.tradeId → w.db.tables.exits t.tradeId ≠ [] →
    totalQuantity (laterFills t (call.historyOf r)) =
        totalQuantity (laterFills t (w.visible t.tradeId)) ∧
      t.quantity - closedQuantity w.db.tables t.tradeId + tolerance <
        min (totalQuantity (call.closing r)) t.quantity
  /-- No fill that is booked for the trade is booked for another one. -/
  apart : ∀ b ∈ w.bookings ++ w.booked call, b.tradeId = t.tradeId →
    ∀ b' ∈ w.bookings ++ w.booked call, b'.tradeId ≠ t.tradeId → List.Disjoint b.fills b'.fills

/-- A sync after the position of the trade has disappeared, to which the exchange answers with a
growing list of real fills. -/
structure Admissible (t : Trade) (w : Monitored) (call : SyncCall) : Prop where
  absent : ∀ pos ∈ getOpenPositions call.positions,
    t.exchangePositionId ≠ some pos.exchangePositionId
  real : ∀ symbol fromDate toDate, ∀ f ∈ getTradeHistory call.trades symbol fromDate toDate,
    f.IsReal
  growing : ∀ r ∈ w.asked call, r.tradeId = t.tradeId →
    (w.visible t.tradeId).Subperm (call.historyOf r)

/-- The position of an open synced trade has disappeared, and nothing has been booked for it. -/
structure Disappeared (t : Trade) (w : Monitored) : Prop where
  unique : UniqueKey Trade.tradeId w.db.tables.trades
  row : t ∈ w.db.tables.trades
  tracked : IsTracked w.db t
  quantity_pos : 0 < t.quantity
  /-- No other tracked trade has its position. -/
  alone : ∀ r ∈ w.db.tables.trades, IsTracked w.db r →
    r.exchangePositionId = t.exchangePositionId → r.tradeId = t.tradeId
  exits : w.db.tables.exits t.tradeId = []
  visible : w.visible t.tradeId = []
  bookings : ∀ b ∈ w.bookings, b.tradeId ≠ t.tradeId

/-! ## One trade through a sync -/

/-- What the syncs never change about a trade. -/
structure SameTrade (t r : Trade) : Prop where
  tradeId : r.tradeId = t.tradeId
  accountId : r.accountId = t.accountId
  source : r.source = t.source
  symbol : r.symbol = t.symbol
  side : r.side = t.side
  quantity : r.quantity = t.quantity
  entryTime : r.entryTime = t.entryTime
  exchangePositionId : r.exchangePositionId = t.exchangePositionId
  lastSyncedAt : r.lastSyncedAt = t.lastSyncedAt

variable {t r r' : Trade} {w : Monitored} {call : SyncCall} {db : Tables}

theorem SameTrade.refl (t : Trade) : SameTrade t t := ⟨rfl, rfl, rfl, rfl, rfl, rfl, rfl, rfl, rfl⟩

theorem sameTrade_exitedRow : SameTrade r (exitedRow call db r) := by
  unfold exitedRow exitedTrade
  cases isFullClose (call.exitArgs r) db r <;>
    exact ⟨rfl, rfl, rfl, rfl, rfl, rfl, rfl, rfl, rfl⟩

theorem SameTrade.historyOf (h : SameTrade t r) : call.historyOf r = call.historyOf t := by
  simp only [SyncCall.historyOf, h.lastSyncedAt, h.entryTime, h.symbol, h.tradeId]

theorem SameTrade.closing (h : SameTrade t r) : call.closing r = call.closing t := by
  simp only [SyncCall.closing, closingFills, h.historyOf, h.side]

/-- What every sync does, as far as the trade `t` is concerned. -/
structure Stepped (t : Trade) (w : Monitored) (call : SyncCall) : Prop where
  unique : UniqueKey Trade.tradeId (w.step call).db.tables.trades
  account : (w.step call).db.account.id = w.db.account.id
  bookings : (w.step call).bookings = w.bookings ++ w.booked call
  alone : ∀ r ∈ (w.step call).db.tables.trades, IsTracked (w.step call).db r →
    r.exchangePositionId = t.exchangePositionId → r.tradeId = t.tradeId

/-- What a sync does to the row `r` of the trade `t`. -/
inductive Turn (t r : Trade) (w : Monitored) (call : SyncCall) : Prop
  /-- It is not looked at. -/
  | quiet (hnot : ∀ r' ∈ w.asked call, r'.tradeId ≠ t.tradeId)
      (same : Same t.tradeId w.db.tables (w.step call).db.tables)
      (visible : (w.step call).visible t.tradeId = w.visible t.tradeId)
  /-- Its history is read, and no exit is recorded. -/
  | refused (hasked : r ∈ w.asked call) (hbooks : ¬Books call w.db.tables r)
      (same : Same t.tradeId w.db.tables (w.step call).db.tables)
      (visible : (w.step call).visible t.tradeId = call.historyOf t)
  /-- Its history is read, and an exit is recorded. -/
  | booked (hasked : r ∈ w.asked call) (hbooks : Books call w.db.tables r)
      (row : (w.step call).db.tables.trade? t.tradeId = some (exitedRow call w.db.tables r))
      (exits : (w.step call).db.tables.exits t.tradeId =
        w.db.tables.exits t.tradeId ++ [exitRow call w.db.tables r])
      (visible : (w.step call).visible t.tradeId = call.historyOf t)

theorem Admissible.absent_live (h : Admissible t w call) :
    ∀ pos ∈ liveById call, t.exchangePositionId ≠ some pos.exchangePositionId :=
  fun pos hpos => h.absent pos (mem_of_mem_dictOf hpos)

theorem mem_asked (h : r ∈ w.asked call) : r ∈ disappeared call (existingOpen w.db) :=
  mem_closes h

/-- A trade whose history is read is a row of the tables that is not final. -/
theorem row_of_mem_asked (hu : UniqueKey Trade.tradeId w.db.tables.trades)
    (h : r ∈ w.asked call) : w.db.tables.trade? r.tradeId = some r ∧ IsTracked w.db r := by
  obtain ⟨hmem, htracked⟩ := mem_existingOpen (mem_disappeared.1 (mem_asked h)).1
  exact ⟨(lookup_eq_some_iff hu).2 ⟨hmem, rfl⟩, htracked⟩

/-- A sync whose first loop came through and that has raised nothing. -/
structure Ran (w : Monitored) (call : SyncCall) : Prop where
  asked : w.asked call = disappeared call (existingOpen w.db)
  synced : Synced call w.db (w.step call).db
  bookings : (w.step call).bookings = w.bookings ++ w.booked call
  visible : ∀ id, (w.step call).visible id =
    match lookup Trade.tradeId id (w.asked call) with
    | some t => call.historyOf t
    | none => w.visible id

theorem ran_of_result (hu : UniqueKey Trade.tradeId w.db.tables.trades)
    (hasked : w.asked call = disappeared call (existingOpen w.db))
    (hresult : (syncPositions call w.db).1 = .ok (((disappeared call
      (existingOpen w.db)).filter (Books call w.db.tables)).map (exitedRow call w.db.tables))) :
    Ran w call := by
  have hsynced : Synced call w.db (syncPositions call w.db).2 := syncPositions_synced hu
  obtain ⟨db', hsync⟩ : ∃ db', syncPositions call w.db = (.ok (((disappeared call
      (existingOpen w.db)).filter (Books call w.db.tables)).map
        (exitedRow call w.db.tables)), db') := ⟨_, Prod.ext hresult rfl⟩
  rw [hsync] at hsynced
  have hbookings : (w.step call).bookings = w.bookings ++
      (((w.asked call).filter (Books call w.db.tables)).map
        (exitedRow call w.db.tables)).map fun t => ⟨t.tradeId, call.closing t⟩ := by
    simp only [step, hsync, hasked]
  refine ⟨hasked, ?_, ?_, fun id => ?_⟩
  · simpa only [step, hsync] using hsynced
  · rw [hbookings, booked, List.map_map]
    refine congrArg _ (List.map_congr_left fun r' _ => ?_)
    simp only [Function.comp_apply, sameTrade_exitedRow.tradeId, sameTrade_exitedRow.closing]
  · simp only [step, hsync]

section

variable (hu : UniqueKey Trade.tradeId w.db.tables.trades)
  (halone : ∀ r ∈ w.db.tables.trades, IsTracked w.db r →
    r.exchangePositionId = t.exchangePositionId → r.tradeId = t.tradeId)
  (ha : Admissible t w call)

include halone ha in
/-- A sync adds no tracked trade with the position of `t`. -/
theorem Ran.alone (h : Ran w call) : ∀ r ∈ (w.step call).db.tables.trades,
    IsTracked (w.step call).db r → r.exchangePositionId = t.exchangePositionId →
      r.tradeId = t.tradeId := by
  intro r' hr' htracked hid
  have hold : ∀ o : Trade, IsTracked (w.step call).db o → IsTracked w.db o := by
    intro o ho
    rw [IsTracked, h.synced.account] at ho
    exact ho
  rcases h.synced.rows r' hr' with hr' | ⟨pos, hpos, hrp⟩ | ⟨o, ho, rfl⟩
  · exact halone r' hr' (hold r' htracked) hid
  · exact absurd (hid.symm.trans hrp) (ha.absent_live pos hpos)
  · obtain ⟨ho, hotracked⟩ := mem_existingOpen (mem_disappeared.1 (mem_closes ho)).1
    rw [sameTrade_exitedRow.tradeId]
    exact halone o ho hotracked (sameTrade_exitedRow.exchangePositionId.symm.trans hid)

include hu halone ha in
/-- The history of a tracked trade whose position is gone is read. -/
theorem Ran.mem_asked (h : Ran w call) (hmem : r ∈ w.db.tables.trades) (hsame : SameTrade t r)
    (htracked : IsTracked w.db r) : r ∈ w.asked call := by
  have hmem' : r ∈ existingOpen w.db := by
    refine mem_dictOf (List.mem_filter.2 ⟨hmem, by simpa using htracked⟩) ?_
    intro o ho hid
    obtain ⟨ho, hotracked⟩ := List.mem_filter.1 ho
    refine hu.eq_of_key ho hmem ?_
    rw [halone o ho (by simpa using hotracked) (hid.trans hsame.exchangePositionId),
      hsame.tradeId]
  rw [h.asked]
  refine mem_disappeared.2 ⟨hmem', fun pos hpos => ?_⟩
  rw [hsame.exchangePositionId]
  exact ha.absent_live pos hpos

include hu in
/-- The only row that a sync looks at under the id of a row is that row. -/
theorem eq_of_mem_existingOpen (hmem : r ∈ w.db.tables.trades) (hsame : SameTrade t r) :
    ∀ o ∈ existingOpen w.db, o.tradeId = t.tradeId → o = r := fun _ ho hid =>
  hu.eq_of_key (mem_existingOpen ho).1 hmem (hid.trans hsame.tradeId.symm)

include hu halone ha in
theorem Ran.turn_of_isTracked (h : Ran w call) (hrow : w.db.tables.trade? t.tradeId = some r)
    (hsame : SameTrade t r) (htracked : IsTracked w.db r) : Turn t r w call := by
  have hmem := mem_of_lookup hrow
  have hasked : r ∈ w.asked call := h.mem_asked hu halone ha hmem hsame htracked
  have hfound : lookup Trade.tradeId t.tradeId (w.asked call) = some r := by
    have hnodup : UniqueKey Trade.tradeId (w.asked call) := by
      rw [h.asked]
      exact (nodup_existingOpen hu).sublist (List.filter_sublist.map Trade.tradeId)
    exact (lookup_eq_some_iff hnodup).2 ⟨hasked, hsame.tradeId⟩
  have hvisible : (w.step call).visible t.tradeId = call.historyOf t := by
    rw [h.visible, hfound]
    exact hsame.historyOf
  by_cases hbooks : Books call w.db.tables r
  · obtain ⟨hrow', hexits⟩ := h.synced.booked r hasked hbooks
    rw [hsame.tradeId] at hrow' hexits
    exact .booked hasked hbooks hrow' hexits hvisible
  · have honly := eq_of_mem_existingOpen hu hmem hsame
    refine .refused hasked hbooks ?_ hvisible
    refine h.synced.same t.tradeId (by simp [hrow]) (fun o ho hid => ?_) fun o ho hid => ?_
    · rw [honly o ho hid]
      exact Monitored.mem_asked hasked
    · rwa [honly o (mem_disappeared.1 (mem_closes ho)).1 hid]

include hu in
theorem Ran.turn_of_not_isTracked (h : Ran w call) (hrow : w.db.tables.trade? t.tradeId = some r)
    (hsame : SameTrade t r) (htracked : ¬IsTracked w.db r) : Turn t r w call := by
  have hnot : ∀ o ∈ existingOpen w.db, o.tradeId ≠ t.tradeId := by
    intro o ho hid
    rw [eq_of_mem_existingOpen hu (mem_of_lookup hrow) hsame o ho hid] at ho
    exact htracked (mem_existingOpen ho).2
  have hnot' : ∀ o ∈ w.asked call, o.tradeId ≠ t.tradeId := fun o ho =>
    hnot o (mem_disappeared.1 (Monitored.mem_asked ho)).1
  refine .quiet hnot' ?_ ?_
  · exact h.synced.same t.tradeId (by simp [hrow]) (fun o ho hid => absurd hid (hnot o ho))
      fun o ho hid => absurd hid (hnot' o ho)
  · rw [h.visible, lookup_eq_none_iff.2 hnot']

include hu halone ha in
/-- **A sync takes one turn of three with a trade.** -/
theorem stepped (hrow : w.db.tables.trade? t.tradeId = some r) (hsame : SameTrade t r) :
    Stepped t w call ∧ Turn t r w call := by
  have hraises : ∀ r, ¬Raises call r := fun r => not_raises_of_real fun f hf =>
    ha.real _ _ _ f (mem_closingFills.1 hf).1
  rcases syncPositions_cases call hu fun r _ => hraises r with
    ⟨e, hlive, hsync⟩ | ⟨s, hlive, hasked, hresult⟩
  · -- nothing has been committed
    have hstep : w.step call = w := by simp only [step, hsync]
    have hasked : w.asked call = [] := by simp only [asked, SyncCall.closes, hlive]
    refine ⟨⟨by rwa [hstep], by rw [hstep], ?_, by rwa [hstep]⟩, ?_⟩
    · simp [hstep, booked, hasked]
    · exact .quiet (by simp [hasked]) (by rw [hstep]; exact Same.refl _ _) (by rw [hstep])
  · have hran : Ran w call := ran_of_result hu hasked hresult
    refine ⟨⟨hran.synced.unique, hran.synced.account, hran.bookings, hran.alone halone ha⟩, ?_⟩
    by_cases htracked : IsTracked w.db r
    · exact hran.turn_of_isTracked hu halone ha hrow hsame htracked
    · exact hran.turn_of_not_isTracked hu hrow hsame htracked

end

/-! ## Later fills -/

theorem laterFills_nil {fills : List Fill} (h : closingFills t fills = []) :
    laterFills t fills = [] := by
  rw [laterFills, h, List.filter_nil]

theorem totalQuantity_filter (p : Fill → Bool) (fills : List Fill) :
    totalQuantity fills =
      totalQuantity (fills.filter p) + totalQuantity (fills.filter fun f => !p f) := by
  induction fills with
  | nil => simp [totalQuantity]
  | cons f fills ih =>
    have hcons : ∀ l, totalQuantity (f :: l) = f.quantity + totalQuantity l := by
      simp [totalQuantity]
    cases hp : p f
    · rw [List.filter_cons_of_neg (by simp [hp]), List.filter_cons_of_pos (by simp [hp]), hcons,
        hcons, ih]
      ring
    · rw [List.filter_cons_of_pos hp, List.filter_cons_of_neg (by simp [hp]), hcons, hcons, ih]
      ring

theorem totalQuantity_nonneg {fills : List Fill} (hreal : ∀ f ∈ fills, f.IsReal) :
    0 ≤ totalQuantity fills := by
  cases fills with
  | nil => simp [totalQuantity]
  | cons f fills => exact (totalQuantity_pos hreal (by simp)).le

/-- Later fills that come to as much as all closing fills are all of them. -/
theorem laterFills_eq {fills : List Fill} (hreal : ∀ f ∈ closingFills t fills, f.IsReal)
    (h : totalQuantity (closingFills t fills) ≤ totalQuantity (laterFills t fills)) :
    laterFills t fills = closingFills t fills := by
  have hsplit := totalQuantity_filter (fun f => t.entryTime < f.timestamp) (closingFills t fills)
  rw [laterFills] at h ⊢
  have hearlier : (closingFills t fills).filter (fun f => !decide (t.entryTime < f.timestamp)) =
      [] := by
    by_contra hne
    have := totalQuantity_pos (fun f hf => hreal f (List.mem_of_mem_filter hf)) hne
    linarith
  refine List.filter_eq_self.2 fun f hf => ?_
  have := List.filter_eq_nil_iff.1 hearlier f hf
  simpa using this

theorem totalQuantity_laterFills_le {fills : List Fill}
    (hreal : ∀ f ∈ closingFills t fills, f.IsReal) :
    totalQuantity (laterFills t fills) ≤ totalQuantity (closingFills t fills) := by
  have hsplit := totalQuantity_filter (fun f => t.entryTime < f.timestamp) (closingFills t fills)
  have hrest : 0 ≤ totalQuantity ((closingFills t fills).filter
      fun f => !decide (t.entryTime < f.timestamp)) :=
    totalQuantity_nonneg fun f hf => hreal f (List.mem_of_mem_filter hf)
  rw [laterFills]
  linarith

/-! ## The first exit of a trade -/

/-- What the first exit of a trade leaves of it. -/
theorem exitedRow_first (hbooks : Books call db r)
    (hexits : db.exits r.tradeId = []) :
    (exitedRow call db r).exitPrice = some (averagePrice (call.closing r)) ∧
      (exitedRow call db r).status = if r.quantity - tolerance ≤
        min (totalQuantity (call.closing r)) r.quantity then .closed else .partiallyClosed := by
  have hclosed : closedQuantity db r.tradeId = 0 := by simp [closedQuantity, hexits]
  have hargs : (call.exitArgs r).quantity =
      min (totalQuantity (call.closing r)) r.quantity := rfl
  have hquantity : 0 < min (totalQuantity (call.closing r)) r.quantity := hbooks.quantity_pos
  have hprice : (call.exitArgs r).exitPrice = averagePrice (call.closing r) := by
    rw [averagePrice, Slice.vwap, ← notional_eq, ← totalQuantity_eq_total]
    rfl
  have hid : (call.exitArgs r).tradeId = r.tradeId := rfl
  constructor
  · rw [exitedRow, exitedTrade, withExit_exitPrice, hid, hclosed, hprice, hargs, mul_zero,
      zero_add, zero_add, mul_div_cancel_right₀ _ hquantity.ne']
  · rw [exitedRow, exitedTrade, withExit_status, isFullClose, hid, hclosed, hargs, sub_zero]
    simp

/-! ## One sync -/

/-- Nothing has been booked for the trade. -/
structure Unbooked (t : Trade) (w : Monitored) : Prop where
  row : w.db.tables.trade? t.tradeId = some t
  open_ : t.status = .open_ ∨ t.status = .partiallyClosed
  exits : w.db.tables.exits t.tradeId = []
  visible : closingFills t (w.visible t.tradeId) = []
  bookings : ∀ b ∈ w.bookings, b.tradeId ≠ t.tradeId

/-- The fills of `b` have been booked for the trade, whose row is `r` since. -/
structure BookedOnce (t r : Trade) (b : Booking) (w : Monitored) : Prop where
  row : w.db.tables.trade? t.tradeId = some r
  same : SameTrade t r
  exits : w.db.tables.exits t.tradeId ≠ []
  mem : b ∈ w.bookings
  tradeId : b.tradeId = t.tradeId
  fills : b.fills ≠ []
  shown : b.fills ⊆ closingFills t (w.visible t.tradeId)
  status : r.status = .closed ∨ r.status = .partiallyClosed ∧
    closedQuantity w.db.tables t.tradeId + tolerance < t.quantity

/-- What the runs keep whose syncs book once. -/
structure Settled (t : Trade) (w : Monitored) : Prop where
  unique : UniqueKey Trade.tradeId w.db.tables.trades
  alone : ∀ r ∈ w.db.tables.trades, IsTracked w.db r →
    r.exchangePositionId = t.exchangePositionId → r.tradeId = t.tradeId
  quantity_pos : 0 < t.quantity
  once : ExactlyOnce t w
  state : Unbooked t w ∨ ∃ r b, BookedOnce t r b w

theorem Settled.row (h : Settled t w) :
    ∃ r, w.db.tables.trade? t.tradeId = some r ∧ SameTrade t r := by
  rcases h.state with h | ⟨r, b, h⟩
  · exact ⟨t, h.row, SameTrade.refl t⟩
  · exact ⟨r, h.row, h.same⟩

/-- The first closing fills of a trade are booked. -/
theorem Unbooked.books (h : Unbooked t w) (hpos : 0 < t.quantity)
    (hreal : ∀ f ∈ call.closing t, f.IsReal) (hne : call.closing t ≠ []) :
    Books call w.db.tables t := by
  have hclosed : closedQuantity w.db.tables t.tradeId = 0 := by simp [closedQuantity, h.exits]
  refine Books.of_real hreal hne hpos ((min_le_right _ _).trans ?_)
  have := tolerance_pos
  linarith

/-- A trade that has no exit yet does not lack a row of its own in the exits of others. -/
theorem Unbooked.filter_bookings (h : Unbooked t w) :
    w.bookings.filter (fun b => b.tradeId = t.tradeId) = [] :=
  List.filter_eq_nil_iff.2 fun b hb => by simpa using h.bookings b hb

/-- The exits of the trade among those a sync records. -/
theorem filter_booked (hr : r.tradeId = t.tradeId)
    (hu : UniqueKey Trade.tradeId w.db.tables.trades) (hasked : r ∈ w.asked call) :
    (w.booked call).filter (fun b => b.tradeId = t.tradeId) =
      if Books call w.db.tables r then [⟨t.tradeId, call.closing r⟩] else [] := by
  have hkey : UniqueKey Trade.tradeId (w.asked call) := by
    unfold asked
    exact (nodup_existingOpen hu).sublist ((closes_sublist _ _).map Trade.tradeId)
  have hothers := hkey.filter_key hasked
  rw [hr] at hothers
  rw [booked, List.filter_map, List.filter_filter]
  have hswap : (w.asked call).filter (fun o =>
      decide ((⟨o.tradeId, call.closing o⟩ : Booking).tradeId = t.tradeId) &&
        decide (Books call w.db.tables o)) = ((w.asked call).filter
          fun o => o.tradeId = t.tradeId).filter (Books call w.db.tables) := by
    rw [List.filter_filter]
    exact List.filter_congr fun o _ => Bool.and_comm _ _
  simp only [Function.comp_def]
  rw [hswap, hothers]
  by_cases hb : Books call w.db.tables r
  · simp [hb, hr]
  · simp [hb]

/-- The exits of the trade among those a sync records that does not read its history. -/
theorem filter_booked_quiet (hnot : ∀ r ∈ w.asked call, r.tradeId ≠ t.tradeId) :
    (w.booked call).filter (fun b => b.tradeId = t.tradeId) = [] := by
  refine List.filter_eq_nil_iff.2 fun b hb => ?_
  obtain ⟨r, hr, rfl⟩ := List.mem_map.1 hb
  simpa using hnot r (List.mem_of_mem_filter hr)

theorem closedQuantity_first {db' : Tables} (h : db.exits t.tradeId = [])
    (h' : db'.exits t.tradeId = db.exits t.tradeId ++ [exitRow call db r]) :
    closedQuantity db' t.tradeId = min (totalQuantity (call.closing r)) r.quantity := by
  rw [closedQuantity, h', h]
  simp [exitRow, exitExecution, SyncCall.exitArgs, exitArgs]

theorem Admissible.real_closing (ha : Admissible t w call) : ∀ f ∈ call.closing r, f.IsReal :=
  fun f hf => ha.real _ _ _ f (mem_closingFills.1 hf).1

/-- A row of the trade whose history is read is not closed. -/
theorem BookedOnce.partially {b : Booking} (h : BookedOnce t r b w)
    (hu : UniqueKey Trade.tradeId w.db.tables.trades) (hasked : r ∈ w.asked call) :
    closedQuantity w.db.tables t.tradeId + tolerance < t.quantity := by
  have hopen := (row_of_mem_asked hu hasked).2.2.2
  rcases h.status with hclosed | ⟨-, hlt⟩
  · simp [hclosed] at hopen
  · exact hlt

section Turns

variable {b : Booking}

/-- A sync that records no exit for the trade leaves one that is not booked so. -/
theorem Unbooked.kept (h : Unbooked t w) (hs : Stepped t w call)
    (same : Same t.tradeId w.db.tables (w.step call).db.tables)
    (hfilter : (w.booked call).filter (fun b => b.tradeId = t.tradeId) = [])
    (hvisible : closingFills t ((w.step call).visible t.tradeId) = []) :
    Unbooked t (w.step call) := by
  refine ⟨same.row.trans h.row, h.open_, same.exits.trans h.exits, hvisible, ?_⟩
  rw [hs.bookings]
  intro b hb hid
  rcases List.mem_append.1 hb with hb | hb
  · exact h.bookings b hb hid
  · have hmem : b ∈ (w.booked call).filter fun b => b.tradeId = t.tradeId :=
      List.mem_filter.2 ⟨hb, by simpa using hid⟩
    rw [hfilter] at hmem
    cases hmem

/-- A sync that records no exit for the trade leaves one that is booked so. -/
theorem BookedOnce.kept (h : BookedOnce t r b w) (hs : Stepped t w call)
    (same : Same t.tradeId w.db.tables (w.step call).db.tables)
    (hgrow : closingFills t (w.visible t.tradeId) ⊆
      closingFills t ((w.step call).visible t.tradeId)) : BookedOnce t r b (w.step call) := by
  refine ⟨same.row.trans h.row, h.same, ?_, ?_, h.tradeId, h.fills,
    fun f hf => hgrow (h.shown hf), ?_⟩
  · rw [same.exits]
    exact h.exits
  · rw [hs.bookings]
    exact List.mem_append_left _ h.mem
  · rw [same.closedQuantity_eq]
    exact h.status

/-- A sync that records no exit for the trade keeps the law, if the law holds of what it shows. -/
theorem Settled.kept (h : Settled t w) (hs : Stepped t w call) (hc : BooksOnce t w call)
    (same : Same t.tradeId w.db.tables (w.step call).db.tables)
    (hfilter : (w.booked call).filter (fun b => b.tradeId = t.tradeId) = [])
    (hquantity : closedQuantity w.db.tables t.tradeId =
      min t.quantity (totalQuantity (laterFills t ((w.step call).visible t.tradeId))))
    (hclosed : t.quantity ≤ totalQuantity (laterFills t ((w.step call).visible t.tradeId)) →
      ∃ r, (w.step call).db.tables.trade? t.tradeId = some r ∧ r.status = .closed ∧
        r.exitPrice = some (averagePrice (laterFills t ((w.step call).visible t.tradeId))))
    (hstate : Unbooked t (w.step call) ∨ ∃ r b, BookedOnce t r b (w.step call)) :
    Settled t (w.step call) := by
  refine ⟨hs.unique, hs.alone, h.quantity_pos, ⟨?_, ?_, ?_, hclosed⟩, hstate⟩
  · rw [same.closedQuantity_eq]
    exact hquantity
  · rw [hs.bookings, List.filter_append, hfilter, List.append_nil]
    exact h.once.own
  · rw [hs.bookings]
    exact hc.apart

/-- A sync that does not look at the trade keeps the law. -/
theorem Settled.quiet (h : Settled t w) (hs : Stepped t w call) (hc : BooksOnce t w call)
    (hnot : ∀ r' ∈ w.asked call, r'.tradeId ≠ t.tradeId)
    (same : Same t.tradeId w.db.tables (w.step call).db.tables)
    (visible : (w.step call).visible t.tradeId = w.visible t.tradeId) :
    Settled t (w.step call) := by
  have hfilter := filter_booked_quiet hnot
  refine h.kept hs hc same hfilter ?_ ?_ ?_
  · rw [visible]
    exact h.once.quantity
  · rw [visible, same.row]
    exact h.once.closed
  · rcases h.state with hun | ⟨r, b, hbooked⟩
    · refine .inl (hun.kept hs same hfilter ?_)
      rw [visible]
      exact hun.visible
    · refine .inr ⟨r, b, hbooked.kept hs same ?_⟩
      rw [visible]
      exact List.Subset.refl _

/-- A sync that reads the history of the trade and records no exit keeps the law: either nothing
closes the trade yet, or the later fills are those that were booked. -/
theorem Settled.refused (h : Settled t w) (ha : Admissible t w call) (hs : Stepped t w call)
    (hc : BooksOnce t w call) (hrow : w.db.tables.trade? t.tradeId = some r)
    (hsame : SameTrade t r) (hasked : r ∈ w.asked call) (hbooks : ¬Books call w.db.tables r)
    (same : Same t.tradeId w.db.tables (w.step call).db.tables)
    (visible : (w.step call).visible t.tradeId = call.historyOf t) : Settled t (w.step call) := by
  have hfilter := filter_booked hsame.tradeId h.unique hasked
  rw [if_neg hbooks] at hfilter
  have htolerance := tolerance_pos
  rcases h.state with hun | ⟨r', b, hbooked⟩
  · obtain rfl : t = r := Option.some.inj (hun.row.symm.trans hrow)
    have hnone : call.closing t = [] := by
      by_contra hne
      exact hbooks (hun.books h.quantity_pos ha.real_closing hne)
    have hlater : laterFills t (call.historyOf t) = [] := laterFills_nil hnone
    refine h.kept hs hc same hfilter ?_ ?_ (.inl (hun.kept hs same hfilter ?_))
    · rw [visible, hlater, closedQuantity, hun.exits]
      simp [totalQuantity, h.quantity_pos.le]
    · rw [visible, hlater]
      intro hle
      simp only [totalQuantity, List.map_nil, List.sum_nil] at hle
      exact absurd h.quantity_pos (not_lt.2 hle)
    · rw [visible]
      exact hnone
  · obtain rfl : r' = r := Option.some.inj (hbooked.row.symm.trans hrow)
    obtain ⟨hquantity, -⟩ := hc.again r' hasked hsame.tradeId hbooked.exits
    rw [hsame.historyOf] at hquantity
    have hpartial := hbooked.partially h.unique hasked
    have hgrow := ha.growing r' hasked hsame.tradeId
    rw [hsame.historyOf] at hgrow
    refine h.kept hs hc same hfilter ?_ ?_ (.inr ⟨r', b, hbooked.kept hs same ?_⟩)
    · rw [visible, hquantity]
      exact h.once.quantity
    · rw [visible, hquantity]
      intro hle
      have hall := h.once.quantity
      rw [min_eq_left hle] at hall
      linarith
    · rw [visible]
      intro f hf
      obtain ⟨hmem, hside⟩ := mem_closingFills.1 hf
      exact mem_closingFills.2 ⟨hgrow.subset hmem, hside⟩

/-- The first exit of the trade keeps the law. -/
theorem Settled.firstExit (h : Settled t w) (ha : Admissible t w call) (hs : Stepped t w call)
    (hc : BooksOnce t w call) (hun : Unbooked t w) (hasked : t ∈ w.asked call)
    (hbooks : Books call w.db.tables t)
    (row : (w.step call).db.tables.trade? t.tradeId = some (exitedRow call w.db.tables t))
    (exits : (w.step call).db.tables.exits t.tradeId =
      w.db.tables.exits t.tradeId ++ [exitRow call w.db.tables t])
    (visible : (w.step call).visible t.tradeId = call.historyOf t) : Settled t (w.step call) := by
  have hfilter := filter_booked rfl h.unique hasked
  rw [if_pos hbooks] at hfilter
  have htolerance := tolerance_pos
  have hreal : ∀ f ∈ call.closing t, f.IsReal := ha.real_closing
  obtain ⟨hprice, hstatus⟩ := exitedRow_first hbooks hun.exits
  have hclosed := closedQuantity_first hun.exits exits
  have hle : totalQuantity (laterFills t (call.historyOf t)) ≤
      totalQuantity (call.closing t) := totalQuantity_laterFills_le hreal
  have hfirst := hc.first t hasked rfl hun.exits
  refine ⟨hs.unique, hs.alone, h.quantity_pos, ⟨?_, ?_, ?_, ?_⟩, .inr
    ⟨exitedRow call w.db.tables t, ⟨t.tradeId, call.closing t⟩, row, sameTrade_exitedRow, ?_,
      ?_, rfl, hbooks.found, ?_, ?_⟩⟩
  · rw [hclosed, visible, min_comm]
    rcases hfirst with hall | ⟨hcover, -⟩
    · rw [hall]
    · rw [min_eq_left hcover, min_eq_left (hcover.trans hle)]
  · rw [hs.bookings, List.filter_append, hfilter, hun.filter_bookings]
    exact List.pairwise_singleton _ _
  · rw [hs.bookings]
    exact hc.apart
  · rw [visible]
    intro hcover
    have hfull : t.quantity - tolerance ≤
        min (totalQuantity (call.closing t)) t.quantity := by
      rw [min_eq_right (hcover.trans hle)]
      linarith
    rw [if_pos hfull] at hstatus
    refine ⟨_, row, hstatus, hprice.trans (congrArg some ?_)⟩
    rcases hfirst with hall | ⟨-, haverage⟩
    · rw [hall]
    · exact haverage
  · rw [exits]
    simp
  · rw [hs.bookings]
    exact List.mem_append_right _ (List.mem_of_mem_filter
      (hfilter ▸ List.mem_singleton_self _))
  · rw [visible]
    exact fun f hf => hf
  · rw [hstatus, hclosed]
    split
    · exact .inl rfl
    · rename_i hpartial
      refine .inr ⟨rfl, ?_⟩
      push Not at hpartial
      linarith

end Turns

/-- **A sync that books once keeps the law.** -/
theorem settled_step (h : Settled t w) (ha : Admissible t w call) (hc : BooksOnce t w call) :
    Settled t (w.step call) := by
  obtain ⟨r, hrow, hsame⟩ := h.row
  obtain ⟨hs, hturn⟩ := stepped h.unique h.alone ha hrow hsame
  cases hturn with
  | quiet hnot same visible => exact h.quiet hs hc hnot same visible
  | refused hasked hbooks same visible =>
    exact h.refused ha hs hc hrow hsame hasked hbooks same visible
  | booked hasked hbooks row exits visible =>
    rcases h.state with hun | ⟨r', b, hbooked⟩
    · obtain rfl : t = r := Option.some.inj (hun.row.symm.trans hrow)
      exact h.firstExit ha hs hc hun hasked hbooks row exits visible
    · -- a second exit would book more than is left
      obtain rfl : r' = r := Option.some.inj (hbooked.row.symm.trans hrow)
      obtain ⟨-, hrefused⟩ := hc.again r' hasked hsame.tradeId hbooked.exits
      have hle : min (totalQuantity (call.closing r')) r'.quantity ≤
          r'.quantity - closedQuantity w.db.tables r'.tradeId + tolerance := hbooks.quantity_le
      rw [hsame.tradeId, hsame.quantity] at hle
      exact absurd hle (not_le.2 hrefused)

section Converse

variable {b : Booking}

/-- What a sync has shown of a trade whose first exit may be due, if the law holds after it: all of
its closing fills are later ones, or the later ones cover it at the average of all. -/
theorem Unbooked.first_of_exactlyOnce (hun : Unbooked t w) (hpos : 0 < t.quantity)
    (ha : Admissible t w call) (hturn : Turn t t w call) (ho : t ∈ w.asked call)
    (hp : ExactlyOnce t (w.step call)) :
    laterFills t (call.historyOf t) = call.closing t ∨
      t.quantity ≤ totalQuantity (laterFills t (call.historyOf t)) ∧
        averagePrice (call.closing t) = averagePrice (laterFills t (call.historyOf t)) := by
  have hreal : ∀ f ∈ call.closing t, f.IsReal := ha.real_closing
  cases hturn with
  | quiet hnot same visible => exact absurd rfl (hnot t ho)
  | refused hasked hbooks same visible =>
    have hnone : call.closing t = [] := by
      by_contra hne
      exact hbooks (hun.books hpos ha.real_closing hne)
    exact .inl ((laterFills_nil hnone).trans hnone.symm)
  | booked hasked hbooks row exits visible =>
    have hclosed := closedQuantity_first hun.exits exits
    have hquantity := hp.quantity
    rw [hclosed, visible] at hquantity
    rcases le_or_gt t.quantity (totalQuantity (laterFills t (call.historyOf t))) with
      hcover | hshort
    · -- covering fills have closed the trade at the average of all fills shown
      have hcover' := hcover
      rw [← visible] at hcover'
      obtain ⟨row', hrow', -, hprice⟩ := hp.closed hcover'
      rw [row] at hrow'
      obtain rfl := Option.some.inj hrow'
      rw [(exitedRow_first hbooks hun.exits).1, visible] at hprice
      exact .inr ⟨hcover, Option.some.inj hprice⟩
    · refine .inl (laterFills_eq hreal ?_)
      rw [min_eq_right hshort.le] at hquantity
      rcases min_choice (totalQuantity (call.closing t)) t.quantity with hmin | hmin
      · rw [hmin] at hquantity
        exact hquantity.le
      · rw [hmin] at hquantity
        exact absurd hquantity hshort.ne'

/-- What a sync has shown of a trade that is booked, if the law holds after it: no further later
fill, and more fills than a second exit could book. -/
theorem BookedOnce.again_of_exactlyOnce (hbooked : BookedOnce t r b w) (h : Settled t w)
    (ha : Admissible t w call) (hs : Stepped t w call) (hturn : Turn t r w call)
    (ho : r ∈ w.asked call) (hp : ExactlyOnce t (w.step call)) :
    totalQuantity (laterFills t (call.historyOf r)) =
        totalQuantity (laterFills t (w.visible t.tradeId)) ∧
      t.quantity - closedQuantity w.db.tables t.tradeId + tolerance <
        min (totalQuantity (call.closing r)) t.quantity := by
  have hsame := hbooked.same
  have hpartial := hbooked.partially h.unique ho
  have hgrow := ha.growing r ho hsame.tradeId
  obtain ⟨f, hf⟩ := List.exists_mem_of_ne_nil _ hbooked.fills
  have hshown : f ∈ call.closing r := by
    obtain ⟨hmem, hside⟩ := mem_closingFills.1 (hbooked.shown hf)
    exact mem_closingFills.2 ⟨hgrow.subset hmem, hside.trans (by rw [hsame.side])⟩
  cases hturn with
  | quiet hnot same visible => exact absurd hsame.tradeId (hnot r ho)
  | refused hasked hbooks same visible =>
    have hquantity := hp.quantity
    rw [same.closedQuantity_eq, visible] at hquantity
    have hbefore := h.once.quantity
    have htolerance := tolerance_pos
    have hfits : ∀ q, closedQuantity w.db.tables t.tradeId = min t.quantity q →
        closedQuantity w.db.tables t.tradeId = q := by
      intro q hq
      rcases min_choice t.quantity q with hmin | hmin
      · rw [hmin] at hq
        linarith
      · rwa [hmin] at hq
    rw [hsame.historyOf]
    refine ⟨(hfits _ hquantity).symm.trans (hfits _ hbefore), ?_⟩
    by_contra hle
    refine hbooks (Books.of_real ha.real_closing (List.ne_nil_of_mem hshown) ?_ ?_)
    · rw [hsame.quantity]
      exact h.quantity_pos
    · rw [hsame.tradeId, hsame.quantity]
      exact not_lt.1 hle
  | booked hasked hbooks row exits visible =>
    -- the fills of the first exit are shown again, and contribute to the second
    have hfilter := filter_booked hsame.tradeId h.unique hasked
    rw [if_pos hbooks] at hfilter
    have hown := hp.own
    rw [hs.bookings, List.filter_append, hfilter] at hown
    have hdisjoint := (List.pairwise_append.1 hown).2.2 b
      (List.mem_filter.2 ⟨hbooked.mem, by simpa using hbooked.tradeId⟩) _
      (List.mem_singleton_self _)
    exact absurd hshown (hdisjoint hf)

end Converse

/-- **A sync after which the fills are booked once has met the condition.** -/
theorem booksOnce_of_exactlyOnce (h : Settled t w) (ha : Admissible t w call)
    (hp : ExactlyOnce t (w.step call)) : BooksOnce t w call := by
  obtain ⟨r, hrow, hsame⟩ := h.row
  obtain ⟨hs, hturn⟩ := stepped h.unique h.alone ha hrow hsame
  have honly : ∀ o ∈ w.asked call, o.tradeId = t.tradeId → o = r := by
    intro o ho hid
    have hfound := (row_of_mem_asked h.unique ho).1
    rw [hid, hrow] at hfound
    exact (Option.some.inj hfound).symm
  refine ⟨fun o ho hid hexits => ?_, fun o ho hid hexits => ?_, ?_⟩
  · obtain rfl := honly o ho hid
    rcases h.state with hun | ⟨r', b, hbooked⟩
    · obtain rfl : t = o := Option.some.inj (hun.row.symm.trans hrow)
      exact hun.first_of_exactlyOnce h.quantity_pos ha hturn ho hp
    · exact absurd hexits hbooked.exits
  · obtain rfl := honly o ho hid
    rcases h.state with hun | ⟨r', b, hbooked⟩
    · exact absurd hun.exits hexits
    · obtain rfl : r' = o := Option.some.inj (hbooked.row.symm.trans hrow)
      exact hbooked.again_of_exactlyOnce h ha hs hturn ho hp
  · have := hp.others
    rwa [hs.bookings] at this

theorem Disappeared.settled (h : Disappeared t w) : Settled t w := by
  have hnone : laterFills t (w.visible t.tradeId) = [] := by
    rw [h.visible]
    rfl
  have hfilter : w.bookings.filter (fun b => b.tradeId = t.tradeId) = [] :=
    List.filter_eq_nil_iff.2 fun b hb => by simpa using h.bookings b hb
  refine ⟨h.unique, h.alone, h.quantity_pos, ⟨?_, ?_, ?_, ?_⟩, .inl ⟨?_, h.tracked.2.2, h.exits,
    ?_, h.bookings⟩⟩
  · rw [hnone, closedQuantity, h.exits]
    simp [totalQuantity, h.quantity_pos.le]
  · rw [hfilter]
    exact List.Pairwise.nil
  · exact fun b hb hid => absurd hid (h.bookings b hb)
  · rw [hnone]
    intro hle
    simp only [totalQuantity, List.map_nil, List.sum_nil] at hle
    exact absurd h.quantity_pos (not_lt.2 hle)
  · exact (lookup_eq_some_iff h.unique).2 ⟨h.row, rfl⟩
  · rw [h.visible]
    rfl

/-- **Closing fills are booked exactly once, exactly when** every sync of the run meets
`BooksOnce`: for every trade whose position has disappeared, and every run of syncs to which the
exchange answers with growing lists of real fills. -/
theorem closing_fills_booked_once_iff (t : Trade) (w : Monitored) (calls : List SyncCall)
    (hw : Disappeared t w) (ha : Guarded step (Admissible t) w calls) :
    Always step (ExactlyOnce t) w calls ↔ Guarded step (BooksOnce t) w calls :=
  always_iff_guarded_of_invariant (fun _ h => h.once) (fun _ _ h ha hc => settled_step h ha hc)
    (fun _ _ h ha hp => booksOnce_of_exactlyOnce h ha hp) hw.settled ha

/-! ## Sample runs -/

def sampleMonitored : Monitored := { db := sampleTables }

theorem disappeared_sampleMonitored : Disappeared sampleTrade sampleMonitored where
  unique := List.nodup_singleton _
  row := by decide
  tracked := by decide
  quantity_pos := by decide
  alone := by decide
  exits := by decide
  visible := rfl
  bookings := by decide

theorem admissible_sampleSync {fills : List Fill} (hreal : ∀ f ∈ fills, f.IsReal)
    (hgrow : (w.visible t.tradeId).Subperm fills) : Admissible t w (sampleSync fills) where
  absent := by simp [sampleSync, getOpenPositions]
  real := fun _ _ _ => hreal
  growing := fun _ _ _ => hgrow

/-- A sync before the fills, and one that is shown two that cover the quantity. -/
def coveringRun : List SyncCall :=
  [sampleSync [], sampleSync [sampleFill "o1" 100, sampleFill "o2" 110]]

theorem closing_fills_booked_once_coveringRun :
    Always step (ExactlyOnce sampleTrade) sampleMonitored coveringRun ∧
      ((run step sampleMonitored coveringRun).db.tables.trades.map fun r =>
        (r.status, r.exitPrice)) = [(.closed, some 105)] := by
  have hvisible : (step sampleMonitored (sampleSync [])).visible sampleTrade.tradeId = [] := by
    decide +kernel
  have ha : Guarded step (Admissible sampleTrade) sampleMonitored coveringRun :=
    ⟨admissible_sampleSync (by simp) List.nil_subperm,
      admissible_sampleSync (by decide) (hvisible ▸ List.nil_subperm), trivial⟩
  refine ⟨(closing_fills_booked_once_iff sampleTrade sampleMonitored coveringRun
    disappeared_sampleMonitored ha).2 ⟨⟨?_, ?_, ?_⟩, ⟨?_, ?_, ?_⟩, trivial⟩, by decide +kernel⟩
  · exact fun r _ _ _ => .inl (laterFills_nil rfl)
  · exact fun _ _ _ hexits => absurd (by decide +kernel) hexits
  · simp only [List.Disjoint]
    decide +kernel
  · refine fun r hr hid _ => .inl ?_
    have hall : ∀ r ∈ (step sampleMonitored (sampleSync [])).asked
        (sampleSync [sampleFill "o1" 100, sampleFill "o2" 110]),
        laterFills sampleTrade ((sampleSync [sampleFill "o1" 100, sampleFill "o2" 110]).historyOf
          r) = (sampleSync [sampleFill "o1" 100, sampleFill "o2" 110]).closing r := by
      decide +kernel
    exact hall r hr
  · exact fun _ _ _ hexits => absurd (by decide +kernel) hexits
  · have hall : ∀ b ∈ (step sampleMonitored (sampleSync [])).bookings ++
        (step sampleMonitored (sampleSync [])).booked
          (sampleSync [sampleFill "o1" 100, sampleFill "o2" 110]),
        b.tradeId = sampleTrade.tradeId := by
      decide +kernel
    exact fun b _ _ b' hb' hid => absurd (hall b' hb') hid

/-- One fill of half the quantity, shown to two syncs, closes the whole trade. -/
theorem closing_fill_booked_twice : Disappeared sampleTrade sampleMonitored ∧
    Guarded step (Admissible sampleTrade) sampleMonitored
      [sampleSync [sampleFill "o1" 100], sampleSync [sampleFill "o1" 100]] ∧
    ¬Always step (ExactlyOnce sampleTrade) sampleMonitored
      [sampleSync [sampleFill "o1" 100], sampleSync [sampleFill "o1" 100]] := by
  have hvisible : (step sampleMonitored (sampleSync [sampleFill "o1" 100])).visible
      sampleTrade.tradeId = [sampleFill "o1" 100] := by
    decide +kernel
  refine ⟨disappeared_sampleMonitored, ⟨admissible_sampleSync (by decide) List.nil_subperm,
    admissible_sampleSync (by decide) ?_, trivial⟩, fun h => ?_⟩
  · rw [hvisible]
  · exact absurd h.last.quantity (by decide +kernel)

end Monitored

end AlphaOne.Exchange

import AlphaOne.Exchange.CoinDCXSync
import AlphaOne.Journal.Lifecycle
import Mathlib.Data.List.TakeWhile

/-!
# What a sync does to the journal

The loops of `sync_positions` treat the trades one after another, and what they do to one does not
depend on the others. `Books` says when the exit that a sync tries to record for a disappeared
trade is accepted, as a condition on the tables before the sync and on the history it reads.

* `closeAll_spec`: the loop over the disappeared trades records the exits of exactly those that
  meet `Books`, each on its own row.
* `syncPositions_cases`: a sync either meets a taken trade id and changes nothing, or it does
  that.
-/

namespace AlphaOne.Exchange

open Foundations Journal

/-- The row and the exits of a trade are the same in two states of the tables. -/
structure Same (id : String) (db db' : Tables) : Prop where
  row : db'.trade? id = db.trade? id
  exits : db'.exits id = db.exits id

variable {id : String} {db db' db'' : Tables} {call : SyncCall} {trade t r : Trade} {s s' : Session}
  {D existing : List Trade} {live : List Position}

theorem Same.refl (id : String) (db : Tables) : Same id db db := ⟨rfl, rfl⟩

theorem Same.trans (h : Same id db db') (h' : Same id db' db'') : Same id db db'' :=
  ⟨h'.row.trans h.row, h'.exits.trans h.exits⟩

/-- The status and the exits of a trade are the same in two states of the tables. -/
structure SameStatus (id : String) (db db' : Tables) : Prop where
  status : (db'.trade? id).map Trade.status = (db.trade? id).map Trade.status
  exits : db'.exits id = db.exits id

theorem Same.sameStatus (h : Same id db db') : SameStatus id db db' := ⟨by rw [h.row], h.exits⟩

theorem SameStatus.trans (h : SameStatus id db db') (h' : SameStatus id db' db'') :
    SameStatus id db db'' :=
  ⟨h'.status.trans h.status, h'.exits.trans h.exits⟩

theorem Same.closedQuantity_eq (h : Same id db db') :
    closedQuantity db' id = closedQuantity db id := by
  rw [closedQuantity, closedQuantity, h.exits]

/-! ## Real fills -/

theorem mem_closingFills {fills : List Fill} {f : Fill} :
    f ∈ closingFills trade fills ↔ f ∈ fills ∧ f.side = closingSide trade.side := by
  simp [closingFills]

theorem totalQuantity_eq_total (fills : List Fill) :
    totalQuantity fills = Slice.total (fills.map Fill.slice) := by
  simp [totalQuantity, Slice.total, Function.comp_def, Fill.slice]

theorem notional_eq (fills : List Fill) :
    (fills.map fun f => f.price * f.quantity).sum = Slice.notional (fills.map Fill.slice) := by
  simp [Slice.notional, Function.comp_def, Fill.slice]

theorem totalQuantity_pos {fills : List Fill} (hreal : ∀ f ∈ fills, f.IsReal) (hne : fills ≠ []) :
    0 < totalQuantity fills := by
  rw [totalQuantity_eq_total]
  refine Slice.total_pos (fun s hs => ?_) (by simpa using hne)
  obtain ⟨f, hf, rfl⟩ := List.mem_map.1 hs
  exact (hreal f hf).2

theorem notional_pos {fills : List Fill} (hreal : ∀ f ∈ fills, f.IsReal) (hne : fills ≠ []) :
    0 < (fills.map fun f => f.price * f.quantity).sum := by
  cases fills with
  | nil => exact absurd rfl hne
  | cons f fills =>
    have hf := hreal f (by simp)
    have hrest : 0 ≤ (fills.map fun f => f.price * f.quantity).sum := by
      refine List.sum_nonneg fun q hq => ?_
      obtain ⟨g, hg, rfl⟩ := List.mem_map.1 hq
      have hg := hreal g (by simp [hg])
      exact (mul_pos hg.1 hg.2).le
    rw [List.map_cons, List.sum_cons]
    have := mul_pos hf.1 hf.2
    linarith

/-! ## Closing one trade -/

/-- The closing fills that a sync finds for a trade. -/
def SyncCall.closing (call : SyncCall) (trade : Trade) : List Fill :=
  closingFills trade (call.historyOf trade)

/-- The exit that a sync tries to record for a trade. -/
def SyncCall.exitArgs (call : SyncCall) (trade : Trade) : RecordExitArgs :=
  Exchange.exitArgs call trade (call.closing trade)

/-- The journal accepts the exit that a sync tries to record for a trade. -/
structure Books (call : SyncCall) (db : Tables) (trade : Trade) : Prop where
  found : call.closing trade ≠ []
  total : totalQuantity (call.closing trade) ≠ 0
  price_pos : 0 < (call.exitArgs trade).exitPrice
  quantity_pos : 0 < (call.exitArgs trade).quantity
  quantity_le : (call.exitArgs trade).quantity ≤
    trade.quantity - closedQuantity db trade.tradeId + tolerance

instance (call : SyncCall) (db : Tables) : DecidablePred (Books call db) := fun trade =>
  decidable_of_iff (call.closing trade ≠ [] ∧ totalQuantity (call.closing trade) ≠ 0 ∧
    0 < (call.exitArgs trade).exitPrice ∧ 0 < (call.exitArgs trade).quantity ∧
      (call.exitArgs trade).quantity ≤ trade.quantity - closedQuantity db trade.tradeId + tolerance)
    ⟨fun ⟨h₁, h₂, h₃, h₄, h₅⟩ => ⟨h₁, h₂, h₃, h₄, h₅⟩,
      fun h => ⟨h.found, h.total, h.price_pos, h.quantity_pos, h.quantity_le⟩⟩

/-- The closing fills of a trade come to nothing, so that their average raises. -/
def Raises (call : SyncCall) (trade : Trade) : Prop :=
  call.closing trade ≠ [] ∧ totalQuantity (call.closing trade) = 0

instance (call : SyncCall) : DecidablePred (Raises call) := fun trade =>
  inferInstanceAs (Decidable (call.closing trade ≠ [] ∧ totalQuantity (call.closing trade) = 0))

/-- Real fills are booked when their quantity fits into what remains. -/
theorem Books.of_real (hreal : ∀ f ∈ call.closing trade, f.IsReal)
    (hfound : call.closing trade ≠ []) (hquantity : 0 < trade.quantity)
    (hle : min (totalQuantity (call.closing trade)) trade.quantity ≤
      trade.quantity - closedQuantity db trade.tradeId + tolerance) : Books call db trade :=
  have htotal := totalQuantity_pos hreal hfound
  ⟨hfound, htotal.ne', div_pos (notional_pos hreal hfound) htotal, lt_min htotal hquantity, hle⟩

theorem not_raises_of_real (hreal : ∀ f ∈ call.closing trade, f.IsReal) : ¬Raises call trade :=
  fun h => (totalQuantity_pos hreal h.1).ne' h.2

/-- The row that a recorded exit leaves. -/
def exitedRow (call : SyncCall) (db : Tables) (trade : Trade) : Trade :=
  exitedTrade (call.exitArgs trade) db trade

/-- The execution that a recorded exit adds. -/
def exitRow (call : SyncCall) (db : Tables) (trade : Trade) : TradeExecution :=
  exitExecution (call.exitArgs trade) db trade

theorem Same.books_iff (h : Same trade.tradeId db db') :
    Books call db' trade ↔ Books call db trade := by
  constructor
  · rintro ⟨h₁, h₂, h₃, h₄, h₅⟩
    exact ⟨h₁, h₂, h₃, h₄, h.closedQuantity_eq ▸ h₅⟩
  · rintro ⟨h₁, h₂, h₃, h₄, h₅⟩
    exact ⟨h₁, h₂, h₃, h₄, h.closedQuantity_eq.symm ▸ h₅⟩

theorem Same.exitedRow_eq (h : Same trade.tradeId db db') :
    exitedRow call db' trade = exitedRow call db trade := by
  have hq : closedQuantity db' (call.exitArgs trade).tradeId =
      closedQuantity db (call.exitArgs trade).tradeId := h.closedQuantity_eq
  rw [exitedRow, exitedRow, exitedTrade, exitedTrade, isFullClose, isFullClose, hq]

theorem Same.exitRow_eq (h : Same trade.tradeId db db') :
    exitRow call db' trade = exitRow call db trade := by
  have hq : closedQuantity db' (call.exitArgs trade).tradeId =
      closedQuantity db (call.exitArgs trade).tradeId := h.closedQuantity_eq
  rw [exitRow, exitRow, exitExecution, exitExecution, isFullClose, isFullClose, hq]

/-- A row that is not final. -/
structure Closable (db : Tables) (trade : Trade) : Prop where
  row : db.trade? trade.tradeId = some trade
  open_ : trade.status = .open_ ∨ trade.status = .partiallyClosed

theorem Closable.exitAccepted (h : Closable db trade) (hb : Books call db trade) :
    ExitAccepted (call.exitArgs trade) db trade := by
  refine ⟨h.row, ?_, ?_, hb.price_pos, hb.quantity_pos, hb.quantity_le⟩
  · rcases h.open_ with ho | ho <;> simp [ho]
  · rcases h.open_ with ho | ho <;> simp [ho]

/-- The tables with the exit of a trade recorded. -/
def record (call : SyncCall) (db : Tables) (trade : Trade) : Tables :=
  { trades := save Trade.tradeId (exitedRow call db trade) db.trades
    executions := db.executions ++ [exitRow call db trade] }

theorem closeDisappearedPosition_of_books (h : Closable s.working.tables trade)
    (hb : Books call s.working.tables trade) : closeDisappearedPosition call trade s =
      (.ok (some (exitedRow call s.working.tables trade)),
        (s.write (record call s.working.tables trade)).commit) := by
  have hfound := hb.found
  have htotal := hb.total
  have hrecord := recordExit_of_accepted (h.exitAccepted hb)
  simp only [SyncCall.exitArgs, SyncCall.closing] at hfound htotal hrecord
  simp only [closeDisappearedPosition, if_neg hfound, if_neg htotal, hrecord]
  rfl

theorem closeDisappearedPosition_of_raises (hr : Raises call trade) :
    closeDisappearedPosition call trade s = (.error .zeroDivisionError, s) := by
  obtain ⟨hfound, htotal⟩ := hr
  simp only [SyncCall.closing] at hfound htotal
  simp only [closeDisappearedPosition, if_neg hfound, if_pos htotal]

theorem closeDisappearedPosition_of_refused (h : Closable s.working.tables trade)
    (hr : ¬Raises call trade) (hb : ¬Books call s.working.tables trade) :
    ∃ detail, closeDisappearedPosition call trade s = (.ok none, s.fail detail) := by
  by_cases hfound : closingFills trade (call.historyOf trade) = []
  · exact ⟨_, by simp only [closeDisappearedPosition, if_pos hfound]; rfl⟩
  · have htotal : totalQuantity (closingFills trade (call.historyOf trade)) ≠ 0 :=
      fun h0 => hr ⟨hfound, h0⟩
    rcases recordExit_cases (call.exitArgs trade) s.working.tables with ⟨e, he⟩ | ⟨row, hrow⟩
    · simp only [SyncCall.exitArgs, SyncCall.closing] at he
      exact ⟨.journalError e, by
        simp only [closeDisappearedPosition, if_neg hfound, if_neg htotal, he]⟩
    · obtain rfl : row = trade := Option.some.inj (hrow.row.symm.trans h.row)
      exact absurd ⟨hfound, htotal, hrow.price_pos, hrow.quantity_pos, hrow.quantity_le⟩ hb

@[simp] theorem exitedRow_tradeId : (exitedRow call db trade).tradeId = trade.tradeId :=
  withExit_tradeId ..

theorem exitRow_isExit : (exitRow call db trade).isExit = true := by
  unfold exitRow exitExecution TradeExecution.isExit
  split <;> rfl

/-- Recording the exit of one trade leaves the others. -/
theorem same_record (h : id ≠ trade.tradeId) : Same id db (record call db trade) where
  row := lookup_save_of_ne (by simpa using h)
  exits := by
    rw [record, exits_append_exit db _ exitRow_isExit, if_neg, List.append_nil]
    exact fun he => h he.symm

/-! ## Closing all -/

/-- The trades up to the first whose closing raises. -/
def reached (call : SyncCall) (D : List Trade) : List Trade := D.takeWhile fun t => ¬Raises call t

/-- What the loop over the disappeared trades does to the tables, having reached the trades `D`. -/
structure ClosedAll (call : SyncCall) (D : List Trade) (s s' : Session) : Prop where
  same : ∀ id, (∀ t ∈ D, t.tradeId = id → ¬Books call s.working.tables t) →
    Same id s.working.tables s'.working.tables
  booked : ∀ t ∈ D, Books call s.working.tables t →
    s'.working.tables.trade? t.tradeId = some (exitedRow call s.working.tables t) ∧
      s'.working.tables.exits t.tradeId =
        s.working.tables.exits t.tradeId ++ [exitRow call s.working.tables t]
  rows : ∀ r ∈ s'.working.tables.trades, r ∈ s.working.tables.trades ∨
    ∃ t ∈ D, r = exitedRow call s.working.tables t
  unique : UniqueKey Trade.tradeId s.working.tables.trades →
    UniqueKey Trade.tradeId s'.working.tables.trades
  account : s'.working.account = s.working.account
  /-- Every recorded exit commits. -/
  committed : s'.committed.tables = s'.working.tables ∧ s'.committed.account = s.working.account ∨
    s'.committed = s.committed ∧ s'.working.tables = s.working.tables ∧
      ∀ t ∈ D, ¬Books call s.working.tables t

/-- The loop over trades of which the first is refused. -/
theorem ClosedAll.of_refused {detail : SyncDetail} (hb : ¬Books call s.working.tables t)
    (h : ClosedAll call D (s.fail detail) s') : ClosedAll call (t :: D) s s' where
  same := fun id hid => h.same id fun t' ht' => hid t' (by simp [ht'])
  booked := by
    intro t' ht' hb'
    rcases List.mem_cons.1 ht' with rfl | ht'
    · exact absurd hb' hb
    · exact h.booked t' ht' hb'
  rows := by
    intro r hr
    rcases h.rows r hr with hr | ⟨t', ht', h⟩
    · exact .inl hr
    · exact .inr ⟨t', by simp [ht'], h⟩
  unique := h.unique
  account := h.account
  committed := by
    refine h.committed.imp_right fun ⟨hcommitted, htables, hnone⟩ => ⟨hcommitted, htables, ?_⟩
    intro t' ht'
    rcases List.mem_cons.1 ht' with rfl | ht'
    · exact hb
    · exact hnone t' ht'

/-- The loop over trades of which the first is closed. -/
theorem ClosedAll.of_booked (hother : ∀ t' ∈ D, t'.tradeId ≠ t.tradeId)
    (ht : Closable s.working.tables t) (hb : Books call s.working.tables t)
    (h : ClosedAll call D (s.write (record call s.working.tables t)).commit s') :
    ClosedAll call (t :: D) s s' := by
  have hsame : ∀ t' ∈ D, Same t'.tradeId s.working.tables (record call s.working.tables t) :=
    fun t' ht' => same_record (hother t' ht')
  refine ⟨?_, ?_, ?_, fun hu => h.unique hu.save, h.account, ?_⟩
  · intro id hid
    have hne : id ≠ t.tradeId := fun he => hid t (by simp) he.symm hb
    refine (same_record hne).trans (h.same id fun t' ht' he hb' => ?_)
    exact hid t' (by simp [ht']) he ((hsame t' ht').books_iff.1 hb')
  · intro t' ht' hb'
    rcases List.mem_cons.1 ht' with rfl | ht'
    · obtain ⟨hrow, hexits⟩ := h.same t'.tradeId fun t'' ht'' he => absurd he (hother t'' ht'')
      refine ⟨hrow.trans ?_, hexits.trans ?_⟩
      · have hfound : lookup Trade.tradeId (exitedRow call s.working.tables t').tradeId
            s.working.tables.trades = some t' := by
          rw [exitedRow_tradeId]
          exact ht.row
        have := lookup_save hfound
        rwa [exitedRow_tradeId] at this
      · have hid : (exitRow call s.working.tables t').tradeId = t'.tradeId := rfl
        rw [Session.commit_working, Session.write_tables, record,
          exits_append_exit _ _ exitRow_isExit, if_pos hid]
    · have h := h.booked t' ht' ((hsame t' ht').books_iff.2 hb')
      rw [Session.commit_working, Session.write_tables] at h
      rwa [(hsame t' ht').exitedRow_eq, (hsame t' ht').exits, (hsame t' ht').exitRow_eq] at h
  · intro r hr
    rcases h.rows r hr with hr | ⟨t', ht', rfl⟩
    · rcases mem_save.1 hr with ⟨hr, -⟩ | ⟨rfl, -⟩
      · exact .inl hr
      · exact .inr ⟨t, by simp, rfl⟩
    · exact .inr ⟨t', by simp [ht'], (hsame t' ht').exitedRow_eq⟩
  · rcases h.committed with hcommitted | ⟨hcommitted, htables, -⟩
    · exact .inl hcommitted
    · exact .inl ⟨by rw [hcommitted, htables]; rfl, by rw [hcommitted]; rfl⟩

theorem closeAll_cons {s₁ : Session} {closed : Option Trade}
    (h : closeDisappearedPosition call t s = (.ok closed, s₁)) : closeAll call (t :: D) s =
      ((closeAll call D s₁).1.map (closed.toList ++ ·), (closeAll call D s₁).2) := by
  rw [closeAll, h]
  dsimp only
  cases closeAll call D s₁ with
  | mk result s' => cases result <;> rfl

variable (call) in
/-- Booking an exit changes nothing in what the calls for the other trades book. -/
theorem booked_record (hother : ∀ t' ∈ D, t'.tradeId ≠ t.tradeId) (db : Tables) :
    (D.filter (Books call (record call db t))).map (exitedRow call (record call db t)) =
      (D.filter (Books call db)).map (exitedRow call db) := by
  have hfilter : D.filter (Books call (record call db t)) = D.filter (Books call db) := by
    refine List.filter_congr fun t' ht' => ?_
    simp [(same_record (hother t' ht')).books_iff]
  rw [hfilter]
  exact List.map_congr_left fun t' ht' =>
    (same_record (hother t' (List.mem_of_mem_filter ht'))).exitedRow_eq

variable (call) in
theorem closeAll_spec (hnodup : (D.map Trade.tradeId).Nodup)
    (hD : ∀ t ∈ D, Closable s.working.tables t) :
    ClosedAll call (reached call D) s (closeAll call D s).2 ∧
      (closeAll call D s).1 = if reached call D = D then
        .ok ((D.filter (Books call s.working.tables)).map (exitedRow call s.working.tables))
      else .error .zeroDivisionError := by
  induction D generalizing s with
  | nil =>
    exact ⟨⟨fun id _ => Same.refl id _, by simp [reached], fun _ hr => .inl hr, id, rfl,
      .inr ⟨rfl, rfl, by simp [reached]⟩⟩, rfl⟩
  | cons t rest ih =>
    obtain ⟨hnew, hnodup⟩ := List.nodup_cons.1 hnodup
    have hother : ∀ t' ∈ rest, t'.tradeId ≠ t.tradeId := by
      intro t' ht' he
      exact hnew (he ▸ List.mem_map_of_mem ht')
    have ht := hD t (by simp)
    by_cases hr : Raises call t
    · have hnone : reached call (t :: rest) = [] := by simp [reached, hr]
      rw [hnone, if_neg (by simp), closeAll, closeDisappearedPosition_of_raises hr]
      exact ⟨⟨fun id _ => Same.refl id _, by simp, fun r hr => .inl hr, id, rfl,
        .inr ⟨rfl, rfl, by simp⟩⟩, rfl⟩
    · have hreached : reached call (t :: rest) = t :: reached call rest := by simp [reached, hr]
      have hsub : ∀ t' ∈ reached call rest, t' ∈ rest := fun t' ht' =>
        (List.takeWhile_sublist _).subset ht'
      rw [hreached]
      by_cases hb : Books call s.working.tables t
      · have hsame : ∀ t' ∈ rest,
            Same t'.tradeId s.working.tables (record call s.working.tables t) :=
          fun t' ht' => same_record (hother t' ht')
        obtain ⟨hspec, hresult⟩ := ih (s := (s.write (record call s.working.tables t)).commit)
          hnodup fun t' ht' =>
            ⟨(hsame t' ht').row.trans (hD t' (by simp [ht'])).row, (hD t' (by simp [ht'])).open_⟩
        rw [Session.commit_working, Session.write_tables, booked_record call hother] at hresult
        rw [closeAll_cons (closeDisappearedPosition_of_books ht hb), hresult]
        refine ⟨hspec.of_booked (fun t' ht' => hother t' (hsub t' ht')) ht hb, ?_⟩
        by_cases hall : reached call rest = rest
        · rw [if_pos hall, if_pos (by rw [hall]), List.filter_cons_of_pos (by simpa using hb)]
          rfl
        · rw [if_neg hall, if_neg (by simpa using hall)]
          rfl
      · obtain ⟨detail, hfail⟩ := closeDisappearedPosition_of_refused ht hr hb
        obtain ⟨hspec, hresult⟩ := ih (s := s.fail detail) hnodup fun t' ht' => hD t' (by simp [ht'])
        rw [Session.fail_tables] at hresult
        rw [closeAll_cons hfail, hresult]
        refine ⟨hspec.of_refused hb, ?_⟩
        by_cases hall : reached call rest = rest
        · rw [if_pos hall, if_pos (by rw [hall]), List.filter_cons_of_neg (by simpa using hb)]
          rfl
        · rw [if_neg hall, if_neg (by simpa using hall)]
          rfl

/-! ## Taking over the live positions -/

/-- What the loop over the live positions does to the tables. -/
structure Taken (existing : List Trade) (live : List Position) (db db' : SyncTables) : Prop where
  same : ∀ id, (db.tables.trade? id).isSome → (∀ t ∈ existing, t.tradeId = id → ∀ pos ∈ live,
    t.exchangePositionId ≠ some pos.exchangePositionId) → Same id db.tables db'.tables
  /-- No status changes, and no exit is added. -/
  open_ : ∀ id, (db.tables.trade? id).isSome →
    (∀ t ∈ existing, t.tradeId = id → (db.tables.trade? id).map Trade.status = some t.status) →
      SameStatus id db.tables db'.tables
  rows : ∀ r ∈ db'.tables.trades, r ∈ db.tables.trades ∨
    ∃ pos ∈ live, r.exchangePositionId = some pos.exchangePositionId
  unique : UniqueKey Trade.tradeId db.tables.trades → UniqueKey Trade.tradeId db'.tables.trades
  account : db'.account = db.account

theorem Taken.of_first {pos : Position} {db₁ db₂ db₃ : SyncTables}
    (h : Taken existing [pos] db₁ db₂) (h' : Taken existing live db₂ db₃) :
    Taken existing (pos :: live) db₁ db₃ where
  same := by
    intro id hid hlive
    have hfirst := h.same id hid fun t ht he p hp => hlive t ht he p (by simp_all)
    refine hfirst.trans (h'.same id (by rwa [hfirst.row]) fun t ht he p hp => ?_)
    exact hlive t ht he p (by simp [hp])
  open_ := by
    intro id hid hexisting
    have hfirst := h.open_ id hid hexisting
    refine hfirst.trans (h'.open_ id ?_ fun t ht he => hfirst.status.trans (hexisting t ht he))
    have hsome := congrArg Option.isSome hfirst.status
    rwa [Option.isSome_map, Option.isSome_map, hid] at hsome
  rows := by
    intro r hr
    rcases h'.rows r hr with hr | ⟨p, hp, hrp⟩
    · rcases h.rows r hr with hr | ⟨p, hp, hrp⟩
      · exact .inl hr
      · exact .inr ⟨p, by simp_all, hrp⟩
    · exact .inr ⟨p, by simp [hp], hrp⟩
  unique := fun hu => h'.unique (h.unique hu)
  account := h'.account.trans h.account

theorem createTradeFromPosition_taken {pos : Position}
    (h : createTradeFromPosition call pos s = .ok s') :
    Taken existing [pos] s.working s'.working := by
  unfold createTradeFromPosition at h
  dsimp only at h
  split at h
  · cases h
  · rename_i hfree
    obtain rfl := Except.ok.inj h
    have hnew : ∀ r ∈ s.working.tables.trades, r.tradeId ≠ (tradeOfPosition s.working
        (call.uuidHex pos.exchangePositionId) (call.createdAt pos.exchangePositionId)
          pos).tradeId := by
      simpa [Tables.trade?, lookup_eq_none_iff] using hfree
    have hsame : ∀ id, (s.working.tables.trade? id).isSome → Same id s.working.tables
        { trades := s.working.tables.trades ++ [tradeOfPosition s.working
            (call.uuidHex pos.exchangePositionId) (call.createdAt pos.exchangePositionId) pos]
          executions := s.working.tables.executions ++ [entryOf pos (tradeOfPosition s.working
            (call.uuidHex pos.exchangePositionId) (call.createdAt pos.exchangePositionId) pos)] } := by
      intro id hid
      refine ⟨lookup_append_of_ne ?_, exits_append_entry rfl id⟩
      obtain ⟨r, hr⟩ := Option.isSome_iff_exists.1 hid
      exact fun he => hnew r (mem_of_lookup hr) ((key_of_lookup hr).trans he.symm)
    refine ⟨fun id hid _ => hsame id hid, fun id hid _ => (hsame id hid).sameStatus, ?_, ?_, rfl⟩
    · intro r hr
      rcases List.mem_append.1 hr with hr | hr
      · exact .inl hr
      · rw [List.mem_singleton.1 hr]
        exact .inr ⟨pos, by simp, rfl⟩
    · exact fun hu => hu.append_singleton hnew

theorem seen_taken {pos : Position} (hfound : lookup Trade.exchangePositionId
      (some pos.exchangePositionId) existing = some t) :
    Taken existing [pos] s.working (s.write { s.working.tables with
      trades := save Trade.tradeId (seen pos call.now t) s.working.tables.trades }).working where
  same := by
    intro id _ hlive
    refine ⟨lookup_save_of_ne ?_, rfl⟩
    rintro rfl
    exact hlive t (mem_of_lookup hfound) rfl pos (by simp) (key_of_lookup hfound)
  open_ := by
    intro id hid hexisting
    by_cases he : id = t.tradeId
    · obtain ⟨r, hr⟩ := Option.isSome_iff_exists.1 hid
      have hsaved : lookup Trade.tradeId (seen pos call.now t).tradeId
          (save Trade.tradeId (seen pos call.now t) s.working.tables.trades) =
            some (seen pos call.now t) := lookup_save (he ▸ hr)
      refine ⟨?_, rfl⟩
      rw [hexisting t (mem_of_lookup hfound) he.symm, he]
      exact congrArg (Option.map Trade.status) hsaved
    · exact ⟨congrArg (Option.map Trade.status) (lookup_save_of_ne he), rfl⟩
  rows := by
    intro r hr
    rcases mem_save.1 hr with ⟨hr, -⟩ | ⟨rfl, -⟩
    · exact .inl hr
    · have hid : t.exchangePositionId = some pos.exchangePositionId := key_of_lookup hfound
      exact .inr ⟨pos, by simp, hid⟩
  unique := fun hu => hu.save
  account := rfl

theorem takeLive_taken (h : takeLive call existing live s = .ok s') :
    Taken existing live s.working s'.working := by
  induction live generalizing s with
  | nil =>
    obtain rfl := Except.ok.inj h
    exact ⟨fun id _ _ => Same.refl id _, fun id _ _ => (Same.refl id _).sameStatus,
      fun r hr => .inl hr, id, rfl⟩
  | cons pos rest ih =>
    unfold takeLive at h
    split at h
    · rename_i t hfound
      exact (seen_taken hfound).of_first (ih h)
    · split at h
      · cases h
      · rename_i s₁ hcreate
        exact (createTradeFromPosition_taken hcreate).of_first (ih h)

theorem takeLive_committed (h : takeLive call existing live s = .ok s') :
    s'.committed = s.committed := by
  induction live generalizing s with
  | nil =>
    obtain rfl := Except.ok.inj h
    rfl
  | cons pos rest ih =>
    unfold takeLive at h
    split at h
    · exact (ih h).trans rfl
    · split at h
      · cases h
      · rename_i s₁ hcreate
        refine (ih h).trans ?_
        unfold createTradeFromPosition at hcreate
        dsimp only at hcreate
        split at hcreate
        · cases hcreate
        · obtain rfl := Except.ok.inj hcreate
          rfl

/-! ## The sync -/

theorem mem_existingOpen {db : SyncTables} (h : t ∈ existingOpen db) :
    t ∈ db.tables.trades ∧ IsTracked db t := by
  simpa [List.mem_filter] using mem_of_mem_dictOf h

/-- The tracked trades are different trades. -/
theorem nodup_existingOpen {db : SyncTables} (hu : UniqueKey Trade.tradeId db.tables.trades) :
    ((existingOpen db).map Trade.tradeId).Nodup := by
  have hdict : (existingOpen db).Nodup := uniqueKey_dictOf.of_map
  refine hdict.map_on fun a ha b hb hab => ?_
  exact hu.eq_of_key (mem_existingOpen ha).1 (mem_existingOpen hb).1 hab

theorem mem_disappeared : t ∈ disappeared call existing ↔ t ∈ existing ∧
    ∀ pos ∈ liveById call, t.exchangePositionId ≠ some pos.exchangePositionId := by
  simp [disappeared]

/-- The trades that a sync gets to, with the history of each. -/
def SyncCall.closes (call : SyncCall) (db : SyncTables) : List Trade :=
  match takeLive call (existingOpen db) (liveById call) ⟨db, db⟩ with
  | .error _ => []
  | .ok _ => reached call (disappeared call (existingOpen db))

theorem closes_sublist (call : SyncCall) (db : SyncTables) :
    (call.closes db).Sublist (existingOpen db) := by
  unfold SyncCall.closes
  split
  · exact List.nil_sublist _
  · exact (List.takeWhile_sublist _).trans List.filter_sublist

theorem mem_closes {db : SyncTables} (h : t ∈ call.closes db) :
    t ∈ disappeared call (existingOpen db) := by
  unfold SyncCall.closes at h
  split at h
  · simp at h
  · exact (List.takeWhile_sublist _).subset h

/-- What a sync does to the committed tables. -/
structure Synced (call : SyncCall) (db db' : SyncTables) : Prop where
  same : ∀ id, (db.tables.trade? id).isSome →
    (∀ t ∈ existingOpen db, t.tradeId = id → t ∈ disappeared call (existingOpen db)) →
      (∀ t ∈ call.closes db, t.tradeId = id → ¬Books call db.tables t) →
        Same id db.tables db'.tables
  open_ : ∀ t ∈ db.tables.trades, (t ∈ call.closes db → ¬Books call db.tables t) →
    SameStatus t.tradeId db.tables db'.tables
  booked : ∀ t ∈ call.closes db, Books call db.tables t →
    db'.tables.trade? t.tradeId = some (exitedRow call db.tables t) ∧
      db'.tables.exits t.tradeId = db.tables.exits t.tradeId ++ [exitRow call db.tables t]
  rows : ∀ r ∈ db'.tables.trades, r ∈ db.tables.trades ∨
    (∃ pos ∈ liveById call, r.exchangePositionId = some pos.exchangePositionId) ∨
      ∃ t ∈ call.closes db, r = exitedRow call db.tables t
  unique : UniqueKey Trade.tradeId db'.tables.trades
  account : db'.account.id = db.account.id

theorem Synced.of_unchanged {db : SyncTables} (hu : UniqueKey Trade.tradeId db.tables.trades)
    (hnone : ∀ t ∈ call.closes db, ¬Books call db.tables t) : Synced call db db where
  same := fun id _ _ _ => Same.refl id _
  open_ := fun t _ _ => (Same.refl t.tradeId _).sameStatus
  booked := fun t ht hb => absurd hb (hnone t ht)
  rows := fun _ hr => .inl hr
  unique := hu
  account := rfl

/-- After the loop over the live positions, the disappeared trades are as they were, and the second
loop does what it does. -/
theorem closeAll_of_live {db : SyncTables} (hu : UniqueKey Trade.tradeId db.tables.trades)
    (hlive : takeLive call (existingOpen db) (liveById call) ⟨db, db⟩ = .ok s)
    (hD : D = disappeared call (existingOpen db)) :
    (∀ t ∈ D, Same t.tradeId db.tables s.working.tables) ∧
      ClosedAll call (reached call D) s (closeAll call D s).2 ∧
        (closeAll call D s).1 = if reached call D = D then
          .ok ((D.filter (Books call db.tables)).map (exitedRow call db.tables))
        else .error .zeroDivisionError := by
  subst hD
  set D := disappeared call (existingOpen db)
  have htaken : Taken (existingOpen db) (liveById call) db s.working := takeLive_taken hlive
  have hrow : ∀ t ∈ D, db.tables.trade? t.tradeId = some t := fun t ht =>
    (lookup_eq_some_iff hu).2 ⟨(mem_existingOpen (mem_disappeared.1 ht).1).1, rfl⟩
  have hsame : ∀ t ∈ D, Same t.tradeId db.tables s.working.tables := by
    intro t ht
    refine htaken.same _ (by simp [hrow t ht]) fun t' ht' he pos hpos => ?_
    obtain ⟨hmem, hnot⟩ := mem_disappeared.1 ht
    rw [hu.eq_of_key (mem_existingOpen ht').1 (mem_existingOpen hmem).1 he]
    exact hnot pos hpos
  have hnodup : (D.map Trade.tradeId).Nodup :=
    (nodup_existingOpen hu).sublist (List.filter_sublist.map Trade.tradeId)
  obtain ⟨hspec, hresult⟩ := closeAll_spec call hnodup fun t ht =>
    ⟨(hsame t ht).row.trans (hrow t ht), (mem_existingOpen (mem_disappeared.1 ht).1).2.2.2⟩
  have hfilter : D.filter (Books call s.working.tables) = D.filter (Books call db.tables) := by
    refine List.filter_congr fun t ht => ?_
    simp [(hsame t ht).books_iff]
  have hrows : (D.filter (Books call db.tables)).map (exitedRow call s.working.tables) =
      (D.filter (Books call db.tables)).map (exitedRow call db.tables) :=
    List.map_congr_left fun t ht => (hsame t (List.mem_of_mem_filter ht)).exitedRow_eq
  rw [hfilter, hrows] at hresult
  exact ⟨hsame, hspec, hresult⟩

/-- The tables of a sync whose second loop has closed the trades `reached`. -/
theorem Synced.of_closedAll {db db' : SyncTables} {s' : Session}
    (hu : UniqueKey Trade.tradeId db.tables.trades)
    (htaken : Taken (existingOpen db) (liveById call) db s.working)
    (hsame : ∀ t ∈ call.closes db, Same t.tradeId db.tables s.working.tables)
    (hspec : ClosedAll call (call.closes db) s s') (htables : db'.tables = s'.working.tables)
    (haccount : db'.account.id = db.account.id) : Synced call db db' where
  same := by
    intro id hid hgone hnot
    rw [htables]
    refine (htaken.same id hid fun t ht he => ?_).trans (hspec.same id fun t ht he hb => ?_)
    · exact (mem_disappeared.1 (hgone t ht he)).2
    · exact hnot t ht he ((hsame t ht).books_iff.1 hb)
  open_ := by
    intro t ht hnot
    have hrow : db.tables.trade? t.tradeId = some t := (lookup_eq_some_iff hu).2 ⟨ht, rfl⟩
    have honly : ∀ t' ∈ existingOpen db, t'.tradeId = t.tradeId → t' = t := fun t' ht' he =>
      hu.eq_of_key (mem_existingOpen ht').1 ht he
    rw [htables]
    refine (htaken.open_ t.tradeId (by simp [hrow]) fun t' ht' he => ?_).trans
      (hspec.same t.tradeId fun t' ht' he hb => ?_).sameStatus
    · rw [hrow, honly t' ht' he]
      rfl
    · obtain rfl := honly t' (mem_disappeared.1 (mem_closes ht')).1 he
      exact hnot ht' ((hsame t' ht').books_iff.1 hb)
  booked := by
    intro t ht hb
    have hsame := hsame t ht
    have h := hspec.booked t ht (hsame.books_iff.2 hb)
    rwa [hsame.exitedRow_eq, hsame.exits, hsame.exitRow_eq, ← htables] at h
  rows := by
    intro r hr
    rw [htables] at hr
    rcases hspec.rows r hr with hr | ⟨t, ht, rfl⟩
    · exact (htaken.rows r hr).imp_right .inl
    · exact .inr (.inr ⟨t, ht, (hsame t ht).exitedRow_eq⟩)
  unique := by
    rw [htables]
    exact hspec.unique (htaken.unique hu)
  account := haccount

/-- **What a sync does**: it records the exits of exactly those disappeared trades that it gets to
and that meet `Books`, whether it returns or raises. -/
theorem syncPositions_synced {db : SyncTables} (hu : UniqueKey Trade.tradeId db.tables.trades) :
    Synced call db (syncPositions call db).2 := by
  cases hlive : takeLive call (existingOpen db) (liveById call) ⟨db, db⟩ with
  | error e =>
    have hcloses : call.closes db = [] := by simp only [SyncCall.closes, hlive]
    have hresult : (syncPositions call db).2 = db := by simp only [syncPositions, hlive]
    rw [hresult]
    exact Synced.of_unchanged hu (by simp [hcloses])
  | ok s =>
    set D := disappeared call (existingOpen db) with hD
    have hcloses : call.closes db = reached call D := by simp only [SyncCall.closes, hlive, hD]
    have htaken : Taken (existingOpen db) (liveById call) db s.working := takeLive_taken hlive
    obtain ⟨hall, hspec, hresult⟩ := closeAll_of_live hu hlive hD
    set s' := (closeAll call D s).2 with hs'
    have hsame : ∀ t ∈ call.closes db, Same t.tradeId db.tables s.working.tables := fun t ht =>
      hall t (hD ▸ mem_closes ht)
    rw [← hcloses] at hspec hresult
    have haccount : s'.working.account = db.account := hspec.account.trans htaken.account
    have hrun : closeAll call D s = ((closeAll call D s).1, s') := rfl
    rw [hresult] at hrun
    by_cases hreached : call.closes db = D
    · rw [if_pos hreached] at hrun
      refine Synced.of_closedAll hu htaken hsame hspec ?_ ?_
      · simp only [syncPositions, hlive, ← hD, hrun]
      · simp only [syncPositions, hlive, ← hD, hrun, haccount]
    · rw [if_neg hreached] at hrun
      have hdb : (syncPositions call db).2 = s'.committed := by
        simp only [syncPositions, hlive, ← hD, hrun]
      rw [hdb]
      rcases hspec.committed with ⟨htables, hacc⟩ | ⟨hcommitted, -, hnone⟩
      · exact Synced.of_closedAll hu htaken hsame hspec htables (by rw [hacc, htaken.account])
      · rw [hcommitted, takeLive_committed hlive]
        refine Synced.of_unchanged hu fun t ht hb => ?_
        exact hnone t ht ((hsame t ht).books_iff.2 hb)

variable (call) in
/-- A sync in which nothing raises returns the exits it has recorded, unless a new trade id is
taken. -/
theorem syncPositions_cases {db : SyncTables} (hu : UniqueKey Trade.tradeId db.tables.trades)
    (hreal : ∀ t ∈ disappeared call (existingOpen db), ¬Raises call t) :
    (∃ e, takeLive call (existingOpen db) (liveById call) ⟨db, db⟩ = .error e ∧
      syncPositions call db = (.error e, db)) ∨
    ∃ s, takeLive call (existingOpen db) (liveById call) ⟨db, db⟩ = .ok s ∧
      call.closes db = disappeared call (existingOpen db) ∧
      (syncPositions call db).1 = .ok (((disappeared call (existingOpen db)).filter
        (Books call db.tables)).map (exitedRow call db.tables)) := by
  cases hlive : takeLive call (existingOpen db) (liveById call) ⟨db, db⟩ with
  | error e => exact .inl ⟨e, rfl, by simp only [syncPositions, hlive]⟩
  | ok s =>
    set D := disappeared call (existingOpen db) with hD
    have hreached : reached call D = D :=
      List.takeWhile_eq_self_iff.2 fun t ht => by simpa using hreal t ht
    obtain ⟨-, -, hresult⟩ := closeAll_of_live hu hlive hD
    rw [if_pos hreached] at hresult
    obtain ⟨s', hrun⟩ : ∃ s', closeAll call D s = (.ok ((D.filter (Books call db.tables)).map
      (exitedRow call db.tables)), s') := ⟨_, Prod.ext hresult rfl⟩
    exact .inr ⟨s, rfl, by simp only [SyncCall.closes, hlive, ← hD, hreached],
      by simp only [syncPositions, hlive, ← hD, hrun]⟩

/-! ## A sample trade -/

/-- A long trade of two units. -/
def sampleTrade : Trade :=
  { tradeId := "COINDCX-1", symbol := "BTC/INR", side := .long, mode := .live, entryPrice := 90
    quantity := 2, entryTime := Timedelta.hours 12, source := .coindcxSync, accountId := some 0
    exchangePositionId := some "p1", lastSyncedAt := some (Timedelta.hours 12) }

def sampleTables : SyncTables := { tables := { trades := [sampleTrade] }, account := { id := 0 } }

/-- A fill of one unit that closes a long position, one hour after the trade's entry. -/
def sampleFill (orderId : String) (price : ℚ) : Fill :=
  { orderId, timestamp := Timedelta.hours 13, price, quantity := 1, side := .sell }

/-- A sync that is shown no position and these fills. -/
def sampleSync (fills : List Fill) : SyncCall :=
  { positions := some [], trades := fun _ _ _ => some fills, now := Timedelta.hours 14
    createdAt := fun _ => Timedelta.hours 14, askedAt := fun _ => Timedelta.hours 14
    closedAt := fun _ => Timedelta.hours 14, uuidHex := fun hex => hex }

end AlphaOne.Exchange

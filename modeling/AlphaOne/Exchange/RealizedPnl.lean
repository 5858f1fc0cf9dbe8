import AlphaOne.Exchange.Mirror

/-!
# The P&L a position shows and the P&L its trade books

`get_open_positions` computes the unrealized P&L of a position from its signed quantity. The trade
that a sync creates for it keeps the leverage of the position too, and the journal multiplies what
it books on an exit by that leverage. The two agree on the sign and on the quantity, so that they
differ exactly by the factor: `booked_eq_unrealized_iff`.
-/

namespace AlphaOne.Exchange

open Foundations Journal

/-- The unrealized P&L that `get_open_positions` computes for a row at a mark price. -/
def unrealizedPnlAt (p : PositionRow) (price : ℚ) : Option ℚ :=
  (positionOf { p with markPrice := price }).bind Position.unrealizedPnl

/-- The P&L that is booked on a trade, before its fees. -/
def grossPnl (t : Trade) : ℚ := t.pnl + t.fees

/-- The exit of the whole quantity of a trade. -/
def fullExit (t : Trade) (price : ℚ) (timestamp : Datetime) (reason note : Option String) :
    RecordExitArgs :=
  { tradeId := t.tradeId, exitPrice := price, quantity := t.quantity, timestamp, reason, note }

variable {call : SyncCall} {p : PositionRow} {pos : Position} {s s' : Session} {t : Trade}
  {price : ℚ}

theorem unrealizedPnlAt_of_open (h : p.activePos ≠ 0) (hprice : 0 < price) :
    unrealizedPnlAt p price = some ((price - p.avgPrice) * p.activePos) := by
  simp [unrealizedPnlAt, positionOf, h, hprice.ne']

/-- The position of a row, as far as its P&L goes. -/
theorem positionOf_eq_some (h : positionOf p = some pos) :
    p.activePos ≠ 0 ∧ pos.entryPrice = p.avgPrice ∧ 0 < pos.quantity ∧
      pos.side.sign * pos.quantity = p.activePos := by
  have hopen : p.activePos ≠ 0 := by
    intro hzero
    simp [positionOf, hzero] at h
  rw [positionOf, dif_neg hopen] at h
  obtain rfl := Option.some.inj h
  refine ⟨hopen, rfl, abs_pos.2 hopen, ?_⟩
  dsimp only
  split_ifs with hlong
  · rw [Side.sign, one_mul, abs_of_pos hlong]
  · rw [Side.sign, abs_of_nonpos (not_lt.1 hlong)]
    ring

/-- What an exit books is its directed price move times the leverage. -/
theorem grossPnl_withExit (t : Trade) (args : RecordExitArgs) (q : ℚ) (full : Bool) :
    grossPnl (withExit t args q full) = grossPnl t +
      t.side.sign * t.leverage * (args.exitPrice - t.entryPrice) * args.quantity := by
  rw [grossPnl, withExit_pnl, grossPnl]
  ring

/-- The exit of the whole quantity of a trade without exits is accepted, and closes it. -/
theorem recordExit_fullExit {db : Tables} (hrow : db.trade? t.tradeId = some t)
    (hstatus : t.status = .open_) (hnone : db.exits t.tradeId = []) (hprice : 0 < price)
    (hquantity : 0 < t.quantity) (timestamp : Datetime) (reason note : Option String) :
    ∃ closed, (recordExit (fullExit t price timestamp reason note) db).1 = .ok closed ∧
      closed.status = .closed ∧ grossPnl closed =
        grossPnl t + t.side.sign * t.leverage * (price - t.entryPrice) * t.quantity := by
  have hclosed : closedQuantity db t.tradeId = 0 := by simp [closedQuantity, hnone]
  have htolerance := tolerance_pos
  have haccepted : ExitAccepted (fullExit t price timestamp reason note) db t :=
    { row := hrow
      not_closed := by simp [hstatus]
      not_cancelled := by simp [hstatus]
      price_pos := hprice
      quantity_pos := hquantity
      quantity_le := by
        change t.quantity ≤ t.quantity - closedQuantity db t.tradeId + tolerance
        rw [hclosed]
        linarith }
  have hfull : isFullClose (fullExit t price timestamp reason note) db t = true := by
    simp only [isFullClose, fullExit, hclosed, ge_iff_le, decide_eq_true_eq]
    linarith
  refine ⟨_, congrArg Prod.fst (recordExit_of_accepted haccepted), ?_, ?_⟩
  · rw [exitedTrade, withExit_status, hfull, if_pos rfl]
  · rw [exitedTrade, grossPnl_withExit]
    rfl

/-- The trade of a new position is in the tables, open and without exits. -/
theorem newTrade_row (howned : ExitsOwned s.working)
    (hcreate : createTradeFromPosition call pos s = .ok s') :
    let t := newTrade call s.working pos
    s'.working.tables.trade? t.tradeId = some t ∧ s'.working.tables.exits t.tradeId = [] := by
  obtain ⟨htrades, -, -, hexits, hfresh⟩ := createTradeFromPosition_eq ⟨rfl, rfl⟩ hcreate
  constructor
  · rw [Tables.trade?, htrades, lookup, List.find?_append, List.find?_eq_none.2]
    · simp
    · intro r hr
      simpa using hfresh r hr
  · rw [hexits]
    by_contra hne
    obtain ⟨r, hr, hid⟩ := howned _ hne
    exact hfresh r hr hid

/-- **The booked and the shown P&L.** Closing the whole quantity of the trade of a position at a
price books, before fees, the unrealized P&L of the position at that price exactly when the trade's
leverage is one or the price is the entry price. -/
theorem booked_eq_unrealized_iff (hpos : positionOf p = some pos) (howned : ExitsOwned s.working)
    (hcreate : createTradeFromPosition call pos s = .ok s') (hprice : 0 < price)
    (timestamp : Datetime) (reason note : Option String) :
    (∃ closed, (recordExit (fullExit (newTrade call s.working pos) price timestamp reason note)
        s'.working.tables).1 = .ok closed ∧ closed.status = .closed ∧
        some (grossPnl closed) = unrealizedPnlAt p price) ↔
      leverageOf pos = 1 ∨ price = p.avgPrice := by
  obtain ⟨hopen, hentry, hquantity, hsigned⟩ := positionOf_eq_some hpos
  obtain ⟨hrow, hnone⟩ := newTrade_row howned hcreate
  obtain ⟨closed, hresult, hstatus, hgross⟩ :=
    recordExit_fullExit hrow rfl hnone hprice hquantity timestamp reason note
  have hbooked : grossPnl closed = leverageOf pos * ((price - p.avgPrice) * p.activePos) := by
    have hfresh : grossPnl (newTrade call s.working pos) = 0 := by
      simp [grossPnl, newTrade, tradeOfPosition]
    rw [hgross, hfresh, ← hsigned, ← hentry]
    change 0 + pos.side.sign * leverageOf pos * (price - pos.entryPrice) * pos.quantity = _
    ring
  have hiff : some (grossPnl closed) = unrealizedPnlAt p price ↔
      leverageOf pos = 1 ∨ price = p.avgPrice := by
    rw [unrealizedPnlAt_of_open hopen hprice, Option.some.injEq, hbooked, mul_left_eq_self₀,
      mul_eq_zero, or_iff_left hopen, sub_eq_zero, Int.cast_eq_one]
  constructor
  · rintro ⟨closed', hresult', -, heq⟩
    rw [hresult] at hresult'
    obtain rfl := Except.ok.inj hresult'
    exact hiff.1 heq
  · exact fun h => ⟨closed, hresult, hstatus, hiff.2 h⟩

/-- A session on an account without trades. -/
def emptySession : Session := ⟨{ account := { id := 0 } }, { account := { id := 0 } }⟩

/-- The position of a row, when it is open. -/
def samplePosition (leverage : Option ℚ) : Position :=
  { exchangePositionId := "p1", symbol := "B-BTC_INR", side := .long, quantity := 2
    entryPrice := 90, markPrice := none, liquidationPrice := none, leverage, margin := 0
    unrealizedPnl := none, quantity_pos := by norm_num }

/-- The session after the trade of the sample position has been created. -/
def openedSession (leverage : Option ℚ) : Session :=
  match createTradeFromPosition (sampleSync []) (samplePosition leverage) emptySession with
  | .ok s => s
  | .error _ => emptySession

/-- Without leverage two units bought at 90 and sold at 95 book the 10 that they have shown. -/
theorem booked_eq_unrealized_unleveraged : ∃ closed, (recordExit (fullExit
      (newTrade (sampleSync []) emptySession.working (samplePosition none)) 95 0 none none)
      (openedSession none).working.tables).1 = .ok closed ∧ closed.status = .closed ∧
      some (grossPnl closed) = unrealizedPnlAt sampleRow 95 := by
  have hpos : positionOf sampleRow = some (samplePosition none) := by decide +kernel
  have howned : ExitsOwned emptySession.working := by simp [ExitsOwned, emptySession, Tables.exits]
  exact (booked_eq_unrealized_iff hpos howned rfl (by norm_num) 0 none none).2
    (Or.inl (by decide +kernel))

/-- **At a leverage of ten they book 100.** -/
theorem booked_ne_unrealized_leveraged : ¬∀ (call : SyncCall) (p : PositionRow) (pos : Position)
    (s s' : Session) (price : ℚ), positionOf p = some pos → ExitsOwned s.working →
      createTradeFromPosition call pos s = .ok s' → 0 < price → ∃ closed,
        (recordExit (fullExit (newTrade call s.working pos) price 0 none none)
          s'.working.tables).1 = .ok closed ∧ closed.status = .closed ∧
          some (grossPnl closed) = unrealizedPnlAt p price := by
  intro h
  obtain ⟨closed, hresult, -, heq⟩ := h (sampleSync []) { sampleRow with leverage := some 10 }
    (samplePosition (some 10)) emptySession (openedSession (some 10)) 95 (by decide +kernel)
    (by simp [ExitsOwned, emptySession, Tables.exits]) rfl (by norm_num)
  have hne : (recordExit (fullExit (newTrade (sampleSync []) emptySession.working
      (samplePosition (some 10))) 95 0 none none)
      (openedSession (some 10)).working.tables).1.toOption.map grossPnl ≠
        unrealizedPnlAt { sampleRow with leverage := some 10 } 95 := by
    decide +kernel
  rw [hresult] at hne
  exact hne heq

end AlphaOne.Exchange

import AlphaOne.Foundations.Slices
import AlphaOne.Journal.Journal
import Mathlib.Tactic.Linarith

/-!
# The lifecycle of a journal trade

The journal's rows are a ledger: a trade's exits are slices of its quantity, its exit price is
their average price and its P&L the gain of closing their total at that price, less the fees.
`Ledger db t` says so of one trade, `Tables.Consistent` of every trade of the tables, together
with the two database constraints the calls rely on.

Every call either raises and leaves the tables as they were, or is one of three table updates
(`perform_cases`), each of which keeps the tables consistent (`consistent_step`). The
lifecycle of a trade over any sequence of calls (`journal_lifecycle`) is read off the invariant.
-/

namespace AlphaOne.Journal

open Foundations

theorem tolerance_pos : 0 < tolerance := by norm_num [tolerance]

/-- The exits of a trade as slices of its quantity. -/
def Tables.slices (db : Tables) (tradeId : String) : List (Slice ℚ) :=
  (db.exits tradeId).map fun e => ⟨e.price, e.quantity⟩

theorem closedQuantity_eq_total (db : Tables) (tradeId : String) :
    closedQuantity db tradeId = Slice.total (db.slices tradeId) := by
  simp [closedQuantity, Tables.slices, Slice.total, Function.comp_def]

/-- The quantity of a trade that no exit has closed. -/
def remaining (db : Tables) (t : Trade) : ℚ := t.quantity - closedQuantity db t.tradeId

/-- What a status says about the exits of a trade and its remaining quantity. -/
def StatusAgrees (status : TradeStatus) (hasExit : Prop) (remaining : ℚ) : Prop :=
  match status with
  | .open_ | .cancelled => ¬hasExit
  | .partiallyClosed => hasExit ∧ tolerance < remaining
  | .closed => hasExit ∧ remaining ≤ tolerance
  | .unknown => False

/-- The row of a trade agrees with its exit executions. -/
structure Ledger (db : Tables) (t : Trade) : Prop where
  exits_pos : ∀ s ∈ db.slices t.tradeId, 0 < s.quantity
  closed_le : closedQuantity db t.tradeId ≤ t.quantity + tolerance
  status : StatusAgrees t.status (db.exits t.tradeId ≠ []) (remaining db t)
  exitPrice : t.exitPrice.getD 0 * closedQuantity db t.tradeId =
    Slice.notional (db.slices t.tradeId)
  pnl : t.pnl = Slice.gain (t.side.sign * t.leverage) t.entryPrice (db.slices t.tradeId) - t.fees

/-- The tables satisfy the schema's constraints and every row agrees with its executions. -/
structure Tables.Consistent (db : Tables) : Prop where
  unique : UniqueKey Trade.tradeId db.trades
  foreign : ∀ e ∈ db.executions, ∃ t ∈ db.trades, t.tradeId = e.tradeId
  ledger : ∀ t ∈ db.trades, Ledger db t

theorem consistent_empty : Tables.Consistent {} where
  unique := List.nodup_nil
  foreign := by simp
  ledger := by simp

/-! ## What a call does -/

/-- The conditions under which `recordExit` books an exit on `trade`. -/
structure ExitAccepted (args : RecordExitArgs) (db : Tables) (trade : Trade) : Prop where
  row : db.trade? args.tradeId = some trade
  not_closed : trade.status ≠ .closed
  not_cancelled : trade.status ≠ .cancelled
  price_pos : 0 < args.exitPrice
  quantity_pos : 0 < args.quantity
  quantity_le : args.quantity ≤ trade.quantity - closedQuantity db args.tradeId + tolerance

/-- The test that makes an exit a full close. -/
def isFullClose (args : RecordExitArgs) (db : Tables) (trade : Trade) : Bool :=
  args.quantity ≥ trade.quantity - closedQuantity db args.tradeId - tolerance

/-- The execution an accepted exit inserts. -/
def exitExecution (args : RecordExitArgs) (db : Tables) (trade : Trade) : TradeExecution :=
  { tradeId := args.tradeId
    executionType := if isFullClose args db trade then .exit else .partialExit
    price := args.exitPrice
    quantity := args.quantity
    timestamp := args.timestamp
    note := args.note.map .text }

/-- The row an accepted exit leaves. -/
def exitedTrade (args : RecordExitArgs) (db : Tables) (trade : Trade) : Trade :=
  withExit trade args (closedQuantity db args.tradeId) (isFullClose args db trade)

theorem recordExit_of_accepted {args : RecordExitArgs} {db : Tables} {trade : Trade}
    (h : ExitAccepted args db trade) :
    recordExit args db = (.ok (exitedTrade args db trade),
      { trades := save Trade.tradeId (exitedTrade args db trade) db.trades
        executions := db.executions ++ [exitExecution args db trade] }) := by
  have hfinal : ¬(trade.status = .closed ∨ trade.status = .cancelled) := by
    rintro (h' | h')
    · exact h.not_closed h'
    · exact h.not_cancelled h'
  have hpos : ¬(args.exitPrice ≤ 0 ∨ args.quantity ≤ 0) := by
    rintro (h' | h')
    · exact absurd h.price_pos (not_lt.2 h')
    · exact absurd h.quantity_pos (not_lt.2 h')
  simp only [recordExit, h.row, if_neg hfinal, if_neg hpos, gt_iff_lt, not_lt.2 h.quantity_le,
    if_false]
  rfl

/-- **What `recordExit` does**: it raises its own error and changes nothing, or its checks passed
and it books the exit. -/
theorem recordExit_cases (args : RecordExitArgs) (db : Tables) :
    (∃ e, recordExit args db = (.error (.tradeJournalError e), db)) ∨
      ∃ trade, ExitAccepted args db trade := by
  cases hrow : db.trade? args.tradeId with
  | none => exact Or.inl ⟨.noTrade args.tradeId, by simp only [recordExit, hrow]⟩
  | some trade =>
    by_cases hfinal : trade.status = .closed ∨ trade.status = .cancelled
    · exact Or.inl ⟨.alreadyFinal args.tradeId trade.status, by
        simp only [recordExit, hrow, if_pos hfinal]⟩
    by_cases hpos : args.exitPrice ≤ 0 ∨ args.quantity ≤ 0
    · exact Or.inl ⟨.exitNotPositive, by
        simp only [recordExit, hrow, if_neg hfinal, if_pos hpos]⟩
    by_cases hle : args.quantity > trade.quantity - closedQuantity db args.tradeId + tolerance
    · exact Or.inl ⟨.exceedsRemaining args.tradeId args.quantity
        (trade.quantity - closedQuantity db args.tradeId), by
        simp only [recordExit, hrow, if_neg hfinal, if_neg hpos, if_pos hle]⟩
    push Not at hfinal hpos hle
    exact Or.inr ⟨trade, hrow, hfinal.1, hfinal.2, hpos.1, hpos.2, hle⟩

@[simp] theorem withExit_tradeId (t : Trade) (args : RecordExitArgs) (q : ℚ) (full : Bool) :
    (withExit t args q full).tradeId = t.tradeId := by
  cases full <;> rfl

@[simp] theorem withExit_quantity (t : Trade) (args : RecordExitArgs) (q : ℚ) (full : Bool) :
    (withExit t args q full).quantity = t.quantity := by
  cases full <;> rfl

theorem withExit_status (t : Trade) (args : RecordExitArgs) (q : ℚ) (full : Bool) :
    (withExit t args q full).status = if full then .closed else .partiallyClosed := by
  cases full <;> rfl

theorem withExit_exitPrice (t : Trade) (args : RecordExitArgs) (q : ℚ) (full : Bool) :
    (withExit t args q full).exitPrice =
      some ((t.exitPrice.getD 0 * q + args.exitPrice * args.quantity) / (q + args.quantity)) := by
  cases full <;> rfl

/-- The slice P&L and the slice fee go into the trade together. -/
theorem withExit_pnl (t : Trade) (args : RecordExitArgs) (q : ℚ) (full : Bool) :
    (withExit t args q full).pnl = t.pnl + t.fees - (withExit t args q full).fees +
      t.side.sign * t.leverage * (args.exitPrice - t.entryPrice) * args.quantity := by
  have h := computeSlicePnl_pnl t.side t.entryPrice args.exitPrice args.quantity t.leverage
    defaultFeeRate
  have hp : (withExit t args q full).pnl = t.pnl +
      (computeSlicePnl t.side t.entryPrice args.exitPrice args.quantity t.leverage).pnl := by
    cases full <;> rfl
  have hf : (withExit t args q full).fees = t.fees +
      (computeSlicePnl t.side t.entryPrice args.exitPrice args.quantity t.leverage).fees := by
    cases full <;> rfl
  rw [hp, hf, h]
  ring

theorem withExit_entry (t : Trade) (args : RecordExitArgs) (q : ℚ) (full : Bool) :
    (withExit t args q full).entryPrice = t.entryPrice ∧
      (withExit t args q full).side = t.side ∧
      (withExit t args q full).leverage = t.leverage := by
  cases full <;> exact ⟨rfl, rfl, rfl⟩

/-- A row no exit has been booked on. -/
structure FreshTrade (t : Trade) : Prop where
  status : t.status = .open_
  exitPrice : t.exitPrice = none
  pnl : t.pnl = 0
  fees : t.fees = 0
  quantity_pos : 0 < t.quantity

/-- The row `cancelTrade` leaves differs from the one it found in these fields only. -/
def cancelledTrade (t : Trade) (reason : Option String) (time : Option Datetime) : Trade :=
  { t with status := .cancelled, exitReason := reason, exitTime := time }

/-- The table updates a call that returns performs. -/
inductive Effect (db : Tables) : Tables → Prop
  | opened (t : Trade) (e : TradeExecution) (hnew : ∀ r ∈ db.trades, r.tradeId ≠ t.tradeId)
      (ht : FreshTrade t) (he : e.executionType = .entry) (hid : e.tradeId = t.tradeId) :
      Effect db ⟨db.trades ++ [t], db.executions ++ [e]⟩
  | exited (args : RecordExitArgs) (t : Trade) (h : ExitAccepted args db t) :
      Effect db ⟨save Trade.tradeId (exitedTrade args db t) db.trades,
        db.executions ++ [exitExecution args db t]⟩
  | cancelled (t : Trade) (hrow : db.trade? t.tradeId = some t) (hopen : t.status = .open_)
      (reason : Option String) (time : Option Datetime) :
      Effect db { db with
        trades := save Trade.tradeId (cancelledTrade t reason time) db.trades }

theorem openTrade_cases (args : OpenTradeArgs) (uuidHex : String) (db : Tables) :
    (∃ f, openTrade args uuidHex db = (.error f, db)) ∨
      ∃ t, (openTrade args uuidHex db).1 = .ok t ∧ Effect db (openTrade args uuidHex db).2 := by
  cases hside : Side.ofString? args.side with
  | none =>
    exact Or.inl ⟨.tradeJournalError (.badSide args.side), by simp only [openTrade, hside]⟩
  | some side =>
    by_cases hpos : args.entryPrice ≤ 0 ∨ args.quantity ≤ 0
    · exact Or.inl ⟨.tradeJournalError .entryNotPositive, by
        simp only [openTrade, hside, if_pos hpos]⟩
    by_cases hdup : (db.trade? (newTradeId uuidHex)).isSome = true
    · exact Or.inl ⟨.integrityError, by
        simp only [openTrade, hside, if_neg hpos, if_pos hdup]⟩
    simp only [openTrade, hside, if_neg hpos, if_neg hdup]
    refine Or.inr ⟨_, rfl, .opened _ _ ?_ ⟨rfl, rfl, rfl, rfl, ?_⟩ rfl rfl⟩
    · rw [Bool.not_eq_true, Option.isSome_eq_false_iff, Option.isNone_iff_eq_none] at hdup
      exact lookup_eq_none_iff.1 hdup
    · push Not at hpos
      exact hpos.2

theorem cancelTrade_cases (tradeId : String) (reason : Option String) (utcnow : Datetime)
    (db : Tables) :
    (∃ f, cancelTrade tradeId reason utcnow db = (.error f, db)) ∨
      ∃ t, (cancelTrade tradeId reason utcnow db).1 = .ok t ∧
        Effect db (cancelTrade tradeId reason utcnow db).2 := by
  cases hrow : db.trade? tradeId with
  | none =>
    exact Or.inl ⟨.tradeJournalError (.noTrade tradeId), by simp only [cancelTrade, hrow]⟩
  | some t =>
    obtain rfl := key_of_lookup hrow
    by_cases hopen : t.status ≠ .open_
    · exact Or.inl ⟨.tradeJournalError (.notCancellable t.tradeId t.status), by
        simp only [cancelTrade, hrow, if_pos hopen]⟩
    simp only [cancelTrade, hrow, if_neg hopen]
    exact Or.inr ⟨_, rfl, .cancelled t hrow (not_not.1 hopen) _ _⟩

/-- **What a call does**: it raises and leaves the tables as they were, or it returns and
performs one of the three updates. -/
theorem perform_cases (c : Call) (db : Tables) :
    (∃ f, c.perform db = (.error f, db)) ∨
      ∃ t, (c.perform db).1 = .ok t ∧ Effect db (c.perform db).2 := by
  cases c with
  | openTrade args uuidHex => exact openTrade_cases args uuidHex db
  | recordExit args =>
    rcases recordExit_cases args db with ⟨e, h⟩ | ⟨t, h⟩
    · exact Or.inl ⟨_, h⟩
    · simp only [Call.perform, recordExit_of_accepted h]
      exact Or.inr ⟨_, rfl, .exited args t h⟩
  | cancelTrade tradeId reason utcnow => exact cancelTrade_cases tradeId reason utcnow db

/-! ## The invariant -/

/-- The ledger of a trade depends on the tables only through the exits of the trade. -/
theorem Ledger.congr {db db' : Tables} {t : Trade} (h : Ledger db t)
    (he : db'.exits t.tradeId = db.exits t.tradeId) : Ledger db' t := by
  have hs : db'.slices t.tradeId = db.slices t.tradeId := by simp only [Tables.slices, he]
  have hc : closedQuantity db' t.tradeId = closedQuantity db t.tradeId := by
    rw [closedQuantity_eq_total, closedQuantity_eq_total, hs]
  constructor
  · rw [hs]; exact h.exits_pos
  · rw [hc]; exact h.closed_le
  · rw [he, remaining, hc]; exact h.status
  · rw [hs, hc]; exact h.exitPrice
  · rw [hs]; exact h.pnl

/-- A trade without exits is a consistent row. -/
theorem FreshTrade.ledger {db : Tables} {t : Trade} (ht : FreshTrade t)
    (he : db.exits t.tradeId = []) : Ledger db t := by
  have hs : db.slices t.tradeId = [] := by simp [Tables.slices, he]
  have hc : closedQuantity db t.tradeId = 0 := by rw [closedQuantity_eq_total, hs]; rfl
  have hq := ht.quantity_pos
  have htolerance := tolerance_pos
  constructor
  · simp [hs]
  · rw [hc]; linarith
  · simp [StatusAgrees, ht.status, he]
  · simp [hs, hc]
  · simp [hs, ht.pnl, ht.fees]

theorem Ledger.cancelled {db db' : Tables} {t : Trade} (h : Ledger db t) (hopen : t.status = .open_)
    (reason : Option String) (time : Option Datetime)
    (he : db'.executions = db.executions) : Ledger db' (cancelledTrade t reason time) := by
  have hex : db'.exits t.tradeId = db.exits t.tradeId := by simp only [Tables.exits, he]
  have h' := h.congr hex
  refine ⟨h'.exits_pos, h'.closed_le, ?_, h'.exitPrice, h'.pnl⟩
  have hs := h'.status
  rw [hopen] at hs
  exact hs

section Exit

variable {args : RecordExitArgs} {db db' : Tables} {t : Trade}

variable (args db t) in
theorem exitExecution_isExit : (exitExecution args db t).isExit = true := by
  simp only [exitExecution, TradeExecution.isExit]
  cases isFullClose args db t <;> rfl

theorem ExitAccepted.tradeId (h : ExitAccepted args db t) : t.tradeId = args.tradeId :=
  key_of_lookup h.row

/-- The exits of the trade after an accepted exit: one more. -/
theorem ExitAccepted.exits (h : ExitAccepted args db t)
    (hdb : db'.executions = db.executions ++ [exitExecution args db t]) :
    db'.exits t.tradeId = db.exits t.tradeId ++ [exitExecution args db t] := by
  have he : (exitExecution args db t).tradeId = t.tradeId := h.tradeId.symm
  have hx := exits_append_exit db db'.trades (exitExecution_isExit args db t) t.tradeId
  rw [if_pos he] at hx
  rw [← hx, ← hdb]

theorem ExitAccepted.slices (h : ExitAccepted args db t)
    (hdb : db'.executions = db.executions ++ [exitExecution args db t]) :
    db'.slices t.tradeId = db.slices t.tradeId ++ [⟨args.exitPrice, args.quantity⟩] := by
  simp [Tables.slices, h.exits hdb, exitExecution]

/-- **An accepted exit keeps the ledger of its trade.** -/
theorem ExitAccepted.ledger (h : ExitAccepted args db t) (hl : Ledger db t)
    (hdb : db'.executions = db.executions ++ [exitExecution args db t]) :
    Ledger db' (exitedTrade args db t) := by
  set t' := exitedTrade args db t with ht'
  have hid : t'.tradeId = t.tradeId := withExit_tradeId ..
  have hslices := h.slices hdb
  have hclosed : closedQuantity db' t.tradeId = closedQuantity db t.tradeId + args.quantity := by
    rw [closedQuantity_eq_total, closedQuantity_eq_total, hslices]
    simp
  have hpos : 0 < closedQuantity db t.tradeId + args.quantity := by
    have h0 := Slice.total_nonneg hl.exits_pos
    rw [← closedQuantity_eq_total] at h0
    have := h.quantity_pos
    linarith
  have hle := h.quantity_le
  rw [← h.tradeId] at hle
  obtain ⟨hentry, hside, hlev⟩ := withExit_entry t args (closedQuantity db args.tradeId)
    (isFullClose args db t)
  constructor
  · rw [hid, hslices]
    intro s hs
    rcases List.mem_append.1 hs with hs | hs
    · exact hl.exits_pos s hs
    · obtain rfl := List.mem_singleton.1 hs
      exact h.quantity_pos
  · rw [hid, hclosed, ht', exitedTrade, withExit_quantity]
    linarith
  · have hne : db'.exits t'.tradeId ≠ [] := by rw [hid, h.exits hdb]; simp
    have hrem : remaining db' t' =
        t.quantity - closedQuantity db args.tradeId - args.quantity := by
      rw [remaining, hid, hclosed, h.tradeId, ht', exitedTrade, withExit_quantity]
      ring
    rw [hrem, ht', exitedTrade, withExit_status]
    -- the full-close test is the remaining-quantity test of the status
    by_cases hfull : isFullClose args db t = true
    · rw [if_pos hfull]
      simp only [isFullClose, ge_iff_le, decide_eq_true_eq] at hfull
      exact ⟨hne, by linarith⟩
    · rw [if_neg hfull]
      simp only [isFullClose, ge_iff_le, decide_eq_true_eq, not_le] at hfull
      exact ⟨hne, by linarith⟩
  · have hprice := hl.exitPrice
    have hc : closedQuantity db args.tradeId = closedQuantity db t.tradeId := by rw [h.tradeId]
    rw [hid, hclosed, hslices, ht', exitedTrade, withExit_exitPrice, Option.getD_some, hc,
      div_mul_cancel₀ _ hpos.ne', hprice, Slice.notional_append, Slice.notional_singleton]
  · have hpnl := hl.pnl
    have hc : closedQuantity db args.tradeId = closedQuantity db t.tradeId := by rw [h.tradeId]
    have hp := withExit_pnl t args (closedQuantity db args.tradeId) (isFullClose args db t)
    rw [Slice.gain_eq] at hpnl
    rw [hid, hslices, ht', exitedTrade, hp, hentry, hside, hlev, Slice.gain_eq,
      Slice.notional_append, Slice.total_append, Slice.notional_singleton, Slice.total_singleton,
      hpnl]
    ring

end Exit

/-- A saved row replaces the row of its trade and no other. -/
theorem ledger_save {db db' : Tables} {t t' : Trade} (hc : db.Consistent)
    (htrades : db'.trades = save Trade.tradeId t' db.trades) (hid : t'.tradeId = t.tradeId)
    (hother : ∀ id, id ≠ t.tradeId → db'.exits id = db.exits id) (ht' : Ledger db' t') :
    ∀ r ∈ db'.trades, Ledger db' r := by
  intro r hr
  rw [htrades, mem_save] at hr
  rcases hr with ⟨hr, hne⟩ | ⟨rfl, -⟩
  · exact (hc.ledger r hr).congr (hother _ (by rwa [← hid]))
  · exact ht'

/-- **Each update keeps the tables consistent.** -/
theorem Effect.consistent {db db' : Tables} (h : Effect db db') (hc : db.Consistent) :
    db'.Consistent := by
  cases h with
  | opened t e hnew ht he hid =>
    have hnone : db.exits t.tradeId = [] := by
      refine List.filter_eq_nil_iff.2 fun x hx hxt => ?_
      obtain ⟨r, hr, hrx⟩ := hc.foreign x hx
      simp only [decide_eq_true_eq] at hxt
      exact hnew r hr (hrx.trans hxt.1)
    refine ⟨hc.unique.append_singleton hnew, ?_, ?_⟩
    · intro x hx
      rcases List.mem_append.1 hx with hx | hx
      · obtain ⟨r, hr, hrx⟩ := hc.foreign x hx
        exact ⟨r, List.mem_append_left _ hr, hrx⟩
      · obtain rfl := List.mem_singleton.1 hx
        exact ⟨t, by simp, hid.symm⟩
    · intro r hr
      rcases List.mem_append.1 hr with hr | hr
      · exact (hc.ledger r hr).congr (exits_append_entry he _)
      · obtain rfl := List.mem_singleton.1 hr
        exact ht.ledger (by rw [exits_append_entry he, hnone])
  | exited args t h =>
    have hid : (exitedTrade args db t).tradeId = t.tradeId := withExit_tradeId ..
    have htrade : t ∈ db.trades := mem_of_lookup h.row
    refine ⟨hc.unique.save, ?_, ?_⟩
    · intro x hx
      have hkeys : (save Trade.tradeId (exitedTrade args db t) db.trades).map Trade.tradeId =
          db.trades.map Trade.tradeId := map_key_save
      have hmem : x.tradeId ∈ db.trades.map Trade.tradeId := by
        rcases List.mem_append.1 hx with hx | hx
        · obtain ⟨r, hr, hrx⟩ := hc.foreign x hx
          exact hrx ▸ List.mem_map_of_mem hr
        · obtain rfl := List.mem_singleton.1 hx
          have hx : (exitExecution args db t).tradeId = t.tradeId := h.tradeId.symm
          rw [hx]
          exact List.mem_map_of_mem htrade
      rw [← hkeys] at hmem
      exact List.mem_map.1 hmem
    · refine ledger_save (t := t) hc rfl hid ?_ (h.ledger (hc.ledger t htrade) rfl)
      intro id hne
      rw [exits_append_exit db _ (exitExecution_isExit args db t), if_neg, List.append_nil]
      exact fun he => hne (he.symm.trans h.tradeId.symm)
  | cancelled t hrow hopen reason time =>
    have htrade : t ∈ db.trades := mem_of_lookup hrow
    refine ⟨hc.unique.save, ?_, ?_⟩
    · intro x hx
      obtain ⟨r, hr, hrx⟩ := hc.foreign x hx
      have hkeys : (save Trade.tradeId (cancelledTrade t reason time) db.trades).map
          Trade.tradeId = db.trades.map Trade.tradeId := map_key_save
      have hmem : x.tradeId ∈ db.trades.map Trade.tradeId := hrx ▸ List.mem_map_of_mem hr
      rw [← hkeys] at hmem
      exact List.mem_map.1 hmem
    · exact ledger_save (t := t) hc rfl rfl (fun id _ => rfl)
        ((hc.ledger t htrade).cancelled hopen reason time rfl)

theorem consistent_step (db : Tables) (c : Call) (hc : db.Consistent) : (step db c).Consistent := by
  rcases perform_cases c db with ⟨f, h⟩ | ⟨t, -, h⟩
  · rw [step, h]
    exact hc
  · exact h.consistent hc

/-- A closed or cancelled row, and its executions, are out of reach of every update. -/
theorem Effect.final {db db' : Tables} (h : Effect db db') (hc : db.Consistent) {r : Trade}
    (hr : r ∈ db.trades) (hfinal : r.status = .closed ∨ r.status = .cancelled) :
    r ∈ db'.trades ∧ db'.exits r.tradeId = db.exits r.tradeId := by
  cases h with
  | opened t e hnew ht he hid => exact ⟨List.mem_append_left _ hr, exits_append_entry he _⟩
  | exited args t h =>
    have hne : r.tradeId ≠ t.tradeId := by
      intro heq
      obtain rfl := hc.unique.eq_of_key hr (mem_of_lookup h.row) heq
      rcases hfinal with hf | hf
      · exact h.not_closed hf
      · exact h.not_cancelled hf
    refine ⟨mem_save_of_ne hr ?_, ?_⟩
    · rwa [exitedTrade, withExit_tradeId]
    · rw [exits_append_exit db _ (exitExecution_isExit args db t), if_neg, List.append_nil]
      exact fun he => hne (he.symm.trans h.tradeId.symm)
  | cancelled t hrow hopen reason time =>
    have hne : r.tradeId ≠ t.tradeId := by
      intro heq
      obtain rfl := hc.unique.eq_of_key hr (mem_of_lookup hrow) heq
      rcases hfinal with hf | hf <;> exact absurd (hopen.symm.trans hf) (by decide)
    exact ⟨mem_save_of_ne hr hne, rfl⟩

/-! ## The lifecycle -/

/-- What the journal promises of a trade: its status, its exit price and its P&L are functions
of the exits recorded for it, which never exceed its quantity. -/
structure Lifecycle (db : Tables) (t : Trade) : Prop where
  exits_le : closedQuantity db t.tradeId ≤ t.quantity + tolerance
  closed_iff : t.status = .closed ↔
    db.exits t.tradeId ≠ [] ∧ t.quantity - closedQuantity db t.tradeId ≤ tolerance
  partiallyClosed_iff : t.status = .partiallyClosed ↔
    db.exits t.tradeId ≠ [] ∧ tolerance < t.quantity - closedQuantity db t.tradeId
  cancelled_exits : t.status = .cancelled → db.exits t.tradeId = []
  exitPrice_mul : t.exitPrice.getD 0 * closedQuantity db t.tradeId =
    ((db.exits t.tradeId).map fun e => e.price * e.quantity).sum
  pnl_eq : t.pnl = t.side.sign * t.leverage * (t.exitPrice.getD 0 - t.entryPrice) *
    closedQuantity db t.tradeId - t.fees

theorem Ledger.lifecycle {db : Tables} {t : Trade} (h : Ledger db t) : Lifecycle db t := by
  have hn : Slice.notional (db.slices t.tradeId) =
      ((db.exits t.tradeId).map fun e => e.price * e.quantity).sum := by
    simp [Slice.notional, Tables.slices, Function.comp_def]
  have hs := h.status
  simp only [remaining] at hs
  refine ⟨h.closed_le, ?_, ?_, ?_, h.exitPrice.trans hn, ?_⟩
  · cases hst : t.status <;> simp only [hst, StatusAgrees] at hs <;> grind
  · cases hst : t.status <;> simp only [hst, StatusAgrees] at hs <;> grind
  · intro hst
    rw [hst] at hs
    exact not_not.1 hs
  · rw [h.pnl, Slice.gain_eq, ← h.exitPrice, ← closedQuantity_eq_total]
    ring

/-- **The journal lifecycle.** Along every sequence of calls from an empty journal, every trade
keeps the facts of `Lifecycle`; no call changes a closed or cancelled trade or its exits; and a
call that raises `TradeJournalError` changes nothing at all. -/
theorem journal_lifecycle (calls : List Call) :
    Always step (fun db =>
      (∀ t ∈ db.trades, Lifecycle db t) ∧
      (∀ t ∈ db.trades, t.status = .closed ∨ t.status = .cancelled →
        ∀ c, t ∈ (step db c).trades ∧ (step db c).exits t.tradeId = db.exits t.tradeId) ∧
      ∀ c e, (c.perform db).1 = .error (.tradeJournalError e) → step db c = db) {} calls := by
  refine (Always.of_step consistent_step consistent_empty calls).mono fun db hc => ⟨?_, ?_, ?_⟩
  · exact fun t ht => (hc.ledger t ht).lifecycle
  · intro t ht hfinal c
    rcases perform_cases c db with ⟨f, h⟩ | ⟨r, -, h⟩
    · rw [step, h]
      exact ⟨ht, rfl⟩
    · exact h.final hc ht hfinal
  · intro c e he
    rcases perform_cases c db with ⟨f, h⟩ | ⟨r, h, -⟩
    · rw [step, h]
    · rw [h] at he
      exact absurd he (by simp)

end AlphaOne.Journal

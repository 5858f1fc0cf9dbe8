import AlphaOne.Paper.Rerun
import Mathlib.Algebra.BigOperators.Ring.List
import Mathlib.Data.List.ReduceOption

/-!
# The ledger of the paper trader

A position is sold in slices: one at each target it reaches, in the order of its targets, and what
is left at its stop or at its last target. `Alive` and `Exited` say, of the position as it was
opened, which fills it has had when it is in the book and when it has left it; a candle leads from
the one to the other (`alive_react`).

`ledger_kept` sums this up over every sequence of calls, with the trader's equity and the risk
engine's count of positions.
-/

namespace AlphaOne.Paper

open Foundations Journal Risk

/-! ## Fills -/

/-- The kinds of event, with what tells two of a kind apart. -/
inductive FillKind
  | partialExit (targetIndex : ℕ)
  | exit (reason : ExitReason)
  deriving DecidableEq, Repr

/-- What an event says of the quantity it takes off. -/
structure Fill where
  kind : FillKind
  exitPrice : ℚ
  quantity : ℚ
  deriving DecidableEq, Repr

def PaperEvent.fill (e : PaperEvent) : Fill where
  kind := match e.detail with
    | .partialExit targetIndex => .partialExit targetIndex
    | .exit _ _ _ _ _ _ _ exitReason _ => .exit exitReason
  exitPrice := e.exitPrice
  quantity := e.quantity

@[simp] theorem PaperEvent.fill_bare (e : PaperEvent) : e.bare.fill = e.fill := rfl

namespace PaperPosition

/-- A position as the trader opens it: with a target, and cut into its slices. -/
structure Fresh (p : PaperPosition) : Prop where
  quantity_pos : 0 < p.quantity
  remainingQuantity : p.remainingQuantity = p.quantity
  nextTargetIdx : p.nextTargetIdx = 0
  takeProfit1 : p.takeProfit1.isSome
  slices : p.slices = (sliceFractions p.targets.length).map (p.quantity * ·)

/-- The fills at the first `k` targets. -/
def partialFills (p : PaperPosition) (k : ℕ) : List Fill :=
  (List.range k).map fun i => ⟨.partialExit (i + 1), p.targets.getD i 0, p.slices.getD i 0⟩

/-- What is left after `k` slices. -/
def leftAfter (p : PaperPosition) (k : ℕ) : ℚ := p.quantity - (p.slices.take k).sum

/-- The position `pos` of the book is what is left of `p` after the fills. -/
structure Alive (p pos : PaperPosition) (fills : List Fill) : Prop where
  same : SamePosition p pos
  entryPrice : pos.entryPrice = p.entryPrice
  leverage : pos.leverage = p.leverage
  targets : pos.targets = p.targets
  slices : pos.slices = p.slices
  idx : pos.nextTargetIdx < p.targets.length
  remainingQuantity : pos.remainingQuantity = p.leftAfter pos.nextTargetIdx
  fills : fills = p.partialFills pos.nextTargetIdx

/-- The fills of a position that has left the book: at some targets, and then of all that was
left. -/
def Exited (p : PaperPosition) (fills : List Fill) : Prop :=
  ∃ k reason exitPrice, k < p.targets.length ∧
    fills = p.partialFills k ++ [⟨.exit reason, exitPrice, p.leftAfter k⟩] ∧
    (reason = .takeProfit → k + 1 = p.targets.length ∧ p.targets[k]? = some exitPrice)

variable {p pos : PaperPosition} {candle : Candle} {fills : List Fill} {k : ℕ}

theorem partialFills_succ (p : PaperPosition) (k : ℕ) : p.partialFills (k + 1) =
    p.partialFills k ++ [⟨.partialExit (k + 1), p.targets.getD k 0, p.slices.getD k 0⟩] := by
  rw [partialFills, List.range_succ, List.map_append]
  rfl

theorem leftAfter_succ (p : PaperPosition) (k : ℕ) :
    p.leftAfter (k + 1) = p.leftAfter k - p.slices.getD k 0 := by
  have hsum : (p.slices.take (k + 1)).sum = (p.slices.take k).sum + p.slices.getD k 0 := by
    rw [List.take_add_one, List.sum_append, List.getD_eq_getElem?_getD]
    cases p.slices[k]? <;> simp
  rw [leftAfter, leftAfter, hsum]
  ring

/-- A position has one to three targets. -/
theorem Fresh.targets_length (h : p.Fresh) : 1 ≤ p.targets.length ∧ p.targets.length ≤ 3 := by
  obtain ⟨target, htarget⟩ := Option.isSome_iff_exists.1 h.takeProfit1
  unfold targets
  rw [htarget]
  cases p.takeProfit2 <;> cases p.takeProfit3 <;> simp

theorem sum_take_sliceFractions :
    ∀ n ≤ 3, ∀ k < n, ((sliceFractions n).take k).sum < 1 := by decide +kernel

/-- Something is left before the last slice. -/
theorem Fresh.leftAfter_pos (h : p.Fresh) (hk : k < p.targets.length) : 0 < p.leftAfter k := by
  have hfractions := sum_take_sliceFractions p.targets.length h.targets_length.2 k hk
  have hsum : (p.slices.take k).sum =
      p.quantity * ((sliceFractions p.targets.length).take k).sum := by
    rw [h.slices, ← List.map_take, List.sum_map_mul_left, List.map_id']
  rw [leftAfter, hsum, sub_pos]
  exact mul_lt_of_lt_one_right h.quantity_pos hfractions

theorem Fresh.alive (h : p.Fresh) : p.Alive p [] where
  same := SamePosition.refl p
  entryPrice := rfl
  leverage := rfl
  targets := rfl
  slices := rfl
  idx := by
    rw [h.nextTargetIdx]
    exact h.targets_length.1
  remainingQuantity := by
    rw [h.nextTargetIdx, h.remainingQuantity, leftAfter]
    simp
  fills := by rw [h.nextTargetIdx]; rfl

/-! ## What a candle leaves of a position -/

/-- A partial exit at the next target. -/
theorem Alive.afterSlice (h : p.Alive pos fills) {target : ℚ}
    (htarget : p.targets[pos.nextTargetIdx]? = some target)
    (hmore : pos.nextTargetIdx + 1 < p.targets.length) (timestamp : Datetime) :
    p.Alive (pos.afterSlice target) (fills ++ [(pos.sliceEvent target timestamp).fill]) where
  same := h.same.trans (samePosition_afterSlice target pos)
  entryPrice := h.entryPrice
  leverage := h.leverage
  targets := h.targets
  slices := h.slices
  idx := hmore
  remainingQuantity := by
    change pos.remainingQuantity - pos.slices.getD pos.nextTargetIdx 0 =
      p.leftAfter (pos.nextTargetIdx + 1)
    rw [leftAfter_succ, h.remainingQuantity, h.slices]
  fills := by
    change _ = p.partialFills (pos.nextTargetIdx + 1)
    rw [partialFills_succ, ← h.fills, List.getD_eq_getElem?_getD, htarget, ← h.slices]
    rfl

theorem Alive.exited (h : p.Alive pos fills) {exitPrice : ℚ} {reason : ExitReason}
    (hlast : reason = .takeProfit → pos.nextTargetIdx + 1 = p.targets.length ∧
      p.targets[pos.nextTargetIdx]? = some exitPrice) (timestamp : Datetime) :
    p.Exited (fills ++ [(pos.exitEvent exitPrice timestamp reason).fill]) := by
  refine ⟨pos.nextTargetIdx, reason, exitPrice, h.idx, ?_, hlast⟩
  rw [← h.fills, ← h.remainingQuantity]
  rfl

/-- Whether a position is still in the book, with what it has had so far. -/
def Follows (p : PaperPosition) (left : Option PaperPosition) (fills : List Fill) : Prop :=
  match left with
  | some pos => p.Alive pos fills
  | none => p.Exited fills

theorem follows_reactTargets {targets : List ℚ} (h : p.Alive pos fills)
    (htargets : targets = p.targets.drop pos.nextTargetIdx) :
    p.Follows (reactTargets candle targets pos).2
      (fills ++ (reactTargets candle targets pos).1.map PaperEvent.fill) := by
  induction targets generalizing pos fills with
  | nil =>
    rw [reactTargets, List.map_nil, List.append_nil]
    exact h
  | cons target rest ih =>
    have hnext : p.targets[pos.nextTargetIdx]? = some target := by
      rw [← List.head?_drop, ← htargets, List.head?_cons]
    have hrest : rest = p.targets.drop (pos.nextTargetIdx + 1) := by
      rw [← List.tail_drop, ← htargets, List.tail_cons]
    unfold reactTargets
    split
    · rw [List.map_nil, List.append_nil]
      exact h
    · split
      · next hlast =>
        refine h.exited (fun _ => ⟨?_, hnext⟩) candle.timestamp
        rw [hlast, eq_comm, List.drop_eq_nil_iff] at hrest
        have := h.idx
        omega
      · next hmore =>
        have hlt : pos.nextTargetIdx + 1 < p.targets.length := by
          rw [hrest, List.drop_eq_nil_iff] at hmore
          omega
        have hslice := h.afterSlice hnext hlt candle.timestamp
        have hstep := ih hslice hrest
        rw [List.append_assoc] at hstep
        exact hstep

/-- **A candle leads a position from its fills so far to those with its events.** -/
theorem follows_react (h : p.Alive pos fills) (candle : Candle) :
    p.Follows (pos.react candle).2 (fills ++ (pos.react candle).1.map PaperEvent.fill) := by
  unfold react
  split
  · exact h.exited (fun hreason => by cases hreason) candle.timestamp
  · exact follows_reactTargets h (by rw [targetsLeft, h.targets])

end PaperPosition

/-! ## What the trader does to its equity -/

/-- `compute_slice_pnl` of an event of the position. -/
def PaperPosition.slicePnl (p : PaperPosition) (e : PaperEvent) : ℚ :=
  (computeSlicePnl p.side p.entryPrice e.exitPrice e.quantity p.leverage).pnl

namespace PaperTrader

variable {candle : Candle} {clock : String → Datetime} {now : Datetime} {t : PaperTrader}
  {pos : PaperPosition} {book : List PaperPosition}

theorem takeProfits_equity {targets : List ℚ} :
    (t.takeProfits candle now targets pos).2.initialEquity = t.initialEquity ∧
      (t.takeProfits candle now targets pos).2.equity =
        t.equity + ((t.takeProfits candle now targets pos).1.map pos.slicePnl).sum := by
  induction targets generalizing t pos with
  | nil => simp [takeProfits]
  | cons target rest ih =>
    unfold takeProfits
    split
    · simp
    · split
      · simp [closeRemaining, PaperPosition.slicePnl]
      · obtain ⟨hinitial, hequity⟩ := @ih
          ((t.partialExit pos target candle.timestamp pos.nextTargetIdx).2.2.put
            (pos.afterSlice target)) (pos.afterSlice target)
        refine ⟨hinitial, hequity.trans ?_⟩
        -- the slice's own P&L, and that of the events after it
        change t.equity + pos.slicePnl
          (t.partialExit pos target candle.timestamp pos.nextTargetIdx).1 + _ =
          t.equity + (pos.slicePnl
            (t.partialExit pos target candle.timestamp pos.nextTargetIdx).1 + _)
        rw [add_assoc]
        rfl

variable (candle now) in
/-- The equity moves by the P&L of the events. -/
theorem processPosition_equity (t : PaperTrader) (pos : PaperPosition) :
    (t.processPosition candle now pos).2.initialEquity = t.initialEquity ∧
      (t.processPosition candle now pos).2.equity =
        t.equity + ((t.processPosition candle now pos).1.map pos.slicePnl).sum := by
  unfold processPosition
  split
  · simp [closeRemaining, PaperPosition.slicePnl]
  · exact takeProfits_equity

variable (candle clock) in
theorem processPositions_equity {done : List PaperPosition}
    (hu : UniqueKey PaperPosition.tradeId t.positions) (hbook : t.positions = done ++ book)
    {pnl : PaperEvent → ℚ}
    (hpnl : ∀ pos ∈ book, ∀ e : PaperEvent, e.tradeId = pos.tradeId → pnl e = pos.slicePnl e) :
    (processPositions candle clock book t).2.initialEquity = t.initialEquity ∧
      (processPositions candle clock book t).2.equity =
        t.equity + ((processPositions candle clock book t).1.map pnl).sum := by
  induction book generalizing t done with
  | nil => simp [processPositions]
  | cons pos rest ih =>
    have hreacted := processPosition_reacted candle (clock pos.tradeId) hu hbook
    have hu' := processPosition_uniqueKey candle (clock pos.tradeId) hu hbook
    obtain ⟨hinitial, hequity⟩ := processPosition_equity candle (clock pos.tradeId) t pos
    obtain ⟨hinitial', hequity'⟩ := ih hu' hreacted.positions
      fun p hp => hpnl p (List.mem_cons_of_mem pos hp)
    have hown : (t.processPosition candle (clock pos.tradeId) pos).1.map pos.slicePnl =
        (t.processPosition candle (clock pos.tradeId) pos).1.map pnl := by
      refine List.map_congr_left fun e he => (hpnl pos List.mem_cons_self e ?_).symm
      have hbare : e.bare ∈ (pos.react candle).1 := hreacted.events ▸ List.mem_map_of_mem he
      exact (PaperPosition.eventOf_react hbare).tradeId
    refine ⟨hinitial'.trans hinitial, hequity'.trans ?_⟩
    rw [hequity, hown]
    simp only [processPositions, List.map_append, List.sum_append]
    ring

/-- The engine counts the positions of the book. -/
def CountsBook (t : PaperTrader) : Prop := t.riskEngine.state.positionsOpen = t.positions.length

variable (candle now) in
theorem processPosition_countsBook {pre post : List PaperPosition} (h : t.CountsBook)
    (hu : UniqueKey PaperPosition.tradeId t.positions) (hpos : t.positions = pre ++ pos :: post) :
    (t.processPosition candle now pos).2.CountsBook := by
  have hpositions := (processPosition_reacted candle now hu hpos).positions
  have hreports := processPosition_reports candle now t pos
  unfold CountsBook at h ⊢
  rw [hpos] at h
  cases hr : (pos.react candle).2 with
  | some left =>
    rw [hr] at hpositions
    rw [hreports.open_ (by simp [hr]), h, hpositions]
    simp
  | none =>
    obtain ⟨pnlPct, time, hrisk⟩ := hreports.closed hr
    rw [hr] at hpositions
    rw [hrisk, RiskEngine.recordPositionClose_positionsOpen,
      RiskEngine.recordTradeResult_positionsOpen, h, hpositions]
    simp only [List.length_append, List.length_cons, Option.toList_none, List.length_nil]
    omega

theorem processPositions_countsBook {done : List PaperPosition} (h : t.CountsBook)
    (hu : UniqueKey PaperPosition.tradeId t.positions) (hbook : t.positions = done ++ book) :
    (processPositions candle clock book t).2.CountsBook := by
  induction book generalizing t done with
  | nil => exact h
  | cons pos rest ih =>
    exact ih (processPosition_countsBook candle (clock pos.tradeId) h hu hbook)
      (processPosition_uniqueKey candle (clock pos.tradeId) hu hbook)
      (processPosition_reacted candle (clock pos.tradeId) hu hbook).positions

/-- The fills that a candle makes a position report are those of its reaction. -/
theorem fills_processCandle (hu : UniqueKey PaperPosition.tradeId t.positions)
    (hpaused : t.isPaused = false) (candle : Candle) (clock : String → Datetime) (id : String) :
    ((t.processCandle candle clock).1.filter fun e => e.tradeId = id).map PaperEvent.fill =
      (((lookup PaperPosition.tradeId id t.positions).map
        fun pos => (pos.react candle).1).getD []).map PaperEvent.fill := by
  have hbare : ∀ events : List PaperEvent,
      (events.filter fun e => e.tradeId = id).map PaperEvent.fill =
        ((events.map PaperEvent.bare).filter fun e => e.tradeId = id).map PaperEvent.fill := by
    intro events
    rw [List.filter_map, List.map_map]
    rfl
  rw [hbare, (processCandle_spec candle clock hu hpaused).events, reactions_filter hu]

/-! ## What opening a position adds -/

variable {signal : Signal} {position : PaperPosition}

theorem fresh_of_openPosition (h : (t.openPosition signal now).1 = some position) :
    position.Fresh := by
  have hopened := openPosition_some h
  revert h
  unfold openPosition
  split
  · simp
  · dsimp only
    split
    · simp
    · cases hsize : entrySize signal (t.riskEngine.canTrade now).2 with
      | none => simp
      | some size =>
        intro h
        have htarget : signal.takeProfit1.isSome := by
          unfold entrySize at hsize
          split at hsize
          · next htarget => rw [htarget]; rfl
          · cases hsize
        obtain rfl := Option.some.inj h
        exact ⟨hopened.quantity_pos, rfl, rfl, htarget, rfl⟩

/-- The engine counts a position that is opened, and no other. -/
theorem openPosition_positionsOpen (signal : Signal) (now : Datetime) (t : PaperTrader) :
    (t.openPosition signal now).2.riskEngine.state.positionsOpen =
      t.riskEngine.state.positionsOpen + (t.openPosition signal now).1.toList.length := by
  unfold openPosition
  split
  · simp
  · dsimp only
    split
    · simp
    · split <;> simp

theorem lookup_of_mem {id : String} (hu : UniqueKey PaperPosition.tradeId book) (h : pos ∈ book)
    (hid : pos.tradeId = id) : lookup PaperPosition.tradeId id book = some pos :=
  (lookup_eq_some_iff hu).2 ⟨h, hid⟩

theorem openPosition_initialEquity (signal : Signal) (now : Datetime) (t : PaperTrader) :
    (t.openPosition signal now).2.initialEquity = t.initialEquity := by
  unfold openPosition
  split
  · rfl
  · dsimp only
    split
    · rfl
    · split <;> rfl

end PaperTrader

/-! ## The ledger -/

/-- The calls a trader takes. -/
inductive LedgerOp
  | openPosition (signal : Signal) (now : Datetime)
  | processCandle (candle : Candle) (clock : String → Datetime)
  | pause
  | resume

/-- A trader, with the positions it has opened and the events it has emitted so far. -/
structure Ledger where
  trader : PaperTrader
  opened : List PaperPosition := []
  events : List PaperEvent := []

namespace Ledger

def new (riskConfig : RiskConfig) (initialEquity : ℚ) (today : ℤ) : Ledger :=
  { trader := PaperTrader.new riskConfig initialEquity today }

def step (l : Ledger) : LedgerOp → Ledger
  | .openPosition signal now =>
    let (position, trader) := l.trader.openPosition signal now
    { l with trader, opened := l.opened ++ position.toList }
  | .processCandle candle clock =>
    let (events, trader) := l.trader.processCandle candle clock
    { l with trader, events := l.events ++ events }
  | .pause => { l with trader := l.trader.pause }
  | .resume => { l with trader := l.trader.resume }

/-- The fills that the events of a trade report. -/
def fillsOf (l : Ledger) (tradeId : String) : List Fill :=
  (l.events.filter fun e => e.tradeId = tradeId).map PaperEvent.fill

/-- `compute_slice_pnl` of an event, with the terms its position was opened on. -/
def eventPnl (l : Ledger) (e : PaperEvent) : ℚ :=
  ((lookup PaperPosition.tradeId e.tradeId l.opened).map fun p => p.slicePnl e).getD 0

/-- What the ledger says at any time. -/
structure Tracks (l : Ledger) : Prop where
  ids : l.opened.map PaperPosition.tradeId =
    (List.range l.trader.tradeCounter).map fun n => paperTradeId (n + 1)
  fresh : ∀ p ∈ l.opened, p.Fresh
  owned : ∀ e ∈ l.events, ∃ p ∈ l.opened, p.tradeId = e.tradeId
  unique : UniqueKey PaperPosition.tradeId l.trader.positions
  opened : ∀ pos ∈ l.trader.positions, ∃ p ∈ l.opened, p.tradeId = pos.tradeId
  follows : ∀ p ∈ l.opened,
    p.Follows (lookup PaperPosition.tradeId p.tradeId l.trader.positions) (l.fillsOf p.tradeId)
  equity : l.trader.equity = l.trader.initialEquity + (l.events.map l.eventPnl).sum
  counts : l.trader.CountsBook

variable {l : Ledger} {candle : Candle} {clock : String → Datetime} {signal : Signal}
  {now : Datetime}

theorem tracks_new (riskConfig : RiskConfig) (initialEquity : ℚ) (today : ℤ) :
    (new riskConfig initialEquity today).Tracks where
  ids := rfl
  fresh := by simp [new]
  owned := by simp [new]
  unique := List.nodup_nil
  opened := by simp [new, PaperTrader.new]
  follows := by simp [new]
  equity := by simp [new, PaperTrader.new]
  counts := rfl

/-- The opened positions have different ids. -/
theorem Tracks.opened_unique (h : l.Tracks) : UniqueKey PaperPosition.tradeId l.opened := by
  rw [UniqueKey, h.ids]
  exact List.nodup_range.map fun m n hmn => Nat.succ_injective (paperTradeId_injective hmn)

/-- The next id is not taken. -/
theorem Tracks.next_free (h : l.Tracks) {p : PaperPosition} (hp : p ∈ l.opened) :
    p.tradeId ≠ paperTradeId (l.trader.tradeCounter + 1) := by
  have hmem := List.mem_map_of_mem (f := PaperPosition.tradeId) hp
  rw [h.ids] at hmem
  obtain ⟨n, hn, hid⟩ := List.mem_map.1 hmem
  intro heq
  have := paperTradeId_injective (hid.trans heq)
  have := List.mem_range.1 hn
  omega

/-- An event of a position of the book is worth what its own slice is. -/
theorem Tracks.eventPnl_eq (h : l.Tracks) {pos : PaperPosition} (hpos : pos ∈ l.trader.positions)
    {e : PaperEvent} (he : e.tradeId = pos.tradeId) : l.eventPnl e = pos.slicePnl e := by
  obtain ⟨p, hp, hid⟩ := h.opened pos hpos
  have hlookup : lookup PaperPosition.tradeId e.tradeId l.opened = some p :=
    PaperTrader.lookup_of_mem h.opened_unique hp (hid.trans he.symm)
  have hfollows := h.follows p hp
  rw [PaperTrader.lookup_of_mem h.unique hpos hid.symm] at hfollows
  rw [eventPnl, hlookup, Option.map_some, Option.getD_some, PaperPosition.slicePnl,
    PaperPosition.slicePnl, hfollows.same.side, hfollows.entryPrice, hfollows.leverage]

/-! ## One call -/

/-- A refused signal leaves the book and the count. -/
theorem Tracks.openPosition_none (h : l.Tracks)
    (hnone : (l.trader.openPosition signal now).1 = none) :
    (l.step (.openPosition signal now)).Tracks := by
  have hstep : l.step (.openPosition signal now) =
      { l with trader := (l.trader.openPosition signal now).2 } := by
    simp [Ledger.step, hnone]
  rw [hstep]
  rcases PaperTrader.openPosition_none hnone with hsame | hrisk
  · rw [hsame]
    exact h
  · rw [hrisk]
    exact { h with counts := (RiskEngine.canTrade_positionsOpen _ _).trans h.counts }

/-- The id of an opened position is new. -/
theorem Tracks.id_new (h : l.Tracks) {position : PaperPosition}
    (hsome : (l.trader.openPosition signal now).1 = some position) :
    (∀ p ∈ l.opened, p.tradeId ≠ position.tradeId) ∧
      ∀ pos ∈ l.trader.positions, pos.tradeId ≠ position.tradeId := by
  have hopened := PaperTrader.openPosition_some hsome
  have hfree : ∀ p ∈ l.opened, p.tradeId ≠ position.tradeId := fun p hp =>
    hopened.tradeId ▸ h.next_free hp
  refine ⟨hfree, fun pos hpos => ?_⟩
  obtain ⟨p, hp, hid⟩ := h.opened pos hpos
  exact hid ▸ hfree p hp

/-- Nothing has happened under an id that no position has. -/
theorem Tracks.fillsOf_eq_nil (h : l.Tracks) {id : String}
    (hfree : ∀ p ∈ l.opened, p.tradeId ≠ id) : l.fillsOf id = [] := by
  rw [fillsOf, List.filter_eq_nil_iff.2, List.map_nil]
  intro e he
  obtain ⟨p, hp, hid⟩ := h.owned e he
  rw [decide_eq_true_iff, ← hid]
  exact hfree p hp

/-- One more position does not change what the events are worth. -/
theorem Tracks.eventPnl_concat (h : l.Tracks) {l' : Ledger} {position : PaperPosition}
    (hopened : l'.opened = l.opened ++ [position])
    (hfree : ∀ p ∈ l.opened, p.tradeId ≠ position.tradeId) {e : PaperEvent} (he : e ∈ l.events) :
    l'.eventPnl e = l.eventPnl e := by
  obtain ⟨p, hp, hid⟩ := h.owned e he
  rw [eventPnl, eventPnl, hopened, lookup_append_of_ne (hid ▸ (hfree p hp).symm)]

/-- An opened position is followed from its id on, as the positions before it are. -/
theorem Tracks.follows_concat (h : l.Tracks) {position : PaperPosition} (hfresh : position.Fresh)
    (hfree : ∀ p ∈ l.opened, p.tradeId ≠ position.tradeId)
    (hnew : ∀ pos ∈ l.trader.positions, pos.tradeId ≠ position.tradeId) {p : PaperPosition}
    (hp : p ∈ l.opened ++ [position]) :
    p.Follows (lookup PaperPosition.tradeId p.tradeId (l.trader.positions ++ [position]))
      (l.fillsOf p.tradeId) := by
  rcases List.mem_append.1 hp with hp | hp
  · rw [lookup_append_of_ne (hfree p hp).symm]
    exact h.follows p hp
  · obtain rfl := List.mem_singleton.1 hp
    rw [lookup_append_of_new hnew, h.fillsOf_eq_nil hfree]
    exact hfresh.alive

/-- An opened position is added at the end of the book, under an id of its own. -/
theorem Tracks.openPosition_some (h : l.Tracks) {position : PaperPosition}
    (hsome : (l.trader.openPosition signal now).1 = some position) :
    (l.step (.openPosition signal now)).Tracks := by
  have hopened := PaperTrader.openPosition_some hsome
  obtain ⟨hfree, hnew⟩ := h.id_new hsome
  have hfresh := PaperTrader.fresh_of_openPosition hsome
  have hbook : (l.trader.openPosition signal now).2.positions =
      l.trader.positions ++ [position] := by
    rw [hopened.positions, upsert_of_new hnew]
  have hstep : l.step (.openPosition signal now) =
      { l with trader := (l.trader.openPosition signal now).2
               opened := l.opened ++ [position] } := by
    simp [Ledger.step, hsome]
  rw [hstep]
  refine ⟨?_, ?_, ?_, ?_, ?_, ?_, ?_, ?_⟩
  · dsimp only
    rw [List.map_append, h.ids, hopened.tradeCounter, List.range_succ, List.map_append,
      List.map_singleton, List.map_singleton, hopened.tradeId]
  · intro p hp
    rcases List.mem_append.1 hp with hp | hp
    · exact h.fresh p hp
    · rw [List.mem_singleton.1 hp]
      exact hfresh
  · intro e he
    obtain ⟨p, hp, hid⟩ := h.owned e he
    exact ⟨p, List.mem_append_left _ hp, hid⟩
  · dsimp only
    rw [hopened.positions]
    exact h.unique.upsert
  · intro pos hpos
    dsimp only at hpos
    rw [hbook] at hpos
    rcases List.mem_append.1 hpos with hpos | hpos
    · obtain ⟨p, hp, hid⟩ := h.opened pos hpos
      exact ⟨p, List.mem_append_left _ hp, hid⟩
    · exact ⟨position, by simp, by rw [List.mem_singleton.1 hpos]⟩
  · intro p hp
    dsimp only
    rw [hbook]
    exact h.follows_concat hfresh hfree hnew hp
  · dsimp only
    rw [PaperTrader.openPosition_initialEquity,
      (PaperTrader.openPosition_effect signal now l.trader).1, h.equity]
    congr 2
    exact List.map_congr_left fun e he => (h.eventPnl_concat rfl hfree he).symm
  · change _ = _
    rw [PaperTrader.openPosition_positionsOpen, hsome, h.counts, hbook]
    simp

theorem Tracks.openPosition (h : l.Tracks) (signal : Signal) (now : Datetime) :
    (l.step (.openPosition signal now)).Tracks := by
  cases hposition : (l.trader.openPosition signal now).1 with
  | none => exact h.openPosition_none hposition
  | some position => exact h.openPosition_some hposition

/-- A candle adds to the fills of each position those of its reaction. -/
theorem Tracks.fillsOf_processCandle (h : l.Tracks) (hpaused : l.trader.isPaused = false)
    (candle : Candle) (clock : String → Datetime) (id : String) :
    (l.step (.processCandle candle clock)).fillsOf id = l.fillsOf id ++
      (((lookup PaperPosition.tradeId id l.trader.positions).map
        fun pos => (pos.react candle).1).getD []).map PaperEvent.fill := by
  rw [fillsOf, fillsOf, Ledger.step]
  dsimp only
  rw [List.filter_append, List.map_append, PaperTrader.fills_processCandle h.unique hpaused]

theorem Tracks.processCandle (h : l.Tracks) (candle : Candle) (clock : String → Datetime) :
    (l.step (.processCandle candle clock)).Tracks := by
  cases hpaused : l.trader.isPaused with
  | true =>
    have hstep : l.step (.processCandle candle clock) = l := by
      simp [Ledger.step, PaperTrader.processCandle, hpaused]
    rw [hstep]
    exact h
  | false =>
    have hspec := PaperTrader.processCandle_spec candle clock h.unique hpaused
    have hcandle : l.trader.processCandle candle clock =
        PaperTrader.processPositions candle clock l.trader.positions l.trader := by
      simp [PaperTrader.processCandle, hpaused]
    obtain ⟨hinitial, hequity⟩ := PaperTrader.processPositions_equity candle clock h.unique
      (List.nil_append _).symm fun pos hpos e he => h.eventPnl_eq hpos he
    rw [← hcandle] at hinitial hequity
    refine ⟨?_, h.fresh, ?_, ?_, ?_, ?_, ?_, ?_⟩
    · exact h.ids.trans (by rw [← hspec.tradeCounter]; rfl)
    · intro e he
      rcases List.mem_append.1 he with he | he
      · exact h.owned e he
      · have hbare : e.bare ∈ PaperTrader.reactions candle l.trader.positions :=
          hspec.events ▸ List.mem_map_of_mem he
        obtain ⟨pos, hpos, hreact⟩ := PaperTrader.mem_reactions.1 hbare
        obtain ⟨p, hp, hid⟩ := h.opened pos hpos
        exact ⟨p, hp, hid.trans (PaperPosition.eventOf_react hreact).tradeId.symm⟩
    · change UniqueKey PaperPosition.tradeId (l.trader.processCandle candle clock).2.positions
      rw [hspec.positions]
      exact PaperTrader.uniqueKey_after candle h.unique
    · intro pos' hpos'
      change pos' ∈ (l.trader.processCandle candle clock).2.positions at hpos'
      rw [hspec.positions] at hpos'
      obtain ⟨pos, hpos, hreact⟩ := PaperTrader.mem_after.1 hpos'
      obtain ⟨p, hp, hid⟩ := h.opened pos hpos
      exact ⟨p, hp, hid.trans (PaperPosition.samePosition_of_react hreact).tradeId.symm⟩
    · intro p hp
      change p.Follows (lookup PaperPosition.tradeId p.tradeId
        (l.trader.processCandle candle clock).2.positions) _
      rw [hspec.positions, List.nil_append, PaperTrader.lookup_after h.unique,
        h.fillsOf_processCandle hpaused]
      have hfollows := h.follows p hp
      cases hlookup : lookup PaperPosition.tradeId p.tradeId l.trader.positions with
      | none =>
        rw [hlookup] at hfollows
        simpa using hfollows
      | some pos =>
        rw [hlookup] at hfollows
        exact PaperPosition.follows_react hfollows candle
    · change (l.trader.processCandle candle clock).2.equity =
        (l.trader.processCandle candle clock).2.initialEquity +
          ((l.events ++ (l.trader.processCandle candle clock).1).map l.eventPnl).sum
      rw [hinitial, hequity, h.equity, List.map_append, List.sum_append]
      ring
    · change (l.trader.processCandle candle clock).2.CountsBook
      rw [hcandle]
      exact PaperTrader.processPositions_countsBook h.counts h.unique (List.nil_append _).symm

/-- **A call keeps the ledger.** -/
theorem Tracks.step (h : l.Tracks) (op : LedgerOp) : (l.step op).Tracks := by
  cases op with
  | openPosition signal now => exact h.openPosition signal now
  | processCandle candle clock => exact h.processCandle candle clock
  | pause => exact { h with }
  | resume => exact { h with }

/-! ## Every sequence of calls -/

/-- The price of the target that a fill is at. -/
def targetHit (f : Fill) : Option ℚ :=
  match f.kind with
  | .partialExit _ | .exit .takeProfit => some f.exitPrice
  | .exit .stopLoss => none

/-- The number of the target that a partial exit is at. -/
def targetIndex (f : Fill) : Option ℕ :=
  match f.kind with
  | .partialExit targetIndex => some targetIndex
  | .exit _ => none

/-- The quantity that the fills take off. -/
def taken (fills : List Fill) : ℚ := (fills.map Fill.quantity).sum

/-- What the ledger promises. -/
structure Kept (l : Ledger) : Prop where
  /-- In the book a position has partial exits only, and the rest of its quantity is left. -/
  inBook : ∀ pos ∈ l.trader.positions, 0 < pos.remainingQuantity ∧
    pos.remainingQuantity = pos.quantity - taken (l.fillsOf pos.tradeId) ∧
    ∀ f ∈ l.fillsOf pos.tradeId, (targetIndex f).isSome
  /-- A position has left the book with its exit, and its events have taken all of it. -/
  exited : ∀ p ∈ l.opened, (∀ pos ∈ l.trader.positions, pos.tradeId ≠ p.tradeId) →
    taken (l.fillsOf p.tradeId) = p.quantity ∧
      ∃ init last, l.fillsOf p.tradeId = init ++ [last] ∧ targetIndex last = none ∧
        ∀ f ∈ init, (targetIndex f).isSome
  /-- The targets are hit in the order of the list, each at most once. -/
  targets : ∀ p ∈ l.opened, ∃ m,
    (l.fillsOf p.tradeId).filterMap targetHit = p.targets.take m ∧
      (l.fillsOf p.tradeId).filterMap targetIndex <+: List.range' 1 m
  equity : l.trader.equity - l.trader.initialEquity = (l.events.map l.eventPnl).sum
  positionsOpen : l.trader.riskEngine.state.positionsOpen = l.trader.positions.length

section Fills

variable (p : PaperPosition) {k : ℕ}

theorem taken_append (fills more : List Fill) :
    taken (fills ++ more) = taken fills + taken more := by
  rw [taken, List.map_append, List.sum_append, taken, taken]

theorem taken_partialFills (k : ℕ) : taken (p.partialFills k) = p.quantity - p.leftAfter k := by
  induction k with
  | zero => simp [taken, PaperPosition.partialFills, PaperPosition.leftAfter]
  | succ k ih =>
    rw [PaperPosition.partialFills_succ, taken_append, ih, PaperPosition.leftAfter_succ]
    simp only [taken, List.map_singleton, List.sum_singleton]
    ring

/-- The fills of a position that has left the book have taken all of it. -/
theorem taken_exited {p : PaperPosition} {fills : List Fill} (h : p.Exited fills) :
    taken fills = p.quantity := by
  obtain ⟨k, reason, exitPrice, hk, rfl, -⟩ := h
  rw [taken_append, taken_partialFills]
  simp [taken]

theorem targetHit_partialFills (hk : k ≤ p.targets.length) :
    (p.partialFills k).filterMap targetHit = p.targets.take k := by
  induction k with
  | zero => rfl
  | succ k ih =>
    have htarget : p.targets[k]? = some (p.targets.get ⟨k, hk⟩) := List.getElem?_eq_getElem hk
    rw [PaperPosition.partialFills_succ, List.filterMap_append, ih (by omega), List.take_add_one,
      List.getD_eq_getElem?_getD, htarget]
    rfl

theorem targetIndex_partialFills (k : ℕ) :
    (p.partialFills k).filterMap targetIndex = List.range' 1 k := by
  induction k with
  | zero => rfl
  | succ k ih =>
    rw [PaperPosition.partialFills_succ, List.filterMap_append, ih, List.range'_concat]
    simp [targetIndex, Nat.add_comm]

theorem isSome_of_mem_partialFills {f : Fill} (hf : f ∈ p.partialFills k) :
    (targetIndex f).isSome := by
  obtain ⟨i, -, rfl⟩ := List.mem_map.1 hf
  rfl

end Fills

/-- The targets among the fills of a position, in the book or out of it. -/
theorem targets_of_follows {p : PaperPosition} {left : Option PaperPosition} {fills : List Fill}
    (h : p.Follows left fills) : ∃ m, fills.filterMap targetHit = p.targets.take m ∧
      fills.filterMap targetIndex <+: List.range' 1 m := by
  cases left with
  | some pos =>
    obtain ⟨-, -, -, -, -, hidx, -, rfl⟩ := h
    exact ⟨pos.nextTargetIdx, targetHit_partialFills p hidx.le,
      (targetIndex_partialFills p _).symm ▸ List.prefix_refl _⟩
  | none =>
    obtain ⟨k, reason, exitPrice, hk, rfl, hlast⟩ := h
    cases reason with
    | stopLoss =>
      refine ⟨k, ?_, ?_⟩
      · rw [List.filterMap_append, targetHit_partialFills p hk.le]
        exact List.append_nil _
      · rw [List.filterMap_append, targetIndex_partialFills]
        exact (List.append_nil (List.range' 1 k)).symm ▸ List.prefix_refl _
    | takeProfit =>
      obtain ⟨-, htarget⟩ := hlast rfl
      refine ⟨k + 1, ?_, ?_⟩
      · rw [List.filterMap_append, targetHit_partialFills p hk.le, List.take_add_one, htarget]
        rfl
      · rw [List.filterMap_append, targetIndex_partialFills, List.range'_concat]
        exact (List.append_nil (List.range' 1 k)).symm ▸ List.prefix_append _ _

theorem Tracks.kept (h : l.Tracks) : l.Kept where
  inBook pos hpos := by
    obtain ⟨p, hp, hid⟩ := h.opened pos hpos
    have hfollows := h.follows p hp
    rw [PaperTrader.lookup_of_mem h.unique hpos hid.symm] at hfollows
    obtain ⟨hsame, -, -, -, -, hidx, hleft, hfills⟩ := hfollows
    rw [← hid, hfills, taken_partialFills, hleft, hsame.quantity]
    exact ⟨(h.fresh p hp).leftAfter_pos hidx, by ring, fun f hf => isSome_of_mem_partialFills p hf⟩
  exited p hp hout := by
    have hfollows := h.follows p hp
    rw [lookup_eq_none_iff.2 hout] at hfollows
    refine ⟨taken_exited hfollows, ?_⟩
    obtain ⟨k, reason, exitPrice, hk, hfills, -⟩ := hfollows
    rw [hfills]
    exact ⟨_, _, rfl, rfl, fun f hf => isSome_of_mem_partialFills p hf⟩
  targets p hp := targets_of_follows (h.follows p hp)
  equity := by rw [h.equity]; ring
  positionsOpen := h.counts

/-- **The ledger of the paper trader**, after every sequence of calls. -/
theorem ledger_kept (riskConfig : RiskConfig) (initialEquity : ℚ) (today : ℤ)
    (ops : List LedgerOp) : (run step (new riskConfig initialEquity today) ops).Kept :=
  (Always.of_step (P := Tracks) (fun _ op h => h.step op)
    (tracks_new riskConfig initialEquity today) ops).last.kept

end Ledger

end AlphaOne.Paper

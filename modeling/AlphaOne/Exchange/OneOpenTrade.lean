import AlphaOne.Exchange.ConcurrentSyncs
import AlphaOne.Exchange.FailedRead
import Mathlib.Data.List.Pairwise

/-!
# One open trade per exchange position

Nothing in the schema makes `exchange_position_id` unique, so that it is the syncs that have to keep
the open trades of a position down to one. A sync inserts a trade for a position that had none when
it selected, and it writes `PARTIALLY_CLOSED` over the status that a trade has by now.

* `Pending` is the transaction that a sync is about to commit, and `moveSync_tables` says that
  nothing else changes the tables.
* `one_open_iff`: in any interleaving of syncs, every position has at most one open trade at every
  commit if and only if every commit is `Current`: no open trade has a position that the
  transaction opens one for, and a trade that it reopens is the only one of its position.
-/

namespace AlphaOne.Exchange

open Foundations Journal

/-! ## The open trades of a position -/

/-- `status.in_([OPEN, PARTIALLY_CLOSED])`. -/
def IsOpenTrade (t : Trade) : Prop := t.status = .open_ ∨ t.status = .partiallyClosed

instance : DecidablePred IsOpenTrade := fun t => by
  unfold IsOpenTrade
  infer_instance

/-- The open trades of an exchange position. -/
def openTradesOf (db : SyncTables) (exchangePositionId : String) : List Trade :=
  db.tables.trades.filter fun t =>
    IsOpenTrade t ∧ t.exchangePositionId = some exchangePositionId

/-- Every exchange position has at most one open trade. -/
def OneOpen (db : SyncTables) : Prop := ∀ id, (openTradesOf db id).length ≤ 1

/-- Two open trades of one position. -/
structure Rivals (t u : Trade) : Prop where
  left : IsOpenTrade t
  right : IsOpenTrade u
  position : t.exchangePositionId.isSome
  same : t.exchangePositionId = u.exchangePositionId

theorem Rivals.symm {t u : Trade} (h : Rivals t u) : Rivals u t :=
  ⟨h.right, h.left, h.same ▸ h.position, h.same.symm⟩

instance : Std.Symm fun t u => ¬Rivals t u := ⟨fun _ _ hno hr => hno hr.symm⟩

/-- No two of the rows are open trades of one position. -/
def Unrivalled (rows : List Trade) : Prop := rows.Pairwise fun t u => ¬Rivals t u

theorem oneOpen_iff {db : SyncTables} : OneOpen db ↔ Unrivalled db.tables.trades := by
  unfold OneOpen openTradesOf Unrivalled
  simp only [length_filter_le_one_iff]
  constructor
  · intro h
    refine List.pairwise_iff_forall_sublist.2 fun hsub hr => ?_
    obtain ⟨id, hid⟩ := Option.isSome_iff_exists.1 hr.position
    exact List.pairwise_iff_forall_sublist.1 (h id) hsub
      ⟨⟨hr.left, hid⟩, hr.right, hr.same ▸ hid⟩
  · intro h id
    refine h.imp fun hno hboth => hno ?_
    obtain ⟨⟨hl, hid⟩, hr, hid'⟩ := hboth
    exact ⟨hl, hr, by simp [hid], hid.trans hid'.symm⟩

instance (t u : Trade) : Decidable (Rivals t u) :=
  decidable_of_iff (IsOpenTrade t ∧ IsOpenTrade u ∧ t.exchangePositionId.isSome ∧
      t.exchangePositionId = u.exchangePositionId)
    ⟨fun ⟨h₁, h₂, h₃, h₄⟩ => ⟨h₁, h₂, h₃, h₄⟩, fun h => ⟨h.left, h.right, h.position, h.same⟩⟩

/-! ## The transaction of a commit -/

/-- An exit as `record_exit` has computed it. -/
structure PendingExit where
  args : RecordExitArgs
  trade : Trade
  alreadyClosed : ℚ

/-- A partial exit of a trade that was loaded as `OPEN` writes `PARTIALLY_CLOSED`, whatever the
status is by now. -/
def PendingExit.Reopens (b : PendingExit) : Prop :=
  b.trade.status = .open_ ∧ closesFully b.args b.trade b.alreadyClosed = false

instance (b : PendingExit) : Decidable b.Reopens := by
  unfold PendingExit.Reopens
  infer_instance

/-- What a session is about to commit. -/
structure Pending where
  changes : Changes
  exit : Option PendingExit := none

/-- The transaction that the next statement of a sync commits. -/
def SyncStage.pending? : SyncStage → Option Pending
  | .closing [] changes _ => some { changes }
  | .exiting _ ⟨args, .checked trade alreadyClosed⟩ _ changes _ =>
    some { changes, exit := some { args, trade, alreadyClosed } }
  | _ => none

namespace Pending

/-- The journal tables after the commit. -/
def commit (p : Pending) (db : SyncTables) : Tables :=
  match p.exit with
  | none => (p.changes.apply db).tables
  | some b => commitExit b.args b.trade b.alreadyClosed (p.changes.apply db).tables

/-- What the commit makes of a row. -/
def update (p : Pending) (row : Trade) : Trade :=
  match p.exit with
  | none => p.changes.update row
  | some b => updateRow b.args b.trade b.alreadyClosed (p.changes.update row)

/-- **What a commit needs** of the rows it meets. -/
structure Current (rows : List Trade) (p : Pending) : Prop where
  /-- The positions it inserts trades for have no open trade. -/
  inserts : ∀ t ∈ p.changes.inserted, ∀ row ∈ rows, ¬Rivals t row
  /-- A trade it reopens has its position for itself. -/
  reopens : ∀ b ∈ p.exit, b.Reopens → ∀ row ∈ rows, Rivals b.trade row →
    row.tradeId = b.trade.tradeId

instance (rows : List Trade) (p : Pending) : Decidable (p.Current rows) :=
  decidable_of_iff ((∀ t ∈ p.changes.inserted, ∀ row ∈ rows, ¬Rivals t row) ∧
      ∀ b ∈ p.exit, b.Reopens → ∀ row ∈ rows, Rivals b.trade row → row.tradeId = b.trade.tradeId)
    ⟨fun ⟨h₁, h₂⟩ => ⟨h₁, h₂⟩, fun h => ⟨h.inserts, h.reopens⟩⟩

end Pending

variable {call : SyncCall} {stage : SyncStage} {db : SyncTables} {p : Pending}

/-- Between its commits a sync leaves the tables. -/
theorem moveSync_of_none (h : stage.pending? = none) : (moveSync call stage db).1 = db := by
  cases stage with
  | start | ended r => rfl
  | taking existing positions changes => cases positions <;> rfl
  | closing trades changes closed =>
    cases trades with
    | nil => cases h
    | cons trade rest => rfl
  | exiting trade exit rest changes closed =>
    obtain ⟨args, stage⟩ := exit
    cases stage with
    | checked loaded alreadyClosed => cases h
    | start | loaded t | committed t => rfl
    | ended result =>
      cases result with
      | ok t => rfl
      | error e => cases e <;> rfl

/-- **One commit**: it is refused, or it is that of the pending transaction. -/
theorem moveSync_of_some (h : stage.pending? = some p) :
    (moveSync call stage db).1.tables =
      if p.changes.Conflicts db then db.tables else p.commit db := by
  cases stage with
  | start | ended r => cases h
  | taking existing positions changes => cases h
  | closing trades changes closed =>
    cases trades with
    | cons trade rest => cases h
    | nil =>
      obtain rfl := Option.some.inj h
      simp only [moveSync, finish, Pending.commit]
      split <;> rfl
  | exiting trade exit rest changes closed =>
    obtain ⟨args, stage⟩ := exit
    cases stage with
    | start | loaded t | committed t | ended r => cases h
    | checked loaded alreadyClosed =>
      obtain rfl := Option.some.inj h
      simp only [moveSync, moveExit, Pending.commit, ExitCall.move]
      split <;> rfl

/-! ## What a sync knows -/

/-- The row of a trade is there, and has its position. -/
def HasRow (rows : List Trade) (t : Trade) : Prop :=
  ∃ row ∈ rows, row.tradeId = t.tradeId ∧ row.exchangePositionId = t.exchangePositionId

/-- A trade that a sync has loaded and whose position the exchange no longer shows. -/
structure Gone (call : SyncCall) (rows : List Trade) (t : Trade) : Prop where
  open_ : IsOpenTrade t
  row : HasRow rows t
  position : ∀ pos ∈ liveById call, t.exchangePositionId ≠ some pos.exchangePositionId

/-- The trades that a sync has opened, one for each of some live positions. -/
structure Changes.Opens (call : SyncCall) (changes : Changes) : Prop where
  open_ : ∀ t ∈ changes.inserted, IsOpenTrade t
  live : ∀ t ∈ changes.inserted, ∃ pos ∈ liveById call,
    t.exchangePositionId = some pos.exchangePositionId
  tradeIds : UniqueKey Trade.tradeId changes.inserted
  positions : UniqueKey Trade.exchangePositionId changes.inserted

/-- What a sync knows of the rows when it commits. -/
structure Pending.Knows (call : SyncCall) (rows : List Trade) (p : Pending) : Prop where
  opens : p.changes.Opens call
  gone : ∀ b ∈ p.exit, Gone call rows b.trade
  args : ∀ b ∈ p.exit, b.args.tradeId = b.trade.tradeId

/-! ## The rows after a commit -/

variable {rows : List Trade} {t u row : Trade}

theorem Pending.update_tradeId (p : Pending) (row : Trade) :
    (p.update row).tradeId = row.tradeId := by
  unfold Pending.update
  cases p.exit with
  | none => exact (p.changes.update_keeps row).1
  | some b => exact (updateRow_tradeId _).trans (p.changes.update_keeps row).1

theorem Pending.update_position (p : Pending) (row : Trade) :
    (p.update row).exchangePositionId = row.exchangePositionId := by
  unfold Pending.update
  cases p.exit with
  | none => exact (p.changes.update_keeps row).2.1
  | some b =>
    refine Eq.trans ?_ (p.changes.update_keeps row).2.1
    simp only [updateRow]
    split <;> rfl

/-- The rows of the commit: those before it, updated, and the inserted ones. -/
theorem Pending.commit_trades (hp : p.Knows call db.tables.trades)
    (hfree : ¬p.changes.Conflicts db) :
    (p.commit db).trades = db.tables.trades.map p.update ++ p.changes.inserted := by
  unfold Pending.commit Pending.update
  cases hexit : p.exit with
  | none => rfl
  | some b =>
    have hnew : ∀ t ∈ p.changes.inserted,
        updateRow b.args b.trade b.alreadyClosed t = t := by
      intro t ht
      obtain ⟨row, hrow, hid, -⟩ := (hp.gone b hexit).row
      have hne : t.tradeId ≠ b.args.tradeId := by
        intro h
        refine hfree ⟨t, ht, ?_⟩
        rw [Tables.trade?, Option.isSome_iff_ne_none, ne_eq, lookup_eq_none_iff]
        intro hall
        exact hall row hrow (hid.trans ((hp.args b hexit).symm.trans h.symm))
      rw [updateRow, if_neg hne]
    have hmap : p.changes.inserted.map (updateRow b.args b.trade b.alreadyClosed) =
        p.changes.inserted := by
      rw [List.map_congr_left hnew, List.map_id'']
      exact fun t => rfl
    have hcommit : (commitExit b.args b.trade b.alreadyClosed (p.changes.apply db).tables).trades =
        (db.tables.trades.map p.changes.update ++ p.changes.inserted).map
          (updateRow b.args b.trade b.alreadyClosed) := rfl
    rw [hcommit, List.map_append, hmap, List.map_map]
    rfl

/-- The status of the row that an exit is booked on. -/
theorem isOpenTrade_updateRow {b : PendingExit} (hopen : IsOpenTrade b.trade)
    (hid : row.tradeId = b.args.tradeId) :
    IsOpenTrade (updateRow b.args b.trade b.alreadyClosed row) ↔
      closesFully b.args b.trade b.alreadyClosed = false ∧
        (b.trade.status = .open_ ∨ IsOpenTrade row) := by
  have hstatus : (exitedOf b.args b.trade b.alreadyClosed).status =
      if closesFully b.args b.trade b.alreadyClosed then .closed else .partiallyClosed :=
    withExit_status ..
  simp only [IsOpenTrade, updateRow, if_pos hid, writeBack, hstatus]
  cases closesFully b.args b.trade b.alreadyClosed with
  | true => rcases hopen with h | h <;> simp [h]
  | false => rcases hopen with h | h <;> simp [h]

section Update

variable (hp : p.Knows call rows)
include hp

/-- A commit changes the openness only of the row that an exit is booked on. -/
theorem Pending.isOpenTrade_update_of_ne (hne : ∀ b ∈ p.exit, row.tradeId ≠ b.trade.tradeId) :
    IsOpenTrade (p.update row) ↔ IsOpenTrade row := by
  obtain ⟨hid, -, hstatus⟩ := p.changes.update_keeps row
  unfold Pending.update
  cases hexit : p.exit with
  | none => simp only [IsOpenTrade, hstatus]
  | some b =>
    have hne' : (p.changes.update row).tradeId ≠ b.args.tradeId := by
      rw [hid, hp.args b hexit]
      exact hne b hexit
    simp only [updateRow, if_neg hne', IsOpenTrade, hstatus]

theorem Pending.isOpenTrade_update_booked {b : PendingExit} (hb : b ∈ p.exit)
    (hid : row.tradeId = b.trade.tradeId) :
    IsOpenTrade (p.update row) ↔
      b.Reopens ∨ IsOpenTrade row ∧ closesFully b.args b.trade b.alreadyClosed = false := by
  obtain ⟨hkeep, -, hstatus⟩ := p.changes.update_keeps row
  have hexit : p.exit = some b := hb
  have hrow : (p.changes.update row).tradeId = b.args.tradeId := by rw [hkeep, hid, hp.args b hb]
  have hopen : IsOpenTrade (p.changes.update row) ↔ IsOpenTrade row := by
    simp only [IsOpenTrade, hstatus]
  simp only [Pending.update, hexit, isOpenTrade_updateRow (hp.gone b hb).open_ hrow, hopen,
    PendingExit.Reopens]
  tauto

/-- A row that a commit opens is that of a trade it reopens. -/
theorem Pending.reopened (hclosed : ¬IsOpenTrade row) (hopen : IsOpenTrade (p.update row)) :
    ∃ b ∈ p.exit, b.Reopens ∧ row.tradeId = b.trade.tradeId := by
  by_contra hnone
  push Not at hnone
  by_cases hbooked : ∃ b ∈ p.exit, row.tradeId = b.trade.tradeId
  · obtain ⟨b, hb, hid⟩ := hbooked
    rcases (Pending.isOpenTrade_update_booked hp hb hid).1 hopen with hre | ⟨h, -⟩
    · exact hnone b hb hre hid
    · exact hclosed h
  · push Not at hbooked
    exact hclosed ((Pending.isOpenTrade_update_of_ne hp hbooked).1 hopen)

/-- The row of a booked trade has its position, which is not a live one. -/
theorem Pending.booked_position (hu : UniqueKey Trade.tradeId rows) (hrow : row ∈ rows)
    {b : PendingExit} (hb : b ∈ p.exit) (hid : row.tradeId = b.trade.tradeId) :
    row.exchangePositionId = b.trade.exchangePositionId ∧
      ∀ t ∈ p.changes.inserted, t.exchangePositionId ≠ row.exchangePositionId := by
  obtain ⟨r, hr, hrid, hpos⟩ := (hp.gone b hb).row
  obtain rfl := hu.eq_of_key hrow hr (hid.trans hrid.symm)
  refine ⟨hpos, fun t ht heq => ?_⟩
  obtain ⟨pos, hlive, hpos'⟩ := hp.opens.live t ht
  exact (hp.gone b hb).position pos hlive (hpos.symm.trans (heq.symm.trans hpos'))

end Update

/-! ## One commit -/

/-- Under the unique index, rivals are two rows with two ids. -/
theorem unrivalled_iff (hu : UniqueKey Trade.tradeId rows) : Unrivalled rows ↔
    ∀ t ∈ rows, ∀ u ∈ rows, Rivals t u → t.tradeId = u.tradeId := by
  have hnodup : rows.Nodup := List.Nodup.of_map _ hu
  constructor
  · intro h t ht u hu' hr
    by_contra hne
    exact h.forall ht hu' (fun heq => hne (heq ▸ rfl)) hr
  · intro h
    refine hnodup.pairwise_of_forall_ne fun t ht u hu' hne hr => hne ?_
    exact hu.eq_of_key ht hu' (h t ht u hu' hr)

/-- No row has the id of an inserted trade, if the commit is not refused. -/
theorem Changes.fresh_of_not_conflicts {changes : Changes} (hfree : ¬changes.Conflicts db)
    (ht : t ∈ changes.inserted) (hrow : row ∈ db.tables.trades) : row.tradeId ≠ t.tradeId := by
  intro hid
  refine hfree ⟨t, ht, ?_⟩
  rw [Tables.trade?, Option.isSome_iff_ne_none, ne_eq, lookup_eq_none_iff]
  exact fun hall => hall row hrow hid

theorem Pending.unique_commit (hu : UniqueKey Trade.tradeId db.tables.trades)
    (hp : p.Knows call db.tables.trades) (hfree : ¬p.changes.Conflicts db) :
    UniqueKey Trade.tradeId (p.commit db).trades := by
  rw [p.commit_trades hp hfree]
  unfold UniqueKey
  rw [List.map_append, List.nodup_append]
  refine ⟨hu.map p.update_tradeId, hp.opens.tradeIds, ?_⟩
  intro id hid id' hid' heq
  obtain ⟨r, hr, rfl⟩ := List.mem_map.1 hid
  obtain ⟨row, hrow, rfl⟩ := List.mem_map.1 hr
  obtain ⟨t, ht, rfl⟩ := List.mem_map.1 hid'
  rw [p.update_tradeId] at heq
  exact Changes.fresh_of_not_conflicts hfree ht hrow heq

section OneCommit

variable (hu : UniqueKey Trade.tradeId db.tables.trades) (hp : p.Knows call db.tables.trades)
  (hfree : ¬p.changes.Conflicts db)
include hu hp hfree

/-- A commit that leaves every position one open trade is current. -/
theorem Pending.current_of_commit (h : Unrivalled (p.commit db).trades) :
    p.Current db.tables.trades := by
  have hall := (unrivalled_iff (p.unique_commit hu hp hfree)).1 h
  rw [p.commit_trades hp hfree] at hall
  have hmem : ∀ row ∈ db.tables.trades,
      p.update row ∈ db.tables.trades.map p.update ++ p.changes.inserted := fun row hrow =>
    List.mem_append_left _ (List.mem_map_of_mem hrow)
  constructor
  · intro t ht row hrow hr
    have hne : ∀ b ∈ p.exit, row.tradeId ≠ b.trade.tradeId := fun b hb hid =>
      (p.booked_position hp hu hrow hb hid).2 t ht hr.same
    have hr' : Rivals t (p.update row) :=
      ⟨hr.left, (p.isOpenTrade_update_of_ne hp hne).2 hr.right, hr.position,
        hr.same.trans (p.update_position row).symm⟩
    have hid := hall t (List.mem_append_right _ ht) _ (hmem row hrow) hr'
    rw [p.update_tradeId] at hid
    exact Changes.fresh_of_not_conflicts hfree ht hrow hid.symm
  · intro b hb hre row hrow hr
    obtain ⟨r, hr₀, hid, hpos⟩ := (hp.gone b hb).row
    by_contra hne
    have hother : ∀ c ∈ p.exit, row.tradeId ≠ c.trade.tradeId := by
      intro c hc
      obtain rfl := Option.some.inj (hb.symm.trans hc)
      exact hne
    have hr' : Rivals (p.update r) (p.update row) := by
      refine ⟨(p.isOpenTrade_update_booked hp hb hid).2 (Or.inl hre),
        (p.isOpenTrade_update_of_ne hp hother).2 hr.right, ?_, ?_⟩
      · rw [p.update_position, hpos]
        exact hr.position
      · rw [p.update_position, p.update_position, hpos]
        exact hr.same
    have hids := hall _ (hmem r hr₀) _ (hmem row hrow) hr'
    rw [p.update_tradeId, p.update_tradeId] at hids
    exact hne (hids.symm.trans hid)

/-- A current commit keeps the open trades of every position down to one. -/
theorem Pending.unrivalled_commit (hone : Unrivalled db.tables.trades)
    (hcur : p.Current db.tables.trades) : Unrivalled (p.commit db).trades := by
  rw [unrivalled_iff (p.unique_commit hu hp hfree), p.commit_trades hp hfree]
  -- two rows of before, one of them reopened
  have hreopened : ∀ r ∈ db.tables.trades, ∀ s ∈ db.tables.trades, ¬IsOpenTrade r →
      Rivals (p.update r) (p.update s) → r.tradeId = s.tradeId := by
    intro r hr s hs hclosed hrs
    obtain ⟨b, hb, hre, hid⟩ := p.reopened hp hclosed hrs.left
    by_cases hopen : IsOpenTrade s
    · have hpos := (p.booked_position hp hu hr hb hid).1
      have hrival : Rivals b.trade s := by
        refine ⟨(hp.gone b hb).open_, hopen, ?_, ?_⟩
        · rw [← hpos, ← p.update_position r]
          exact hrs.position
        · rw [← hpos, ← p.update_position r, ← p.update_position s]
          exact hrs.same
      exact hid.trans (hcur.reopens b hb hre s hs hrival).symm
    · obtain ⟨c, hc, -, hid'⟩ := p.reopened hp hopen hrs.right
      obtain rfl := Option.some.inj (hb.symm.trans hc)
      exact hid.trans hid'.symm
  -- a row of before and an inserted one
  have hinserted : ∀ r ∈ db.tables.trades, ∀ t ∈ p.changes.inserted, ¬Rivals t (p.update r) := by
    intro r hr t ht htr
    by_cases hopen : IsOpenTrade r
    · exact hcur.inserts t ht r hr
        ⟨htr.left, hopen, htr.position, htr.same.trans (p.update_position r)⟩
    · obtain ⟨b, hb, -, hid⟩ := p.reopened hp hopen htr.right
      exact (p.booked_position hp hu hr hb hid).2 t ht (htr.same.trans (p.update_position r))
  intro t ht u hu' htu
  rcases List.mem_append.1 ht with ht | ht <;> rcases List.mem_append.1 hu' with hu' | hu'
  · obtain ⟨r, hr, rfl⟩ := List.mem_map.1 ht
    obtain ⟨s, hs, rfl⟩ := List.mem_map.1 hu'
    rw [p.update_tradeId, p.update_tradeId]
    by_cases hropen : IsOpenTrade r
    · by_cases hsopen : IsOpenTrade s
      · refine (unrivalled_iff hu).1 hone r hr s hs ⟨hropen, hsopen, ?_, ?_⟩
        · rw [← p.update_position r]
          exact htu.position
        · rw [← p.update_position r, ← p.update_position s]
          exact htu.same
      · exact (hreopened s hs r hr hsopen htu.symm).symm
    · exact hreopened r hr s hs hropen htu
  · obtain ⟨r, hr, rfl⟩ := List.mem_map.1 ht
    exact absurd htu.symm (hinserted r hr u hu')
  · obtain ⟨s, hs, rfl⟩ := List.mem_map.1 hu'
    exact absurd htu (hinserted s hs t ht)
  · rw [hp.opens.positions.eq_of_key ht hu' htu.same]

end OneCommit

/-! ## Any number of syncs -/

/-- What a sync knows in the loop over the live positions. -/
structure KnowsTaking (call : SyncCall) (rows existing : List Trade) (positions : List Position)
    (changes : Changes) : Prop where
  open_ : ∀ t ∈ existing, IsOpenTrade t
  row : ∀ t ∈ existing, HasRow rows t
  live : ∀ pos ∈ positions, pos ∈ liveById call
  unique : UniqueKey Position.exchangePositionId positions
  opens : changes.Opens call
  ahead : ∀ t ∈ changes.inserted, ∀ pos ∈ positions,
    t.exchangePositionId ≠ some pos.exchangePositionId

/-- What a sync knows in `record_exit`. -/
structure KnowsExiting (call : SyncCall) (rows : List Trade) (trade : Trade) (exit : ExitCall)
    (rest : List Trade) (changes : Changes) : Prop where
  gone : ∀ t ∈ trade :: rest, Gone call rows t
  opens : changes.Opens call
  args : exit.args.tradeId = trade.tradeId
  loaded : ∀ t, exit.stage = .loaded t → t = trade
  checked : ∀ t q, exit.stage = .checked t q → t = trade

/-- What a sync knows of the rows. -/
def SyncStage.Knows (call : SyncCall) (rows : List Trade) : SyncStage → Prop
  | .start => True
  | .taking existing positions changes => KnowsTaking call rows existing positions changes
  | .closing trades changes _ => (∀ t ∈ trades, Gone call rows t) ∧ changes.Opens call
  | .exiting trade exit rest changes _ => KnowsExiting call rows trade exit rest changes
  | .ended _ => True

/-- The condition on the next statement of a sync: if it is a commit, and is not refused, it is
current. -/
def SyncRun.Current (db : SyncTables) (sync : SyncRun) : Prop :=
  ∀ p ∈ sync.stage.pending?, ¬p.changes.Conflicts db → p.Current db.tables.trades

instance (db : SyncTables) (sync : SyncRun) : Decidable (sync.Current db) := by
  unfold SyncRun.Current
  infer_instance

/-- The unique index on the trade ids, and one open trade for every position. -/
structure SyncTables.Sound (db : SyncTables) : Prop where
  unique : UniqueKey Trade.tradeId db.tables.trades
  one : OneOpen db

theorem Changes.opens_nil : ({} : Changes).Opens call := by
  constructor <;> simp [Changes.inserted, UniqueKey]

/-- A live position that no inserted trade has is given a trade with an id of its own. -/
theorem Changes.Opens.insert {changes : Changes} (h : changes.Opens call) {pos : Position}
    (hlive : pos ∈ liveById call) (hopen : IsOpenTrade t)
    (hpos : t.exchangePositionId = some pos.exchangePositionId)
    (hid : ∀ u ∈ changes.inserted, u.tradeId ≠ t.tradeId)
    (hne : ∀ u ∈ changes.inserted, u.exchangePositionId ≠ t.exchangePositionId)
    (e : TradeExecution) :
    ({ changes with opened := changes.opened ++ [(t, e)] } : Changes).Opens call := by
  have hins : ({ changes with opened := changes.opened ++ [(t, e)] } : Changes).inserted =
      changes.inserted ++ [t] := by simp [Changes.inserted]
  constructor
  · rw [hins]
    exact fun u hu => (List.mem_append.1 hu).elim (h.open_ u) fun hu =>
      List.mem_singleton.1 hu ▸ hopen
  · rw [hins]
    exact fun u hu => (List.mem_append.1 hu).elim (h.live u) fun hu =>
      ⟨pos, hlive, List.mem_singleton.1 hu ▸ hpos⟩
  · rw [hins]
    exact h.tradeIds.append_singleton hid
  · rw [hins]
    exact h.positions.append_singleton hne

theorem Changes.Opens.fail {changes : Changes} (h : changes.Opens call) (detail : SyncDetail) :
    (changes.fail detail).Opens call := ⟨h.open_, h.live, h.tradeIds, h.positions⟩

section Mono

variable {rows' : List Trade} (hkeep : ∀ t, HasRow rows t → HasRow rows' t)
include hkeep

theorem Gone.mono (h : Gone call rows t) : Gone call rows' t :=
  ⟨h.open_, hkeep t h.row, h.position⟩

/-- What a sync knows stays true while the rows stay. -/
theorem SyncStage.Knows.mono (h : stage.Knows call rows) : stage.Knows call rows' := by
  cases stage with
  | start | ended r => trivial
  | taking existing positions changes =>
    exact ⟨h.open_, fun t ht => hkeep t (h.row t ht), h.live, h.unique, h.opens, h.ahead⟩
  | closing trades changes closed => exact ⟨fun t ht => (h.1 t ht).mono hkeep, h.2⟩
  | exiting trade exit rest changes closed =>
    exact ⟨fun t ht => (h.gone t ht).mono hkeep, h.opens, h.args, h.loaded, h.checked⟩

end Mono

theorem SyncStage.Knows.pending (h : stage.Knows call rows) (hp : stage.pending? = some p) :
    p.Knows call rows := by
  cases stage with
  | start | ended r => cases hp
  | taking existing positions changes => cases hp
  | closing trades changes closed =>
    cases trades with
    | cons trade rest => cases hp
    | nil =>
      obtain rfl := Option.some.inj hp
      exact ⟨h.2, by simp, by simp⟩
  | exiting trade exit rest changes closed =>
    obtain ⟨args, stage⟩ := exit
    cases stage with
    | start | loaded t | committed t | ended r => cases hp
    | checked loaded alreadyClosed =>
      obtain rfl := Option.some.inj hp
      obtain rfl := h.checked loaded alreadyClosed rfl
      refine ⟨h.opens, ?_, ?_⟩
      · intro b hb
        obtain rfl := Option.some.inj hb
        exact h.gone _ (by simp)
      · intro b hb
        obtain rfl := Option.some.inj hb
        exact h.args

/-- The rows stay when a sync moves. -/
theorem hasRow_moveSync (h : stage.Knows call db.tables.trades) (t : Trade)
    (hrow : HasRow db.tables.trades t) :
    HasRow (moveSync call stage db).1.tables.trades t := by
  cases hstage : stage.pending? with
  | none => rwa [moveSync_of_none hstage]
  | some p =>
    rw [moveSync_of_some hstage]
    split
    · exact hrow
    · rename_i hfree
      obtain ⟨row, hmem, hid, hpos⟩ := hrow
      rw [p.commit_trades (h.pending hstage) hfree]
      exact ⟨p.update row, List.mem_append_left _ (List.mem_map_of_mem hmem),
        (p.update_tradeId row).trans hid, (p.update_position row).trans hpos⟩

/-- The loop over the live positions begins with what the sync has selected. -/
theorem knows_start (call : SyncCall) (db : SyncTables) :
    KnowsTaking call db.tables.trades (existingOpen db) (liveById call) {} := by
  have htracked : ∀ t ∈ existingOpen db, t ∈ db.tables.trades ∧ IsTracked db t := by
    intro t ht
    simpa using List.mem_filter.1 (mem_of_mem_dictOf ht)
  refine ⟨fun t ht => (htracked t ht).2.2.2, fun t ht => ⟨t, (htracked t ht).1, rfl, rfl⟩,
    fun pos hpos => hpos, uniqueKey_dictOf, Changes.opens_nil, by simp [Changes.inserted]⟩

/-- One turn of the loop over the live positions. -/
theorem knows_takePosition {existing : List Trade} {pos : Position} {rest : List Position}
    {changes : Changes} (h : KnowsTaking call rows existing (pos :: rest) changes) :
    (takePosition call existing pos rest changes db).Knows call rows := by
  have hlive : pos ∈ liveById call := h.live pos (by simp)
  have hrest : ∀ q ∈ rest, q ∈ liveById call := fun q hq => h.live q (by simp [hq])
  have hahead : ∀ t ∈ changes.inserted, ∀ q ∈ rest,
      t.exchangePositionId ≠ some q.exchangePositionId := fun t ht q hq =>
    h.ahead t ht q (by simp [hq])
  obtain ⟨hne, hunique⟩ := List.nodup_cons.1 (show (_ :: rest.map _).Nodup from h.unique)
  unfold takePosition
  split
  · exact ⟨h.open_, h.row, hrest, hunique, ⟨h.opens.open_, h.opens.live, h.opens.tradeIds,
      h.opens.positions⟩, hahead⟩
  · dsimp only
    split
    · trivial
    · rename_i hfree
      set trade := tradeOfPosition (changes.apply db) (call.uuidHex pos.exchangePositionId)
        (call.createdAt pos.exchangePositionId) pos with htrade
      have hpos : trade.exchangePositionId = some pos.exchangePositionId := rfl
      have hid : ∀ u ∈ changes.inserted, u.tradeId ≠ trade.tradeId := by
        rw [Option.not_isSome_iff_eq_none, Tables.trade?, lookup_eq_none_iff] at hfree
        exact fun u hu => hfree u (List.mem_append_right _ hu)
      have hopens := h.opens.insert hlive (Or.inl rfl) hpos hid
        (fun u hu => by rw [hpos]; exact h.ahead u hu pos (by simp)) (entryOf pos trade)
      refine ⟨h.open_, h.row, hrest, hunique, hopens, ?_⟩
      intro u hu q hq
      simp only [Changes.inserted, List.map_append, List.map_cons, List.map_nil, List.mem_append,
        List.mem_singleton] at hu
      rcases hu with hu | rfl
      · exact hahead u hu q hq
      · rw [hpos]
        intro heq
        exact hne (Option.some.inj heq ▸ List.mem_map_of_mem hq)

/-- The trades whose position has disappeared. -/
theorem gone_disappeared {existing : List Trade} {positions : List Position} {changes : Changes}
    (h : KnowsTaking call rows existing positions changes) :
    ∀ t ∈ disappeared call existing, Gone call rows t := by
  intro t ht
  obtain ⟨hmem, hgone⟩ := List.mem_filter.1 ht
  have hgone' : ¬∃ pos ∈ liveById call, t.exchangePositionId = some pos.exchangePositionId := by
    simpa using hgone
  push Not at hgone'
  exact ⟨h.open_ t hmem, h.row t hmem, hgone'⟩

theorem knows_startClosing {trade : Trade} {rest closed : List Trade} {changes : Changes}
    (hgone : ∀ t ∈ trade :: rest, Gone call rows t) (hopens : changes.Opens call) :
    (startClosing call trade rest changes closed).Knows call rows := by
  have hrest : ∀ t ∈ rest, Gone call rows t := fun t ht => hgone t (by simp [ht])
  unfold startClosing
  dsimp only
  split
  · exact ⟨hrest, hopens.fail _⟩
  · split
    · trivial
    · exact ⟨hgone, hopens, rfl, by simp, by simp⟩

/-- `record_exit` selects the trade that the session holds. -/
theorem selectTrade_held {args : RecordExitArgs} {trade : Trade} {db : Tables}
    (hargs : args.tradeId = trade.tradeId)
    (hsel : selectTrade args { db with trades := save Trade.tradeId trade db.trades } = .loaded t) :
    t = trade := by
  have hfound :
      lookup Trade.tradeId args.tradeId (save Trade.tradeId trade db.trades) = some t := by
    unfold selectTrade at hsel
    split at hsel
    · cases hsel
    · rename_i u hu
      split at hsel
      · cases hsel
      · split at hsel
        · cases hsel
        · obtain rfl := ExitStage.loaded.inj hsel
          exact hu
  rcases mem_save.1 (mem_of_lookup hfound) with ⟨-, hne⟩ | ⟨heq, -⟩
  · exact absurd ((key_of_lookup hfound).trans hargs) hne
  · exact heq

theorem knows_moveExit {trade : Trade} {exit : ExitCall} {rest closed : List Trade}
    {changes : Changes} (h : KnowsExiting call rows trade exit rest changes) :
    (moveExit trade exit rest changes closed db).2.Knows call rows := by
  obtain ⟨args, stage⟩ := exit
  have hrest : ∀ t ∈ rest, Gone call rows t := fun t ht => h.gone t (by simp [ht])
  cases stage with
  | start =>
    refine ⟨h.gone, h.opens, h.args, ?_, ?_⟩
    · exact fun t ht => selectTrade_held h.args ht
    · intro t q ht
      simp only [ExitCall.move, selectTrade] at ht
      split at ht
      · cases ht
      · split at ht
        · cases ht
        · split at ht <;> cases ht
  | loaded u =>
    obtain rfl := h.loaded u rfl
    refine ⟨h.gone, h.opens, h.args, ?_, ?_⟩
    · intro t ht
      simp only [ExitCall.move, selectClosed] at ht
      split at ht <;> cases ht
    · intro t q ht
      simp only [ExitCall.move, selectClosed] at ht
      split at ht
      · cases ht
      · obtain ⟨rfl, -⟩ := ExitStage.checked.inj ht
        rfl
  | checked u q =>
    simp only [moveExit]
    split
    · trivial
    · exact ⟨h.gone, Changes.opens_nil, h.args, by simp [ExitCall.move], by simp [ExitCall.move]⟩
  | committed u =>
    exact ⟨h.gone, h.opens, h.args, by simp [ExitCall.move], by simp [ExitCall.move]⟩
  | ended result =>
    cases result with
    | ok u => exact ⟨hrest, h.opens⟩
    | error e =>
      cases e with
      | tradeJournalError e => exact ⟨hrest, h.opens.fail _⟩
      | integrityError => trivial

/-- What a sync knows after its own move, of the rows before it. -/
theorem knows_moveSync (h : stage.Knows call db.tables.trades) :
    (moveSync call stage db).2.Knows call db.tables.trades := by
  cases stage with
  | start => exact knows_start call db
  | taking existing positions changes =>
    cases positions with
    | nil => exact ⟨gone_disappeared h, h.opens⟩
    | cons pos rest => exact knows_takePosition h
  | closing trades changes closed =>
    cases trades with
    | nil =>
      simp only [moveSync, finish]
      split <;> trivial
    | cons trade rest => exact knows_startClosing h.1 h.2
  | exiting trade exit rest changes closed => exact knows_moveExit h
  | ended r => trivial

/-- **One statement**: a sync whose commits are current keeps the tables sound, and what every sync
knows of the rows. -/
theorem syncRuns_stable : Stable SyncRun.move SyncTables.Sound
    (fun db sync => sync.stage.Knows sync.call db.tables.trades) (fun _ _ => True)
    SyncRun.Current where
  symm := by simp
  store db sync h hknows hcur := by
    cases hstage : sync.stage.pending? with
    | none =>
      have hmove : (sync.move db).1 = db := moveSync_of_none hstage
      rwa [hmove]
    | some p =>
      have hmove : (sync.move db).1.tables =
          if p.changes.Conflicts db then db.tables else p.commit db := moveSync_of_some hstage
      have hp := hknows.pending hstage
      constructor
      · rw [hmove]
        split
        · exact h.unique
        · rename_i hfree
          exact p.unique_commit h.unique hp hfree
      · rw [oneOpen_iff, hmove]
        split
        · exact oneOpen_iff.1 h.one
        · rename_i hfree
          exact p.unrivalled_commit h.unique hp hfree (oneOpen_iff.1 h.one) (hcur p hstage hfree)
  own db sync _ hknows _ := (knows_moveSync hknows).mono (hasRow_moveSync hknows)
  others db sync other _ hknows _ hother _ := ⟨hother.mono (hasRow_moveSync hknows), trivial⟩

/-- **One open trade per exchange position**, exactly: in any interleaving of any number of syncs,
every position has at most one open trade at every commit if and only if every commit that is not
refused is current. -/
theorem one_open_iff {db : SyncTables} (hu : UniqueKey Trade.tradeId db.tables.trades)
    (h : OneOpen db) (calls : List SyncCall) (schedule : List ℕ) :
    Always (Pool.step SyncRun.move) (fun c => OneOpen c.store) ⟨db, syncRuns calls⟩ schedule ↔
      Guarded (Pool.step SyncRun.move) (Pool.Meets SyncRun.Current) ⟨db, syncRuns calls⟩
        schedule := by
  apply syncRuns_stable.always_iff
  · exact fun c hc => hc.store.one
  · intro c l₁ sync l₂ hc hprocs hafter p hstage hfree
    have hknows := hc.procs sync (by simp [hprocs])
    have hmove : (sync.move c.store).1.tables =
        if p.changes.Conflicts c.store then c.store.tables else p.commit c.store :=
      moveSync_of_some hstage
    rw [oneOpen_iff, hmove, if_neg hfree] at hafter
    exact p.current_of_commit hc.store.unique (hknows.pending hstage) hfree hafter
  · refine ⟨⟨hu, h⟩, ?_, List.pairwise_of_forall (by simp)⟩
    intro sync hsync
    obtain ⟨call, -, rfl⟩ := List.mem_map.1 hsync
    trivial

/-- A sync that is shown the sample position, and names its trade after a UUID. -/
def shownSync (hex : String) : SyncCall :=
  { sampleSync [] with positions := some [sampleRow], uuidHex := fun _ => hex }

/-- Tables without trades. -/
def noTables : SyncTables := { account := { id := 0 } }

theorem noTables_unique : UniqueKey Trade.tradeId noTables.tables.trades := List.nodup_nil

theorem noTables_oneOpen : OneOpen noTables := fun _ => Nat.zero_le 1

/-- Two syncs, one after the other: the second finds the trade of the first. -/
theorem one_open_iff_in_turn :
    Always (Pool.step SyncRun.move) (fun c => OneOpen c.store)
      ⟨noTables, syncRuns [shownSync "A", shownSync "B"]⟩ [0, 0, 0, 0, 1, 1, 1, 1] :=
  (one_open_iff noTables_unique noTables_oneOpen [shownSync "A", shownSync "B"]
    [0, 0, 0, 0, 1, 1, 1, 1]).2 (by decide +kernel)

/-- Two syncs that both select before either commits: each opens a trade for the position. -/
theorem overlapping_syncs_open_twice :
    UniqueKey Trade.tradeId noTables.tables.trades ∧ OneOpen noTables ∧
      ¬Always (Pool.step SyncRun.move) (fun c => OneOpen c.store)
        ⟨noTables, syncRuns [shownSync "A", shownSync "B"]⟩ [0, 1, 0, 0, 0, 1, 1, 1] := by
  refine ⟨noTables_unique, noTables_oneOpen, fun h => ?_⟩
  have hone := h.last "p1"
  revert hone
  decide +kernel

end AlphaOne.Exchange

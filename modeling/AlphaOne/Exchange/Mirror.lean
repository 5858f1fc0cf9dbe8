import AlphaOne.Exchange.Closing
import AlphaOne.Exchange.FailedRead

/-!
# Whether the journal mirrors the exchange

After a sync the open synced trades should be the open positions of the exchange, position by
position, with their side and with what remains of their quantity. A sync refreshes the prices and
the margin of a position it knows and neither its quantity nor its side, and it closes a trade only
as far as the fills of its symbol go.

* `syncPositions_outcome`: what a sync that returns makes of the rows.
* `Outcome.cases`: every tracked trade after a sync continues one from before or begins with a
  position that is new.
* `mirrors_iff`: the exact condition on the syncs of a run under which the journal mirrors the
  exchange after each of them.
-/

namespace AlphaOne.Exchange

open Foundations Journal

/-- The open synced trades. -/
def trackedTrades (db : SyncTables) : List Trade := db.tables.trades.filter (IsTracked db)

/-- What remains of a trade after its recorded exits. -/
def remainingQuantity (db : SyncTables) (t : Trade) : ℚ :=
  t.quantity - closedQuantity db.tables t.tradeId

/-- The open synced trades and the live positions correspond one to one by the id of the position,
and agree on the side and on the quantity. -/
structure Mirrors (live : List Position) (db : SyncTables) : Prop where
  positions : UniqueKey Position.exchangePositionId live
  trades : UniqueKey Trade.exchangePositionId (trackedTrades db)
  total : ∀ pos ∈ live, ∃ t ∈ trackedTrades db,
    t.exchangePositionId = some pos.exchangePositionId
  agree : ∀ t ∈ trackedTrades db, ∃ pos ∈ live, t.exchangePositionId = some pos.exchangePositionId ∧
    t.side = pos.side ∧ remainingQuantity db t = pos.quantity

/-! ## The loop over the live positions -/

/-- A trade without what a sync refreshes. -/
def core (t : Trade) : Trade :=
  { t with
    markPrice := none
    unrealizedPnl := none
    liquidationPrice := none
    margin := none
    lastSyncedAt := none }

@[simp] theorem core_seen (pos : Position) (now : Datetime) (t : Trade) :
    core (seen pos now t) = core t := rfl

/-- The trade that a sync creates for a position. -/
def newTrade (call : SyncCall) (db : SyncTables) (pos : Position) : Trade :=
  tradeOfPosition db (call.uuidHex pos.exchangePositionId)
    (call.createdAt pos.exchangePositionId) pos

/-- The positions without a trade. -/
def newPositions (existing : List Trade) (live : List Position) : List Position :=
  live.filter fun pos =>
    (lookup Trade.exchangePositionId (some pos.exchangePositionId) existing).isNone

variable {call : SyncCall} {existing : List Trade} {live : List Position} {s s' : Session}
  {db : SyncTables} {t r : Trade} {pos : Position}

theorem tradeId_of_core (h : core r = core t) : r.tradeId = t.tradeId :=
  (congrArg Trade.tradeId h :)

theorem core_save {trades : List Trade} (hu : UniqueKey Trade.tradeId trades)
    (ht : core t ∈ trades.map core) (pos : Position) (now : Datetime) :
    (save Trade.tradeId (seen pos now t) trades).map core = trades.map core := by
  obtain ⟨r, hr, hrt⟩ := List.mem_map.1 ht
  have hid : (core r).tradeId = (core t).tradeId := congrArg Trade.tradeId hrt
  rw [save, List.map_map]
  refine List.map_congr_left fun x hx => ?_
  change core (if x.tradeId = t.tradeId then seen pos now t else x) = core x
  split_ifs with hx'
  · rw [hu.eq_of_key hx hr (hx'.trans hid.symm), core_seen, hrt]
  · rfl

theorem createTradeFromPosition_eq
    (hs : s.working.signals = db.signals ∧ s.working.account = db.account)
    (h : createTradeFromPosition call pos s = .ok s') :
    s'.working.tables.trades = s.working.tables.trades ++ [newTrade call db pos] ∧
      s'.working.signals = s.working.signals ∧ s'.working.account = s.working.account ∧
      (∀ id, s'.working.tables.exits id = s.working.tables.exits id) ∧
      ∀ r ∈ s.working.tables.trades, r.tradeId ≠ (newTrade call db pos).tradeId := by
  have hnew : tradeOfPosition s.working (call.uuidHex pos.exchangePositionId)
      (call.createdAt pos.exchangePositionId) pos = newTrade call db pos := by
    simp only [newTrade, tradeOfPosition, hs.1, hs.2]
  unfold createTradeFromPosition at h
  simp only [hnew] at h
  split at h
  · cases h
  · rename_i hfree
    obtain rfl := Except.ok.inj h
    refine ⟨rfl, rfl, rfl, fun id => exits_append_entry rfl id, ?_⟩
    simpa [Tables.trade?, lookup_eq_none_iff] using hfree

/-- **What the first loop does**: it refreshes the trades it knows and adds one for each new
position. -/
theorem takeLive_core (hs : s.working.signals = db.signals ∧ s.working.account = db.account)
    (hu : UniqueKey Trade.tradeId s.working.tables.trades)
    (hexisting : ∀ t ∈ existing, core t ∈ s.working.tables.trades.map core)
    (h : takeLive call existing live s = .ok s') :
    s'.working.tables.trades.map core = s.working.tables.trades.map core ++
        (newPositions existing live).map (fun pos => core (newTrade call db pos)) ∧
      UniqueKey Trade.tradeId s'.working.tables.trades ∧
      ∀ id, s'.working.tables.exits id = s.working.tables.exits id := by
  induction live generalizing s with
  | nil =>
    obtain rfl := Except.ok.inj h
    exact ⟨by simp [newPositions], hu, fun _ => rfl⟩
  | cons pos rest ih =>
    rw [takeLive] at h
    cases hfound : lookup Trade.exchangePositionId (some pos.exchangePositionId) existing with
    | some t =>
      simp only [hfound] at h
      have hcore := core_save hu (hexisting t (mem_of_lookup hfound)) pos call.now
      obtain ⟨hmap, hunique, hexits⟩ := ih (s := s.write { s.working.tables with
        trades := save Trade.tradeId (seen pos call.now t) s.working.tables.trades }) hs hu.save
        (fun t' ht' => by
          change core t' ∈ (save Trade.tradeId _ _).map core
          rw [hcore]
          exact hexisting t' ht') h
      refine ⟨?_, hunique, hexits⟩
      rw [hmap]
      change (save Trade.tradeId _ _).map core ++ _ = _
      rw [hcore, newPositions, newPositions, List.filter_cons_of_neg (by simp [hfound])]
    | none =>
      simp only [hfound] at h
      cases hcreate : createTradeFromPosition call pos s with
      | error e =>
        rw [hcreate] at h
        cases h
      | ok s₁ =>
        rw [hcreate] at h
        obtain ⟨htrades, hsignals, haccount, hexits₁, hfresh⟩ :=
          createTradeFromPosition_eq hs hcreate
        obtain ⟨hmap, hunique, hexits⟩ := ih (s := s₁) ⟨hsignals.trans hs.1, haccount.trans hs.2⟩
          (htrades ▸ hu.append_singleton hfresh)
          (fun t' ht' => by
            rw [htrades, List.map_append]
            exact List.mem_append_left _ (hexisting t' ht')) h
        refine ⟨?_, hunique, fun id => (hexits id).trans (hexits₁ id)⟩
        rw [hmap, htrades, List.map_append, newPositions, newPositions,
          List.filter_cons_of_pos (by simp [hfound])]
        simp

/-! ## What becomes of the trades -/

/-- The trades whose position is not shown. -/
def gone (call : SyncCall) (db : SyncTables) : List Trade := disappeared call (existingOpen db)

/-- A sync takes the position of the trade for closed, and closes the trade with it. -/
def Closes (call : SyncCall) (db : SyncTables) (t : Trade) : Prop :=
  t ∈ gone call db ∧ Books call db.tables t ∧ isFullClose (call.exitArgs t) db.tables t = true

instance (call : SyncCall) (db : SyncTables) : DecidablePred (Closes call db) := fun t =>
  inferInstanceAs (Decidable (t ∈ gone call db ∧ Books call db.tables t ∧ _ = true))

/-- What a sync records as closed of a trade. -/
def closedNow (call : SyncCall) (db : SyncTables) (t : Trade) : ℚ :=
  if t ∈ gone call db ∧ Books call db.tables t then (call.exitArgs t).quantity else 0

/-- What a sync that returns makes of the trades. -/
structure Outcome (call : SyncCall) (db db' : SyncTables) : Prop where
  account : db'.account.id = db.account.id
  unique : UniqueKey Trade.tradeId db'.tables.trades
  origin : ∀ r ∈ db'.tables.trades, (∃ t ∈ db.tables.trades, r.tradeId = t.tradeId) ∨
    ∃ pos ∈ newPositions (existingOpen db) (liveById call),
      r.tradeId = (newTrade call db pos).tradeId
  kept : ∀ t ∈ db.tables.trades, t ∉ gone call db → ∃ r ∈ db'.tables.trades, core r = core t
  refused : ∀ t ∈ gone call db, ¬Books call db.tables t → t ∈ db'.tables.trades
  exited : ∀ t ∈ gone call db, Books call db.tables t →
    exitedRow call db.tables t ∈ db'.tables.trades ∧
      db'.tables.exits t.tradeId = db.tables.exits t.tradeId ++ [exitRow call db.tables t]
  exits : ∀ id, (∀ t ∈ gone call db, t.tradeId = id → ¬Books call db.tables t) →
    db'.tables.exits id = db.tables.exits id
  created : ∀ pos ∈ newPositions (existingOpen db) (liveById call),
    (∃ r ∈ db'.tables.trades, core r = core (newTrade call db pos)) ∧
      ∀ t ∈ db.tables.trades, t.tradeId ≠ (newTrade call db pos).tradeId

theorem mem_gone : t ∈ gone call db ↔ t ∈ existingOpen db ∧
    ∀ pos ∈ liveById call, t.exchangePositionId ≠ some pos.exchangePositionId := mem_disappeared

theorem trade_of_gone (ht : t ∈ gone call db) : t ∈ db.tables.trades :=
  (mem_existingOpen (mem_gone.1 ht).1).1

theorem fresh_of_cores {trades added all : List Trade}
    (hcores : all.map core = trades.map core ++ added.map core)
    (hunique : UniqueKey Trade.tradeId all) : ∀ n ∈ added, ∀ t ∈ trades, t.tradeId ≠ n.tradeId := by
  have hids : all.map Trade.tradeId = trades.map Trade.tradeId ++ added.map Trade.tradeId := by
    have := congrArg (List.map Trade.tradeId) hcores
    simpa [Function.comp_def, core] using this
  rw [UniqueKey, hids] at hunique
  intro n hn t ht
  exact (List.nodup_append.1 hunique).2.2 _ (List.mem_map_of_mem ht) _ (List.mem_map_of_mem hn)

/-- The two loops of a sync that returns: the first one leaves the tables `s`, with the new trades,
and the second one closes the trades that are not shown. -/
structure TwoLoops (call : SyncCall) (db : SyncTables) (s : Session) : Prop where
  cores : s.working.tables.trades.map core = db.tables.trades.map core ++
    ((newPositions (existingOpen db) (liveById call)).map (newTrade call db)).map core
  unique : UniqueKey Trade.tradeId s.working.tables.trades
  exits : ∀ id, s.working.tables.exits id = db.tables.exits id
  same : ∀ t ∈ gone call db, Same t.tradeId db.tables s.working.tables
  closed : ClosedAll call (gone call db) s (closeAll call (gone call db) s).2
  tables : (syncPositions call db).2.tables = (closeAll call (gone call db) s).2.working.tables

theorem twoLoops_of_isOk (hu : UniqueKey Trade.tradeId db.tables.trades)
    (hok : (syncPositions call db).1.isOk = true) : ∃ s, TwoLoops call db s := by
  cases hlive : takeLive call (existingOpen db) (liveById call) ⟨db, db⟩ with
  | error e =>
    simp only [syncPositions, hlive] at hok
    cases hok
  | ok s =>
    obtain ⟨hsame, hspec, hresult⟩ := closeAll_of_live hu hlive rfl
    obtain ⟨hcores, hunique, hexits⟩ := takeLive_core (s := ⟨db, db⟩) ⟨rfl, rfl⟩ hu
      (fun t ht => List.mem_map_of_mem (mem_existingOpen ht).1) hlive
    change (closeAll call (gone call db) s).1 =
      if reached call (gone call db) = gone call db then
        .ok (((gone call db).filter (Books call db.tables)).map (exitedRow call db.tables))
      else .error .zeroDivisionError at hresult
    have hreached : reached call (gone call db) = gone call db := by
      by_contra hne
      rw [if_neg hne] at hresult
      obtain ⟨s', hrun⟩ : ∃ s', closeAll call (disappeared call (existingOpen db)) s =
          (.error .zeroDivisionError, s') := ⟨_, Prod.ext hresult rfl⟩
      simp only [syncPositions, hlive, hrun] at hok
      cases hok
    refine ⟨s, by rwa [List.map_map], hunique, hexits, hsame, ?_, ?_⟩
    · change ClosedAll call (reached call (gone call db)) s
        (closeAll call (gone call db) s).2 at hspec
      rwa [hreached] at hspec
    · rw [if_pos hreached] at hresult
      obtain ⟨s', hrun⟩ : ∃ s', closeAll call (disappeared call (existingOpen db)) s =
          (.ok (((gone call db).filter (Books call db.tables)).map (exitedRow call db.tables)),
            s') := ⟨_, Prod.ext hresult rfl⟩
      rw [gone]
      simp only [syncPositions, hlive, hrun]

namespace TwoLoops

variable (h : TwoLoops call db s)

include h in
/-- A row of the first loop stays, unless its trade is not shown. -/
theorem stays {r : Trade} (hr : r ∈ s.working.tables.trades)
    (hnot : ∀ t ∈ gone call db, t.tradeId ≠ r.tradeId) :
    r ∈ (syncPositions call db).2.tables.trades := by
  have hkeep := h.closed.same r.tradeId fun t ht hid => absurd hid (hnot t ht)
  rw [h.tables]
  exact mem_of_lookup (hkeep.row.trans ((lookup_eq_some_iff h.unique).2 ⟨hr, rfl⟩))

include h in
theorem origin {r : Trade} (hr : r ∈ (syncPositions call db).2.tables.trades) :
    (∃ t ∈ db.tables.trades, r.tradeId = t.tradeId) ∨
      ∃ pos ∈ newPositions (existingOpen db) (liveById call),
        r.tradeId = (newTrade call db pos).tradeId := by
  rw [h.tables] at hr
  rcases h.closed.rows r hr with hrs | ⟨t, ht, rfl⟩
  · have hmem : core r ∈ s.working.tables.trades.map core := List.mem_map_of_mem hrs
    rw [h.cores, List.mem_append] at hmem
    rcases hmem with hmem | hmem
    · obtain ⟨t, ht, hcore⟩ := List.mem_map.1 hmem
      exact .inl ⟨t, ht, (tradeId_of_core hcore).symm⟩
    · obtain ⟨n, hn, hcore⟩ := List.mem_map.1 hmem
      obtain ⟨pos, hpos, rfl⟩ := List.mem_map.1 hn
      exact .inr ⟨pos, hpos, (tradeId_of_core hcore).symm⟩
  · exact .inl ⟨t, trade_of_gone ht, exitedRow_tradeId⟩

include h in
/-- A trade that is shown is only refreshed. -/
theorem kept (hu : UniqueKey Trade.tradeId db.tables.trades) (ht : t ∈ db.tables.trades)
    (hg : t ∉ gone call db) :
    ∃ r ∈ (syncPositions call db).2.tables.trades, core r = core t := by
  have hmem : core t ∈ s.working.tables.trades.map core := by
    rw [h.cores]
    exact List.mem_append_left _ (List.mem_map_of_mem ht)
  obtain ⟨r, hr, hcore⟩ := List.mem_map.1 hmem
  refine ⟨r, h.stays hr fun t' ht' hid' => ?_, hcore⟩
  obtain rfl := hu.eq_of_key (trade_of_gone ht') ht (hid'.trans (tradeId_of_core hcore))
  exact hg ht'

include h in
/-- A trade that is not shown and whose exit is not recorded is as it was. -/
theorem refused (hu : UniqueKey Trade.tradeId db.tables.trades) (ht : t ∈ gone call db)
    (hb : ¬Books call db.tables t) : t ∈ (syncPositions call db).2.tables.trades := by
  have hrow : db.tables.trade? t.tradeId = some t :=
    (lookup_eq_some_iff hu).2 ⟨trade_of_gone ht, rfl⟩
  -- A trade that is not shown is the only row of its id.
  have hquiet : ∀ t' ∈ gone call db, t'.tradeId = t.tradeId →
      ¬Books call s.working.tables t' := by
    intro t' ht' hid hb'
    obtain rfl := hu.eq_of_key (trade_of_gone ht') (trade_of_gone ht) hid
    exact hb ((h.same t' ht').books_iff.1 hb')
  rw [h.tables]
  exact mem_of_lookup ((h.closed.same t.tradeId hquiet).row.trans ((h.same t ht).row.trans hrow))

include h in
theorem exited (ht : t ∈ gone call db) (hb : Books call db.tables t) :
    exitedRow call db.tables t ∈ (syncPositions call db).2.tables.trades ∧
      (syncPositions call db).2.tables.exits t.tradeId =
        db.tables.exits t.tradeId ++ [exitRow call db.tables t] := by
  have hbooked := h.closed.booked t ht ((h.same t ht).books_iff.2 hb)
  rw [(h.same t ht).exitedRow_eq, (h.same t ht).exits, (h.same t ht).exitRow_eq] at hbooked
  rw [h.tables]
  exact ⟨mem_of_lookup hbooked.1, hbooked.2⟩

include h in
theorem exits_eq {id : String}
    (hnot : ∀ t ∈ gone call db, t.tradeId = id → ¬Books call db.tables t) :
    (syncPositions call db).2.tables.exits id = db.tables.exits id := by
  rw [h.tables]
  refine (h.closed.same id fun t ht hid hb => ?_).exits.trans (h.exits id)
  exact hnot t ht hid ((h.same t ht).books_iff.1 hb)

include h in
theorem created (hpos : pos ∈ newPositions (existingOpen db) (liveById call)) :
    (∃ r ∈ (syncPositions call db).2.tables.trades, core r = core (newTrade call db pos)) ∧
      ∀ t ∈ db.tables.trades, t.tradeId ≠ (newTrade call db pos).tradeId := by
  have hn := List.mem_map_of_mem (f := newTrade call db) hpos
  have hfresh := fresh_of_cores h.cores h.unique _ hn
  have hmem : core (newTrade call db pos) ∈ s.working.tables.trades.map core := by
    rw [h.cores]
    exact List.mem_append_right _ (List.mem_map_of_mem hn)
  obtain ⟨r, hr, hcore⟩ := List.mem_map.1 hmem
  refine ⟨⟨r, h.stays hr fun t' ht' hid' => ?_, hcore⟩, hfresh⟩
  exact hfresh t' (trade_of_gone ht') (hid'.trans (tradeId_of_core hcore))

end TwoLoops

/-- **What a sync does that returns.** -/
theorem syncPositions_outcome (hu : UniqueKey Trade.tradeId db.tables.trades)
    (hok : (syncPositions call db).1.isOk = true) :
    Outcome call db (syncPositions call db).2 := by
  have hsynced : Synced call db (syncPositions call db).2 := syncPositions_synced hu
  obtain ⟨s, h⟩ := twoLoops_of_isOk hu hok
  exact ⟨hsynced.account, hsynced.unique, fun _ => h.origin, fun _ => h.kept hu,
    fun _ => h.refused hu, fun _ => h.exited, fun _ => h.exits_eq, fun _ => h.created⟩

/-! ## The tracked trades after a sync -/

/-- The row `r` is the trade `t` after the sync. -/
structure Continues (call : SyncCall) (db db' : SyncTables) (t r : Trade) : Prop where
  tradeId : r.tradeId = t.tradeId
  exchangePositionId : r.exchangePositionId = t.exchangePositionId
  side : r.side = t.side
  remaining : remainingQuantity db' r = remainingQuantity db t - closedNow call db t
  tracked : IsTracked db' r ↔ IsTracked db t ∧ ¬Closes call db t

/-- The row `r` is the trade of a position that is seen for the first time. -/
structure Begins (call : SyncCall) (db db' : SyncTables) (pos : Position) (r : Trade) : Prop where
  tradeId : r.tradeId = (newTrade call db pos).tradeId
  exchangePositionId : r.exchangePositionId = some pos.exchangePositionId
  side : r.side = pos.side
  remaining : remainingQuantity db' r = pos.quantity
  tracked : IsTracked db' r

/-- Every exit is recorded for a trade. -/
def ExitsOwned (db : SyncTables) : Prop :=
  ∀ id, db.tables.exits id ≠ [] → ∃ t ∈ db.tables.trades, t.tradeId = id

variable {db' : SyncTables}

/-- Each trade has a row after the sync. -/
theorem Outcome.continued (h : Outcome call db db') (hu : UniqueKey Trade.tradeId db.tables.trades)
    (ht : t ∈ db.tables.trades) : ∃ r ∈ db'.tables.trades, Continues call db db' t r := by
  have haccount : ∀ r : Trade, IsTracked db' r ↔ IsTracked db r := fun r => by
    rw [IsTracked, h.account]
    rfl
  have hsame : (t ∈ gone call db → ¬Books call db.tables t) →
      db'.tables.exits t.tradeId = db.tables.exits t.tradeId := fun hnot =>
    h.exits _ fun t' ht' hid => by
      obtain rfl := hu.eq_of_key (trade_of_gone ht') ht hid
      exact hnot ht'
  by_cases hg : t ∈ gone call db
  · by_cases hb : Books call db.tables t
    · obtain ⟨hr, hexits⟩ := h.exited t hg hb
      have hnow : closedNow call db t = (call.exitArgs t).quantity := if_pos ⟨hg, hb⟩
      have hsame' : Monitored.SameTrade t (exitedRow call db.tables t) :=
        Monitored.sameTrade_exitedRow
      refine ⟨_, hr, ⟨hsame'.tradeId, hsame'.exchangePositionId, hsame'.side, ?_, ?_⟩⟩
      · rw [remainingQuantity, remainingQuantity, hsame'.tradeId, hsame'.quantity, closedQuantity,
          hexits, hnow]
        simp [closedQuantity, exitRow, exitExecution, sub_sub]
      · rw [haccount]
        have htracked : IsTracked db t := (mem_existingOpen (mem_gone.1 hg).1).2
        have hstatus : (exitedRow call db.tables t).status =
            if isFullClose (call.exitArgs t) db.tables t then .closed else .partiallyClosed := by
          simp only [exitedRow, exitedTrade, withExit]
          split_ifs <;> rfl
        rw [IsTracked, hsame'.accountId, hsame'.source, hstatus]
        cases hfull : isFullClose (call.exitArgs t) db.tables t
        · simp [Closes, hfull, htracked, htracked.1, htracked.2.1]
        · simp [Closes, hfull, hg, hb]
    · have hnow : closedNow call db t = 0 := if_neg fun hc => hb hc.2
      refine ⟨t, h.refused t hg hb, ⟨rfl, rfl, rfl, ?_, ?_⟩⟩
      · rw [remainingQuantity, remainingQuantity, closedQuantity, hsame fun _ => hb, hnow, sub_zero,
          closedQuantity]
      · rw [haccount]
        simp [Closes, hb]
  · obtain ⟨r, hr, hcore⟩ := h.kept t ht hg
    have hnow : closedNow call db t = 0 := if_neg fun hc => hg hc.1
    refine ⟨r, hr, ⟨tradeId_of_core hcore, (congrArg Trade.exchangePositionId hcore :),
      (congrArg Trade.side hcore :), ?_, ?_⟩⟩
    · rw [remainingQuantity, remainingQuantity, closedQuantity, tradeId_of_core hcore,
        hsame fun hg' => absurd hg' hg, hnow, sub_zero, closedQuantity]
      rw [show r.quantity = t.quantity from (congrArg Trade.quantity hcore :)]
    · have htracked : IsTracked db r ↔ IsTracked db t := by
        change IsTracked db (core r) ↔ _
        rw [hcore]
        rfl
      rw [haccount, htracked]
      simp [Closes, hg]

/-- Each new position has a row after the sync. -/
theorem Outcome.begun (h : Outcome call db db') (howned : ExitsOwned db)
    (hpos : pos ∈ newPositions (existingOpen db) (liveById call)) :
    ∃ r ∈ db'.tables.trades, Begins call db db' pos r := by
  obtain ⟨⟨r, hr, hcore⟩, hfresh⟩ := h.created pos hpos
  have hid : r.tradeId = (newTrade call db pos).tradeId := tradeId_of_core hcore
  refine ⟨r, hr, hid, (congrArg Trade.exchangePositionId hcore :),
    (congrArg Trade.side hcore :), ?_, ?_⟩
  · have hnone : db.tables.exits r.tradeId = [] := by
      by_contra hne
      obtain ⟨t, ht, hid'⟩ := howned _ hne
      exact hfresh t ht (hid'.trans hid)
    have hexits : db'.tables.exits r.tradeId = [] := by
      rw [h.exits r.tradeId fun t ht hid' _ => hfresh t (trade_of_gone ht) (hid'.trans hid), hnone]
    rw [remainingQuantity, closedQuantity, hexits]
    rw [show r.quantity = pos.quantity from (congrArg Trade.quantity hcore :)]
    simp
  · rw [IsTracked, h.account]
    change IsTracked db (core r)
    rw [hcore]
    exact ⟨rfl, rfl, .inl rfl⟩

/-- Every tracked trade after the sync is one of these. -/
theorem Outcome.cases (h : Outcome call db db') (hu : UniqueKey Trade.tradeId db.tables.trades)
    (howned : ExitsOwned db) (hr : r ∈ trackedTrades db') :
    (∃ t ∈ trackedTrades db, ¬Closes call db t ∧ Continues call db db' t r) ∨
      ∃ pos ∈ newPositions (existingOpen db) (liveById call), Begins call db db' pos r := by
  obtain ⟨hmem, htracked⟩ := List.mem_filter.1 hr
  have htracked : IsTracked db' r := by simpa using htracked
  rcases h.origin r hmem with ⟨t, ht, hid⟩ | ⟨pos, hpos, hid⟩
  · obtain ⟨r', hr', hcont⟩ := h.continued hu ht
    obtain rfl := h.unique.eq_of_key hmem hr' (hid.trans hcont.tradeId.symm)
    obtain ⟨ht', hcloses⟩ := hcont.tracked.1 htracked
    exact .inl ⟨t, List.mem_filter.2 ⟨ht, by simpa using ht'⟩, hcloses, hcont⟩
  · obtain ⟨r', hr', hbegins⟩ := h.begun howned hpos
    obtain rfl := h.unique.eq_of_key hmem hr' (hid.trans hbegins.tradeId.symm)
    exact .inr ⟨pos, hpos, hbegins⟩

theorem Outcome.exitsOwned (h : Outcome call db db')
    (hu : UniqueKey Trade.tradeId db.tables.trades) (howned : ExitsOwned db) : ExitsOwned db' := by
  intro id hne
  have hrow : ∀ t ∈ db.tables.trades, ∃ r ∈ db'.tables.trades, r.tradeId = t.tradeId :=
    fun t ht => (h.continued hu ht).imp fun r hr => ⟨hr.1, hr.2.tradeId⟩
  by_cases hgone : ∃ t ∈ gone call db, t.tradeId = id
  · obtain ⟨t, ht, rfl⟩ := hgone
    exact hrow t (trade_of_gone ht)
  · rw [h.exits id fun t ht hid _ => hgone ⟨t, ht, hid⟩] at hne
    obtain ⟨t, ht, rfl⟩ := howned id hne
    exact hrow t ht

/-! ## The law over runs -/

/-- The journal, and the positions the exchange has. -/
structure Synchronized where
  db : SyncTables
  live : List Position := []

/-- A sync and the book of positions that the exchange has at that time. -/
structure BookedSync where
  book : List PositionRow
  call : SyncCall

/-- The sync of the first page of the book. -/
def BookedSync.performed (i : BookedSync) : SyncCall := i.call.withRead i.book .page

/-- The open positions of the book. -/
def BookedSync.openPositions (i : BookedSync) : List Position := getOpenPositions (some i.book)

/-- The positions change, and are synced. -/
def Synchronized.step (s : Synchronized) (i : BookedSync) : Synchronized :=
  ⟨(syncPositions i.performed s.db).2, i.openPositions⟩

/-- The sync returns, and the exchange has one position of each id. -/
structure Successful (s : Synchronized) (i : BookedSync) : Prop where
  returns : (syncPositions i.performed s.db).1.isOk = true
  distinct : UniqueKey Position.exchangePositionId i.openPositions

/-- A sync that the journal can follow. -/
structure Followable (s : Synchronized) (i : BookedSync) : Prop where
  /-- A tracked position that is still open has the side of its trade and the quantity that remains
  of it, and the sync does not close the trade. -/
  kept : ∀ t ∈ trackedTrades s.db, ∀ pos ∈ i.openPositions,
    t.exchangePositionId = some pos.exchangePositionId → ¬Closes i.performed s.db t ∧
      t.side = pos.side ∧ remainingQuantity s.db t - closedNow i.performed s.db t = pos.quantity
  /-- The fills of a position that is closed close its trade. -/
  closed : ∀ t ∈ trackedTrades s.db,
    (∀ pos ∈ i.openPositions, t.exchangePositionId ≠ some pos.exchangePositionId) →
      Closes i.performed s.db t
  /-- A position that is opened is on the first page. -/
  shown : ∀ pos ∈ i.openPositions, (∀ t ∈ trackedTrades s.db,
    t.exchangePositionId ≠ some pos.exchangePositionId) → pos ∈ liveById i.performed

/-- The journal is well formed and mirrors the exchange. -/
structure InSync (s : Synchronized) : Prop where
  unique : UniqueKey Trade.tradeId s.db.tables.trades
  owned : ExitsOwned s.db
  mirrors : Mirrors s.live s.db

variable {st : Synchronized} {i : BookedSync}

theorem mem_live_of_mem_liveById (h : pos ∈ liveById i.performed) : pos ∈ i.openPositions := by
  have hmem := mem_of_mem_dictOf h
  exact ((List.take_sublist _ _).filterMap positionOf).subset hmem

theorem mem_trackedTrades : t ∈ trackedTrades db ↔ t ∈ db.tables.trades ∧ IsTracked db t := by
  simp [trackedTrades]

theorem mem_newPositions (htrades : UniqueKey Trade.exchangePositionId (trackedTrades db)) :
    pos ∈ newPositions (existingOpen db) live ↔ pos ∈ live ∧
      ∀ t ∈ trackedTrades db, t.exchangePositionId ≠ some pos.exchangePositionId := by
  have hmem : ∀ t, t ∈ existingOpen db ↔ t ∈ trackedTrades db := fun t => htrades.mem_dictOf
  simp [newPositions, lookup_eq_none_iff, hmem]

/-- The tracked trades after a sync have different positions. -/
theorem Outcome.uniqueKey (h : Outcome i.performed st.db db') (hI : InSync st)
    (hdistinct : UniqueKey Position.exchangePositionId i.openPositions) :
    UniqueKey Trade.exchangePositionId (trackedTrades db') := by
  have hnodup : (trackedTrades db').Nodup :=
    (List.Nodup.of_map _ h.unique).sublist List.filter_sublist
  refine hnodup.map_on fun a ha b hb hab => ?_
  refine h.unique.eq_of_key (mem_trackedTrades.1 ha).1 (mem_trackedTrades.1 hb).1 ?_
  rcases h.cases hI.unique hI.owned ha with ⟨t, ht, -, hta⟩ | ⟨pos, hpos, hpa⟩ <;>
    rcases h.cases hI.unique hI.owned hb with ⟨t', ht', -, htb⟩ | ⟨pos', hpos', hpb⟩
  · have hid := hta.exchangePositionId.symm.trans (hab.trans htb.exchangePositionId)
    obtain rfl := hI.mirrors.trades.eq_of_key ht ht' hid
    exact hta.tradeId.trans htb.tradeId.symm
  · have hid := hta.exchangePositionId.symm.trans (hab.trans hpb.exchangePositionId)
    exact absurd hid (((mem_newPositions hI.mirrors.trades).1 hpos').2 t ht)
  · have hid := htb.exchangePositionId.symm.trans (hab.symm.trans hpa.exchangePositionId)
    exact absurd hid (((mem_newPositions hI.mirrors.trades).1 hpos).2 t' ht')
  · have hid := hpa.exchangePositionId.symm.trans (hab.trans hpb.exchangePositionId)
    have hlive := fun {p} (hp : p ∈ newPositions (existingOpen st.db) (liveById i.performed)) =>
      mem_live_of_mem_liveById ((mem_newPositions hI.mirrors.trades).1 hp).1
    obtain rfl := hdistinct.eq_of_key (hlive hpos) (hlive hpos') (Option.some.inj hid)
    exact hpa.tradeId.trans hpb.tradeId.symm

/-- A sync that the journal can follow keeps it in sync. -/
theorem mirrors_of_followable (hI : InSync st) (hs : Successful st i) (h : Followable st i) :
    Mirrors (st.step i).live (st.step i).db := by
  have hout : Outcome i.performed st.db (st.step i).db := syncPositions_outcome hI.unique hs.returns
  refine ⟨hs.distinct, hout.uniqueKey hI hs.distinct, ?_, ?_⟩
  · intro pos hpos
    by_cases hknown : ∃ t ∈ trackedTrades st.db,
        t.exchangePositionId = some pos.exchangePositionId
    · obtain ⟨t, ht, hid⟩ := hknown
      obtain ⟨hmem, htracked⟩ := mem_trackedTrades.1 ht
      obtain ⟨r, hr, hcont⟩ := hout.continued hI.unique hmem
      exact ⟨r, mem_trackedTrades.2 ⟨hr, hcont.tracked.2 ⟨htracked, (h.kept t ht pos hpos hid).1⟩⟩,
        hcont.exchangePositionId.trans hid⟩
    · push Not at hknown
      have hnew := (mem_newPositions hI.mirrors.trades).2 ⟨h.shown pos hpos hknown, hknown⟩
      obtain ⟨r, hr, hbegins⟩ := hout.begun hI.owned hnew
      exact ⟨r, mem_trackedTrades.2 ⟨hr, hbegins.tracked⟩, hbegins.exchangePositionId⟩
  · intro r hr
    rcases hout.cases hI.unique hI.owned hr with ⟨t, ht, hcloses, hcont⟩ | ⟨pos, hpos, hbegins⟩
    · by_cases hopen : ∃ pos ∈ i.openPositions, t.exchangePositionId = some pos.exchangePositionId
      · obtain ⟨pos, hpos, hid⟩ := hopen
        obtain ⟨-, hside, hquantity⟩ := h.kept t ht pos hpos hid
        exact ⟨pos, hpos, hcont.exchangePositionId.trans hid, hcont.side.trans hside,
          hcont.remaining.trans hquantity⟩
      · push Not at hopen
        exact absurd (h.closed t ht hopen) hcloses
    · exact ⟨pos, mem_live_of_mem_liveById ((mem_newPositions hI.mirrors.trades).1 hpos).1,
        hbegins.exchangePositionId, hbegins.side, hbegins.remaining⟩

/-- A sync that leaves the journal in sync was one that it could follow. -/
theorem followable_of_mirrors (hI : InSync st) (hs : Successful st i)
    (h : Mirrors (st.step i).live (st.step i).db) : Followable st i := by
  have hout : Outcome i.performed st.db (st.step i).db := syncPositions_outcome hI.unique hs.returns
  have hlive : ∀ {pos}, pos ∈ newPositions (existingOpen st.db) (liveById i.performed) →
      pos ∈ liveById i.performed ∧ ∀ t ∈ trackedTrades st.db,
        t.exchangePositionId ≠ some pos.exchangePositionId := (mem_newPositions hI.mirrors.trades).1
  refine ⟨?_, ?_, ?_⟩
  · intro t ht pos hpos hid
    have hopen : ¬Closes i.performed st.db t := by
      intro hcloses
      obtain ⟨r, hr, hrid⟩ := h.total pos hpos
      rcases hout.cases hI.unique hI.owned hr with ⟨t', ht', hnot, hcont⟩ | ⟨p, hp, hbegins⟩
      · obtain rfl := hI.mirrors.trades.eq_of_key ht' ht
          (hcont.exchangePositionId.symm.trans (hrid.trans hid.symm))
        exact hnot hcloses
      · exact (hlive hp).2 t ht (hid.trans (hrid.symm.trans hbegins.exchangePositionId))
    obtain ⟨hmem, htracked⟩ := mem_trackedTrades.1 ht
    obtain ⟨r, hr, hcont⟩ := hout.continued hI.unique hmem
    have hr := mem_trackedTrades.2 ⟨hr, hcont.tracked.2 ⟨htracked, hopen⟩⟩
    obtain ⟨pos', hpos', hrid, hside, hquantity⟩ := h.agree r hr
    have hsame := hid.symm.trans (hcont.exchangePositionId.symm.trans hrid)
    obtain rfl := hs.distinct.eq_of_key hpos hpos' (Option.some.inj hsame)
    exact ⟨hopen, hcont.side.symm.trans hside, hcont.remaining.symm.trans hquantity⟩
  · intro t ht hgone
    by_contra hopen
    obtain ⟨hmem, htracked⟩ := mem_trackedTrades.1 ht
    obtain ⟨r, hr, hcont⟩ := hout.continued hI.unique hmem
    have hr := mem_trackedTrades.2 ⟨hr, hcont.tracked.2 ⟨htracked, hopen⟩⟩
    obtain ⟨pos, hpos, hrid, -⟩ := h.agree r hr
    exact hgone pos hpos (hcont.exchangePositionId.symm.trans hrid)
  · intro pos hpos hnew
    obtain ⟨r, hr, hrid⟩ := h.total pos hpos
    rcases hout.cases hI.unique hI.owned hr with ⟨t, ht, -, hcont⟩ | ⟨p, hp, hbegins⟩
    · exact absurd (hcont.exchangePositionId.symm.trans hrid) (hnew t ht)
    · have hsame := hbegins.exchangePositionId.symm.trans hrid
      obtain rfl := hs.distinct.eq_of_key (mem_live_of_mem_liveById (hlive hp).1) hpos
        (Option.some.inj hsame)
      exact (hlive hp).1

/-- **The journal mirrors the exchange after every successful sync exactly when** each sync is one
that it can follow. -/
theorem mirrors_iff (is : List BookedSync) (hI : InSync st)
    (hs : Guarded Synchronized.step Successful st is) :
    Always Synchronized.step (fun s => Mirrors s.live s.db) st is ↔
      Guarded Synchronized.step Followable st is := by
  refine always_iff_guarded_of_invariant (I := InSync) (fun _ hI => hI.mirrors) ?_ ?_ hI hs
  · intro s i hI hs hf
    have hout : Outcome i.performed s.db (s.step i).db :=
      syncPositions_outcome hI.unique hs.returns
    exact ⟨hout.unique, hout.exitsOwned hI.unique hI.owned, mirrors_of_followable hI hs hf⟩
  · intro s i hI hs hm
    exact followable_of_mirrors hI hs hm

/-- A journal without trades and an exchange without positions. -/
def emptyJournal : Synchronized := { db := { account := { id := 0 } } }

theorem inSync_emptyJournal : InSync emptyJournal :=
  ⟨List.nodup_nil, fun _ h => absurd rfl h, List.nodup_nil, List.nodup_nil, by decide, by decide⟩

/-- The sample position with another quantity. -/
def rowOf (quantity : ℚ) : PositionRow := { sampleRow with activePos := quantity }

/-- A sync of a book, with these fills of the last day. -/
def syncOf (book : List PositionRow) (fills : List Fill) : BookedSync := ⟨book, sampleSync fills⟩

/-- A position that is opened, stays as it is and is closed by fills of its quantity. -/
def openedClosed : List BookedSync :=
  [syncOf [rowOf 2] [], syncOf [rowOf 2] [], syncOf [] [sampleFill "o1" 95, sampleFill "o2" 96]]

/-- A position that is opened with two units and scaled in to three. -/
def scaledIn : List BookedSync := [syncOf [rowOf 2] [], syncOf [rowOf 3] []]

theorem mirrors_openedClosed :
    Always Synchronized.step (fun s => Mirrors s.live s.db) emptyJournal openedClosed :=
  (mirrors_iff openedClosed inSync_emptyJournal
    ⟨⟨by decide +kernel, List.nodup_singleton _⟩, ⟨by decide +kernel, List.nodup_singleton _⟩,
      ⟨by decide +kernel, List.nodup_nil⟩, trivial⟩).2
    ⟨⟨by decide +kernel, by decide +kernel, by decide +kernel⟩,
      ⟨by decide +kernel, by decide +kernel, by decide +kernel⟩,
      ⟨by decide +kernel, by decide +kernel, by decide +kernel⟩, trivial⟩

/-- The trade of a position that is scaled in stays at its first quantity. -/
theorem not_mirrors_scaledIn : InSync emptyJournal ∧
    Guarded Synchronized.step Successful emptyJournal scaledIn ∧
    ¬Always Synchronized.step (fun s => Mirrors s.live s.db) emptyJournal scaledIn := by
  refine ⟨inSync_emptyJournal, ⟨⟨by decide +kernel, List.nodup_singleton _⟩,
    ⟨by decide +kernel, List.nodup_singleton _⟩, trivial⟩, fun h => ?_⟩
  have hagree := h.2.2.agree
  revert hagree
  decide +kernel

end AlphaOne.Exchange

import AlphaOne.Exchange.Mirror
import AlphaOne.Journal.ConcurrentExits
import AlphaOne.Risk.Engine

/-!
# The daily loss limit

`services/live_execution/daily_loss.py`: no live order is attempted once the day's realized loss
has reached a share of the account's equity. The P&L of a trade is stored in its row, where it
accumulates over all exits of the trade, and the check sums the rows of the live trades that were
closed today.

The rows can be relied on: whatever the journal and the exchange sync do, the P&L of a trade is
that of its exits (`booked_run`). But the selected rows are not the exits of the day. They have
what their trades realized on other days (`carriedPnl`), and they miss what other trades realized
today (`missedPnl`); the sum is off by the difference (`realizedToday_eq`), and the check is right
exactly if this does not take it across the limit (`checkDailyLossLimit_right_iff`).
-/

namespace AlphaOne.Live

open Foundations Exchange Journal

/-! ## The check -/

/-- Why the check decides as it does, with the values its text is formatted from. -/
inductive DailyLossReason
  /-- `Real CoinDCX account equity is unavailable -- cannot evaluate the daily loss limit safely.`
  -/
  | equityUnavailable
  /-- `Today's realized live PnL {realized_pnl:.2f} INR has reached the daily loss limit
  ({max_daily_loss_pct}% of {equity:.2f} INR equity = {loss_limit:.2f} INR).` -/
  | limitReached (realizedPnl maxDailyLossPct equity lossLimit : ℚ)
  /-- `OK` -/
  | ok
  deriving DecidableEq, Repr

structure DailyLossCheck where
  approved : Bool
  reason : DailyLossReason
  realizedPnlInrToday : ℚ := 0
  accountEquityInr : Option ℚ := none
  lossLimitInr : Option ℚ := none
  deriving DecidableEq, Repr

/-- `DEFAULT_MAX_DAILY_LOSS_PCT`. -/
def defaultMaxDailyLossPct : ℚ := ({} : Risk.RiskConfig).maxDailyLossPct

/-- The condition of the query: a live trade whose exit time is within the day of `now`. -/
def ClosedToday (now : Datetime) (t : Trade) : Prop :=
  let dayStart := now.dayStart
  let dayEnd := dayStart + Timedelta.days 1
  t.mode = .live ∧ t.status = .closed ∧
    ∃ exitTime ∈ t.exitTime, dayStart ≤ exitTime ∧ exitTime < dayEnd

instance (now : Datetime) : DecidablePred (ClosedToday now) := fun t => by
  unfold ClosedToday
  infer_instance

/-- `realized_pnl`. -/
def realizedToday (db : Tables) (now : Datetime) : ℚ :=
  ((db.trades.filter (ClosedToday now)).map Trade.pnl).sum

/-- `check_daily_loss_limit`, on the total equity of the balance. -/
def checkDailyLossLimit (db : Tables) (totalEquity : Option ℚ) (now : Datetime)
    (maxDailyLossPct : ℚ := defaultMaxDailyLossPct) : DailyLossCheck :=
  match totalEquity with
  | none => { approved := false, reason := .equityUnavailable }
  | some equity =>
    let realizedPnl := realizedToday db now
    let lossLimit := -|equity * (maxDailyLossPct / 100)|
    if realizedPnl ≤ lossLimit then
      { approved := false
        reason := .limitReached realizedPnl maxDailyLossPct equity lossLimit
        realizedPnlInrToday := realizedPnl
        accountEquityInr := some equity
        lossLimitInr := some lossLimit }
    else
      { approved := true
        reason := .ok
        realizedPnlInrToday := realizedPnl
        accountEquityInr := some equity
        lossLimitInr := some lossLimit }

/-! ## What changes the live trades -/

/-- A call on the journal, or a sync of an account, which matches new trades with the signals. -/
inductive TradeOp
  | journal (call : Call)
  | setSignalMatch (tradeId signalId : String) (confidence : Option ℚ)
  | syncPositions (account : Account) (signals : List Signal) (call : SyncCall)

/-- The journal tables after a change, whether it returned or raised. -/
def TradeOp.step (db : Tables) : TradeOp → Tables
  | .journal call => Journal.step db call
  | .setSignalMatch tradeId signalId confidence =>
    (Journal.setSignalMatch tradeId signalId confidence db).2
  | .syncPositions account signals call =>
    (Exchange.syncPositions call { tables := db, signals, account }).2.tables

/-! ## The P&L of exits -/

/-- The P&L of one exit of a trade. -/
def slicePnl (t : Trade) (e : TradeExecution) : ℚ :=
  (computeSlicePnl t.side t.entryPrice e.price e.quantity t.leverage).pnl

/-- What a trade has realized on the days that pass a test. -/
def pnlOn (db : Tables) (p : ℤ → Prop) [DecidablePred p] (t : Trade) : ℚ :=
  (((db.exits t.tradeId).filter fun e => p (Datetime.date e.timestamp)).map (slicePnl t)).sum

/-- The P&L of all exits of live trades on the day of `now`. -/
def dayPnl (db : Tables) (now : Datetime) : ℚ :=
  ((db.trades.filter fun t => t.mode = .live).map (pnlOn db (· = now.date))).sum

/-- What the trades closed today realized on other days. -/
def carriedPnl (db : Tables) (now : Datetime) : ℚ :=
  ((db.trades.filter (ClosedToday now)).map (pnlOn db (¬· = now.date))).sum

/-- What the live trades that were not closed today realized today. -/
def missedPnl (db : Tables) (now : Datetime) : ℚ :=
  ((db.trades.filter fun t => t.mode = .live ∧ ¬ClosedToday now t).map
    (pnlOn db (· = now.date))).sum

/-! ## The rows have the P&L of their exits -/

/-- Every trade is accounted for, and every exit belongs to a trade. -/
structure Booked (db : Tables) : Prop where
  accounted : db.Accounted
  owned : ∀ id, db.exits id ≠ [] → ∃ t ∈ db.trades, t.tradeId = id

/-- The columns of a row that the account of a trade depends on. -/
def terms (t : Trade) : String × Side × ℚ × ℚ × ℤ × ℚ :=
  (t.tradeId, t.side, t.entryPrice, t.quantity, t.leverage, t.pnl)

variable {db db' : Tables} {now : Datetime} {t : Trade}

theorem booked_empty : Booked {} where
  accounted := ⟨List.nodup_nil, by simp, by simp⟩
  owned := by simp [Tables.exits]

theorem bookedPnl_eq (db : Tables) (t : Trade) :
    bookedPnl db t = ((db.exits t.tradeId).map (slicePnl t)).sum := rfl

/-- The account of a row depends on its terms and on the exits of the trade. -/
theorem account_congr {r : Trade} (hterms : terms r = terms t)
    (hexits : ∀ id, db'.exits id = db.exits id) :
    (closedQuantity db' r.tradeId ≤ r.quantity + tolerance ↔
        closedQuantity db t.tradeId ≤ t.quantity + tolerance) ∧
      (r.pnl = bookedPnl db' r ↔ t.pnl = bookedPnl db t) := by
  simp only [terms, Prod.mk.injEq] at hterms
  obtain ⟨hid, hside, hentry, hquantity, hleverage, hpnl⟩ := hterms
  simp only [closedQuantity, bookedPnl, hid, hside, hentry, hquantity, hleverage, hpnl, hexits,
    and_self]

/-- **No exit**: rows whose other columns change, and new trades without P&L, are booked. -/
theorem Booked.of_terms (h : Booked db) (added : List Trade)
    (hunique : UniqueKey Trade.tradeId db'.trades)
    (hterms : db'.trades.map terms = (db.trades ++ added).map terms)
    (hadded : ∀ n ∈ added, n.pnl = 0 ∧ 0 ≤ n.quantity)
    (hexits : ∀ id, db'.exits id = db.exits id) : Booked db' := by
  have hids : db'.trades.map Trade.tradeId = (db.trades ++ added).map Trade.tradeId := by
    have hfst := congrArg (List.map Prod.fst) hterms
    rw [List.map_map, List.map_map] at hfst
    exact hfst
  have hfresh : ∀ n ∈ added, db.exits n.tradeId = [] := by
    intro n hn
    by_contra hne
    obtain ⟨t, ht, hid⟩ := h.owned _ hne
    rw [UniqueKey, hids, List.map_append] at hunique
    exact (List.nodup_append.1 hunique).2.2 _ (List.mem_map_of_mem ht) _ (List.mem_map_of_mem hn)
      hid
  have hrow : ∀ r ∈ db'.trades, closedQuantity db' r.tradeId ≤ r.quantity + tolerance ∧
      r.pnl = bookedPnl db' r := by
    intro r hr
    have hmem : terms r ∈ (db.trades ++ added).map terms := hterms ▸ List.mem_map_of_mem hr
    obtain ⟨t, ht, heq⟩ := List.mem_map.1 hmem
    obtain ⟨hclosed, hpnl⟩ := account_congr heq.symm hexits
    rw [hclosed, hpnl]
    rcases List.mem_append.1 ht with ht | ht
    · exact ⟨h.accounted.closed_le t ht, h.accounted.pnl t ht⟩
    · obtain ⟨hzero, hquantity⟩ := hadded t ht
      have htolerance := tolerance_pos
      rw [closedQuantity, bookedPnl, hfresh t ht, hzero]
      exact ⟨by simpa using by linarith, rfl⟩
  refine ⟨⟨hunique, fun r hr => (hrow r hr).1, fun r hr => (hrow r hr).2⟩, fun id hne => ?_⟩
  rw [hexits] at hne
  obtain ⟨t, ht, rfl⟩ := h.owned id hne
  have hmem : t.tradeId ∈ db'.trades.map Trade.tradeId := by
    rw [hids]
    exact List.mem_map_of_mem (List.mem_append_left _ ht)
  exact List.mem_map.1 hmem

/-- A row that is written with its terms unchanged. -/
theorem Booked.save (h : Booked db) (ht : t ∈ db.trades) {r : Trade} (hterms : terms r = terms t) :
    Booked { db with trades := save Trade.tradeId r db.trades } := by
  have hid : r.tradeId = t.tradeId := congrArg Prod.fst hterms
  refine h.of_terms [] h.accounted.unique.save ?_ (by simp) fun _ => rfl
  rw [List.append_nil, Foundations.save, List.map_map]
  refine List.map_congr_left fun o ho => ?_
  by_cases heq : o.tradeId = r.tradeId
  · obtain rfl := h.accounted.unique.eq_of_key ho ht (heq.trans hid)
    rw [Function.comp_apply, if_pos heq, hterms]
  · rw [Function.comp_apply, if_neg heq]

/-- **An exit**: its P&L goes into the row together with the execution. -/
theorem Booked.recordExit (h : Booked db) (args : RecordExitArgs) :
    Booked (recordExit args db).2 := by
  rcases recordExit_cases args db with ⟨e, herror⟩ | ⟨t, hacc⟩
  · rwa [herror]
  · have hcommit := (commitExit_of_accepted h.accounted.unique hacc).1
    have hfits : CommitFits args t db :=
      ⟨by linarith [hacc.quantity_le], .inr (by rw [hacc.row, Option.map_some])⟩
    rw [← hcommit]
    refine ⟨(accounted_commitExit_iff h.accounted hacc.row ⟨rfl, rfl, rfl, rfl⟩).2 hfits, ?_⟩
    intro id hne
    have hrow : ∃ r ∈ db.trades, r.tradeId = id := by
      by_cases hid : args.tradeId = id
      · exact ⟨t, mem_of_lookup hacc.row, hacc.tradeId.trans hid⟩
      · rw [exits_commitExit, if_neg hid, List.append_nil] at hne
        exact h.owned id hne
    obtain ⟨r, hr, rfl⟩ := hrow
    exact ⟨_, List.mem_map_of_mem hr, updateRow_tradeId r⟩

theorem Booked.effect (h : Booked db) (heffect : Effect db db') : Booked db' := by
  cases heffect with
  | opened t e hnew ht he hid =>
    exact h.of_terms [t] (h.accounted.unique.append_singleton hnew) rfl
      (by simp [ht.pnl, ht.quantity_pos.le]) (exits_append_entry he)
  | exited args t hacc =>
    have hexit := h.recordExit args
    rwa [recordExit_of_accepted hacc] at hexit
  | cancelled t hrow hopen reason time => exact h.save (mem_of_lookup hrow) rfl

theorem Booked.journal (h : Booked db) (call : Call) : Booked (Journal.step db call) := by
  unfold Journal.step
  rcases perform_cases call db with ⟨f, herror⟩ | ⟨t, -, heffect⟩
  · rwa [herror]
  · exact h.effect heffect

theorem Booked.setSignalMatch (h : Booked db) (tradeId signalId : String)
    (confidence : Option ℚ) : Booked (Journal.setSignalMatch tradeId signalId confidence db).2 := by
  unfold Journal.setSignalMatch
  cases hrow : db.trade? tradeId with
  | none => exact h
  | some t => exact h.save (mem_of_lookup hrow) rfl

/-! ### A sync -/

variable {call : SyncCall} {s s' : Session}

/-- The loop over the live positions refreshes rows and adds trades without P&L. -/
theorem Booked.takeLive {db : SyncTables} (h : Booked db.tables)
    (hlive : takeLive call (existingOpen db) (liveById call) ⟨db, db⟩ = .ok s) :
    Booked s.working.tables := by
  have hu := h.accounted.unique
  obtain ⟨hcores, hunique, hexits⟩ := takeLive_core (s := ⟨db, db⟩) ⟨rfl, rfl⟩ hu
    (fun t ht => List.mem_map_of_mem (mem_existingOpen ht).1) hlive
  have hterms := congrArg (List.map terms) hcores
  refine h.of_terms ((newPositions (existingOpen db) (liveById call)).map (newTrade call db))
    hunique ?_ ?_ hexits
  · rw [List.map_append, List.map_map, List.map_map, List.map_map] at hterms
    rw [List.map_append, List.map_map]
    exact hterms
  · intro n hn
    obtain ⟨pos, -, rfl⟩ := List.mem_map.1 hn
    exact ⟨rfl, pos.quantity_pos.le⟩

/-- The tables of a session, as they are committed and as they are worked on. -/
def BookedSession (s : Session) : Prop := Booked s.committed.tables ∧ Booked s.working.tables

variable (call) in
theorem BookedSession.closeDisappearedPosition (h : BookedSession s) (trade : Trade) :
    BookedSession (closeDisappearedPosition call trade s).2 := by
  have hexit := h.2.recordExit
    (exitArgs call trade (closingFills trade (call.historyOf trade)))
  simp only [Exchange.closeDisappearedPosition]
  split
  · exact h
  · split
    · exact h
    · split
      · rename_i closed tables heq
        rw [heq] at hexit
        exact ⟨hexit, hexit⟩
      · exact h
      · exact h

variable (call) in
/-- The loop over the disappeared positions records exits only. -/
theorem BookedSession.closeAll (h : BookedSession s) (gone : List Trade) :
    BookedSession (closeAll call gone s).2 := by
  induction gone generalizing s with
  | nil => exact h
  | cons trade rest ih =>
    have hone := h.closeDisappearedPosition call trade
    rw [Exchange.closeAll]
    split
    · rename_i e s' heq
      rwa [heq] at hone
    · rename_i closed s' heq
      rw [heq] at hone
      have hrest := ih hone
      split <;> rename_i heq' <;> rwa [heq'] at hrest

/-- **A sync**: the rows are booked, whether it returns or raises. -/
theorem Booked.syncPositions {db : SyncTables} (h : Booked db.tables) :
    Booked (syncPositions call db).2.tables := by
  simp only [Exchange.syncPositions]
  cases hlive : Exchange.takeLive call (existingOpen db) (liveById call) ⟨db, db⟩ with
  | error e => exact h
  | ok s =>
    have hs : BookedSession s := ⟨by rwa [takeLive_committed hlive], h.takeLive hlive⟩
    have hclosed := hs.closeAll call (disappeared call (existingOpen db))
    dsimp only
    split <;> rename_i heq <;> rw [heq] at hclosed
    · exact hclosed.1
    · exact hclosed.2

/-! ### All runs -/

theorem Booked.step (h : Booked db) (op : TradeOp) : Booked (TradeOp.step db op) := by
  cases op with
  | journal call => exact h.journal call
  | setSignalMatch tradeId signalId confidence => exact h.setSignalMatch tradeId signalId confidence
  | syncPositions account signals call => exact h.syncPositions

/-- **The rows can be relied on**: after any sequence of changes, the P&L of every trade is that of
its exits. -/
theorem booked_run (ops : List TradeOp) : Booked (run TradeOp.step {} ops) :=
  (Always.of_step (P := Booked) (fun _ op h => h.step op) booked_empty ops).last

/-! ## What the check sums -/

/-- What a trade has realized, on a day and on the others. -/
theorem Booked.pnl_eq (h : Booked db) (ht : t ∈ db.trades) (day : ℤ) :
    t.pnl = pnlOn db (· = day) t + pnlOn db (¬· = day) t := by
  have hsplit := List.sum_map_filter_add_sum_map_filter_not
    (fun e : TradeExecution => Datetime.date e.timestamp = day) (slicePnl t) (db.exits t.tradeId)
  rw [h.accounted.pnl t ht, bookedPnl_eq]
  exact hsplit.symm

/-- **The sum of the check** is the P&L of the day, off by what it carries and what it misses. -/
theorem realizedToday_eq (h : Booked db) (now : Datetime) :
    realizedToday db now = dayPnl db now + (carriedPnl db now - missedPnl db now) := by
  have hrows : realizedToday db now =
      ((db.trades.filter (ClosedToday now)).map fun t =>
        pnlOn db (· = now.date) t + pnlOn db (¬· = now.date) t).sum := by
    refine congrArg List.sum (List.map_congr_left fun t ht => ?_)
    exact h.pnl_eq (List.mem_of_mem_filter ht) now.date
  have hclosed : (db.trades.filter fun t => t.mode = .live).filter (ClosedToday now) =
      db.trades.filter (ClosedToday now) := by
    rw [List.filter_filter]
    refine List.filter_congr fun t _ => ?_
    simpa using fun h : ClosedToday now t => h.1
  have hother : (db.trades.filter fun t => t.mode = .live).filter (¬ClosedToday now ·) =
      db.trades.filter fun t => t.mode = .live ∧ ¬ClosedToday now t := by
    rw [List.filter_filter]
    refine List.filter_congr fun t _ => ?_
    rw [← Bool.decide_and, decide_eq_decide, and_comm]
  have hday := List.sum_map_filter_add_sum_map_filter_not (ClosedToday now)
    (pnlOn db (· = now.date)) (db.trades.filter fun t => t.mode = .live)
  rw [hclosed, hother] at hday
  rw [hrows, List.sum_map_add, dayPnl, ← hday, carriedPnl, missedPnl]
  ring

/-! ## When the check is right -/

/-- What is `left` above the loss limit may be changed by `drift`, and the limit is still reached,
or still not. -/
structure Harmless (left drift : ℚ) : Prop where
  reached : left ≤ 0 → drift ≤ -left
  notReached : 0 < left → -left < drift

theorem harmless_iff {left drift : ℚ} : (left + drift ≤ 0 ↔ left ≤ 0) ↔ Harmless left drift := by
  constructor
  · intro h
    refine ⟨fun hleft => ?_, fun hleft => ?_⟩
    · linarith [h.2 hleft]
    · have hnot : ¬left + drift ≤ 0 := fun hle => absurd (h.1 hle) (not_le.2 hleft)
      linarith
  · rintro ⟨hreached, hnot⟩
    rcases le_or_gt left 0 with hleft | hleft
    · exact iff_of_true (by linarith [hreached hleft]) hleft
    · exact iff_of_false (by linarith [hnot hleft]) (not_le.2 hleft)

/-- The check refuses what it cannot judge, and what its own sum brings to the limit. -/
theorem checkDailyLossLimit_approved (db : Tables) (totalEquity : Option ℚ) (now : Datetime)
    (maxDailyLossPct : ℚ) :
    (checkDailyLossLimit db totalEquity now maxDailyLossPct).approved = false ↔
      totalEquity = none ∨ ∃ equity, totalEquity = some equity ∧
        realizedToday db now ≤ -|equity * (maxDailyLossPct / 100)| := by
  cases totalEquity with
  | none => simp [checkDailyLossLimit]
  | some equity =>
    simp only [checkDailyLossLimit]
    split <;> simp_all

/-- **When the daily loss limit sees the day's losses**: whatever the journal and the syncs have
done, the check refuses exactly if the equity is unavailable or the exits of the day have lost the
allowed share of it, if and only if what its sum carries from other days, less what it misses of
the day, is harmless; of a negative limit the check takes the absolute value. -/
theorem checkDailyLossLimit_right_iff (ops : List TradeOp) (totalEquity : Option ℚ)
    (now : Datetime) (maxDailyLossPct : ℚ) :
    let db := run TradeOp.step {} ops
    ((checkDailyLossLimit db totalEquity now maxDailyLossPct).approved = false ↔
        totalEquity = none ∨ ∃ equity, totalEquity = some equity ∧
          dayPnl db now ≤ -(maxDailyLossPct / 100 * equity)) ↔
      ∀ equity, totalEquity = some equity →
        let allowed := maxDailyLossPct / 100 * equity
        Harmless (dayPnl db now + allowed)
          (carriedPnl db now - missedPnl db now + (|allowed| - allowed)) := by
  intro db
  rw [checkDailyLossLimit_approved, realizedToday_eq (booked_run ops)]
  cases totalEquity with
  | none => simp
  | some equity =>
    simp only [reduceCtorEq, false_or, Option.some.injEq, exists_eq_left', forall_eq']
    rw [← harmless_iff, mul_comm equity]
    set allowed := maxDailyLossPct / 100 * equity
    have hsum : dayPnl db now + (carriedPnl db now - missedPnl db now) ≤ -|allowed| ↔
        dayPnl db now + allowed + (carriedPnl db now - missedPnl db now + (|allowed| - allowed)) ≤
          0 := by
      constructor <;> intro h <;> linarith
    have hday : dayPnl db now ≤ -allowed ↔ dayPnl db now + allowed ≤ 0 := by
      constructor <;> intro h <;> linarith
    rw [hsum, hday]

/-- A long trade, of which one half is closed at half its price. -/
def halfClosed : List TradeOp :=
  [.journal (.openTrade
      { symbol := "BTC/USDT", side := "LONG", entryPrice := 100, quantity := 2, entryTime := 0 }
      "0000000000"),
   .journal (.recordExit
      { tradeId := "MANUAL-0000000000", exitPrice := 50, quantity := 1, timestamp := 60 })]

/-- The loss of a partial exit is not seen while the rest of the trade is open. -/
theorem partial_exit_not_seen : ¬∀ (ops : List TradeOp) (totalEquity : Option ℚ) (now : Datetime)
    (maxDailyLossPct : ℚ),
    let db := run TradeOp.step {} ops
    (checkDailyLossLimit db totalEquity now maxDailyLossPct).approved = false ↔
      totalEquity = none ∨ ∃ equity, totalEquity = some equity ∧
        dayPnl db now ≤ -(maxDailyLossPct / 100 * equity) := by
  intro h
  have hrefused := (h halfClosed (some 1000) 120 defaultMaxDailyLossPct).2
    (.inr ⟨1000, rfl, by decide +kernel⟩)
  revert hrefused
  decide +kernel

/-! ## Days on which the check can be relied on -/

/-- The exits of the day are those of the trades that are closed on it. -/
def ClosedAtOnce (db : Tables) (now : Datetime) : Prop :=
  ∀ t ∈ db.trades, t.mode = .live → ∀ e ∈ db.exits t.tradeId,
    Datetime.date e.timestamp = now.date ↔ ClosedToday now t

/-- A trade without exits on the days that pass the test has realized nothing on them. -/
theorem pnlOn_eq_zero {p : ℤ → Prop} [DecidablePred p]
    (h : ∀ e ∈ db.exits t.tradeId, ¬p (Datetime.date e.timestamp)) : pnlOn db p t = 0 := by
  have hnone : (db.exits t.tradeId).filter (fun e => p (Datetime.date e.timestamp)) = [] :=
    List.filter_eq_nil_iff.2 fun e he => by simpa using h e he
  rw [pnlOn, hnone]
  rfl

theorem carriedPnl_of_closedAtOnce (h : ClosedAtOnce db now) : carriedPnl db now = 0 := by
  refine List.sum_eq_zero fun x hx => ?_
  obtain ⟨t, ht, rfl⟩ := List.mem_map.1 hx
  obtain ⟨hmem, hclosed⟩ := List.mem_filter.1 ht
  have hclosed : ClosedToday now t := by simpa using hclosed
  exact pnlOn_eq_zero fun e he hdate => hdate ((h t hmem hclosed.1 e he).2 hclosed)

theorem missedPnl_of_closedAtOnce (h : ClosedAtOnce db now) : missedPnl db now = 0 := by
  refine List.sum_eq_zero fun x hx => ?_
  obtain ⟨t, ht, rfl⟩ := List.mem_map.1 hx
  obtain ⟨hmem, hopen⟩ := List.mem_filter.1 ht
  have hopen : t.mode = .live ∧ ¬ClosedToday now t := by simpa using hopen
  exact pnlOn_eq_zero fun e he hdate => hopen.2 ((h t hmem hopen.1 e he).1 hdate)

/-- A difference that never shows: the sum of the check is that of the day, or both are gains. -/
theorem reached_alike_iff {day sum : ℚ} :
    (∀ allowed, 0 ≤ allowed → (sum ≤ -allowed ↔ day ≤ -allowed)) ↔
      sum = day ∨ 0 < day ∧ 0 < sum := by
  constructor
  · intro h
    rcases le_or_gt day 0 with hday | hday
    · have hle : sum ≤ day := by
        have hat := (h (-day) (by linarith)).2 (by linarith)
        linarith
      have hge : day ≤ sum := by
        have hat := (h (-sum) (by linarith)).1 (by linarith)
        linarith
      exact .inl (le_antisymm hle hge)
    · refine .inr ⟨hday, ?_⟩
      by_contra hsum
      have hat := (h (-sum) (by linarith)).1 (by linarith)
      linarith
  · rintro (rfl | ⟨hday, hsum⟩) allowed hallowed
    · exact Iff.rfl
    · exact iff_of_false (by linarith) (by linarith)

/-- **Whatever the equity**: for no equity the check takes the day's losses for other than they
are, exactly if it carries what it misses, or the day and the sum of the check are gains. -/
theorem checkDailyLossLimit_right_always_iff (ops : List TradeOp) (now : Datetime)
    {maxDailyLossPct : ℚ} (hpct : 0 < maxDailyLossPct) :
    let db := run TradeOp.step {} ops
    (∀ equity, 0 ≤ equity →
        ((checkDailyLossLimit db (some equity) now maxDailyLossPct).approved = false ↔
          dayPnl db now ≤ -(maxDailyLossPct / 100 * equity))) ↔
      carriedPnl db now = missedPnl db now ∨
        0 < dayPnl db now ∧ 0 < dayPnl db now + (carriedPnl db now - missedPnl db now) := by
  intro db
  have hshare : 0 < maxDailyLossPct / 100 := by positivity
  have hcheck : ∀ equity, 0 ≤ equity →
      ((checkDailyLossLimit db (some equity) now maxDailyLossPct).approved = false ↔
        realizedToday db now ≤ -(maxDailyLossPct / 100 * equity)) := by
    intro equity hequity
    simp only [checkDailyLossLimit_approved, reduceCtorEq, false_or, Option.some.injEq,
      exists_eq_left']
    rw [mul_comm equity, abs_of_nonneg (by positivity)]
  have hsame : realizedToday db now = dayPnl db now ↔ carriedPnl db now = missedPnl db now := by
    rw [realizedToday_eq (booked_run ops), add_eq_left, sub_eq_zero]
  rw [← hsame, ← realizedToday_eq (booked_run ops), ← reached_alike_iff]
  constructor
  · intro h allowed hallowed
    have hequity : 0 ≤ allowed / (maxDailyLossPct / 100) := by positivity
    have hat := h _ hequity
    rwa [hcheck _ hequity, mul_div_cancel₀ _ hshare.ne'] at hat
  · intro h equity hequity
    rw [hcheck equity hequity]
    exact h _ (by positivity)

/-- **A day on which nothing is cut**: the check refuses exactly if the exits of the day have lost
the allowed share of the equity. -/
theorem checkDailyLossLimit_right_of_closedAtOnce {ops : List TradeOp}
    (h : ClosedAtOnce (run TradeOp.step {} ops) now) {equity maxDailyLossPct : ℚ}
    (hequity : 0 ≤ equity) (hpct : 0 < maxDailyLossPct) :
    let db := run TradeOp.step {} ops
    (checkDailyLossLimit db (some equity) now maxDailyLossPct).approved = false ↔
      dayPnl db now ≤ -(maxDailyLossPct / 100 * equity) := by
  refine (checkDailyLossLimit_right_always_iff ops now hpct).2 (.inl ?_) equity hequity
  rw [carriedPnl_of_closedAtOnce h, missedPnl_of_closedAtOnce h]

end AlphaOne.Live

import AlphaOne.Portfolio.Service

/-!
# What the portfolio reports agree on

`pnl` is booked at every exit, partial exits included, so the right total of an account is that
over its trades with at least one exit. Over a journal's tables the equity curve and the
performance totals reach it in every state. The breakdown reaches it when it returns, but it
asks every trade for its exit time, which only a full close sets: one partially closed trade makes
it raise, whatever the period (`reports_agree_iff`).
-/

namespace AlphaOne.Portfolio

open Foundations Journal

/-- The trades of an account that have at least one exit. -/
def tradesWithExits (db : Tables) (accountId : ℕ) : List Trade :=
  db.trades.filter fun t => t.accountId = some accountId ∧ db.exits t.tradeId ≠ []

def totalPnl (trades : List Trade) : ℚ := (trades.map Trade.pnl).sum

/-- Where a curve ends; one without points stays at the initial equity. -/
def lastEquity (initialEquity : ℚ) (curve : List EquityPoint) : ℚ :=
  (curve.getLast?.map EquityPoint.equity).getD initialEquity

/-- The three reports of an account return, and their totals are the P&L of its exits. -/
structure ReportsAgree (db : Tables) (accountId : ℕ) (initialEquity : ℚ) (period : String) :
    Prop where
  breakdown : ∃ rows, getPnlBreakdown db accountId period = .ok rows ∧
    (rows.map PnlPeriod.net).sum = totalPnl (tradesWithExits db accountId)
  curve : lastEquity initialEquity (getEquityCurve db accountId initialEquity) - initialEquity =
    totalPnl (tradesWithExits db accountId)
  performance : (getUserActualPerformance db (some accountId)).totalPnl =
    totalPnl (tradesWithExits db accountId)

section Reports

variable {db : Tables} {accountId : ℕ} {period : String}

/-! ## The rows of a report -/

theorem mem_closedTrades {t : Trade} : t ∈ closedTrades db accountId ↔
    t ∈ db.trades ∧ t.accountId = some accountId ∧ t.status ∈ closedStatuses := by
  simp [closedTrades, List.mem_insertionSort]

/-- The order of the exits does not change a total. -/
theorem totalPnl_closedTrades : totalPnl (closedTrades db accountId) =
    totalPnl (db.trades.filter fun t =>
      t.accountId = some accountId ∧ t.status ∈ closedStatuses) :=
  ((List.perm_insertionSort ExitBefore _).map Trade.pnl).sum_eq

/-! ## The equity curve and the performance -/

/-- A point added at the front moves the end of a curve only when it is the only one. -/
theorem lastEquity_cons (running : ℚ) (point : EquityPoint) (curve : List EquityPoint) :
    lastEquity running (point :: curve) = lastEquity point.equity curve := by
  cases curve with
  | nil => rfl
  | cons next curve =>
    rw [lastEquity, lastEquity, List.getLast?_cons_cons,
      List.getLast?_eq_some_getLast (List.cons_ne_nil _ _)]
    rfl

theorem lastEquity_equityLoop (running : ℚ) (trades : List Trade) :
    lastEquity running (equityLoop running trades) = running + totalPnl trades := by
  induction trades generalizing running with
  | nil => simp [equityLoop, lastEquity, totalPnl]
  | cons t trades ih =>
    rw [equityLoop, lastEquity_cons, ih, totalPnl, totalPnl, List.map_cons, List.sum_cons]
    ring

theorem lastEquity_getEquityCurve (initialEquity : ℚ) :
    lastEquity initialEquity (getEquityCurve db accountId initialEquity) - initialEquity =
      totalPnl (closedTrades db accountId) := by
  rw [getEquityCurve, lastEquity_equityLoop]
  ring

theorem totalPnl_getUserActualPerformance :
    (getUserActualPerformance db (some accountId)).totalPnl =
      totalPnl (closedTrades db accountId) := by
  have hfilter : (db.trades.filter fun t =>
      t.status ∈ closedStatuses ∧ (some accountId = none ∨ t.accountId = some accountId)) =
      db.trades.filter fun t => t.accountId = some accountId ∧ t.status ∈ closedStatuses :=
    List.filter_congr fun t _ => by simp [and_comm]
  rw [totalPnl_closedTrades, getUserActualPerformance, hfilter]
  dsimp only
  split
  · rename_i hempty
    rw [List.length_eq_zero_iff.1 hempty]
    rfl
  · rfl

/-! ## The breakdown -/

/-- The periods the reports know. -/
def periods : List String := ["daily", "weekly", "monthly"]

theorem periodKey_some (hp : period ∈ periods) (time : Datetime) :
    ∃ key, periodKey (some time) period = .ok key := by
  simp only [periods, List.mem_cons, List.not_mem_nil, or_false] at hp
  rcases hp with rfl | rfl | rfl <;> exact ⟨_, rfl⟩

theorem periodKey_none (hp : period ∈ periods) :
    periodKey none period = .error .attributeError := by
  simp only [periods, List.mem_cons, List.not_mem_nil, or_false] at hp
  rcases hp with rfl | rfl | rfl <;> rfl

/-- One turn of the loop on a trade with an exit time: the trade is counted once. -/
theorem addToBuckets_some (hp : period ∈ periods) {t : Trade} (ht : t.exitTime.isSome)
    {buckets : List Bucket} (hu : UniqueKey Bucket.period buckets) :
    ∃ next, addToBuckets period buckets t = .ok next ∧ UniqueKey Bucket.period next ∧
      (next.map Bucket.net).sum = (buckets.map Bucket.net).sum + t.pnl := by
  obtain ⟨time, htime⟩ := Option.isSome_iff_exists.1 ht
  obtain ⟨key, hkey⟩ := periodKey_some hp time
  simp only [addToBuckets, htime, hkey]
  refine ⟨_, rfl, hu.upsert, ?_⟩
  have hsum := fun r : Bucket => sum_map_upsert (r := r) Bucket.net hu
  specialize hsum ⟨key, ((lookup Bucket.period key buckets).getD { period := key }).net + t.pnl,
    ((lookup Bucket.period key buckets).getD { period := key }).fees + t.fees,
    ((lookup Bucket.period key buckets).getD { period := key }).funding + t.funding,
    ((lookup Bucket.period key buckets).getD { period := key }).trades + 1⟩
  have hold : ((lookup Bucket.period key buckets).map Bucket.net).getD 0 =
      ((lookup Bucket.period key buckets).getD { period := key }).net := by
    cases lookup Bucket.period key buckets <;> rfl
  rw [hold] at hsum
  linarith

theorem addToBuckets_none (hp : period ∈ periods) {t : Trade} (ht : t.exitTime = none)
    (buckets : List Bucket) : addToBuckets period buckets t = .error .attributeError := by
  simp only [addToBuckets, ht, periodKey_none hp]

/-- When every trade has an exit time the loop ends, and its buckets count each trade once. -/
theorem foldlM_addToBuckets_ok (hp : period ∈ periods) {trades : List Trade}
    (h : ∀ t ∈ trades, t.exitTime.isSome) (buckets : List Bucket)
    (hu : UniqueKey Bucket.period buckets) :
    ∃ last, trades.foldlM (addToBuckets period) buckets = .ok last ∧
      (last.map Bucket.net).sum = (buckets.map Bucket.net).sum + totalPnl trades := by
  induction trades generalizing buckets with
  | nil => exact ⟨buckets, rfl, by simp [totalPnl]⟩
  | cons t trades ih =>
    obtain ⟨next, hnext, hunique, hsum⟩ := addToBuckets_some hp (h t (by simp)) hu
    obtain ⟨last, hlast, htotal⟩ := ih (fun s hs => h s (by simp [hs])) next hunique
    refine ⟨last, by rw [List.foldlM_cons, hnext]; exact hlast, ?_⟩
    rw [htotal, hsum, totalPnl, totalPnl, List.map_cons, List.sum_cons]
    ring

/-- A trade without an exit time stops the loop. -/
theorem foldlM_addToBuckets_error (hp : period ∈ periods) {trades : List Trade} {t : Trade}
    (ht : t ∈ trades) (hnone : t.exitTime = none) (buckets : List Bucket) :
    ∃ e, trades.foldlM (addToBuckets period) buckets = .error e := by
  induction trades generalizing buckets with
  | nil => cases ht
  | cons s trades ih =>
    rw [List.foldlM_cons]
    cases hturn : addToBuckets period buckets s with
    | error e => exact ⟨e, rfl⟩
    | ok next =>
      rcases List.mem_cons.1 ht with rfl | ht
      · rw [addToBuckets_none hp hnone] at hturn
        cases hturn
      · exact ih ht next

theorem getPnlBreakdown_ok (hp : period ∈ periods)
    (h : ∀ t ∈ closedTrades db accountId, t.exitTime.isSome) :
    ∃ rows, getPnlBreakdown db accountId period = .ok rows ∧
      (rows.map PnlPeriod.net).sum = totalPnl (closedTrades db accountId) := by
  obtain ⟨last, hlast, hsum⟩ := foldlM_addToBuckets_ok hp h [] List.nodup_nil
  refine ⟨_, by rw [getPnlBreakdown, hlast]; rfl, ?_⟩
  rw [List.map_map, show PnlPeriod.net ∘ Bucket.toPeriod = Bucket.net from rfl,
    ((List.perm_insertionSort _ last).map Bucket.net).sum_eq, hsum]
  simp

theorem getPnlBreakdown_error (hp : period ∈ periods) {t : Trade}
    (ht : t ∈ closedTrades db accountId) (hnone : t.exitTime = none) :
    ∃ e, getPnlBreakdown db accountId period = .error e := by
  obtain ⟨e, he⟩ := foldlM_addToBuckets_error hp ht hnone []
  exact ⟨e, by rw [getPnlBreakdown, he]; rfl⟩

end Reports

/-! ## The exit times the journal leaves -/

/-- Only a full close, or a cancellation, sets the exit time. -/
def ExitTimed (t : Trade) : Prop :=
  match t.status with
  | .open_ | .partiallyClosed => t.exitTime = none
  | .closed => t.exitTime.isSome
  | .cancelled | .unknown => True

/-- The tables a journal reaches, as far as the reports need them. -/
structure Reportable (db : Tables) : Prop where
  consistent : db.Consistent
  timed : ∀ t ∈ db.trades, ExitTimed t

theorem reportable_empty : Reportable {} where
  consistent := consistent_empty
  timed := by simp

theorem withExit_exitTime (t : Trade) (args : RecordExitArgs) (q : ℚ) (full : Bool) :
    (withExit t args q full).exitTime = if full then some args.timestamp else t.exitTime := by
  cases full <;> rfl

/-- A full close sets the exit time, a partial one leaves it unset. -/
theorem ExitTimed.withExit {t : Trade} (h : ExitTimed t) (hclosed : t.status ≠ .closed)
    (hcancelled : t.status ≠ .cancelled) (hunknown : t.status ≠ .unknown)
    (args : RecordExitArgs) (q : ℚ) (full : Bool) : ExitTimed (withExit t args q full) := by
  unfold ExitTimed at h ⊢
  rw [withExit_status, withExit_exitTime]
  cases full with
  | true => rfl
  | false => cases hstatus : t.status <;> simp_all

theorem timed_openTrade (args : OpenTradeArgs) (uuidHex : String) {db : Tables}
    (h : ∀ t ∈ db.trades, ExitTimed t) :
    ∀ t ∈ (openTrade args uuidHex db).2.trades, ExitTimed t := by
  unfold openTrade
  split
  · exact h
  · split
    · exact h
    · dsimp only
      split
      · exact h
      · intro t ht
        rcases List.mem_append.1 ht with ht | ht
        · exact h t ht
        · rw [List.mem_singleton.1 ht]
          rfl

theorem timed_cancelTrade (tradeId : String) (reason : Option String) (utcnow : Datetime)
    {db : Tables} (h : ∀ t ∈ db.trades, ExitTimed t) :
    ∀ t ∈ (cancelTrade tradeId reason utcnow db).2.trades, ExitTimed t := by
  unfold cancelTrade
  split
  · exact h
  · split
    · exact h
    · intro t ht
      rcases mem_save.1 ht with ⟨ht, -⟩ | ⟨rfl, -⟩
      · exact h t ht
      · trivial

theorem timed_recordExit (args : RecordExitArgs) {db : Tables} (hdb : Reportable db) :
    ∀ t ∈ (recordExit args db).2.trades, ExitTimed t := by
  rcases recordExit_cases args db with ⟨e, he⟩ | ⟨trade, haccepted⟩
  · rw [he]
    exact hdb.timed
  · rw [recordExit_of_accepted haccepted]
    intro t ht
    rcases mem_save.1 ht with ⟨ht, -⟩ | ⟨rfl, -⟩
    · exact hdb.timed t ht
    · have hmem := mem_of_lookup haccepted.row
      have hunknown : trade.status ≠ .unknown := by
        intro hstatus
        have hagrees := (hdb.consistent.ledger trade hmem).status
        rw [hstatus] at hagrees
        exact hagrees
      exact (hdb.timed trade hmem).withExit haccepted.not_closed haccepted.not_cancelled hunknown ..

theorem reportable_step (db : Tables) (c : Call) (h : Reportable db) :
    Reportable (step db c) where
  consistent := consistent_step db c h.consistent
  timed := by
    cases c with
    | openTrade args uuidHex => exact timed_openTrade args uuidHex h.timed
    | recordExit args => exact timed_recordExit args h
    | cancelTrade tradeId reason utcnow => exact timed_cancelTrade tradeId reason utcnow h.timed

section Agreement

variable {db : Tables} {accountId : ℕ} {period : String}

/-- The reports select by the status exactly the trades that have an exit. -/
theorem closedStatuses_iff (h : db.Consistent) {t : Trade} (ht : t ∈ db.trades) :
    t.status ∈ closedStatuses ↔ db.exits t.tradeId ≠ [] := by
  have hagrees := (h.ledger t ht).status
  cases hstatus : t.status <;> simp_all [closedStatuses, StatusAgrees]

theorem totalPnl_tradesWithExits (h : db.Consistent) (accountId : ℕ) :
    totalPnl (tradesWithExits db accountId) = totalPnl (closedTrades db accountId) := by
  rw [totalPnl_closedTrades, tradesWithExits]
  refine congrArg totalPnl (List.filter_congr fun t ht => ?_)
  rw [decide_eq_decide, closedStatuses_iff h ht]

/-- Of the trades the reports select, exactly the closed ones have an exit time. -/
theorem exitTime_closedTrades (h : Reportable db) {t : Trade}
    (ht : t ∈ closedTrades db accountId) :
    t.exitTime = none ↔ t.status = .partiallyClosed := by
  obtain ⟨hmem, -, hstatus⟩ := mem_closedTrades.1 ht
  have htimed := h.timed t hmem
  simp only [closedStatuses, List.mem_cons, List.not_mem_nil, or_false] at hstatus
  rcases hstatus with hstatus | hstatus
  · rw [ExitTimed, hstatus] at htimed
    have hsome : t.exitTime ≠ none := Option.isSome_iff_ne_none.1 htimed
    simp [hsome, hstatus]
  · rw [ExitTimed, hstatus] at htimed
    exact ⟨fun _ => hstatus, fun _ => htimed⟩

end Agreement

/-- **The reports of an account.** In every state a journal reaches, for each of the three periods,
the three reports return and agree on the P&L of the account's trades with an exit if and only if
none of these trades is only partially closed. -/
theorem reports_agree_iff (calls : List Call) (accountId : ℕ) (initialEquity : ℚ) (period : String)
    (hp : period ∈ periods) :
    ReportsAgree (run step {} calls) accountId initialEquity period ↔
      ∀ t ∈ (run step {} calls).trades, t.accountId = some accountId →
        t.status ≠ .partiallyClosed := by
  have hdb : Reportable (run step {} calls) :=
    (Always.of_step reportable_step reportable_empty calls).last
  generalize run step {} calls = db at hdb ⊢
  have htotal := totalPnl_tradesWithExits hdb.consistent accountId
  constructor
  · rintro ⟨⟨rows, hrows, -⟩, -, -⟩ t ht haccount hstatus
    have hmem : t ∈ closedTrades db accountId :=
      mem_closedTrades.2 ⟨ht, haccount, by simp [hstatus, closedStatuses]⟩
    obtain ⟨e, he⟩ := getPnlBreakdown_error hp hmem ((exitTime_closedTrades hdb hmem).2 hstatus)
    rw [he] at hrows
    cases hrows
  · intro hnone
    have htimes : ∀ t ∈ closedTrades db accountId, t.exitTime.isSome := by
      intro t ht
      obtain ⟨hmem, haccount, -⟩ := mem_closedTrades.1 ht
      rw [Option.isSome_iff_ne_none, ne_eq, exitTime_closedTrades hdb ht]
      exact hnone t hmem haccount
    exact {
      breakdown := htotal ▸ getPnlBreakdown_ok hp htimes
      curve := htotal ▸ lastEquity_getEquityCurve initialEquity
      performance := htotal ▸ totalPnl_getUserActualPerformance }

/-- A trade of account 1 bought at 100, of which the given quantity is sold at 110. -/
def oneExit (quantity : ℚ) : List Call :=
  [.openTrade
    { symbol := "BTC/USDT"
      side := "LONG"
      entryPrice := 100
      quantity := 2
      entryTime := 0
      accountId := some 1 } "0123456789",
   .recordExit
    { tradeId := "MANUAL-0123456789"
      exitPrice := 110
      quantity
      timestamp := Timedelta.hours 1 }]

/-- Sold in full, the trade is in all three reports. -/
theorem reports_agree_fullExit : "daily" ∈ periods ∧
    ReportsAgree (run step {} (oneExit 2)) 1 1000 "daily" :=
  ⟨by decide, (reports_agree_iff (oneExit 2) 1 1000 "daily" (by decide)).2 (by decide +kernel)⟩

/-- Sold by half, the trade makes the breakdown raise. -/
theorem reports_disagree_partialExit :
    ¬ReportsAgree (run step {} (oneExit 1)) 1 1000 "daily" := by
  rintro ⟨⟨rows, hrows, -⟩, -, -⟩
  have herror : getPnlBreakdown (run step {} (oneExit 1)) 1 "daily" = .error .attributeError := by
    decide +kernel
  rw [herror] at hrows
  cases hrows

end AlphaOne.Portfolio

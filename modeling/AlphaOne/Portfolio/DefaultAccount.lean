import AlphaOne.Foundations.Interleaving
import AlphaOne.Portfolio.Reports
import Mathlib.Algebra.Order.Group.Multiset

/-!
# The default account

AlphaOne keeps one account, and the first request that needs it creates it
(`services/portfolio/account.py`). A request selects the account, commits a new one when there is
none, and then does its own work on the account it holds: the cash endpoints of
`apps/api/routers/accounts.py`, and the opening of a manual trade in `apps/api/routers/journal.py`.
Between the selection and the commit another request may select too.

The reconciliation (`reconcile_account`) reads the rows of the default account only. Over all
interleavings every row is on that account exactly if no request commits an account beside one
that is there already, and then the theoretical equity is what the accepted requests say
(`rows_on_default_account_iff`).
-/

namespace AlphaOne.Portfolio

open Foundations Journal

/-! ## The tables -/

/-- A row of `accounts`, as far as the default account depends on it. -/
structure Account where
  id : ℕ
  createdAt : Datetime
  deriving DecidableEq, Repr

/-- A row of `deposits` or of `withdrawals`. -/
structure CashMovement where
  accountId : ℕ
  amount : ℚ
  timestamp : Datetime
  note : Option String
  deriving DecidableEq, Repr

structure AccountSnapshot where
  accountId : ℕ
  timestamp : Datetime
  equity : ℚ
  source : String
  note : Option String
  deriving DecidableEq, Repr

/-- The tables that the reconciliation reads. -/
structure Books where
  accounts : List Account := []
  deposits : List CashMovement := []
  withdrawals : List CashMovement := []
  snapshots : List AccountSnapshot := []
  journal : Tables := {}
  deriving DecidableEq, Repr

/-- What `get_or_create_default_account` selects: `ORDER BY created_at LIMIT 1`. -/
def defaultAccount (accounts : List Account) : Option Account :=
  (accounts.insertionSort fun a b => a.createdAt ≤ b.createdAt).head?

/-! ## The reconciliation -/

inductive ReconcileStatus
  | noSnapshot
  | ok
  | mismatch
  deriving DecidableEq, Repr

structure Reconciliation where
  status : ReconcileStatus
  theoreticalEquity : ℚ
  reportedEquity : Option ℚ
  difference : Option ℚ
  isMismatched : Option Bool
  snapshotTimestamp : Option Datetime := none
  deriving DecidableEq, Repr

/-- The amounts of an account's rows. -/
def amountOf (accountId : ℕ) (rows : List CashMovement) : ℚ :=
  ((rows.filter fun row => row.accountId = accountId).map CashMovement.amount).sum

/-- `reconcile_account`. -/
def reconcileAccount (b : Books) (accountId : ℕ) (initialEquity : ℚ := 0) (tolerance : ℚ := 1) :
    Reconciliation :=
  let trades := b.journal.trades.filter fun t =>
    t.accountId = some accountId ∧ t.status ∈ closedStatuses
  let latestSnapshot :=
    ((b.snapshots.filter fun row => row.accountId = accountId).insertionSort
      fun r r' => r'.timestamp ≤ r.timestamp).head?
  let theoretical := initialEquity + amountOf accountId b.deposits -
    amountOf accountId b.withdrawals + totalPnl trades
  match latestSnapshot with
  | none =>
    { status := .noSnapshot, theoreticalEquity := theoretical, reportedEquity := none
      difference := none, isMismatched := none }
  | some snapshot =>
    let difference := snapshot.equity - theoretical
    { status := if |difference| ≤ tolerance then .ok else .mismatch
      theoreticalEquity := theoretical
      reportedEquity := some snapshot.equity
      difference := some difference
      isMismatched := some (decide (|difference| > tolerance))
      snapshotTimestamp := some snapshot.timestamp }

/-! ## The requests -/

structure SnapshotIn where
  equity : ℚ
  timestamp : Option Datetime := none
  note : Option String := none
  deriving DecidableEq, Repr

structure CashMovementIn where
  amount : ℚ
  timestamp : Option Datetime := none
  note : Option String := none
  deriving DecidableEq, Repr

/-- The endpoints that write. An opened trade comes with the signal it has been matched to. -/
inductive Endpoint
  | addDeposit (payload : CashMovementIn)
  | addWithdrawal (payload : CashMovementIn)
  | addSnapshot (payload : SnapshotIn)
  | openManualTrade (args : OpenTradeArgs) (uuidHex : String)
  | exitManualTrade (args : RecordExitArgs)
  | cancelManualTrade (tradeId : String) (reason : Option String)
  deriving DecidableEq, Repr

inductive Answer
  | recorded
  /-- `HTTPException(status_code=400, detail=…)` -/
  | badRequest (detail : String)
  | trade (result : Except Failure Trade)
  deriving DecidableEq, Repr

/-- How far a request has come. -/
inductive RequestStage
  /-- About to select the account. -/
  | arrived
  /-- There was none; about to commit a new one. -/
  | creating
  | holding (accountId : ℕ)
  | answered (answer : Answer)
  deriving DecidableEq, Repr

/-- A request, with the identifier and the creation time of the account it may have to create. -/
structure Request where
  endpoint : Endpoint
  uuid : ℕ
  createdAt : Datetime
  utcnow : Datetime
  stage : RequestStage := .arrived
  deriving DecidableEq, Repr

/-- The row of a cash movement. -/
def Request.cashRow (r : Request) (accountId : ℕ) (payload : CashMovementIn) : CashMovement :=
  { accountId
    amount := payload.amount
    timestamp := payload.timestamp.getD r.utcnow
    note := payload.note }

/-- The work of an endpoint on the account it holds, up to its commit. -/
def Request.perform (r : Request) (accountId : ℕ) (b : Books) : Books × Answer :=
  match r.endpoint with
  | .addDeposit payload =>
    if payload.amount ≤ 0 then (b, .badRequest "amount must be positive")
    else ({ b with deposits := b.deposits ++ [r.cashRow accountId payload] }, .recorded)
  | .addWithdrawal payload =>
    if payload.amount ≤ 0 then (b, .badRequest "amount must be positive")
    else ({ b with withdrawals := b.withdrawals ++ [r.cashRow accountId payload] }, .recorded)
  | .addSnapshot payload =>
    if payload.equity ≤ 0 then (b, .badRequest "equity must be positive")
    else
      let row : AccountSnapshot :=
        { accountId
          timestamp := payload.timestamp.getD r.utcnow
          equity := payload.equity
          source := "MANUAL"
          note := payload.note }
      ({ b with snapshots := b.snapshots ++ [row] }, .recorded)
  | .openManualTrade args uuidHex =>
    let call := openTrade { args with accountId := some accountId } uuidHex b.journal
    ({ b with journal := call.2 }, .trade call.1)
  | .exitManualTrade args =>
    let call := recordExit args b.journal
    ({ b with journal := call.2 }, .trade call.1)
  | .cancelManualTrade tradeId reason =>
    let call := cancelTrade tradeId reason r.utcnow b.journal
    ({ b with journal := call.2 }, .trade call.1)

/-- The endpoints that begin with `get_or_create_default_account`. -/
def Endpoint.needsAccount : Endpoint → Bool
  | .addDeposit _ | .addWithdrawal _ | .addSnapshot _ | .openManualTrade .. => true
  | .exitManualTrade _ | .cancelManualTrade .. => false

/-- The next statement of a request. -/
def Request.move (r : Request) (b : Books) : Books × Request :=
  match r.stage with
  | .arrived =>
    if r.endpoint.needsAccount then
      match defaultAccount b.accounts with
      | some account => (b, { r with stage := .holding account.id })
      | none => (b, { r with stage := .creating })
    -- the other endpoints do not look at the account
    else ((r.perform 0 b).1, { r with stage := .answered (r.perform 0 b).2 })
  | .creating =>
    ({ b with accounts := b.accounts ++ [⟨r.uuid, r.createdAt⟩] },
      { r with stage := .holding r.uuid })
  | .holding accountId =>
    ((r.perform accountId b).1, { r with stage := .answered (r.perform accountId b).2 })
  | .answered _ => (b, r)

/-! ## Rows on one account -/

/-- Every row is on the account. -/
structure OnAccount (accountId : ℕ) (b : Books) : Prop where
  deposits : ∀ row ∈ b.deposits, row.accountId = accountId
  withdrawals : ∀ row ∈ b.withdrawals, row.accountId = accountId
  snapshots : ∀ row ∈ b.snapshots, row.accountId = accountId
  trades : ∀ t ∈ b.journal.trades, t.accountId = some accountId

/-- The rows and the requests under way are on the default account. -/
def OnDefaultAccount (c : Pool Books Request) : Prop :=
  ∀ account, defaultAccount c.store.accounts = some account →
    OnAccount account.id c.store ∧
      ∀ r ∈ c.procs, ∀ held, r.stage = .holding held → held = account.id

/-- An account is created only where there is none. -/
def FindsNone (b : Books) (r : Request) : Prop := r.stage = .creating → b.accounts = []

instance (b : Books) (r : Request) : Decidable (FindsNone b r) := by
  unfold FindsNone
  infer_instance

/-- A new account has an identifier of its own and a creation time that no older account exceeds. -/
def NewestAccount (b : Books) (r : Request) : Prop :=
  r.stage = .creating → ∀ a ∈ b.accounts, a.id ≠ r.uuid ∧ a.createdAt ≤ r.createdAt

instance (b : Books) (r : Request) : Decidable (NewestAccount b r) := by
  unfold NewestAccount
  infer_instance

/-- At most one account, and every row on it. -/
structure Settled (b : Books) : Prop where
  sole : b.accounts.length ≤ 1
  rows : ∀ accountId, (∀ a ∈ b.accounts, a.id = accountId) → OnAccount accountId b

/-- A request that holds an account holds the only one there is. -/
def HoldsSole (b : Books) (r : Request) : Prop :=
  ∀ held, r.stage = .holding held → b.accounts.map Account.id = [held]

/-! ### The trades of a call -/

section Trades

variable {db : Tables} {accountId : ℕ}

theorem accountId_openTrade (args : OpenTradeArgs) (uuidHex : String)
    (h : ∀ t ∈ db.trades, t.accountId = some accountId) :
    ∀ t ∈ (openTrade { args with accountId := some accountId } uuidHex db).2.trades,
      t.accountId = some accountId := by
  unfold openTrade
  split
  · exact h
  split
  · exact h
  dsimp only
  split
  · exact h
  intro t ht
  rcases List.mem_append.1 ht with ht | ht
  · exact h t ht
  · rw [List.mem_singleton.1 ht]

theorem withExit_accountId (t : Trade) (args : RecordExitArgs) (q : ℚ) (full : Bool) :
    (withExit t args q full).accountId = t.accountId := by
  cases full <;> rfl

theorem accountId_recordExit (args : RecordExitArgs)
    (h : ∀ t ∈ db.trades, t.accountId = some accountId) :
    ∀ t ∈ (recordExit args db).2.trades, t.accountId = some accountId := by
  rcases recordExit_cases args db with ⟨e, he⟩ | ⟨trade, haccepted⟩
  · rw [he]
    exact h
  · rw [recordExit_of_accepted haccepted]
    intro t ht
    rcases mem_save.1 ht with ⟨ht, -⟩ | ⟨rfl, -⟩
    · exact h t ht
    · exact (withExit_accountId ..).trans (h trade (mem_of_lookup haccepted.row))

theorem accountId_cancelTrade (tradeId : String) (reason : Option String) (utcnow : Datetime)
    (h : ∀ t ∈ db.trades, t.accountId = some accountId) :
    ∀ t ∈ (cancelTrade tradeId reason utcnow db).2.trades, t.accountId = some accountId := by
  unfold cancelTrade
  split
  · exact h
  rename_i trade hrow
  split
  · exact h
  intro t ht
  rcases mem_save.1 ht with ⟨ht, -⟩ | ⟨rfl, -⟩
  · exact h t ht
  · exact h trade (mem_of_lookup hrow)

end Trades

/-! ### The moves of a request -/

section Moves

variable {b : Books} {r : Request} {accountId : ℕ}

@[simp] theorem perform_accounts (r : Request) (accountId : ℕ) (b : Books) :
    (r.perform accountId b).1.accounts = b.accounts := by
  unfold Request.perform
  split <;> first | rfl | (split <;> rfl)

/-- The work of a request puts its rows on the account it holds. -/
theorem OnAccount.perform (h : OnAccount accountId b) (r : Request) :
    OnAccount accountId (r.perform accountId b).1 := by
  unfold Request.perform
  split
  case h_1 payload _ =>
    split
    · exact h
    · refine { h with deposits := fun row hrow => ?_ }
      rcases List.mem_append.1 hrow with hrow | hrow
      · exact h.deposits row hrow
      · rw [List.mem_singleton.1 hrow]
        rfl
  case h_2 payload _ =>
    split
    · exact h
    · refine { h with withdrawals := fun row hrow => ?_ }
      rcases List.mem_append.1 hrow with hrow | hrow
      · exact h.withdrawals row hrow
      · rw [List.mem_singleton.1 hrow]
        rfl
  case h_3 payload _ =>
    split
    · exact h
    · refine { h with snapshots := fun row hrow => ?_ }
      rcases List.mem_append.1 hrow with hrow | hrow
      · exact h.snapshots row hrow
      · rw [List.mem_singleton.1 hrow]
  case h_4 args uuidHex _ => exact { h with trades := accountId_openTrade args uuidHex h.trades }
  case h_5 args _ => exact { h with trades := accountId_recordExit args h.trades }
  case h_6 tradeId reason _ =>
    exact { h with trades := accountId_cancelTrade tradeId reason r.utcnow h.trades }

/-- An endpoint that needs no account does the same work on any. -/
theorem perform_of_not_needsAccount (h : r.endpoint.needsAccount = false) (i j : ℕ) (b : Books) :
    r.perform i b = r.perform j b := by
  unfold Request.perform
  cases hendpoint : r.endpoint with
  | addDeposit | addWithdrawal | addSnapshot | openManualTrade =>
    rw [hendpoint] at h
    cases h
  | exitManualTrade | cancelManualTrade => rfl

/-- What one move of a request can do. -/
theorem Request.move_cases (r : Request) (b : Books) :
    (r.stage = .arrived ∧ ∃ account, defaultAccount b.accounts = some account ∧
      r.move b = (b, { r with stage := .holding account.id })) ∨
    (r.stage = .arrived ∧ r.move b = (b, { r with stage := .creating })) ∨
    (r.stage = .creating ∧ r.move b = ({ b with accounts := b.accounts ++ [⟨r.uuid, r.createdAt⟩] },
      { r with stage := .holding r.uuid })) ∨
    (∃ accountId, (r.stage = .holding accountId ∨
        r.stage = .arrived ∧ r.endpoint.needsAccount = false) ∧
      r.move b = ((r.perform accountId b).1,
        { r with stage := .answered (r.perform accountId b).2 })) ∨
    ∃ answer, r.stage = .answered answer ∧ r.move b = (b, r) := by
  unfold Request.move
  cases hstage : r.stage with
  | arrived =>
    dsimp only
    cases hneeds : r.endpoint.needsAccount with
    | true =>
      rw [if_pos rfl]
      cases hdefault : defaultAccount b.accounts with
      | some account => exact Or.inl ⟨rfl, account, rfl, rfl⟩
      | none => exact Or.inr (Or.inl ⟨rfl, rfl⟩)
    | false =>
      refine Or.inr (Or.inr (Or.inr (Or.inl ⟨0, Or.inr ⟨rfl, rfl⟩, ?_⟩)))
      rw [if_neg Bool.false_ne_true]
  | creating => exact Or.inr (Or.inr (Or.inl ⟨rfl, rfl⟩))
  | holding accountId =>
    exact Or.inr (Or.inr (Or.inr (Or.inl ⟨accountId, Or.inl rfl, rfl⟩)))
  | answered answer => exact Or.inr (Or.inr (Or.inr (Or.inr ⟨answer, rfl, rfl⟩)))

theorem defaultAccount_of_sole (h : b.accounts.length ≤ 1) {account : Account}
    (hdefault : defaultAccount b.accounts = some account) : b.accounts = [account] := by
  have hmem : account ∈ b.accounts :=
    (List.mem_insertionSort _).1 (List.mem_of_mem_head? hdefault)
  obtain ⟨a, ha⟩ := List.length_eq_one_iff.1 (le_antisymm h (List.length_pos_of_mem hmem))
  rw [ha] at hmem ⊢
  rw [List.mem_singleton.1 hmem]

/-- The account that a younger one is added to stays the default. -/
theorem defaultAccount_append {account new : Account} (hle : account.createdAt ≤ new.createdAt) :
    defaultAccount ([account] ++ [new]) = some account := by
  simp [defaultAccount, hle]

end Moves

/-- What a move that finds no second account keeps. -/
theorem stable_requests :
    Stable Request.move Settled HoldsSole (fun _ _ => True) FindsNone where
  symm := fun _ _ h => h
  store := by
    intro b r hb hr hfinds
    rcases r.move_cases b with ⟨-, account, -, heq⟩ | ⟨-, heq⟩ | ⟨hstage, heq⟩ |
      ⟨accountId, hstage, heq⟩ | ⟨answer, -, heq⟩ <;> rw [heq]
    · exact hb
    · exact hb
    · have hnone : b.accounts = [] := hfinds hstage
      refine ⟨by simp [hnone], fun accountId _ => ?_⟩
      have hrows := hb.rows accountId (by simp [hnone])
      exact { hrows with }
    · refine ⟨by simpa using hb.sole, fun id hid => ?_⟩
      rw [perform_accounts] at hid
      have hrows := hb.rows id hid
      rcases hstage with hstage | ⟨-, hneeds⟩
      · have hsole := hr accountId hstage
        obtain ⟨a, ha, hheld⟩ := List.map_eq_singleton_iff.1 hsole
        have hid' : accountId = id := hheld ▸ hid a (by simp [ha])
        rw [hid']
        exact hrows.perform r
      · rw [perform_of_not_needsAccount hneeds accountId id]
        exact hrows.perform r
    · exact hb
  own := by
    intro b r hb hr hfinds held hheld
    rcases r.move_cases b with ⟨-, account, hdefault, heq⟩ | ⟨-, heq⟩ | ⟨hstage, heq⟩ |
      ⟨accountId, -, heq⟩ | ⟨answer, -, heq⟩ <;> rw [heq] at hheld ⊢
    · cases hheld
      rw [defaultAccount_of_sole hb.sole hdefault]
      rfl
    · cases hheld
    · cases hheld
      simp [hfinds hstage]
    · cases hheld
    · exact hr held hheld
  others := by
    intro b r q hb hr hfinds hq _
    refine ⟨fun held hheld => ?_, trivial⟩
    have hsole := hq held hheld
    rcases r.move_cases b with ⟨-, account, -, heq⟩ | ⟨-, heq⟩ | ⟨hstage, heq⟩ |
      ⟨accountId, -, heq⟩ | ⟨answer, -, heq⟩ <;> rw [heq]
    · exact hsole
    · exact hsole
    · rw [hfinds hstage] at hsole
      cases hsole
    · rwa [perform_accounts]
    · exact hsole

/-! ## The accepted cash -/

/-- What a request has moved. -/
def Request.cash (r : Request) : ℚ :=
  match r.endpoint, r.stage with
  | .addDeposit payload, .answered .recorded => payload.amount
  | .addWithdrawal payload, .answered .recorded => -payload.amount
  | _, _ => 0

/-- What the rows have moved, on whichever account. -/
def Books.cash (b : Books) : ℚ :=
  (b.deposits.map CashMovement.amount).sum - (b.withdrawals.map CashMovement.amount).sum

/-- The equities of the snapshots a request has had accepted. -/
def Request.equities (r : Request) : Multiset ℚ :=
  match r.endpoint, r.stage with
  | .addSnapshot payload, .answered .recorded => {payload.equity}
  | _, _ => 0

/-- The equities of the snapshots, on whichever account. -/
def Books.equities (b : Books) : Multiset ℚ := b.snapshots.map AccountSnapshot.equity

/-- The theoretical equity counts each accepted cash movement, and the P&L of every trade with an
exit, once; a reported equity is one that was accepted. -/
def Counted (c : Pool Books Request) : Prop :=
  ∀ account, defaultAccount c.store.accounts = some account → ∀ initialEquity tolerance,
    let report := reconcileAccount c.store account.id initialEquity tolerance
    report.theoreticalEquity = initialEquity + (c.procs.map Request.cash).sum +
        totalPnl (c.store.journal.trades.filter fun t => t.status ∈ closedStatuses) ∧
      ∀ equity ∈ report.reportedEquity, equity ∈ (c.procs.map Request.equities).sum

section Conservation

variable {b : Books} {r : Request}

/-- A request that has not answered has moved nothing. -/
theorem cash_of_not_answered (h : ∀ answer, r.stage ≠ .answered answer) : r.cash = 0 := by
  unfold Request.cash
  split
  case h_1 hstage => exact absurd hstage (h _)
  case h_2 hstage => exact absurd hstage (h _)
  case h_3 => rfl

theorem equities_of_not_answered (h : ∀ answer, r.stage ≠ .answered answer) : r.equities = 0 := by
  unfold Request.equities
  split
  case h_1 hstage => exact absurd hstage (h _)
  case h_2 => rfl

/-- The answer of a request counts what its work has added to the rows. -/
theorem cash_perform (r : Request) (accountId : ℕ) (b : Books) :
    (r.perform accountId b).1.cash =
      b.cash + ({ r with stage := .answered (r.perform accountId b).2 } : Request).cash := by
  unfold Request.perform
  cases hendpoint : r.endpoint with
  | addDeposit payload =>
    dsimp only
    split
    · simp [Request.cash]
    · simp [Books.cash, Request.cash, Request.cashRow]
      ring
  | addWithdrawal payload =>
    dsimp only
    split
    · simp [Request.cash]
    · simp [Books.cash, Request.cash, Request.cashRow]
      ring
  | addSnapshot payload =>
    dsimp only
    split <;> simp [Books.cash, Request.cash]
  | openManualTrade | exitManualTrade | cancelManualTrade =>
    simp [Books.cash, Request.cash]

theorem equities_perform (r : Request) (accountId : ℕ) (b : Books) :
    (r.perform accountId b).1.equities =
      b.equities + ({ r with stage := .answered (r.perform accountId b).2 } : Request).equities := by
  unfold Request.perform
  cases hendpoint : r.endpoint with
  | addSnapshot payload =>
    dsimp only
    split
    · simp [Request.equities]
    · simp only [Books.equities, Request.equities, List.map_append, List.map_cons, List.map_nil]
      rw [← Multiset.coe_add, Multiset.coe_singleton]
  | addDeposit | addWithdrawal =>
    dsimp only
    split <;> simp [Books.equities, Request.equities]
  | openManualTrade | exitManualTrade | cancelManualTrade =>
    simp [Books.equities, Request.equities]

theorem move_cash (b : Books) (r : Request) :
    (r.move b).1.cash + r.cash = b.cash + (r.move b).2.cash := by
  rcases r.move_cases b with ⟨hstage, account, -, heq⟩ | ⟨hstage, heq⟩ | ⟨hstage, heq⟩ |
    ⟨accountId, hstage, heq⟩ | ⟨answer, -, heq⟩ <;> rw [heq]
  · rw [cash_of_not_answered (by simp [hstage]), cash_of_not_answered (by simp)]
  · rw [cash_of_not_answered (by simp [hstage]), cash_of_not_answered (by simp)]
  · rw [cash_of_not_answered (by simp [hstage]), cash_of_not_answered (by simp)]
    rfl
  · have hbefore : r.cash = 0 := by
      refine cash_of_not_answered ?_
      rcases hstage with hstage | ⟨hstage, -⟩ <;> simp [hstage]
    rw [hbefore, cash_perform, add_zero]

theorem move_equities (b : Books) (r : Request) :
    (r.move b).1.equities + r.equities = b.equities + (r.move b).2.equities := by
  rcases r.move_cases b with ⟨hstage, account, -, heq⟩ | ⟨hstage, heq⟩ | ⟨hstage, heq⟩ |
    ⟨accountId, hstage, heq⟩ | ⟨answer, -, heq⟩ <;> rw [heq]
  · rw [equities_of_not_answered (by simp [hstage]), equities_of_not_answered (by simp)]
  · rw [equities_of_not_answered (by simp [hstage]), equities_of_not_answered (by simp)]
  · rw [equities_of_not_answered (by simp [hstage]), equities_of_not_answered (by simp)]
    rfl
  · have hbefore : r.equities = 0 := by
      refine equities_of_not_answered ?_
      rcases hstage with hstage | ⟨hstage, -⟩ <;> simp [hstage]
    rw [hbefore, equities_perform, add_zero]

end Conservation

section Reconciled

variable {b : Books} {accountId : ℕ}

theorem amountOf_of_all {rows : List CashMovement} (h : ∀ row ∈ rows, row.accountId = accountId) :
    amountOf accountId rows = (rows.map CashMovement.amount).sum := by
  rw [amountOf, List.filter_eq_self.2 (by simpa using h)]

/-- When every row is on the account the reconciliation leaves none out. -/
theorem theoreticalEquity_of_onAccount (h : OnAccount accountId b) (initialEquity tolerance : ℚ) :
    (reconcileAccount b accountId initialEquity tolerance).theoreticalEquity =
      initialEquity + b.cash +
        totalPnl (b.journal.trades.filter fun t => t.status ∈ closedStatuses) := by
  have htrades : (b.journal.trades.filter fun t =>
      t.accountId = some accountId ∧ t.status ∈ closedStatuses) =
      b.journal.trades.filter fun t => t.status ∈ closedStatuses :=
    List.filter_congr fun t ht => by simp [h.trades t ht]
  have heq : (reconcileAccount b accountId initialEquity tolerance).theoreticalEquity =
      initialEquity + amountOf accountId b.deposits - amountOf accountId b.withdrawals +
        totalPnl (b.journal.trades.filter fun t =>
          t.accountId = some accountId ∧ t.status ∈ closedStatuses) := by
    unfold reconcileAccount
    dsimp only
    split <;> rfl
  rw [heq, htrades, amountOf_of_all h.deposits, amountOf_of_all h.withdrawals, Books.cash]
  ring

/-- A reported equity is that of a snapshot. -/
theorem reportedEquity_mem {initialEquity tolerance equity : ℚ}
    (h : equity ∈ (reconcileAccount b accountId initialEquity tolerance).reportedEquity) :
    equity ∈ b.equities := by
  unfold reconcileAccount at h
  dsimp only at h
  split at h
  · cases h
  · rename_i snapshot hlatest
    have hmem : snapshot ∈ b.snapshots :=
      (List.mem_filter.1 ((List.mem_insertionSort _).1 (List.mem_of_mem_head? hlatest))).1
    have heq : snapshot.equity = equity := Option.some.inj h
    rw [← heq]
    exact Multiset.mem_coe.2 (List.mem_map_of_mem hmem)

end Reconciled

/-- Requests that have arrived at empty tables. -/
def arrivals (requests : List Request) : Pool Books Request := ⟨{}, requests⟩

theorem invariant_arrivals {requests : List Request} (h : ∀ r ∈ requests, r.stage = .arrived) :
    (arrivals requests).Invariant Settled HoldsSole (fun _ _ => True) where
  store := ⟨by simp [arrivals], fun _ _ => ⟨by simp [arrivals], by simp [arrivals],
    by simp [arrivals], by simp [arrivals]⟩⟩
  procs := by
    intro r hr held hheld
    rw [h r hr] at hheld
    cases hheld
  pairs := List.pairwise_of_forall fun _ _ => trivial

theorem onDefaultAccount_of_invariant {c : Pool Books Request}
    (h : c.Invariant Settled HoldsSole (fun _ _ => True)) : OnDefaultAccount c := by
  intro account hdefault
  have hsole := defaultAccount_of_sole h.store.sole hdefault
  refine ⟨h.store.rows account.id (by simp [hsole]), fun r hr held hheld => ?_⟩
  have hheld' := h.procs r hr held hheld
  rw [hsole] at hheld'
  exact (List.singleton_inj.1 hheld').symm

theorem sum_eq_zero {M : Type*} [AddMonoid M] {share : Request → M} {requests : List Request}
    (h : ∀ r ∈ requests, share r = 0) : (requests.map share).sum = 0 :=
  List.sum_eq_zero fun x hx => by
    obtain ⟨r, hr, rfl⟩ := List.mem_map.1 hx
    exact h r hr

/-- A move that leaves every row and request on the default account has found none to create one
beside: the request would hold an account that is not the default. -/
theorem findsNone_of_step (c : Pool Books Request) (i : ℕ)
    (hc : c.Invariant Settled HoldsSole (fun _ _ => True)) (hnewest : c.Meets NewestAccount i)
    (hdefault : OnDefaultAccount (c.step Request.move i)) : c.Meets FindsNone i := by
  intro r hi hstage
  by_contra hne
  obtain ⟨account, haccount⟩ : ∃ account, c.store.accounts = [account] :=
    List.length_eq_one_iff.1 (le_antisymm hc.store.sole (List.length_pos_of_ne_nil hne))
  obtain ⟨hid, hle⟩ := hnewest r hi hstage account (by simp [haccount])
  rcases c.step_cases Request.move i with ⟨hnone, -⟩ | ⟨l₁, p, l₂, hp, -, heq⟩
  · rw [hi] at hnone
    cases hnone
  · rw [hi] at hp
    cases hp
    have hmove : r.move c.store =
        ({ c.store with accounts := c.store.accounts ++ [⟨r.uuid, r.createdAt⟩] },
          { r with stage := .holding r.uuid }) := by
      simp only [Request.move, hstage]
    rw [heq, hmove] at hdefault
    have hkept := (hdefault account (by rw [haccount]; exact defaultAccount_append hle)).2
    exact hid (hkept { r with stage := .holding r.uuid } (by simp) r.uuid rfl).symm

/-- **The default account.** Requests arrive at empty tables and move in any order, each new account
with an identifier of its own and younger than those there are. Every row, and every request under
way, is on the default account at all times if and only if no request commits an account beside one
that is there already; and then the reconciliation of that account counts every accepted deposit and
withdrawal, and every trade with an exit, once. -/
theorem rows_on_default_account_iff (requests : List Request)
    (harrived : ∀ r ∈ requests, r.stage = .arrived) (schedule : List ℕ)
    (hnewest : Guarded (Pool.step Request.move) (Pool.Meets NewestAccount) (arrivals requests)
      schedule) :
    (Always (Pool.step Request.move) OnDefaultAccount (arrivals requests) schedule ↔
      Guarded (Pool.step Request.move) (Pool.Meets FindsNone) (arrivals requests) schedule) ∧
    (Guarded (Pool.step Request.move) (Pool.Meets FindsNone) (arrivals requests) schedule →
      Counted (run (Pool.step Request.move) (arrivals requests) schedule)) := by
  have hstart := invariant_arrivals harrived
  have hiff : Always (Pool.step Request.move) OnDefaultAccount (arrivals requests) schedule ↔
      Guarded (Pool.step Request.move) (Pool.Meets FindsNone) (arrivals requests) schedule :=
    always_iff_guarded_of_invariant (fun _ => onDefaultAccount_of_invariant)
      (fun _ _ hc _ hfinds => stable_requests.step hc hfinds) findsNone_of_step hstart hnewest
  refine ⟨hiff, fun hguarded account hdefault initialEquity tolerance => ?_⟩
  have hrows := ((hiff.2 hguarded).last account hdefault).1
  have hcash := Pool.balance Request.move move_cash (arrivals requests) schedule
  have hequities := Pool.balance Request.move move_equities (arrivals requests) schedule
  rw [sum_eq_zero fun r hr => cash_of_not_answered (by simp [harrived r hr])] at hcash
  rw [sum_eq_zero fun r hr => equities_of_not_answered (by simp [harrived r hr])] at hequities
  have hcash' : (run (Pool.step Request.move) (arrivals requests) schedule).store.cash =
      ((run (Pool.step Request.move) (arrivals requests) schedule).procs.map Request.cash).sum := by
    simpa [arrivals, Books.cash] using hcash
  have hequities' : (run (Pool.step Request.move) (arrivals requests) schedule).store.equities =
      ((run (Pool.step Request.move) (arrivals requests) schedule).procs.map
        Request.equities).sum := by
    simpa [arrivals, Books.equities] using hequities
  refine ⟨?_, fun equity hequity => ?_⟩
  · rw [theoreticalEquity_of_onAccount hrows, hcash']
  · rw [← hequities']
    exact reportedEquity_mem hequity

/-- A deposit of 100 and a withdrawal of 30. -/
def cashRequests : List Request :=
  [{ endpoint := .addDeposit { amount := 100 }, uuid := 1, createdAt := 0, utcnow := 0 },
   { endpoint := .addWithdrawal { amount := 30 }, uuid := 2, createdAt := 0, utcnow := 0 }]

/-- The withdrawal selects the account when the deposit has created it, but not recorded its row. -/
theorem rows_on_default_account_overlapping :
    Always (Pool.step Request.move) OnDefaultAccount (arrivals cashRequests) [0, 0, 1, 0, 1] ∧
      Counted (run (Pool.step Request.move) (arrivals cashRequests) [0, 0, 1, 0, 1]) :=
  have h := rows_on_default_account_iff cashRequests (by decide) [0, 0, 1, 0, 1]
    (by decide +kernel)
  ⟨h.1.2 (by decide +kernel), h.2 (by decide +kernel)⟩

/-- Both requests select before either commits: the withdrawal is on an account of its own, and the
default account does not know of it. -/
example :
    let b := (run (Pool.step Request.move) (arrivals cashRequests) [0, 1, 0, 1, 0, 1]).store
    (defaultAccount b.accounts).map Account.id = some 1 ∧ b.cash = 70 ∧
      (reconcileAccount b 1).theoreticalEquity = 100 := by
  decide +kernel

end AlphaOne.Portfolio

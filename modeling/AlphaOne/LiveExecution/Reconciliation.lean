import AlphaOne.Exchange.CoinDCX
import AlphaOne.Foundations.Matching
import AlphaOne.LiveExecution.Executor

/-!
# Reconciliation with the exchange

`services/live_execution/reconciliation.py`: the rows of `live_executions` that are open are
compared with the open positions of the exchange, and the last result gates every new entry. Both
sides are dictionaries by symbol, so that of several entries of one symbol the last is compared, and
a number that is missing on either side is not.

`sound_iff_comparable` says when a consistent report means that the two sides correspond: where a
discrepancy is in sight of that comparison, or the input hides nothing from it (`Uncovered`).
-/

namespace AlphaOne.Live

open Foundations

/-- `ENTRY_PRICE_MISMATCH_TOLERANCE_PCT`. -/
def entryPriceMismatchTolerancePct : ℚ := 1 / 2

/-- The largest difference of two quantities that are equal, `1e-9`. -/
def quantityTolerance : ℚ := 1 / 1000000000

/-- The columns of a row of `live_executions` that the reconciliation reads. The executor leaves
`quantity` empty. -/
structure ExecutionRow where
  symbol : String
  direction : String
  status : LiveExecutionStatus
  quantity : Option ℚ
  entryPrice : Option ℚ
  deriving DecidableEq, Repr

/-- An open position as a provider reports it. Any value may be missing. -/
structure ExchangeEntry where
  symbol : Option String
  side : Option String
  quantity : Option ℚ
  entryPrice : Option ℚ
  deriving DecidableEq, Repr

/-- What became of the read of the positions. -/
inductive PositionRead
  /-- The exchange has answered, with these open positions. -/
  | answered (positions : List ExchangeEntry)
  /-- The read failed, and the provider raises. -/
  | raised
  /-- The account is not configured or the request failed, and the provider returns `[]`. -/
  | swallowed
  deriving DecidableEq, Repr

/-- What `get_open_positions` returns; `none` where it raises. -/
def PositionRead.returned : PositionRead → Option (List ExchangeEntry)
  | .answered positions => some positions
  | .raised => none
  | .swallowed => some []

/-- The dictionary of a normalized position. -/
def entryOf (p : Exchange.Position) : ExchangeEntry :=
  { symbol := some p.symbol
    side := some (match p.side with | .long => "LONG" | .short => "SHORT")
    quantity := some p.quantity
    entryPrice := some p.entryPrice }

/-- The read of `CoinDCXReadOnlyAccountProvider`. -/
def coinDcxRead : Option (List Exchange.PositionRow) → PositionRead
  | none => .swallowed
  | some rows => .answered ((Exchange.getOpenPositions (some rows)).map entryOf)

/-- The provider does not tell a failed read from an account without positions. -/
theorem returned_coinDcxRead (response : Option (List Exchange.PositionRow)) :
    (coinDcxRead response).returned = some ((Exchange.getOpenPositions response).map entryOf) := by
  cases response <;> rfl

/-- The kinds of a mismatch, with the values its detail is formatted from. -/
inductive MismatchKind
  /-- `UNEXPECTED_OPEN_POSITION` -/
  | unexpectedOpenPosition (side : Option String)
  /-- `MISSING_POSITION` -/
  | missingPosition
  /-- `SIDE_MISMATCH` -/
  | sideMismatch (direction : String) (side : Option String)
  /-- `QUANTITY_MISMATCH` -/
  | quantityMismatch (localQuantity exchangeQuantity : ℚ)
  /-- `ENTRY_PRICE_MISMATCH` -/
  | entryPriceMismatch (localPrice exchangePrice deviationPct : ℚ)
  deriving DecidableEq, Repr

structure ReconciliationMismatch where
  symbol : Option String
  kind : MismatchKind
  deriving DecidableEq, Repr

structure ReconciliationReport where
  checkedAtOk : Bool
  localOpenSymbols : List String
  exchangeOpenSymbols : List (Option String)
  mismatches : List ReconciliationMismatch := []
  deriving DecidableEq, Repr

/-- `is_consistent`. -/
def ReconciliationReport.isConsistent (r : ReconciliationReport) : Bool :=
  r.checkedAtOk && r.mismatches.isEmpty

/-- The side of a position; whatever does not say that it is long is short. -/
def exchangeSide (side : Option String) : String :=
  if side = some "LONG" ∨ side = some "buy" then "LONG" else "SHORT"

def sideMismatch (row : ExecutionRow) (p : ExchangeEntry) : List MismatchKind :=
  if exchangeSide p.side ≠ row.direction then [.sideMismatch row.direction p.side] else []

def quantityMismatch (row : ExecutionRow) (p : ExchangeEntry) : List MismatchKind :=
  match row.quantity, p.quantity with
  | some localQuantity, some exchangeQuantity =>
    if |exchangeQuantity - localQuantity| > quantityTolerance then
      [.quantityMismatch localQuantity exchangeQuantity]
    else []
  | _, _ => []

def entryPriceMismatch (row : ExecutionRow) (p : ExchangeEntry) : List MismatchKind :=
  match row.entryPrice, p.entryPrice with
  | some localPrice, some exchangePrice =>
    if localPrice > 0 then
      let deviationPct := |exchangePrice - localPrice| / localPrice * 100
      if deviationPct > entryPriceMismatchTolerancePct then
        [.entryPriceMismatch localPrice exchangePrice deviationPct]
      else []
    else []
  | _, _ => []

/-- The mismatches of a row and the position of its symbol. -/
def entryMismatches (row : ExecutionRow) (p : ExchangeEntry) : List MismatchKind :=
  sideMismatch row p ++ quantityMismatch row p ++ entryPriceMismatch row p

/-- The rows the reconciliation selects. -/
def openRows (rows : List ExecutionRow) : List ExecutionRow :=
  rows.filter fun row => row.status ∈ openLiveStatuses

def reconcilePositions (rows : List ExecutionRow) (read : PositionRead) : ReconciliationReport :=
  let localBySymbol := dictOf ExecutionRow.symbol (openRows rows)
  match read.returned with
  | none =>
    { checkedAtOk := false
      localOpenSymbols := localBySymbol.map ExecutionRow.symbol
      exchangeOpenSymbols := [] }
  | some positions =>
    let exchangeBySymbol := dictOf ExchangeEntry.symbol positions
    let unexpected :=
      (exchangeBySymbol.filter fun p => ∀ row ∈ localBySymbol, some row.symbol ≠ p.symbol).map
        fun p => ⟨p.symbol, .unexpectedOpenPosition p.side⟩
    let compared := localBySymbol.flatMap fun row =>
      match lookup ExchangeEntry.symbol (some row.symbol) exchangeBySymbol with
      | none => [⟨some row.symbol, .missingPosition⟩]
      | some p => (entryMismatches row p).map fun kind => ⟨some row.symbol, kind⟩
    { checkedAtOk := true
      localOpenSymbols := localBySymbol.map ExecutionRow.symbol
      exchangeOpenSymbols := exchangeBySymbol.map ExchangeEntry.symbol
      mismatches := unexpected ++ compared }

/-! ## The stored result -/

/-- The value of the row of `bot_state` under `live_execution_last_reconciliation`. -/
structure ReconciliationRecord where
  isConsistent : Bool
  checkedAtOk : Bool
  mismatchCount : ℕ
  mismatches : List ReconciliationMismatch
  recordedAt : Datetime
  deriving DecidableEq, Repr

/-- `record_reconciliation_result`, at the time `utcnow`. -/
def recordReconciliationResult (report : ReconciliationReport) (utcnow : Datetime) :
    ReconciliationRecord :=
  { isConsistent := report.isConsistent
    checkedAtOk := report.checkedAtOk
    mismatchCount := report.mismatches.length
    mismatches := report.mismatches
    recordedAt := utcnow }

/-- The reason of the gate `RECONCILIATION_OK`. -/
inductive ReconciliationReason
  /-- `Position reconciliation has never run -- …` -/
  | neverRun
  /-- `The last reconciliation attempt could not read the real CoinDCX account …` -/
  | readFailed
  /-- `The last reconciliation found {mismatch_count} discrepancy(ies) …` -/
  | discrepancies (mismatchCount : ℕ)
  /-- `OK` -/
  | ok
  deriving DecidableEq, Repr

def getLastReconciliationStatus : Option ReconciliationRecord → Bool × ReconciliationReason
  | none => (false, .neverRun)
  | some value =>
    if !value.checkedAtOk then (false, .readFailed)
    else if !value.isConsistent then (false, .discrepancies value.mismatchCount)
    else (true, .ok)

/-- The gate passes on a recorded report exactly when it is consistent. -/
theorem lastStatus_recorded (report : ReconciliationReport) (utcnow : Datetime) :
    (getLastReconciliationStatus (some (recordReconciliationResult report utcnow))).1 =
      report.isConsistent := by
  cases hread : report.checkedAtOk <;> cases hmismatches : report.mismatches <;>
    simp [getLastReconciliationStatus, recordReconciliationResult,
      ReconciliationReport.isConsistent, hread, hmismatches]

/-! ## What a consistent report says -/

/-- The side that a text of the exchange names. -/
def sideOf? (side : Option String) : Option String :=
  if side = some "LONG" ∨ side = some "buy" then some "LONG"
  else if side = some "SHORT" ∨ side = some "sell" then some "SHORT"
  else none

/-- The row and the position agree on everything. -/
structure Paired (row : ExecutionRow) (p : ExchangeEntry) : Prop where
  symbol : p.symbol = some row.symbol
  side : sideOf? p.side = some row.direction
  quantity : ∃ q q', row.quantity = some q ∧ p.quantity = some q' ∧ |q' - q| ≤ quantityTolerance
  entryPrice : ∃ e e', row.entryPrice = some e ∧ p.entryPrice = some e' ∧ 0 < e ∧
    |e' - e| / e * 100 ≤ entryPriceMismatchTolerancePct

instance (row : ExecutionRow) (p : ExchangeEntry) : Decidable (Paired row p) :=
  decidable_of_iff (p.symbol = some row.symbol ∧ sideOf? p.side = some row.direction ∧
    (∃ q ∈ row.quantity, ∃ q' ∈ p.quantity, |q' - q| ≤ quantityTolerance) ∧
    ∃ e ∈ row.entryPrice, ∃ e' ∈ p.entryPrice,
      0 < e ∧ |e' - e| / e * 100 ≤ entryPriceMismatchTolerancePct)
    ⟨fun ⟨hsymbol, hside, ⟨q, hq, q', hq', hquantity⟩, e, he, e', he', hprice⟩ =>
      ⟨hsymbol, hside, ⟨q, q', hq, hq', hquantity⟩, e, e', he, he', hprice⟩,
    fun ⟨hsymbol, hside, ⟨q, q', hq, hq', hquantity⟩, e, e', he, he', hprice⟩ =>
      ⟨hsymbol, hside, ⟨q, hq, q', hq', hquantity⟩, e, he, e', he', hprice⟩⟩

/-- **The two sides correspond**: the exchange has answered, and its positions, in some order, are
paired with the open rows. -/
def Correspond (rows : List ExecutionRow) (read : PositionRead) : Prop :=
  ∃ positions l, read = .answered positions ∧ l.Perm positions ∧
    List.Forall₂ Paired (openRows rows) l

/-- A consistent report means that the two sides correspond. -/
def Sound (rows : List ExecutionRow) (read : PositionRead) : Prop :=
  (reconcilePositions rows read).isConsistent = true → Correspond rows read

/-- The open rows of a symbol. -/
def rowsOf (symbol : String) (rows : List ExecutionRow) : List ExecutionRow :=
  (openRows rows).filter (·.symbol = symbol)

/-- The positions of a symbol. -/
def entriesOf (symbol : String) (positions : List ExchangeEntry) : List ExchangeEntry :=
  positions.filter (·.symbol = some symbol)

/-- A row and a position show a difference: of the sides as they are read, of two quantities, or of
two prices, where the row's is positive. -/
def Differ (row : ExecutionRow) (p : ExchangeEntry) : Prop :=
  exchangeSide p.side ≠ row.direction ∨
  (∃ q ∈ row.quantity, ∃ q' ∈ p.quantity, quantityTolerance < |q' - q|) ∨
  ∃ e ∈ row.entryPrice, ∃ e' ∈ p.entryPrice,
    0 < e ∧ entryPriceMismatchTolerancePct < |e' - e| / e * 100

/-- A discrepancy is in sight of a comparison by symbol: a symbol is on one side only, or the last
row and the last position of a symbol show a difference. -/
def InSight (rows : List ExecutionRow) (positions : List ExchangeEntry) : Prop :=
  (∃ row ∈ openRows rows, ∀ p ∈ positions, p.symbol ≠ some row.symbol) ∨
  (∃ p ∈ positions, ∀ row ∈ openRows rows, p.symbol ≠ some row.symbol) ∨
  ∃ row p, LastOf ExecutionRow.symbol (openRows rows) row ∧
    LastOf ExchangeEntry.symbol positions p ∧ p.symbol = some row.symbol ∧ Differ row p

/-- The input hides nothing from the comparison. No number is missing, the entry prices of the rows
are positive and the sides of the positions are known; there are as many rows as positions of a
symbol; and where there are several, no group of its rows agrees with fewer positions. -/
structure Uncovered (rows : List ExecutionRow) (positions : List ExchangeEntry) : Prop where
  rowData : ∀ row ∈ openRows rows, row.quantity.isSome ∧ ∃ e ∈ row.entryPrice, 0 < e
  entryData : ∀ p ∈ positions,
    p.quantity.isSome ∧ p.entryPrice.isSome ∧ (sideOf? p.side).isSome
  count : ∀ symbol, (rowsOf symbol rows).length = (entriesOf symbol positions).length
  enough : ∀ symbol, 1 < (rowsOf symbol rows).length →
    ∀ group : List ExecutionRow, group.Sublist (rowsOf symbol rows) →
    group.length ≤ (entriesOf symbol positions).countP fun p => ∃ row ∈ group, Paired row p

/-- The comparison can be trusted: a discrepancy is in sight, or the input hides nothing; and a
failed read that is not raised meets an open row. -/
def Comparable (rows : List ExecutionRow) : PositionRead → Prop
  | .answered positions => InSight rows positions ∨ Uncovered rows positions
  | .raised => True
  | .swallowed => openRows rows ≠ []

section

variable {rows : List ExecutionRow} {row : ExecutionRow} {p : ExchangeEntry}

/-- A row and a position without a mismatch show no difference. -/
theorem entryMismatches_eq_nil : entryMismatches row p = [] ↔ ¬Differ row p := by
  have hside : sideMismatch row p = [] ↔ ¬exchangeSide p.side ≠ row.direction := by
    unfold sideMismatch
    split_ifs with h
    · simpa using h
    · simpa using h
  have hquantity : quantityMismatch row p = [] ↔
      ¬∃ q ∈ row.quantity, ∃ q' ∈ p.quantity, quantityTolerance < |q' - q| := by
    unfold quantityMismatch
    cases row.quantity <;> cases p.quantity <;> simp
  have hprice : entryPriceMismatch row p = [] ↔
      ¬∃ e ∈ row.entryPrice, ∃ e' ∈ p.entryPrice,
        0 < e ∧ entryPriceMismatchTolerancePct < |e' - e| / e * 100 := by
    unfold entryPriceMismatch
    cases row.entryPrice <;> cases p.entryPrice <;> simp
  rw [entryMismatches, List.append_eq_nil_iff, List.append_eq_nil_iff, hside, hquantity, hprice,
    Differ, not_or, not_or, and_assoc]

theorem sideOf?_of_exchangeSide (h : (sideOf? p.side).isSome) :
    sideOf? p.side = some (exchangeSide p.side) := by
  unfold sideOf? exchangeSide at *
  split_ifs at h ⊢ <;> simp_all

/-- The dictionary of the rows has an entry for the symbol of each. -/
theorem exists_row (hrow : row ∈ openRows rows) :
    ∃ r ∈ dictOf ExecutionRow.symbol (openRows rows), r.symbol = row.symbol :=
  exists_mem_dictOf hrow

/-- The dictionary of the positions has an entry for the symbol of each. -/
theorem exists_entry {positions : List ExchangeEntry} (hp : p ∈ positions) :
    ∃ p' ∈ dictOf ExchangeEntry.symbol positions, p'.symbol = p.symbol :=
  exists_mem_dictOf hp

/-- **A consistent report** on an answer: every position has a row of its symbol, and every row a
position of its symbol without a mismatch, where of several entries of a symbol only the last
counts. -/
theorem isConsistent_iff {read : PositionRead} {positions : List ExchangeEntry}
    (h : read.returned = some positions) :
    (reconcilePositions rows read).isConsistent = true ↔
      (∀ p ∈ dictOf ExchangeEntry.symbol positions,
        ∃ row ∈ dictOf ExecutionRow.symbol (openRows rows), some row.symbol = p.symbol) ∧
      ∀ row ∈ dictOf ExecutionRow.symbol (openRows rows),
        ∃ p ∈ dictOf ExchangeEntry.symbol positions,
          p.symbol = some row.symbol ∧ entryMismatches row p = [] := by
  simp only [reconcilePositions, h, ReconciliationReport.isConsistent, Bool.true_and,
    List.isEmpty_iff, List.append_eq_nil_iff, List.map_eq_nil_iff, List.filter_eq_nil_iff,
    List.flatMap_eq_nil_iff, decide_eq_true_eq]
  refine and_congr ?_ ?_
  · simp
  · refine forall₂_congr fun row _ => ?_
    cases hlookup : lookup ExchangeEntry.symbol (some row.symbol)
        (dictOf ExchangeEntry.symbol positions) with
    | none =>
      have hnone := lookup_eq_none_iff.1 hlookup
      simp only [List.cons_ne_nil, false_iff, not_exists, not_and]
      exact fun p hp hsymbol => absurd hsymbol (hnone p hp)
    | some p =>
      obtain ⟨hmem, hsymbol⟩ := (lookup_eq_some_iff uniqueKey_dictOf).1 hlookup
      simp only [List.map_eq_nil_iff]
      refine ⟨fun hnil => ⟨p, hmem, hsymbol, hnil⟩, ?_⟩
      rintro ⟨p', hmem', hsymbol', hnil⟩
      have heq : p' = p := uniqueKey_dictOf.eq_of_key hmem' hmem (hsymbol'.trans hsymbol.symm)
      exact heq ▸ hnil

end

section Answered

variable {rows : List ExecutionRow} {positions : List ExchangeEntry}

/-- A report on an answer is consistent exactly when no discrepancy is in sight. -/
theorem isConsistent_iff_not_inSight :
    (reconcilePositions rows (.answered positions)).isConsistent = true ↔
      ¬InSight rows positions := by
  have hreturned : (PositionRead.answered positions).returned = some positions := rfl
  rw [isConsistent_iff hreturned]
  constructor
  · rintro ⟨hexpected, hmatched⟩
      (⟨row, hrow, hnone⟩ | ⟨p, hp, hnone⟩ | ⟨row, p, hrow, hp, hkey, hne⟩)
    · obtain ⟨row', hrow', hkey⟩ := exists_row hrow
      obtain ⟨p, hp, hsymbol, -⟩ := hmatched row' hrow'
      exact hnone p (mem_of_mem_dictOf hp) (hsymbol.trans (congrArg some hkey))
    · obtain ⟨p', hp', hkey⟩ := exists_entry hp
      obtain ⟨row, hrow, hsymbol⟩ := hexpected p' hp'
      exact hnone row (mem_of_mem_dictOf hrow) (hkey.symm.trans hsymbol.symm)
    · obtain ⟨p', hp', hsymbol, hnil⟩ := hmatched row (mem_dictOf_iff.2 hrow)
      have heq : p' = p :=
        uniqueKey_dictOf.eq_of_key hp' (mem_dictOf_iff.2 hp) (hsymbol.trans hkey.symm)
      exact entryMismatches_eq_nil.1 hnil (heq ▸ hne)
  · intro hsight
    simp only [InSight, not_or, not_exists, not_and, not_forall, not_not] at hsight
    obtain ⟨hrows, hpositions, hlast⟩ := hsight
    constructor
    · intro p hp
      obtain ⟨row, hrow, hsymbol⟩ := hpositions p (mem_of_mem_dictOf hp)
      obtain ⟨row', hrow', hkey⟩ := exists_row hrow
      exact ⟨row', hrow', by rw [hkey, hsymbol]⟩
    · intro row hrow
      obtain ⟨p, hp, hsymbol⟩ := hrows row (mem_of_mem_dictOf hrow)
      obtain ⟨p', hp', hkey⟩ := exists_entry hp
      have hsymbol' : p'.symbol = some row.symbol := hkey.trans hsymbol
      exact ⟨p', hp', hsymbol', entryMismatches_eq_nil.2
        (hlast row p' (mem_dictOf_iff.1 hrow) (mem_dictOf_iff.1 hp') hsymbol')⟩

theorem correspond_iff_matched :
    Correspond rows (.answered positions) ↔ Matched Paired (openRows rows) positions := by
  constructor
  · rintro ⟨_, l, ⟨⟩, hperm, hl⟩
    exact ⟨l, hperm, hl⟩
  · rintro ⟨l, hperm, hl⟩
    exact ⟨positions, l, rfl, hperm, hl⟩

/-- What is paired has the same symbol. -/
theorem symbol_of_paired (row : ExecutionRow) (p : ExchangeEntry) (h : Paired row p) :
    some row.symbol = p.symbol := h.symbol.symm

theorem rowsOf_eq (symbol : String) (rows : List ExecutionRow) :
    rowsOf symbol rows = (openRows rows).filter fun row => some row.symbol = some symbol := by
  simp [rowsOf]

/-- The two sides correspond symbol by symbol. -/
theorem matched_iff_symbols (hsymbol : ∀ p ∈ positions, p.symbol.isSome) :
    Matched Paired (openRows rows) positions ↔
      ∀ symbol, Matched Paired (rowsOf symbol rows) (entriesOf symbol positions) := by
  rw [matched_iff_keys symbol_of_paired]
  constructor
  · intro h symbol
    rw [rowsOf_eq]
    exact h (some symbol)
  · intro h symbol
    rcases symbol with _ | symbol
    · have hnone : positions.filter (fun p => p.symbol = none) = [] :=
        List.filter_eq_nil_iff.2 fun p hp => by
          simpa [Option.isSome_iff_ne_none] using hsymbol p hp
      rw [hnone, List.filter_eq_nil_iff.2 (by simp)]
      exact .nil
    · rw [← rowsOf_eq]
      exact h symbol

/-- Sides that correspond hide nothing. -/
theorem uncovered_of_matched (h : Matched Paired (openRows rows) positions) :
    Uncovered rows positions := by
  have hsymbols : ∀ symbol, Matched Paired (rowsOf symbol rows) (entriesOf symbol positions) := by
    intro symbol
    rw [rowsOf_eq]
    exact h.filter symbol_of_paired (some symbol)
  obtain ⟨l, hperm, hl⟩ := h
  obtain ⟨hrows, hentries⟩ := partner_of_mem hl
  refine ⟨fun row hrow => ?_, fun p hp => ?_, fun symbol => (hsymbols symbol).length_eq,
    fun symbol _ group => (hsymbols symbol).length_le_countP⟩
  · obtain ⟨p, -, hpair⟩ := hrows row hrow
    obtain ⟨q, q', hq, -⟩ := hpair.quantity
    obtain ⟨e, e', he, -, hpos, -⟩ := hpair.entryPrice
    exact ⟨by simp [hq], e, he, hpos⟩
  · obtain ⟨row, -, hpair⟩ := hentries p (hperm.mem_iff.2 hp)
    obtain ⟨q, q', -, hq', -⟩ := hpair.quantity
    obtain ⟨e, e', -, he', -⟩ := hpair.entryPrice
    exact ⟨by simp [hq'], by simp [he'], by simp [hpair.side]⟩

/-- A row and a position of one symbol that show no difference agree when nothing of them is
missing. -/
theorem Uncovered.paired (h : Uncovered rows positions) {row : ExecutionRow} {p : ExchangeEntry}
    (hrow : row ∈ openRows rows) (hp : p ∈ positions) (hsymbol : p.symbol = some row.symbol)
    (hsame : ¬Differ row p) : Paired row p := by
  obtain ⟨hquantity, e, he, hpos⟩ := h.rowData row hrow
  obtain ⟨hquantity', hprice', hknown⟩ := h.entryData p hp
  obtain ⟨q, hq⟩ := Option.isSome_iff_exists.1 hquantity
  obtain ⟨q', hq'⟩ := Option.isSome_iff_exists.1 hquantity'
  obtain ⟨e', he'⟩ := Option.isSome_iff_exists.1 hprice'
  simp only [Differ, not_or, not_not, not_exists, not_and, not_lt] at hsame
  obtain ⟨hside, hclose, hnear⟩ := hsame
  exact ⟨hsymbol, by rw [sideOf?_of_exchangeSide hknown, hside],
    ⟨q, q', hq, hq', hclose q hq q' hq'⟩, e, e', he, he', hpos, hnear e he e' he' hpos⟩

/-- **Without a discrepancy in sight, sides that hide nothing correspond.** -/
theorem matched_of_uncovered (hsight : ¬InSight rows positions) (h : Uncovered rows positions) :
    Matched Paired (openRows rows) positions := by
  have hsymbol : ∀ p ∈ positions, p.symbol.isSome := by
    intro p hp
    by_contra hnone
    refine hsight (.inr (.inl ⟨p, hp, fun row _ heq => hnone ?_⟩))
    rw [heq, Option.isSome_some]
  rw [matched_iff_symbols hsymbol]
  intro symbol
  rcases Nat.lt_or_ge 1 (rowsOf symbol rows).length with hseveral | hfew
  · exact matched_iff_groups.2 ⟨h.count symbol, h.enough symbol hseveral⟩
  · have hcount := h.count symbol
    rcases hrows : rowsOf symbol rows with _ | ⟨row, rest⟩
    · rw [hrows] at hcount
      rw [List.eq_nil_of_length_eq_zero hcount.symm]
      exact .nil
    · -- the only row and the only position are the last ones
      rw [hrows, List.length_cons] at hfew hcount
      obtain rfl : rest = [] := List.eq_nil_of_length_eq_zero (by omega)
      obtain ⟨p, hp⟩ := List.length_eq_one_iff.1 hcount.symm
      have hlast : LastOf ExecutionRow.symbol (openRows rows) row := lastOf_of_singleton hrows
      have hlast' : LastOf ExchangeEntry.symbol positions p := lastOf_of_singleton hp
      obtain ⟨hmem, hkey⟩ := List.mem_filter.1 (hrows ▸ List.mem_singleton_self row)
      obtain ⟨hmem', hkey'⟩ := List.mem_filter.1 (hp ▸ List.mem_singleton_self p)
      have hsame : p.symbol = some row.symbol := by
        rw [of_decide_eq_true hkey', of_decide_eq_true hkey]
      rw [hp]
      exact ⟨[p], .refl _, .cons (h.paired hmem hmem' hsame fun hdiffer =>
        hsight (.inr (.inr ⟨row, p, hlast, hlast', hsame, hdiffer⟩))) .nil⟩

end Answered

/-- A failed read that is not raised is reported as consistent exactly without open rows. -/
theorem isConsistent_swallowed {rows : List ExecutionRow} :
    (reconcilePositions rows .swallowed).isConsistent = true ↔ openRows rows = [] := by
  have hreturned : PositionRead.swallowed.returned = some [] := rfl
  rw [isConsistent_iff hreturned]
  constructor
  · rintro ⟨-, hmatched⟩
    by_contra hne
    obtain ⟨row, hrow⟩ := List.exists_mem_of_ne_nil _ hne
    obtain ⟨r, hr, -⟩ := exists_row hrow
    obtain ⟨p, hp, -⟩ := hmatched r hr
    cases hp
  · intro hnil
    exact ⟨fun p hp => absurd hp List.not_mem_nil,
      fun row hrow => absurd (hnil ▸ mem_of_mem_dictOf hrow) List.not_mem_nil⟩

/-- **When a consistent report is sound**: exactly on the comparable inputs. -/
theorem sound_iff_comparable (rows : List ExecutionRow) (read : PositionRead) :
    Sound rows read ↔ Comparable rows read := by
  cases read with
  | raised => exact ⟨fun _ => trivial, fun _ hconsistent => by cases hconsistent⟩
  | swallowed =>
    have hfailed : ¬Correspond rows .swallowed := fun ⟨_, _, hread, _⟩ => by cases hread
    rw [Sound, isConsistent_swallowed]
    exact ⟨fun h hnil => hfailed (h hnil), fun h hnil => absurd hnil h⟩
  | answered positions =>
    rw [Sound, isConsistent_iff_not_inSight, correspond_iff_matched, Comparable]
    constructor
    · intro h
      by_cases hsight : InSight rows positions
      · exact .inl hsight
      · exact .inr (uncovered_of_matched (h hsight))
    · rintro (hsight | huncovered) hnot
      · exact absurd hsight hnot
      · exact matched_of_uncovered hnot huncovered

/-- A row of one bitcoin at 100. -/
def bitcoinRow : ExecutionRow :=
  { symbol := "BTC/USDT", direction := "LONG", status := .positionOpen, quantity := some 1,
    entryPrice := some 100 }

/-- The position of that row. -/
def bitcoinEntry : ExchangeEntry :=
  { symbol := some "BTC/USDT", side := some "LONG", quantity := some 1, entryPrice := some 100 }

/-- Without local rows a failed read is reported as consistent, and so are two rows of one symbol
against one position, and a row whose quantity is missing. -/
theorem not_sound :
    ¬Sound [] .swallowed ∧ ¬Sound [bitcoinRow, bitcoinRow] (.answered [bitcoinEntry]) ∧
      ¬Sound [{ bitcoinRow with quantity := none }] (.answered [bitcoinEntry]) := by
  refine ⟨?_, ?_, ?_⟩
  · intro h
    obtain ⟨positions, l, hread, -⟩ := h (by decide +kernel)
    cases hread
  · intro h
    obtain ⟨positions, l, ⟨⟩, hperm, hl⟩ := h (by decide +kernel)
    have hlength := hl.length_eq.trans hperm.length_eq
    revert hlength
    decide +kernel
  · intro h
    have hmatched := correspond_iff_matched.1 (h (by decide +kernel))
    have hquantity := ((uncovered_of_matched hmatched).rowData { bitcoinRow with quantity := none }
      (by decide +kernel)).1
    cases hquantity

end AlphaOne.Live

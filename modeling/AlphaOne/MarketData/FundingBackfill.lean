import AlphaOne.Foundations.Cursor
import AlphaOne.Foundations.Table
import AlphaOne.Schema.Time
import Mathlib.Tactic.Linarith

/-!
# The backfill of funding rates

`_backfill_funding_range` and `backfill_funding_rates` of `services/market_data/ingestion.py`. The
loop pages through the funding events of an exchange and steps by a nominal funding interval past
the last event of each page. Real events are not exactly that far apart: an event that comes less
than the interval after the last one of a full page is jumped over.

`backfillFundingRates_complete_iff` says which histories are stored completely.
-/

namespace AlphaOne.MarketData

open Foundations

/-- `FundingRate` of `services/market_data/__init__.py`: a funding event as the exchange returns
it. -/
structure FundingRate where
  timestamp : Datetime
  rate : ℚ
  symbol : String
  deriving DecidableEq, Repr

/-- A row of `funding_rates`. -/
structure FundingRateRow where
  symbol : String
  timestamp : Datetime
  rate : ℚ
  source : String := "binance"
  deriving DecidableEq, Repr

/-- The unique index of `funding_rates`. -/
def FundingRateRow.key (r : FundingRateRow) : String × Datetime := (r.symbol, r.timestamp)

/-- The row an event is stored as. -/
def FundingRate.toRow (h : FundingRate) : FundingRateRow :=
  { symbol := h.symbol, timestamp := h.timestamp, rate := h.rate, source := "binance" }

/-- `timedelta(hours=8)`. -/
def fundingInterval : Timedelta := Timedelta.hours 8

theorem fundingInterval_pos : 0 < fundingInterval := by decide

/-- What the exchange answers and the clock shows at each turn. -/
structure FundingEnvironment where
  /-- `exchange.fetch_funding_rate_history(symbol, since, limit)`, `none` when it raises. -/
  fetchFundingRateHistory : ℕ → String → Datetime → ℕ → Option (List FundingRate)
  /-- `datetime.utcnow()`. -/
  utcnow : ℕ → Datetime

/-- The `funding_rates` table and the number of turns taken. -/
structure FundingSession where
  fundingRates : List FundingRateRow := []
  turn : ℕ := 0
  deriving DecidableEq, Repr

namespace FundingSession

/-- The timestamps stored for a symbol. -/
def timestamps (s : FundingSession) (symbol : String) : List Datetime :=
  (s.fundingRates.filter fun r => r.symbol = symbol).map FundingRateRow.timestamp

/-- `existing_min`. -/
def existingMin (s : FundingSession) (symbol : String) : Option Datetime :=
  (s.timestamps symbol).min?

/-- `existing_max`. -/
def existingMax (s : FundingSession) (symbol : String) : Option Datetime :=
  (s.timestamps symbol).max?

/-- The insert of a page and its commit: what is added to `total_stored`, and the table. A row count
of zero is falsy, and the length of the page is added in its place. -/
def insertHistory (history : List FundingRate) (s : FundingSession) : ℕ × FundingSession :=
  let rows := history.map FundingRate.toRow
  let table := insertAllNew FundingRateRow.key s.fundingRates rows
  let rowcount := table.length - s.fundingRates.length
  (if rowcount = 0 then rows.length else rowcount, { s with fundingRates := table })

end FundingSession

/-- The events of a page that lie in the requested range. -/
def fundingInRange (rangeStart rangeEnd : Datetime) (history : List FundingRate) :
    List FundingRate :=
  history.filter fun h => rangeStart ≤ h.timestamp ∧ h.timestamp ≤ rangeEnd

section Backfill

variable (env : FundingEnvironment) (symbol : String)

/-- The loop of `_backfill_funding_range`, from its variables `since`, `consecutive_empty_pages` and
`total_stored` on. -/
def fundingLoop (rangeStart rangeEnd : Datetime) (pageLimit : ℕ) (since : Datetime)
    (consecutiveEmptyPages totalStored : ℕ) (s : FundingSession) : Option ℕ × FundingSession :=
  if _hsince : since < rangeEnd then
    let turn := s.turn
    let s := { s with turn := turn + 1 }
    match env.fetchFundingRateHistory turn symbol since pageLimit with
    | none => (none, s)
    | some fetched =>
      let history := fundingInRange rangeStart rangeEnd fetched
      match history.getLast? with
      | none =>
        if _hempty : consecutiveEmptyPages + 1 ≥ 2 then (some totalStored, s)
        else
          fundingLoop rangeStart rangeEnd pageLimit (since + fundingInterval * pageLimit)
            (consecutiveEmptyPages + 1) totalStored s
      | some last =>
        let (stored, s) := s.insertHistory history
        if _hlast : last.timestamp < since then (some (totalStored + stored), s)
        else
          fundingLoop rangeStart rangeEnd pageLimit (last.timestamp + fundingInterval) 0
            (totalStored + stored) s
  else (some totalStored, s)
termination_by 3 * (rangeEnd - since).toNat + (2 - consecutiveEmptyPages)
decreasing_by
  · have hI := fundingInterval_pos
    have hskip : 0 ≤ fundingInterval * pageLimit :=
      mul_nonneg hI.le (Int.natCast_nonneg pageLimit)
    lia
  · have hI := fundingInterval_pos
    lia

/-- `_backfill_funding_range`. -/
def backfillFundingRange (rangeStart rangeEnd : Datetime) (pageLimit : ℕ) (s : FundingSession) :
    Option ℕ × FundingSession :=
  fundingLoop env symbol rangeStart rangeEnd pageLimit rangeStart 0 0 s

/-- `forward_start`: a second after the latest stored event, but not before `start`. -/
def fundingForwardStart (start : Datetime) (s : FundingSession) : Datetime :=
  match s.existingMax symbol with
  | some max =>
    if max + Timedelta.seconds 1 > start then max + Timedelta.seconds 1 else start
  | none => start

/-- The historical part of `backfill_funding_rates`: the gap before the earliest stored event. -/
def backfillFundingHistorical (start : Datetime) (pageLimit : ℕ) (s : FundingSession) :
    Option ℕ × FundingSession :=
  match s.existingMin symbol with
  | some min =>
    if start < min then
      backfillFundingRange env symbol start (min - Timedelta.seconds 1) pageLimit s
    else (some 0, s)
  | none => (some 0, s)

/-- `backfill_funding_rates` with an `end`. -/
def backfillFundingUntil (start end_ : Datetime) (pageLimit : ℕ) (s : FundingSession) :
    Option ℕ × FundingSession :=
  let forward := fundingForwardStart symbol start s
  match backfillFundingHistorical env symbol start pageLimit s with
  | (none, s) => (none, s)
  | (some totalStored, s) =>
    if forward < end_ then
      match backfillFundingRange env symbol forward end_ pageLimit s with
      | (none, s) => (none, s)
      | (some stored, s) => (some (totalStored + stored), s)
    else (some totalStored, s)

/-- `backfill_funding_rates`: the clock is read when there is no `end`. -/
def backfillFundingRates (start : Datetime) (end_ : Option Datetime) (pageLimit : ℕ)
    (s : FundingSession) : Option ℕ × FundingSession :=
  match end_ with
  | some end_ => backfillFundingUntil env symbol start end_ pageLimit s
  | none =>
    backfillFundingUntil env symbol start (env.utcnow s.turn) pageLimit
      { s with turn := s.turn + 1 }

end Backfill

/-- Every fetch is answered by the page of the history at the cursor. -/
def FundingEnvironment.Honest (env : FundingEnvironment) (symbol : String)
    (history : List FundingRate) : Prop :=
  ∀ n since limit, env.fetchFundingRateHistory n symbol since limit =
    some (page FundingRate.timestamp since limit history)

/-- The events of the history between two times, both included. -/
def requested (start end_ : Datetime) (history : List FundingRate) : List FundingRate :=
  history.filter fun h => start ≤ h.timestamp ∧ h.timestamp ≤ end_

section Pages

variable {history : List FundingRate} {rangeStart rangeEnd since : Datetime} {pageLimit : ℕ}
  {h : FundingRate}

theorem mem_requested :
    h ∈ requested since rangeEnd history ↔
      h ∈ history ∧ since ≤ h.timestamp ∧ h.timestamp ≤ rangeEnd := by
  simp [requested]

theorem requested_chronological (hc : Chronological FundingRate.timestamp history)
    (since rangeEnd : Datetime) :
    Chronological FundingRate.timestamp (requested since rangeEnd history) :=
  hc.sublist List.filter_sublist

/-- The events of a page that are in the range are the first that are left of the range. -/
theorem fundingInRange_page (hc : Chronological FundingRate.timestamp history)
    (hstart : rangeStart ≤ since) :
    fundingInRange rangeStart rangeEnd (page FundingRate.timestamp since pageLimit history) =
      (requested since rangeEnd history).take pageLimit := by
  have hlater : fundingInRange rangeStart rangeEnd
        (page FundingRate.timestamp since pageLimit history) =
      (page FundingRate.timestamp since pageLimit history).filter
        fun h => h.timestamp ≤ rangeEnd := by
    refine List.filter_congr fun h hh => ?_
    have hle := hstart.trans (since_le_of_mem_page hh)
    simp [hle]
  rw [hlater, page, (hc.sublist List.filter_sublist).filter_take, List.filter_filter, requested]
  congr 2
  funext h
  rw [Bool.decide_and, Bool.and_comm]

/-- The events that are left of the range after a page, when the next cursor meets the first. -/
theorem requested_eq_drop {last : FundingRate} (hc : Chronological FundingRate.timestamp history)
    (hlast : ((requested since rangeEnd history).take pageLimit).getLast? = some last)
    (hhead : ∀ y, ((requested since rangeEnd history).drop pageLimit).head? = some y →
      last.timestamp + fundingInterval ≤ y.timestamp) :
    requested (last.timestamp + fundingInterval) rangeEnd history =
      (requested since rangeEnd history).drop pageLimit := by
  have hI := fundingInterval_pos
  have hsorted := requested_chronological hc since rangeEnd
  have hsince := (mem_requested.1 (List.mem_of_mem_take (List.mem_of_getLast? hlast))).2.1
  have hagain : requested (last.timestamp + fundingInterval) rangeEnd history =
      (requested since rangeEnd history).filter fun h =>
        last.timestamp + fundingInterval ≤ h.timestamp := by
    rw [requested, requested, List.filter_filter]
    refine List.filter_congr fun h _ => ?_
    by_cases hle : last.timestamp + fundingInterval ≤ h.timestamp
    · have hle' : since ≤ h.timestamp := by linarith
      simp [hle, hle']
    · simp [hle]
  have htake : ((requested since rangeEnd history).take pageLimit).filter (fun h =>
      last.timestamp + fundingInterval ≤ h.timestamp) = [] := by
    refine List.filter_eq_nil_iff.2 fun h hh => ?_
    have hle := (hsorted.sublist (List.take_sublist _ _)).le_getLast hlast h hh
    simp only [decide_eq_true_eq, not_le]
    linarith
  have hdrop : ((requested since rangeEnd history).drop pageLimit).filter (fun h =>
      last.timestamp + fundingInterval ≤ h.timestamp) =
      (requested since rangeEnd history).drop pageLimit := by
    refine List.filter_eq_self.2 fun h hh => decide_eq_true ?_
    obtain ⟨y, hy⟩ := Option.isSome_iff_exists.1 (List.isSome_head?.2 (List.ne_nil_of_mem hh))
    exact (hhead y hy).trans ((hsorted.sublist (List.drop_sublist _ _)).head_le hy h hh)
  rw [hagain, ← List.take_append_drop pageLimit (requested since rangeEnd history),
    List.filter_append, htake, List.nil_append, hdrop, List.take_append_drop]

/-- A page without an event in the range is read only when the range has none left. -/
theorem requested_eq_nil (hlimit : 0 < pageLimit)
    (h : ((requested since rangeEnd history).take pageLimit).getLast? = none) :
    requested since rangeEnd history = [] := by
  rcases List.take_eq_nil_iff.1 (List.getLast?_eq_none_iff.1 h) with hzero | hnil
  · omega
  · exact hnil

end Pages

/-! ## The loop -/

/-- From the cursor `since` on, the events `read` were fetched in the range and stored. -/
structure Reads (history : List FundingRate) (rangeEnd : Datetime) (pageLimit : ℕ)
    (since : Datetime) (rows rows' : List FundingRateRow) (read : FundingRate → Prop) : Prop where
  stored : ∀ h ∈ history, h.toRow.key ∈ rows'.map FundingRateRow.key ↔
    h.toRow.key ∈ rows.map FundingRateRow.key ∨ read h
  since_le : ∀ h ∈ history, read h → since ≤ h.timestamp ∧ h.timestamp ≤ rangeEnd
  complete : (∀ h ∈ requested since rangeEnd history, read h) ↔
    PagesFit FundingRate.timestamp fundingInterval rangeEnd pageLimit since
      (requested since rangeEnd history)
  source : ∀ r ∈ rows', r ∈ rows ∨ ∃ h ∈ history, r = h.toRow

section Loop

variable {env : FundingEnvironment} {symbol : String} {history : List FundingRate}
  {rangeStart rangeEnd since : Datetime} {pageLimit : ℕ} {s : FundingSession}
  {rows rows' : List FundingRateRow}

/-- Nothing is read where the range has nothing left. -/
theorem Reads.nothing (hnil : requested since rangeEnd history = []) :
    Reads history rangeEnd pageLimit since rows rows fun _ => False where
  stored h _ := by rw [or_false]
  since_le _ _ hread := hread.elim
  complete := by simp [hnil, PagesFit]
  source r hr := Or.inl hr

/-- A range whose end the cursor has passed is not read. -/
theorem Reads.of_le (h : rangeEnd ≤ since) :
    Reads history rangeEnd pageLimit since rows rows fun _ => False where
  stored h _ := by rw [or_false]
  since_le _ _ hread := hread.elim
  complete := by
    constructor
    · intro hall
      have hnil : requested since rangeEnd history = [] := List.eq_nil_iff_forall_not_mem.2 hall
      simp [hnil, PagesFit]
    · intro hfit h hh
      exact absurd (hfit.1 (List.ne_nil_of_mem hh)) (not_lt.2 ‹rangeEnd ≤ since›)
  source r hr := Or.inl hr

/-- An empty page changes nothing about what is read. -/
theorem Reads.skip {next : Datetime} {read : FundingRate → Prop} (hle : since ≤ next)
    (hnil : requested since rangeEnd history = [])
    (h : Reads history rangeEnd pageLimit next rows rows' read) :
    Reads history rangeEnd pageLimit since rows rows' fun _ => False where
  stored h' hh' := by
    have hnot : ¬read h' := by
      intro hread
      obtain ⟨hsince, hend⟩ := h.since_le h' hh' hread
      have hmem : h' ∈ requested since rangeEnd history :=
        mem_requested.2 ⟨hh', hle.trans hsince, hend⟩
      rw [hnil] at hmem
      exact List.not_mem_nil hmem
    rw [h.stored h' hh', or_iff_left hnot, or_false]
  since_le _ _ hread := hread.elim
  complete := by simp [hnil, PagesFit]
  source := h.source

/-- The keys after a page is stored. -/
theorem key_mem_insertHistory {h : FundingRate} {events : List FundingRate}
    (hc : Chronological FundingRate.timestamp history) (hsub : ∀ x ∈ events, x ∈ history)
    (hh : h ∈ history) :
    h.toRow.key ∈ (s.insertHistory events).2.fundingRates.map FundingRateRow.key ↔
      h.toRow.key ∈ s.fundingRates.map FundingRateRow.key ∨ h ∈ events := by
  rw [FundingSession.insertHistory, key_mem_insertAllNew]
  refine or_congr_right ⟨fun hmem => ?_, fun hmem => ?_⟩
  · rw [List.map_map, List.mem_map] at hmem
    obtain ⟨x, hx, heq⟩ := hmem
    rwa [← hc.eq_of_key (hsub x hx) hh (congrArg Prod.snd heq)]
  · exact List.mem_map_of_mem (List.mem_map_of_mem hmem)

/-- The page and what is read from the next cursor on are all that is requested exactly if the
request fits its cursor. -/
theorem Reads.complete_page {last : FundingRate} {read : FundingRate → Prop}
    (hc : Chronological FundingRate.timestamp history) (hlimit : 0 < pageLimit)
    (hlt : since < rangeEnd)
    (hlast : ((requested since rangeEnd history).take pageLimit).getLast? = some last)
    (h : Reads history rangeEnd pageLimit (last.timestamp + fundingInterval) rows rows' read) :
    (∀ x ∈ requested since rangeEnd history,
        x ∈ (requested since rangeEnd history).take pageLimit ∨ read x) ↔
      PagesFit FundingRate.timestamp fundingInterval rangeEnd pageLimit since
        (requested since rangeEnd history) := by
  rw [pagesFit_iff_drop hlimit hlast]
  constructor
  · intro hall
    -- an event behind the page is read from the next cursor on, so it is not before it
    have hbehind : ∀ y ∈ (requested since rangeEnd history).drop pageLimit, read y := by
      intro y hy
      refine (hall y (List.mem_of_mem_drop hy)).resolve_left fun hmem => ?_
      exact lt_irrefl _ ((requested_chronological hc since rangeEnd).take_lt_drop hmem hy)
    have hhead : ∀ y, ((requested since rangeEnd history).drop pageLimit).head? = some y →
        last.timestamp + fundingInterval ≤ y.timestamp := by
      intro y hy
      have hmem := List.mem_of_head? hy
      exact (h.since_le y (mem_requested.1 (List.mem_of_mem_drop hmem)).1 (hbehind y hmem)).1
    have hrest := requested_eq_drop hc hlast hhead
    refine ⟨hlt, hhead, ?_⟩
    rw [← hrest]
    exact h.complete.1 fun y hy => hbehind y (hrest ▸ hy)
  · rintro ⟨-, hhead, hfit⟩ x hx
    have hrest := requested_eq_drop hc hlast hhead
    rw [← hrest] at hfit
    rw [← List.take_append_drop pageLimit (requested since rangeEnd history),
      List.mem_append, ← hrest] at hx
    exact hx.imp_right (h.complete.2 hfit x)

/-- **One page and the rest**: what is read from the next cursor on, together with the page, is read
from this cursor on. -/
theorem Reads.page {last : FundingRate} {read : FundingRate → Prop}
    (hc : Chronological FundingRate.timestamp history) (hlimit : 0 < pageLimit)
    (hlt : since < rangeEnd)
    (hlast : ((requested since rangeEnd history).take pageLimit).getLast? = some last)
    (h : Reads history rangeEnd pageLimit (last.timestamp + fundingInterval)
      (s.insertHistory ((requested since rangeEnd history).take pageLimit)).2.fundingRates rows'
      read) :
    Reads history rangeEnd pageLimit since s.fundingRates rows' fun h =>
      h ∈ (requested since rangeEnd history).take pageLimit ∨ read h := by
  have hI := fundingInterval_pos
  have hpage : ∀ x ∈ (requested since rangeEnd history).take pageLimit,
      x ∈ requested since rangeEnd history := fun x hx => List.mem_of_mem_take hx
  have hlastr := mem_requested.1 (hpage last (List.mem_of_getLast? hlast))
  refine ⟨fun x hx => ?_, fun x hx hread => ?_, h.complete_page hc hlimit hlt hlast,
    fun r hr => ?_⟩
  · rw [h.stored x hx, key_mem_insertHistory hc (fun y hy => (mem_requested.1 (hpage y hy)).1) hx,
      or_assoc]
  · rcases hread with hmem | hread
    · exact (mem_requested.1 (hpage x hmem)).2
    · obtain ⟨hle, hend⟩ := h.since_le x hx hread
      exact ⟨by linarith [hlastr.2.1], hend⟩
  · rcases h.source r hr with hr | hr
    · rcases mem_insertAllNew hr with hr | ⟨hr, -⟩
      · exact Or.inl hr
      · obtain ⟨x, hx, rfl⟩ := List.mem_map.1 hr
        exact Or.inr ⟨x, (mem_requested.1 (hpage x hx)).1, rfl⟩
    · exact Or.inr hr

variable (rangeEnd s) in
/-- **What the loop reads.** With an honest exchange the loop returns, and it reads all that is left
of the range from its cursor on if that fits the cursor. -/
theorem fundingLoop_reads (hf : env.Honest symbol history)
    (hc : Chronological FundingRate.timestamp history) (hlimit : 0 < pageLimit)
    (empties total : ℕ) (hstart : rangeStart ≤ since) :
    let r := fundingLoop env symbol rangeStart rangeEnd pageLimit since empties total s
    (∃ n, r.1 = some n) ∧
      ∃ read, Reads history rangeEnd pageLimit since s.fundingRates r.2.fundingRates read := by
  have hI := fundingInterval_pos
  fun_induction fundingLoop env symbol rangeStart rangeEnd pageLimit since empties total s with
  | case1 since empties total s hlt turn s' hraise =>
    -- an honest exchange does not raise
    rw [hf] at hraise
    cases hraise
  | case2 since empties total s hlt turn s' fetched hfetch events hempty hstop =>
    -- a second empty page ends the loop
    obtain rfl := Option.some.inj ((hf _ _ _).symm.trans hfetch)
    simp only [events, fundingInRange_page hc hstart] at hempty
    exact ⟨⟨_, rfl⟩, _, .nothing (requested_eq_nil hlimit hempty)⟩
  | case3 since empties total s hlt turn s' fetched hfetch events hempty hstop ih =>
    -- an empty page: the range holds nothing from the cursor on, here and after the skip
    obtain rfl := Option.some.inj ((hf _ _ _).symm.trans hfetch)
    simp only [events, fundingInRange_page hc hstart] at hempty
    have hskip : 0 ≤ fundingInterval * pageLimit :=
      mul_nonneg hI.le (Int.natCast_nonneg pageLimit)
    have hle : since ≤ since + fundingInterval * pageLimit := le_add_of_nonneg_right hskip
    obtain ⟨hreturns, read, hread⟩ := ih (hstart.trans hle)
    exact ⟨hreturns, _, .skip hle (requested_eq_nil hlimit hempty) hread⟩
  | case4 since empties total s hlt turn s' fetched hfetch events last hlast stored s'' hinsert
      hback =>
    -- a page never ends before its cursor
    obtain rfl := Option.some.inj ((hf _ _ _).symm.trans hfetch)
    simp only [events, fundingInRange_page hc hstart] at hlast
    have hle := (mem_requested.1 (List.mem_of_mem_take (List.mem_of_getLast? hlast))).2.1
    exact absurd hback (not_lt.2 hle)
  | case5 since empties total s hlt turn s' fetched hfetch events last hlast stored s'' hinsert
      hback ih =>
    -- a page with events of the range, and the rest
    obtain rfl := Option.some.inj ((hf _ _ _).symm.trans hfetch)
    simp only [events, fundingInRange_page hc hstart] at hlast hinsert
    obtain ⟨hreturns, read, hread⟩ := ih (by lia)
    obtain rfl : _ = s'' := congrArg Prod.snd hinsert
    exact ⟨hreturns, _, .page hc hlimit hlt hlast hread⟩
  | case6 since empties total s hge =>
    exact ⟨⟨_, rfl⟩, _, .of_le (not_lt.1 hge)⟩

/-- On an empty store the rows are those of the events read. -/
theorem Reads.mem_iff {read : FundingRate → Prop}
    (hc : Chronological FundingRate.timestamp history)
    (h : Reads history rangeEnd pageLimit since [] rows read) {x : FundingRate} (hx : x ∈ history) :
    x.toRow ∈ rows ↔ read x := by
  have hstored := h.stored x hx
  simp only [List.map_nil, List.not_mem_nil, false_or] at hstored
  rw [← hstored]
  constructor
  · exact List.mem_map_of_mem
  · intro hkey
    obtain ⟨r, hr, heq⟩ := List.mem_map.1 hkey
    obtain ⟨y, hy, rfl⟩ := (h.source r hr).resolve_left List.not_mem_nil
    rwa [← hc.eq_of_key hy hx (congrArg Prod.snd heq)]

end Loop

/-! ## Completeness -/

/-- Every requested event is stored. -/
def StoresRequested (history : List FundingRate) (start end_ : Datetime)
    (r : Option ℕ × FundingSession) : Prop :=
  (∃ total, r.1 = some total) ∧ ∀ h ∈ history, start ≤ h.timestamp → h.timestamp ≤ end_ →
    h.toRow ∈ r.2.fundingRates

section Complete

variable {env : FundingEnvironment} {symbol : String} {history : List FundingRate} {pageLimit : ℕ}
  {s : FundingSession}

/-- From an empty store the range is read once, from its start on. -/
theorem backfillFundingUntil_of_empty (hempty : s.fundingRates = []) (start end_ : Datetime) :
    backfillFundingUntil env symbol start end_ pageLimit s =
      backfillFundingRange env symbol start end_ pageLimit s := by
  have hnone : s.timestamps symbol = [] := by simp [FundingSession.timestamps, hempty]
  have hforward : fundingForwardStart symbol start s = start := by
    simp [fundingForwardStart, FundingSession.existingMax, hnone]
  have hhistorical : backfillFundingHistorical env symbol start pageLimit s = (some 0, s) := by
    simp [backfillFundingHistorical, FundingSession.existingMin, hnone]
  simp only [backfillFundingUntil, hforward, hhistorical]
  split_ifs with hlt
  · rcases backfillFundingRange env symbol start end_ pageLimit s with ⟨n | n, s'⟩
    · rfl
    · simp
  · rw [backfillFundingRange, fundingLoop, dif_neg hlt]

theorem backfillFundingUntil_complete_iff (hf : env.Honest symbol history)
    (hc : Chronological FundingRate.timestamp history) (hlimit : 0 < pageLimit)
    (hempty : s.fundingRates = []) (start end_ : Datetime) :
    StoresRequested history start end_ (backfillFundingUntil env symbol start end_ pageLimit s) ↔
      PagesFit FundingRate.timestamp fundingInterval end_ pageLimit start
        (requested start end_ history) := by
  obtain ⟨hreturns, read, hread⟩ := fundingLoop_reads end_ s hf hc hlimit 0 0 (le_refl start)
  rw [hempty] at hread
  rw [backfillFundingUntil_of_empty hempty, ← hread.complete, StoresRequested, backfillFundingRange,
    and_iff_right hreturns]
  constructor
  · intro hall h hh
    obtain ⟨hmem, hle, hend⟩ := mem_requested.1 hh
    exact (hread.mem_iff hc hmem).1 (hall h hmem hle hend)
  · intro hall h hmem hle hend
    exact (hread.mem_iff hc hmem).2 (hall h (mem_requested.2 ⟨hmem, hle, hend⟩))

/-- **The backfill of funding rates is complete exactly if the requested events fit its cursor**:
the first event of each further page comes at least the nominal interval after the last event of the
page before, and the cursor is before the end of the range wherever there is an event to read. An
honest exchange meets an empty page only when nothing is left of the range (`requested_eq_nil`), so
two of them in a row never come before a requested event. -/
theorem backfillFundingRates_complete_iff (hf : env.Honest symbol history)
    (hc : Chronological FundingRate.timestamp history) (hlimit : 0 < pageLimit)
    (hempty : s.fundingRates = []) (start : Datetime) (end_ : Option Datetime) :
    let until_ := end_.getD (env.utcnow s.turn)
    StoresRequested history start until_
        (backfillFundingRates env symbol start end_ pageLimit s) ↔
      PagesFit FundingRate.timestamp fundingInterval until_ pageLimit start
        (requested start until_ history) := by
  cases end_ with
  | some end_ => exact backfillFundingUntil_complete_iff hf hc hlimit hempty start end_
  | none =>
    exact backfillFundingUntil_complete_iff (s := { s with turn := s.turn + 1 }) hf hc hlimit hempty
      start _

/-- An honest exchange with a history. -/
def fundingExchange (history : List FundingRate) : FundingEnvironment :=
  { fetchFundingRateHistory := fun _ _ since limit =>
      some (page FundingRate.timestamp since limit history)
    utcnow := fun _ => Timedelta.days 1 }

/-- Events at these times. -/
def fundingHistory (times : List Datetime) : List FundingRate :=
  times.map fun t => { timestamp := t, rate := 1 / 10000, symbol := "BTC/USDT" }

/-- A day of events exactly eight hours apart, two on a page. -/
theorem backfillFundingRates_complete_day :
    let history := fundingHistory [0, Timedelta.hours 8, Timedelta.hours 16]
    let env := fundingExchange history
    env.Honest "BTC/USDT" history ∧ Chronological FundingRate.timestamp history ∧
      (StoresRequested history 0 (Timedelta.days 1)
          (backfillFundingRates env "BTC/USDT" 0 none 2 {}) ↔
        PagesFit FundingRate.timestamp fundingInterval (Timedelta.days 1) 2 0
          (requested 0 (Timedelta.days 1) history)) := by
  intro history env
  have hf : env.Honest "BTC/USDT" history := fun _ _ _ => rfl
  have hc : Chronological FundingRate.timestamp history := by decide
  exact ⟨hf, hc, backfillFundingRates_complete_iff (s := {}) hf hc Nat.two_pos rfl 0 none⟩

/-- **A jitter of five milliseconds loses an event**: the first event is stamped 00:00:00.005, and
the cursor behind it passes the one at 08:00:00. -/
theorem backfillFundingRates_jumps_event :
    let history := fundingHistory [5000, Timedelta.hours 8, Timedelta.hours 16]
    let env := fundingExchange history
    env.Honest "BTC/USDT" history ∧ Chronological FundingRate.timestamp history ∧
      ¬StoresRequested history 0 (Timedelta.days 1)
        (backfillFundingRates env "BTC/USDT" 0 (some (Timedelta.days 1)) 1 {}) := by
  intro history env
  have hf : env.Honest "BTC/USDT" history := fun _ _ _ => rfl
  have hc : Chronological FundingRate.timestamp history := by decide
  refine ⟨hf, hc, ?_⟩
  rw [backfillFundingRates, backfillFundingUntil_complete_iff hf hc Nat.one_pos rfl]
  intro hfit
  exact absurd (hfit.2 1 _ _ Nat.one_pos rfl rfl).1 (by decide)

end Complete

end AlphaOne.MarketData

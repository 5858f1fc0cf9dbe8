import AlphaOne.Foundations.Cursor
import AlphaOne.MarketData.Ingestion
import Mathlib.Algebra.Order.Group.Unbundled.Int

/-!
# What the paging loop stores

A `Market` is the history an exchange has for a symbol and a timeframe; a truthful exchange
answers each fetch with the page of the history at the cursor, or raises. The loop of
`_backfill_range` stores the candles of a stretch of the history from its cursor on. How far the
stretch reaches is `Swept`: to every candle of the range that has closed, with one exception. A
candle that opens exactly at the end of the range is missed when the cursor gets there without
having shown it, at the start or at the boundary of a page (`Boundary`).
-/

namespace AlphaOne.MarketData

open Foundations

variable {symbol timeframe : String}

/-- The candles an exchange has for a symbol and a timeframe: in order, on the grid of the
timeframe. It may hold the forming candle and candles that are yet to open, which the loop drops
because they have not closed. -/
structure Market (symbol timeframe : String) where
  history : List OHLCV
  chronological : Chronological OHLCV.timestamp history
  /-- A point of the grid. -/
  origin : ℤ
  aligned : ∀ c ∈ history, interval timeframe ∣ c.timestamp - origin
  labelled : ∀ c ∈ history, c.symbol = symbol ∧ c.timeframe = timeframe

/-- Every fetch is answered by the page at the cursor, or raises; the clock never runs back. -/
structure Environment.Truthful (env : Environment) (m : Market symbol timeframe) : Prop where
  fetch : ∀ n since limit, env.fetchOhlcv n symbol timeframe since limit = none ∨
    env.fetchOhlcv n symbol timeframe since limit =
      some (page OHLCV.timestamp since limit m.history)
  clock : Monotone env.utcnow

/-- Every fetch is answered by the page at the cursor. -/
structure Environment.Honest (env : Environment) (m : Market symbol timeframe) : Prop where
  fetch : ∀ n since limit, env.fetchOhlcv n symbol timeframe since limit =
    some (page OHLCV.timestamp since limit m.history)
  clock : Monotone env.utcnow

theorem Environment.Honest.truthful {env : Environment} {m : Market symbol timeframe}
    (h : env.Honest m) : env.Truthful m :=
  ⟨fun n since limit => Or.inr (h.fetch n since limit), h.clock⟩

/-- A fetch that is answered is answered by the page. -/
theorem Environment.Truthful.fetched {env : Environment} {m : Market symbol timeframe}
    (h : env.Truthful m) {n : ℕ} {since : ℤ} {limit : ℕ} {fetched : List OHLCV}
    (hf : env.fetchOhlcv n symbol timeframe since limit = some fetched) :
    fetched = page OHLCV.timestamp since limit m.history := by
  rcases h.fetch n since limit with hnone | hpage
  · rw [hnone] at hf
    cases hf
  · rw [hpage] at hf
    exact (Option.some.inj hf).symm

/-- Points of a grid are a step apart. -/
theorem grid_succ_le {step origin u v : ℤ} (hu : step ∣ u - origin) (hv : step ∣ v - origin)
    (h : u < v) : u + step ≤ v := by
  have hd : step ∣ v - u := by
    simpa using Int.dvd_sub hv hu
  have hle := Int.le_of_dvd (by lia) hd
  lia

namespace Market

variable (m : Market symbol timeframe)

/-- The end of a range is reached by the cursor before the candle that opens there is shown: at
the start of the range, or after the last candle of a page. -/
def Boundary (pageLimit : ℕ) (since rangeEnd : ℤ) : Prop :=
  since = rangeEnd ∨ ∃ p ∈ m.history, since ≤ p.timestamp ∧
    p.timestamp + interval timeframe = rangeEnd ∧
    pageLimit ∣ countIn OHLCV.timestamp since rangeEnd m.history

/-- The stretch from `since` to `cut` is what the loop shows of the range that ends in `rangeEnd`.
`t` is a time the loop's clock has passed; `returned` says that no fetch raised. -/
structure Swept (pageLimit : ℕ) (rangeEnd t : ℤ) (returned : Prop) (since cut : ℤ) : Prop where
  le : since ≤ cut
  bounded : ∀ c ∈ m.history, since ≤ c.timestamp → c.timestamp < cut → c.timestamp ≤ rangeEnd
  not_boundary : ∀ c ∈ m.history, since ≤ c.timestamp → c.timestamp < cut →
    c.timestamp + interval timeframe ≤ t → c.timestamp = rangeEnd →
    ¬m.Boundary pageLimit since rangeEnd
  complete : returned → ∀ c ∈ m.history, since ≤ c.timestamp → c.timestamp ≤ rangeEnd →
    c.timestamp + interval timeframe ≤ t →
    ¬(c.timestamp = rangeEnd ∧ m.Boundary pageLimit since rangeEnd) → c.timestamp < cut
  /-- The cut is where the cursor stands after the last candle shown. -/
  cursor : cut = since ∨ ∃ last ∈ m.history, since ≤ last.timestamp ∧
    last.timestamp + interval timeframe = cut
  /-- Going on from the cut changes nothing about the candle at the end of the range. -/
  resume : ∀ c ∈ m.history, c.timestamp = rangeEnd → c.timestamp + interval timeframe ≤ t →
    cut ≤ c.timestamp → (m.Boundary pageLimit cut rangeEnd ↔ m.Boundary pageLimit since rangeEnd)

variable {m} {pageLimit : ℕ} {rangeEnd t : ℤ} {returned : Prop} {since cut : ℤ}

/-- A range whose end the cursor has passed is not read at all. -/
theorem Swept.of_le (h : rangeEnd ≤ since) : m.Swept pageLimit rangeEnd t returned since since where
  le := le_rfl
  bounded _ _ hle hlt := absurd hle (not_le.2 hlt)
  not_boundary _ _ hle hlt := absurd hle (not_le.2 hlt)
  complete _ c _ hle hend _ hnot := by
    have heq : c.timestamp = rangeEnd := le_antisymm hend (h.trans hle)
    exact absurd ⟨heq, Or.inl (le_antisymm (heq ▸ hle) h)⟩ hnot
  cursor := Or.inl rfl
  resume _ _ _ _ _ := Iff.rfl

/-- Nothing of the range is shown. -/
theorem Swept.nothing (h : returned → ∀ c ∈ m.history, since ≤ c.timestamp →
    c.timestamp ≤ rangeEnd → ¬c.timestamp + interval timeframe ≤ t) :
    m.Swept pageLimit rangeEnd t returned since since where
  le := le_rfl
  bounded _ _ hle hlt := absurd hle (not_le.2 hlt)
  not_boundary _ _ hle hlt := absurd hle (not_le.2 hlt)
  complete hr c hc hle hend ht _ := absurd ht (h hr c hc hle hend)
  cursor := Or.inl rfl
  resume _ _ _ _ _ := Iff.rfl

/-- What a page that is not empty and has closed candles shows: the candles from the cursor to
its last closed one. -/
structure Shown (m : Market symbol timeframe) (pageLimit : ℕ) (rangeEnd now since : ℤ)
    (last : OHLCV) : Prop where
  mem : last ∈ page OHLCV.timestamp since pageLimit m.history
  le_end : last.timestamp ≤ rangeEnd
  closed : last.timestamp + interval timeframe ≤ now
  greatest : ∀ c ∈ page OHLCV.timestamp since pageLimit m.history, c.timestamp ≤ rangeEnd →
    c.timestamp + interval timeframe ≤ now → c.timestamp ≤ last.timestamp

namespace Shown

variable {now : ℤ} {last : OHLCV}

theorem mem_history (h : m.Shown pageLimit rangeEnd now since last) : last ∈ m.history :=
  page_sublist.subset h.mem

theorem since_le (h : m.Shown pageLimit rangeEnd now since last) : since ≤ last.timestamp :=
  since_le_of_mem_page h.mem

/-- The candles before the next cursor are those shown. -/
theorem lt_iff (h : m.Shown pageLimit rangeEnd now since last) {c : OHLCV} (hc : c ∈ m.history) :
    c.timestamp < last.timestamp + interval timeframe ↔ c.timestamp ≤ last.timestamp := by
  have hI := interval_pos timeframe
  constructor
  · intro hlt
    by_contra hle
    have := grid_succ_le (m.aligned _ h.mem_history) (m.aligned c hc) (not_le.1 hle)
    lia
  · lia

/-- A closed candle at the end of the range that is not shown yet is missed from the next cursor
if and only if it is missed from this one. -/
theorem boundary_iff (h : m.Shown pageLimit rangeEnd now since last) {c : OHLCV}
    (hc : c ∈ m.history) (hend : c.timestamp = rangeEnd)
    (hclosed : c.timestamp + interval timeframe ≤ now) (hlt : last.timestamp < c.timestamp) :
    m.Boundary pageLimit (last.timestamp + interval timeframe) rangeEnd ↔
      m.Boundary pageLimit since rangeEnd := by
  have hI := interval_pos timeframe
  have hsince := h.since_le
  have hnext : last.timestamp + interval timeframe ≤ rangeEnd :=
    hend ▸ grid_succ_le (m.aligned _ h.mem_history) (m.aligned c hc) hlt
  have hmiss : c ∉ page OHLCV.timestamp since pageLimit m.history := fun hmem =>
    absurd (h.greatest c hmem hend.le hclosed) (not_le.2 hlt)
  -- the page is full, and all of it is closed and inside the range
  have hfull := (page_full m.chronological hc (by lia) hmiss).2
  have hcount : countIn OHLCV.timestamp since (last.timestamp + interval timeframe) m.history =
      pageLimit := by
    refine countIn_page m.chronological hc (by lia) hmiss fun z hz hle => ?_
    rw [h.lt_iff hz]
    constructor
    · intro hzl
      exact mem_page_of_le m.chronological h.mem hz hle hzl
    · intro hzp
      have := hfull z hzp
      exact h.greatest z hzp (by lia) (by lia)
  have hadd : countIn OHLCV.timestamp since rangeEnd m.history = _ :=
    countIn_add (b := last.timestamp + interval timeframe) (by lia) hnext m.history
  rw [hcount] at hadd
  unfold Boundary
  rw [hadd, Nat.dvd_add_right (dvd_refl pageLimit)]
  constructor
  · rintro (heq | ⟨p, hp, hle, hpe, hdvd⟩)
    · refine Or.inr ⟨last, h.mem_history, hsince, heq, ?_⟩
      rw [heq, countIn_eq_zero fun z _ hz => hz]
      exact dvd_zero _
    · exact Or.inr ⟨p, hp, by lia, hpe, hdvd⟩
  · rintro (heq | ⟨p, hp, hle, hpe, hdvd⟩)
    · lia
    · by_cases hpl : p.timestamp < last.timestamp + interval timeframe
      · have := (h.lt_iff hp).1 hpl
        exact Or.inl (by lia)
      · exact Or.inr ⟨p, hp, not_lt.1 hpl, hpe, hdvd⟩

/-- The candle at the end of the range is not missed if it is shown. -/
theorem not_boundary (h : m.Shown pageLimit rangeEnd now since last) (hlt : since < rangeEnd)
    {c : OHLCV} (hc : c ∈ m.history) (hend : c.timestamp = rangeEnd)
    (hshown : c.timestamp ≤ last.timestamp) : ¬m.Boundary pageLimit since rangeEnd := by
  have hI := interval_pos timeframe
  have hmem := mem_page_of_le m.chronological h.mem hc (by lia) hshown
  have hrank := ((mem_page_iff m.chronological).1 hmem).2.2
  rw [hend] at hrank
  rintro (heq | ⟨p, hp, hle, hpe, hdvd⟩)
  · lia
  · have hpos : 0 < countIn OHLCV.timestamp since rangeEnd m.history :=
      countIn_pos hp hle (by lia)
    exact absurd (Nat.le_of_dvd hpos hdvd) (by lia)

/-- **One page and the rest**: what is swept from the next cursor on, together with what the page
shows, is swept from this cursor on. -/
theorem swept (h : m.Shown pageLimit rangeEnd now since last) (hlt : since < rangeEnd)
    (ht : t ≤ now)
    (hnext : m.Swept pageLimit rangeEnd t returned (last.timestamp + interval timeframe) cut) :
    m.Swept pageLimit rangeEnd t returned since cut := by
  have hI := interval_pos timeframe
  have hsince := h.since_le
  have hcut := hnext.le
  refine ⟨by lia, ?_, ?_, ?_, ?_, ?_⟩
  · intro c hc hle hltc
    by_cases hshown : c.timestamp < last.timestamp + interval timeframe
    · exact ((h.lt_iff hc).1 hshown).trans h.le_end
    · exact hnext.bounded c hc (not_lt.1 hshown) hltc
  · intro c hc hle hltc hclosed hend
    by_cases hshown : c.timestamp < last.timestamp + interval timeframe
    · exact h.not_boundary hlt hc hend ((h.lt_iff hc).1 hshown)
    · rw [← h.boundary_iff hc hend (hclosed.trans ht) (by lia)]
      exact hnext.not_boundary c hc (not_lt.1 hshown) hltc hclosed hend
  · intro hr c hc hle hend hclosed hnot
    by_cases hshown : c.timestamp < last.timestamp + interval timeframe
    · lia
    · refine hnext.complete hr c hc (not_lt.1 hshown) hend hclosed ?_
      rintro ⟨heq, hb⟩
      exact hnot ⟨heq, (h.boundary_iff hc heq (hclosed.trans ht) (by lia)).1 hb⟩
  · rcases hnext.cursor with heq | ⟨p, hp, hle, heq⟩
    · exact Or.inr ⟨last, h.mem_history, hsince, heq.symm⟩
    · exact Or.inr ⟨p, hp, by lia, heq⟩
  · intro c hc hend hclosed hle
    rw [hnext.resume c hc hend hclosed hle]
    exact h.boundary_iff hc hend (hclosed.trans ht) (by lia)

end Shown

end Market

/-! ## The loop -/

theorem mem_timestamps {s : Session} {u : ℤ} :
    u ∈ s.timestamps symbol timeframe ↔ (symbol, timeframe, u) ∈ s.candles.map Candle.key := by
  simp only [Session.timestamps, List.mem_map, List.mem_filter, decide_eq_true_eq, Candle.key,
    Prod.mk.injEq]
  constructor
  · rintro ⟨c, ⟨hc, hs, ht⟩, rfl⟩
    exact ⟨c, hc, hs, ht, rfl⟩
  · rintro ⟨c, hc, hs, ht, rfl⟩
    exact ⟨c, ⟨hc, hs, ht⟩, rfl⟩

/-- A bulk insert adds the timestamps of the candles. -/
theorem mem_timestamps_bulkInsert {m : Market symbol timeframe} {candles : List OHLCV}
    (hsub : ∀ c ∈ candles, c ∈ m.history) {s : Session} {u : ℤ} :
    u ∈ (bulkInsertCandles candles s).2.timestamps symbol timeframe ↔
      u ∈ s.timestamps symbol timeframe ∨ ∃ c ∈ candles, c.timestamp = u := by
  rw [mem_timestamps, mem_timestamps, bulkInsertCandles, key_mem_insertAllNew]
  refine or_congr_right ?_
  simp only [List.map_map, List.mem_map, Function.comp_apply, Candle.key, OHLCV.toRow,
    Prod.mk.injEq]
  constructor
  · rintro ⟨c, hc, -, -, rfl⟩
    exact ⟨c, hc, rfl⟩
  · rintro ⟨c, hc, rfl⟩
    obtain ⟨hs, ht⟩ := m.labelled c (hsub c hc)
    exact ⟨c, hc, hs, ht, rfl⟩

/-- The session gained the candles of the history between `since` and `cut`, and no others. -/
def Gained (m : Market symbol timeframe) (since cut : ℤ) (s s' : Session) : Prop :=
  ∀ u, u ∈ s'.timestamps symbol timeframe ↔
    u ∈ s.timestamps symbol timeframe ∨ ∃ c ∈ m.history, c.timestamp = u ∧ since ≤ u ∧ u < cut

theorem Gained.nothing {m : Market symbol timeframe} {since : ℤ} {s s' : Session}
    (h : s'.candles = s.candles) : Gained m since since s s' := by
  intro u
  rw [mem_timestamps, mem_timestamps, h]
  constructor
  · exact Or.inl
  · rintro (hu | ⟨c, -, -, hle, hlt⟩)
    · exact hu
    · exact absurd hle (not_le.2 hlt)

theorem Gained.trans {m : Market symbol timeframe} {since mid cut : ℤ} {s s' s'' : Session}
    (h : Gained m since mid s s') (h' : Gained m mid cut s' s'') (hle : since ≤ mid)
    (hcut : mid ≤ cut) : Gained m since cut s s'' := by
  intro u
  rw [h' u, h u, or_assoc]
  refine or_congr_right ⟨?_, ?_⟩
  · rintro (⟨c, hc, rfl, h1, h2⟩ | ⟨c, hc, rfl, h1, h2⟩)
    · exact ⟨c, hc, rfl, h1, by lia⟩
    · exact ⟨c, hc, rfl, by lia, h2⟩
  · rintro ⟨c, hc, rfl, h1, h2⟩
    by_cases hmid : c.timestamp < mid
    · exact Or.inl ⟨c, hc, rfl, h1, hmid⟩
    · exact Or.inr ⟨c, hc, rfl, not_lt.1 hmid, h2⟩

/-- What is gained where the history holds nothing is nothing. -/
theorem Gained.of_none {m : Market symbol timeframe} {since mid cut : ℤ} {s s' : Session}
    (h : Gained m mid cut s s')
    (hnone : ∀ c ∈ m.history, mid ≤ c.timestamp → ¬c.timestamp < cut) :
    Gained m since since s s' := by
  intro u
  rw [h u]
  constructor
  · rintro (hu | ⟨c, hc, rfl, hle, hlt⟩)
    · exact Or.inl hu
    · exact absurd hlt (hnone c hc hle)
  · rintro (hu | ⟨c, hc, rfl, hle, hlt⟩)
    · exact Or.inl hu
    · exact absurd hle (not_le.2 hlt)

section Page

variable {m : Market symbol timeframe} {pageLimit : ℕ} {rangeStart rangeEnd since now : ℤ}

theorem mem_inRange_page (hstart : rangeStart ≤ since) {c : OHLCV} :
    c ∈ inRange rangeStart rangeEnd (page OHLCV.timestamp since pageLimit m.history) ↔
      c ∈ page OHLCV.timestamp since pageLimit m.history ∧ c.timestamp ≤ rangeEnd := by
  rw [inRange, List.mem_filter, decide_eq_true_eq]
  constructor
  · rintro ⟨hc, -, hle⟩
    exact ⟨hc, hle⟩
  · rintro ⟨hc, hle⟩
    exact ⟨hc, hstart.trans (since_le_of_mem_page hc), hle⟩

theorem mem_completeBy_page (hstart : rangeStart ≤ since) {c : OHLCV} :
    c ∈ completeBy timeframe now
        (inRange rangeStart rangeEnd (page OHLCV.timestamp since pageLimit m.history)) ↔
      c ∈ page OHLCV.timestamp since pageLimit m.history ∧ c.timestamp ≤ rangeEnd ∧
        c.timestamp + interval timeframe ≤ now := by
  rw [completeBy, List.mem_filter, mem_inRange_page hstart, decide_eq_true_eq, and_assoc]

/-- If the history has a candle from the cursor on, the page starts with one that is no later. -/
theorem exists_mem_page_le (hlimit : 0 < pageLimit) {c : OHLCV} (hc : c ∈ m.history)
    (hsince : since ≤ c.timestamp) :
    ∃ y ∈ page OHLCV.timestamp since pageLimit m.history, y.timestamp ≤ c.timestamp := by
  by_cases hmem : c ∈ page OHLCV.timestamp since pageLimit m.history
  · exact ⟨c, hmem, le_rfl⟩
  · obtain ⟨hlen, hbefore⟩ := page_full m.chronological hc hsince hmem
    obtain ⟨y, hy⟩ := List.exists_mem_of_length_pos (by lia :
      0 < (page OHLCV.timestamp since pageLimit m.history).length)
    exact ⟨y, hy, (hbefore y hy).le⟩

/-- A page without a candle in the range is read only when the range has none left. -/
theorem lt_of_inRange_eq_nil (hlimit : 0 < pageLimit) (hstart : rangeStart ≤ since)
    (h : inRange rangeStart rangeEnd (page OHLCV.timestamp since pageLimit m.history) = [])
    {c : OHLCV} (hc : c ∈ m.history) (hsince : since ≤ c.timestamp) : rangeEnd < c.timestamp := by
  obtain ⟨y, hy, hyc⟩ := exists_mem_page_le hlimit hc hsince
  by_contra hle
  have hmem : y ∈ inRange rangeStart rangeEnd (page OHLCV.timestamp since pageLimit m.history) :=
    (mem_inRange_page hstart).2 ⟨hy, by lia⟩
  rw [h] at hmem
  exact List.not_mem_nil hmem

/-- At the live edge no candle from the cursor on has closed. -/
theorem not_closed_of_completeBy_eq_nil (hlimit : 0 < pageLimit) (hstart : rangeStart ≤ since)
    (h : completeBy timeframe now (inRange rangeStart rangeEnd
      (page OHLCV.timestamp since pageLimit m.history)) = [])
    {c : OHLCV} (hc : c ∈ m.history) (hsince : since ≤ c.timestamp)
    (hend : c.timestamp ≤ rangeEnd) : now < c.timestamp + interval timeframe := by
  obtain ⟨y, hy, hyc⟩ := exists_mem_page_le hlimit hc hsince
  by_contra hle
  have hmem : y ∈ completeBy timeframe now (inRange rangeStart rangeEnd
      (page OHLCV.timestamp since pageLimit m.history)) :=
    (mem_completeBy_page hstart).2 ⟨hy, by lia, by lia⟩
  rw [h] at hmem
  exact List.not_mem_nil hmem

/-- The closed candles of a page are those from the cursor to the last of them. -/
theorem shown_of_getLast? (hstart : rangeStart ≤ since) {last : OHLCV}
    (hlast : (completeBy timeframe now (inRange rangeStart rangeEnd
      (page OHLCV.timestamp since pageLimit m.history))).getLast? = some last) :
    m.Shown pageLimit rangeEnd now since last := by
  have hmem := List.mem_of_getLast? hlast
  obtain ⟨hpage, hend, hclosed⟩ := (mem_completeBy_page hstart).1 hmem
  refine ⟨hpage, hend, hclosed, fun c hc hle hcl => ?_⟩
  have hsub : (completeBy timeframe now (inRange rangeStart rangeEnd
      (page OHLCV.timestamp since pageLimit m.history))).Sublist m.history :=
    (List.filter_sublist.trans List.filter_sublist).trans page_sublist
  exact (m.chronological.sublist hsub).le_getLast hlast c
    ((mem_completeBy_page hstart).2 ⟨hc, hle, hcl⟩)

/-- Storing the closed candles of a page gains the stretch up to the next cursor. -/
theorem gained_bulkInsert (hstart : rangeStart ≤ since) {last : OHLCV}
    (h : m.Shown pageLimit rangeEnd now since last) (s : Session) :
    Gained m since (last.timestamp + interval timeframe) s
      (bulkInsertCandles (completeBy timeframe now (inRange rangeStart rangeEnd
        (page OHLCV.timestamp since pageLimit m.history))) s).2 := by
  intro u
  rw [mem_timestamps_bulkInsert (m := m) fun c hc =>
    page_sublist.subset ((mem_completeBy_page hstart).1 hc).1]
  refine or_congr_right ⟨?_, ?_⟩
  · rintro ⟨c, hc, rfl⟩
    obtain ⟨hpage, hend, hclosed⟩ := (mem_completeBy_page hstart).1 hc
    have hmem := page_sublist.subset hpage
    exact ⟨c, hmem, rfl, since_le_of_mem_page hpage,
      (h.lt_iff hmem).2 (h.greatest c hpage hend hclosed)⟩
  · rintro ⟨c, hc, rfl, hle, hlt⟩
    have hshown := (h.lt_iff hc).1 hlt
    have hend := h.le_end
    have hclosed := h.closed
    exact ⟨c, (mem_completeBy_page hstart).2
      ⟨mem_page_of_le m.chronological h.mem hc hle hshown, by lia, by lia⟩, rfl⟩

end Page

variable {env : Environment} {m : Market symbol timeframe} {pageLimit : ℕ}
  {rangeStart t since : ℤ}

/-- **What the loop stores.** From the cursor `since` on, the loop stores the candles of a stretch
of the history that is swept up to the time its clock has passed. -/
theorem backfillLoop_spec (hm : env.Truthful m) (hlimit : 0 < pageLimit) (rangeEnd : ℤ)
    (empties total : ℕ) (s : Session) (hstart : rangeStart ≤ since) (ht : t ≤ env.utcnow s.turn) :
    let r := backfillLoop env symbol timeframe rangeStart rangeEnd pageLimit since empties total s
    ∃ cut, m.Swept pageLimit rangeEnd t (r.1 ≠ none) since cut ∧ Gained m since cut s r.2 ∧
      s.turn ≤ r.2.turn := by
  have hI := interval_pos timeframe
  fun_induction backfillLoop env symbol timeframe rangeStart rangeEnd pageLimit since empties
    total s with
  | case1 since empties total s hlt turn s' hraise =>
    -- the fetch raises
    exact ⟨since, .nothing fun hr => absurd rfl hr, .nothing rfl, Nat.le_succ _⟩
  | case2 since empties total s hlt turn s' fetched hfetch candles hempty hstop =>
    -- a second empty page ends the loop
    obtain rfl := hm.fetched hfetch
    refine ⟨since, .nothing fun _ c hc hle hend _ => ?_, .nothing rfl, Nat.le_succ _⟩
    exact absurd (lt_of_inRange_eq_nil hlimit hstart hempty hc hle) (not_lt.2 hend)
  | case3 since empties total s hlt turn s' fetched hfetch candles hempty hstop ih =>
    -- an empty page: the range holds nothing from the cursor on, here and after the skip
    obtain rfl := hm.fetched hfetch
    have hnone : ∀ c ∈ m.history, since ≤ c.timestamp → ¬c.timestamp ≤ rangeEnd := fun c hc hle =>
      not_le.2 (lt_of_inRange_eq_nil hlimit hstart hempty hc hle)
    have hskip : 0 ≤ interval timeframe * pageLimit :=
      mul_nonneg hI.le (Int.natCast_nonneg pageLimit)
    obtain ⟨cut, hswept, hgained, hturn⟩ := ih (by lia) (ht.trans (hm.clock (Nat.le_succ _)))
    refine ⟨since, .nothing fun _ c hc hle hend _ => hnone c hc hle hend, ?_, by
      exact (Nat.le_succ _).trans hturn⟩
    exact hgained.of_none fun c hc hle hltc =>
      hnone c hc (by lia) (hswept.bounded c hc hle hltc)
  | case4 since empties total s hlt turn s' fetched hfetch candles hne complete hlast =>
    -- the live edge: nothing from the cursor on has closed
    obtain rfl := hm.fetched hfetch
    refine ⟨since, .nothing fun _ c hc hle hend hclosed => ?_, .nothing rfl, Nat.le_succ _⟩
    have hnow := not_closed_of_completeBy_eq_nil hlimit hstart (List.getLast?_eq_none_iff.1 hlast)
      hc hle hend
    exact absurd (hclosed.trans ht) (not_le.2 hnow)
  | case5 since empties total s hlt turn s' fetched hfetch candles hne complete last hlast stored
      s'' hinsert hback =>
    -- a page never ends before its cursor
    obtain rfl := hm.fetched hfetch
    exact absurd (shown_of_getLast? hstart hlast).since_le (not_le.2 hback)
  | case6 since empties total s hlt turn s' fetched hfetch candles hne complete last hlast stored
      s'' hinsert hback ih =>
    -- a page with closed candles, and the rest of the range
    obtain rfl := hm.fetched hfetch
    have hshown := shown_of_getLast? hstart hlast
    have hstored := gained_bulkInsert hstart hshown s'
    rw [show bulkInsertCandles _ s' = (stored, s'') from hinsert] at hstored
    have hturn' : s''.turn = s.turn + 1 := by
      have := congrArg (fun r => r.2.turn) hinsert
      exact this.symm
    obtain ⟨cut, hswept, hgained, hturn⟩ := ih (by lia)
      (ht.trans (hm.clock (by rw [hturn']; exact Nat.le_succ _)))
    refine ⟨cut, hshown.swept hlt ht hswept, ?_, by lia⟩
    exact Gained.trans hstored hgained (by have := hshown.since_le; lia) hswept.le
  | case7 since empties total s hge =>
    exact ⟨since, .of_le (not_lt.1 hge), .nothing rfl, le_rfl⟩

end AlphaOne.MarketData

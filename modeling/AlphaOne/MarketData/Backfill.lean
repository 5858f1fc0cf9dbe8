import AlphaOne.MarketData.Paging

/-!
# What a backfill stores

A backfill sweeps two stretches of the history: from the requested start to an interval before
the earliest stored candle, and from an interval after the latest stored candle (or the requested
start) to the requested end. `backfill_spec` says so of every backfill of a truthful exchange,
interrupted or not; `backfill_stored_iff` of one that is not interrupted, candle by candle.
-/

namespace AlphaOne.MarketData

open Foundations

variable {symbol timeframe : String} {m : Market symbol timeframe} {s s' : Session}

theorem minTimestamp_eq_some {u : ℤ} (h : s.minTimestamp symbol timeframe = some u) :
    u ∈ s.timestamps symbol timeframe ∧ ∀ v ∈ s.timestamps symbol timeframe, u ≤ v :=
  List.min?_eq_some_iff.1 h

theorem maxTimestamp_eq_some {u : ℤ} (h : s.maxTimestamp symbol timeframe = some u) :
    u ∈ s.timestamps symbol timeframe ∧ ∀ v ∈ s.timestamps symbol timeframe, v ≤ u :=
  List.max?_eq_some_iff.1 h

theorem timestamps_eq_nil (h : s.minTimestamp symbol timeframe = none) :
    s.timestamps symbol timeframe = [] := List.min?_eq_none_iff.1 h

/-- A table with an earliest candle has a latest one. -/
theorem exists_maxTimestamp {u : ℤ} (h : s.minTimestamp symbol timeframe = some u) :
    ∃ v, s.maxTimestamp symbol timeframe = some v ∧ u ≤ v := by
  obtain ⟨hu, -⟩ := minTimestamp_eq_some h
  cases hv : s.maxTimestamp symbol timeframe with
  | none =>
    rw [Session.maxTimestamp, List.max?_eq_none_iff] at hv
    rw [hv] at hu
    exact absurd hu List.not_mem_nil
  | some v => exact ⟨v, rfl, (maxTimestamp_eq_some hv).2 u hu⟩

variable (symbol timeframe) in
theorem le_forwardStart (start : ℤ) (s : Session) :
    start ≤ forwardStart symbol timeframe start s := by
  unfold forwardStart
  split
  · split
    · lia
    · exact le_rfl
  · exact le_rfl

/-- The forward part starts after every stored candle. -/
theorem lt_forwardStart (start : ℤ) {u : ℤ} (hu : u ∈ s.timestamps symbol timeframe) :
    u + interval timeframe ≤ forwardStart symbol timeframe start s := by
  unfold forwardStart
  split
  · rename_i v hv
    have := (maxTimestamp_eq_some hv).2 u hu
    split <;> lia
  · rename_i hv
    rw [Session.maxTimestamp, List.max?_eq_none_iff] at hv
    rw [hv] at hu
    exact absurd hu List.not_mem_nil

theorem Market.Swept.lt_cut_iff {pageLimit : ℕ} {rangeEnd t since cut : ℤ} {returned : Prop}
    (h : m.Swept pageLimit rangeEnd t returned since cut) (hr : returned) {c : OHLCV}
    (hc : c ∈ m.history) (hle : since ≤ c.timestamp)
    (hclosed : c.timestamp + interval timeframe ≤ t) :
    c.timestamp < cut ↔ c.timestamp ≤ rangeEnd ∧
      ¬(c.timestamp = rangeEnd ∧ m.Boundary pageLimit since rangeEnd) := by
  constructor
  · intro hlt
    refine ⟨h.bounded c hc hle hlt, ?_⟩
    rintro ⟨hend, hb⟩
    exact h.not_boundary c hc hle hlt hclosed hend hb
  · rintro ⟨hend, hnot⟩
    exact h.complete hr c hc hle hend hclosed hnot

/-- A backfill swept the history from `start` to `historicalCut`, which is before the earliest
stored candle, and from the forward start to `forwardCut`. -/
structure Backfilled (m : Market symbol timeframe) (pageLimit : ℕ) (start end_ t : ℤ)
    (s s' : Session) (returned historicalReturned : Prop) (historicalCut forwardCut : ℤ) : Prop where
  historical : ∀ u, s.minTimestamp symbol timeframe = some u →
    m.Swept pageLimit (u - interval timeframe) t historicalReturned start historicalCut
  empty : s.minTimestamp symbol timeframe = none → historicalCut = start
  forward : m.Swept pageLimit end_ t returned (forwardStart symbol timeframe start s) forwardCut
  gained : ∃ mid, Gained m start historicalCut s mid ∧
    Gained m (forwardStart symbol timeframe start s) forwardCut mid s'
  returned : returned → historicalReturned
  /-- An exception in the historical part leaves nothing to the forward part. -/
  raised : historicalReturned ∨ forwardCut = forwardStart symbol timeframe start s
  turn : s.turn ≤ s'.turn

section Spec

variable {env : Environment} {pageLimit : ℕ} {t : ℤ}

theorem backfillHistorical_spec (hm : env.Truthful m) (hlimit : 0 < pageLimit) (start : ℤ)
    (s : Session) (ht : t ≤ env.utcnow s.turn) :
    let r := backfillHistorical env symbol timeframe start pageLimit s
    ∃ cut, (∀ u, s.minTimestamp symbol timeframe = some u →
        m.Swept pageLimit (u - interval timeframe) t (r.1 ≠ none) start cut) ∧
      (s.minTimestamp symbol timeframe = none → cut = start) ∧ Gained m start cut s r.2 ∧
      s.turn ≤ r.2.turn := by
  have hI := interval_pos timeframe
  unfold backfillHistorical
  cases hmin : s.minTimestamp symbol timeframe with
  | none => exact ⟨start, by simp, fun _ => rfl, .nothing rfl, le_rfl⟩
  | some u =>
    by_cases hlt : start < u
    · simp only [if_pos hlt]
      obtain ⟨cut, hswept, hgained, hturn⟩ :=
        backfillLoop_spec hm hlimit (u - interval timeframe) 0 0 s le_rfl ht
      refine ⟨cut, ?_, by simp, hgained, hturn⟩
      rintro v ⟨⟩
      exact hswept
    · simp only [if_neg hlt]
      refine ⟨start, ?_, by simp, .nothing rfl, le_rfl⟩
      rintro v ⟨⟩
      exact .of_le (by lia)

/-- **The two parts of a backfill**, also when an exception ends it. -/
theorem backfill_spec (hm : env.Truthful m) (hlimit : 0 < pageLimit) (start end_ : ℤ) (s : Session)
    (ht : t ≤ env.utcnow s.turn) :
    let r := backfill env symbol timeframe start end_ pageLimit s
    ∃ historicalReturned historicalCut forwardCut, Backfilled m pageLimit start end_ t s r.2
      (r.1 ≠ none) historicalReturned historicalCut forwardCut := by
  obtain ⟨cut, hswept, hempty, hgained, hturn⟩ := backfillHistorical_spec hm hlimit start s ht
  unfold backfill
  rcases hr : backfillHistorical env symbol timeframe start pageLimit s with ⟨_ | total, mid⟩
  · rw [hr] at hswept hgained hturn
    refine ⟨False, cut, _, ⟨fun u hu => ?_, hempty, ?_, ⟨mid, hgained, .nothing rfl⟩, ?_, .inr rfl,
      hturn⟩⟩
    · simpa using hswept u hu
    · exact .nothing fun h => absurd rfl h
    · exact fun h => absurd rfl h
  · rw [hr] at hswept hgained hturn
    have hswept' : ∀ u, s.minTimestamp symbol timeframe = some u →
        m.Swept pageLimit (u - interval timeframe) t True start cut := by
      intro u hu
      simpa using hswept u hu
    by_cases hlt : forwardStart symbol timeframe start s < end_
    · simp only [if_pos hlt]
      obtain ⟨fcut, hfswept, hfgained, hfturn⟩ := backfillLoop_spec hm hlimit end_ 0 0 mid
        (le_refl (forwardStart symbol timeframe start s)) (ht.trans (hm.clock hturn))
      refine ⟨True, cut, fcut, ?_⟩
      unfold backfillRange
      rcases hf : backfillLoop env symbol timeframe (forwardStart symbol timeframe start s) end_
        pageLimit (forwardStart symbol timeframe start s) 0 0 mid with ⟨_ | stored, s'⟩
      · rw [hf] at hfswept hfgained hfturn
        exact ⟨hswept', hempty, hfswept, ⟨mid, hgained, hfgained⟩, fun _ => trivial,
          .inl trivial, hturn.trans hfturn⟩
      · rw [hf] at hfswept hfgained hfturn
        exact ⟨hswept', hempty, by simpa using hfswept, ⟨mid, hgained, hfgained⟩, fun _ => trivial,
          .inl trivial, hturn.trans hfturn⟩
    · simp only [if_neg hlt]
      exact ⟨True, cut, _, hswept', hempty, .of_le (not_lt.1 hlt), ⟨mid, hgained, .nothing rfl⟩,
        fun _ => trivial, .inl trivial, hturn⟩

/-- The loop returns when the exchange is honest. -/
theorem backfillLoop_returns (hm : env.Honest m) (rangeStart rangeEnd since : ℤ)
    (empties total : ℕ) (s : Session) :
    (backfillLoop env symbol timeframe rangeStart rangeEnd pageLimit since empties total s).1 ≠
      none := by
  fun_induction backfillLoop env symbol timeframe rangeStart rangeEnd pageLimit since empties
    total s with
  | case1 since empties total s hlt turn s' hraise =>
    rw [hm.fetch] at hraise
    cases hraise
  | case3 since empties total s hlt turn s' fetched hfetch candles hempty hstop ih => exact ih
  | case6 since empties total s hlt turn s' fetched hfetch candles hne complete last hlast stored
      s'' hinsert hback ih => exact ih
  | _ => simp

/-- A backfill of an honest exchange returns. -/
theorem backfill_returns (hm : env.Honest m) (pageLimit : ℕ) (start end_ : ℤ) (s : Session) :
    (backfill env symbol timeframe start end_ pageLimit s).1 ≠ none := by
  have hhist : (backfillHistorical env symbol timeframe start pageLimit s).1 ≠ none := by
    unfold backfillHistorical
    split
    · split
      · exact backfillLoop_returns hm start _ start 0 0 s
      · simp
    · simp
  unfold backfill
  rcases hr : backfillHistorical env symbol timeframe start pageLimit s with ⟨_ | total, mid⟩
  · rw [hr] at hhist
    exact absurd rfl hhist
  · dsimp only
    split
    · have hrange : (backfillRange env symbol timeframe (forwardStart symbol timeframe start s)
          end_ pageLimit mid).1 ≠ none := backfillLoop_returns hm _ _ _ 0 0 mid
      split
      · rename_i s' hf
        rw [hf] at hrange
        exact absurd rfl hrange
      · simp
    · simp

/-- The times a backfill leaves stored: those stored before, and the two stretches it swept. -/
theorem Backfilled.mem {start end_ hcut fcut : ℤ} {R Rh : Prop}
    (h : Backfilled m pageLimit start end_ t s s' R Rh hcut fcut) {u : ℤ} :
    u ∈ s'.timestamps symbol timeframe ↔ u ∈ s.timestamps symbol timeframe ∨
      ∃ c ∈ m.history, c.timestamp = u ∧ (start ≤ u ∧ u < hcut ∨
        forwardStart symbol timeframe start s ≤ u ∧ u < fcut) := by
  obtain ⟨mid, h1, h2⟩ := h.gained
  rw [h2 u, h1 u, or_assoc]
  refine or_congr_right ?_
  constructor
  · rintro (⟨c, hc, rfl, hb⟩ | ⟨c, hc, rfl, hb⟩)
    · exact ⟨c, hc, rfl, Or.inl hb⟩
    · exact ⟨c, hc, rfl, Or.inr hb⟩
  · rintro ⟨c, hc, rfl, hb | hb⟩
    · exact Or.inl ⟨c, hc, rfl, hb⟩
    · exact Or.inr ⟨c, hc, rfl, hb⟩

/-- The candle is in the historical part of a backfill, and shown by it. -/
def FilledBefore (m : Market symbol timeframe) (pageLimit : ℕ) (start : ℤ) (s : Session)
    (u : ℤ) : Prop :=
  ∃ v, s.minTimestamp symbol timeframe = some v ∧ u + interval timeframe ≤ v ∧
    ¬(u + interval timeframe = v ∧ m.Boundary pageLimit start u)

/-- The candle is in the forward part of a backfill, and shown by it. -/
def FilledAfter (m : Market symbol timeframe) (pageLimit : ℕ) (start end_ : ℤ) (s : Session)
    (u : ℤ) : Prop :=
  forwardStart symbol timeframe start s ≤ u ∧ u ≤ end_ ∧
    ¬(u = end_ ∧ m.Boundary pageLimit (forwardStart symbol timeframe start s) u)

/-- **What a backfill stores**, of the candles that had closed when it began: those stored before,
and those that one of its two parts shows. -/
theorem Backfilled.mem_iff {start end_ hcut fcut : ℤ} {R Rh : Prop}
    (h : Backfilled m pageLimit start end_ t s s' R Rh hcut fcut) (hr : R) {c : OHLCV}
    (hc : c ∈ m.history) (hle : start ≤ c.timestamp)
    (hclosed : c.timestamp + interval timeframe ≤ t) :
    c.timestamp ∈ s'.timestamps symbol timeframe ↔ c.timestamp ∈ s.timestamps symbol timeframe ∨
      FilledBefore m pageLimit start s c.timestamp ∨
      FilledAfter m pageLimit start end_ s c.timestamp := by
  rw [h.mem]
  refine or_congr_right ?_
  have hhist : c.timestamp < hcut ↔ FilledBefore m pageLimit start s c.timestamp := by
    cases hmin : s.minTimestamp symbol timeframe with
    | none =>
      rw [h.empty hmin, FilledBefore, hmin]
      simp [hle]
    | some v =>
      rw [(h.historical v hmin).lt_cut_iff (h.returned hr) hc hle hclosed, FilledBefore, hmin]
      constructor
      · rintro ⟨hend, hnot⟩
        refine ⟨v, rfl, by lia, ?_⟩
        rintro ⟨heq, hb⟩
        have hv : c.timestamp = v - interval timeframe := by lia
        exact hnot ⟨hv, hv ▸ hb⟩
      · rintro ⟨w, ⟨⟩, hend, hnot⟩
        refine ⟨by lia, ?_⟩
        rintro ⟨heq, hb⟩
        exact hnot ⟨by lia, heq ▸ hb⟩
  constructor
  · rintro ⟨d, -, hd, ⟨h1, h2⟩ | ⟨h1, h2⟩⟩
    · exact Or.inl (hhist.1 h2)
    · obtain ⟨hend, hnot⟩ := (h.forward.lt_cut_iff hr hc h1 hclosed).1 h2
      refine Or.inr ⟨h1, hend, ?_⟩
      rintro ⟨heq, hb⟩
      exact hnot ⟨heq, heq ▸ hb⟩
  · rintro (hb | ⟨h1, hend, hnot⟩)
    · exact ⟨c, hc, rfl, Or.inl ⟨hle, hhist.2 hb⟩⟩
    · refine ⟨c, hc, rfl, Or.inr ⟨h1, (h.forward.lt_cut_iff hr hc h1 hclosed).2 ⟨hend, ?_⟩⟩⟩
      rintro ⟨heq, hb⟩
      exact hnot ⟨heq, by rw [heq]; exact hb⟩

end Spec

end AlphaOne.MarketData

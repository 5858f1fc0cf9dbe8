import AlphaOne.MarketData.Backfill

/-!
# The completeness of a backfill

An uninterrupted backfill of an honest exchange is meant to store every closed candle of the
requested range, ends included, and everything between the requested start and the earliest
stored candle. It misses exactly the candles that open at the end of one of its two parts when
the cursor gets there without having shown them (`MissedAtBoundary`): a part whose start is its
end is not read, and neither is a candle at the end of a part that comes first on its page.
-/

namespace AlphaOne.MarketData

open Foundations

variable {symbol timeframe : String}

/-- The stored candles stand on the grid and have no gap. -/
structure GapFree (symbol timeframe : String) (origin : ℤ) (s : Session) : Prop where
  aligned : ∀ u ∈ s.timestamps symbol timeframe, interval timeframe ∣ u - origin
  contiguous : ∀ a ∈ s.timestamps symbol timeframe, ∀ b ∈ s.timestamps symbol timeframe, ∀ u,
    interval timeframe ∣ u - origin → a ≤ u → u ≤ b → u ∈ s.timestamps symbol timeframe

theorem gapFree_empty (origin : ℤ) : GapFree symbol timeframe origin {} :=
  ⟨fun _ h => absurd h List.not_mem_nil, fun _ h => absurd h List.not_mem_nil⟩

/-- The times a backfill is asked for: the range, and everything up to the earliest stored
candle. -/
def Requested (symbol timeframe : String) (start end_ : ℤ) (s : Session) (u : ℤ) : Prop :=
  start ≤ u ∧ (u ≤ end_ ∨ ∃ v, s.minTimestamp symbol timeframe = some v ∧ u < v)

/-- The time is the end of one of the two parts of a backfill, at a boundary of its pages. -/
def MissedAtBoundary (m : Market symbol timeframe) (pageLimit : ℕ) (start end_ : ℤ)
    (s : Session) (u : ℤ) : Prop :=
  (∃ v, s.minTimestamp symbol timeframe = some v ∧ u + interval timeframe = v ∧
    m.Boundary pageLimit start u) ∨
  (u = end_ ∧ forwardStart symbol timeframe start s ≤ u ∧
    m.Boundary pageLimit (forwardStart symbol timeframe start s) u)

section Complete

variable {m : Market symbol timeframe} {s : Session} {pageLimit : ℕ} {start end_ : ℤ}

/-- A requested candle that is not stored is before the earliest stored candle or in the forward
part. -/
theorem GapFree.requested_cases (hs : GapFree symbol timeframe m.origin s) {c : OHLCV} (hc : c ∈ m.history)
    (hreq : Requested symbol timeframe start end_ s c.timestamp)
    (hnot : c.timestamp ∉ s.timestamps symbol timeframe) :
    (∃ v, s.minTimestamp symbol timeframe = some v ∧ c.timestamp + interval timeframe ≤ v) ∨
      forwardStart symbol timeframe start s ≤ c.timestamp ∧ c.timestamp ≤ end_ := by
  obtain ⟨hle, hend⟩ := hreq
  cases hmin : s.minTimestamp symbol timeframe with
  | none =>
    have hmax : s.maxTimestamp symbol timeframe = none := by
      rw [Session.maxTimestamp, timestamps_eq_nil hmin]
      rfl
    simp only [hmin, reduceCtorEq, false_and, exists_false, or_false] at hend
    exact Or.inr ⟨by simpa [forwardStart, hmax] using hle, hend⟩
  | some v =>
    obtain ⟨hv, hvmin⟩ := minTimestamp_eq_some hmin
    obtain ⟨w, hw, hvw⟩ := exists_maxTimestamp hmin
    obtain ⟨hwmem, -⟩ := maxTimestamp_eq_some hw
    by_cases hlt : c.timestamp < v
    · exact Or.inl ⟨v, rfl, grid_succ_le (m.aligned c hc) (hs.aligned v hv) hlt⟩
    · have hgt : w < c.timestamp := by
        by_contra hcw
        exact hnot (hs.contiguous v hv w hwmem _ (m.aligned c hc) (not_lt.1 hlt) (not_lt.1 hcw))
      have hnext := grid_succ_le (hs.aligned w hwmem) (m.aligned c hc) hgt
      refine Or.inr ⟨?_, ?_⟩
      · unfold forwardStart
        rw [hw]
        dsimp only
        split <;> lia
      · rcases hend with hend | ⟨v', hv', hlt'⟩
        · exact hend
        · rw [hmin] at hv'
          obtain rfl := Option.some.inj hv'
          exact absurd hlt' hlt

/-- A candle missed at a boundary is stored neither before the backfill nor by it. -/
theorem MissedAtBoundary.not_filled {u : ℤ} (h : MissedAtBoundary m pageLimit start end_ s u) :
    u ∉ s.timestamps symbol timeframe ∧ ¬FilledBefore m pageLimit start s u ∧
      ¬FilledAfter m pageLimit start end_ s u := by
  have hI := interval_pos timeframe
  rcases h with ⟨v, hmin, huv, hb⟩ | ⟨rfl, hfwd, hb⟩
  · obtain ⟨hv, hvmin⟩ := minTimestamp_eq_some hmin
    refine ⟨fun hu => ?_, ?_, ?_⟩
    · have := hvmin u hu
      lia
    · rintro ⟨w, hw, -, hnot⟩
      rw [hmin] at hw
      obtain rfl := Option.some.inj hw
      exact hnot ⟨huv, hb⟩
    · rintro ⟨hfwd, -, -⟩
      have := lt_forwardStart start hv
      lia
  · refine ⟨fun hu => ?_, ?_, ?_⟩
    · have := lt_forwardStart start hu
      lia
    · rintro ⟨v, hmin, huv, -⟩
      have := lt_forwardStart start (minTimestamp_eq_some hmin).1
      lia
    · rintro ⟨-, -, hnot⟩
      exact hnot ⟨rfl, hb⟩

/-- **Backfill completeness.** Over a contiguous store, an uninterrupted backfill stores every
requested candle that had closed when it began if and only if none of these candles is missed at
a boundary. -/
theorem backfill_complete_iff {env : Environment} (hm : env.Honest m) (hlimit : 0 < pageLimit)
    (hs : GapFree symbol timeframe m.origin s) :
    (∀ c ∈ m.history, Requested symbol timeframe start end_ s c.timestamp →
        c.timestamp + interval timeframe ≤ env.utcnow s.turn →
        c.timestamp ∈ (backfill env symbol timeframe start end_ pageLimit s).2.timestamps
          symbol timeframe) ↔
      ∀ c ∈ m.history, Requested symbol timeframe start end_ s c.timestamp →
        c.timestamp + interval timeframe ≤ env.utcnow s.turn →
        ¬MissedAtBoundary m pageLimit start end_ s c.timestamp := by
  obtain ⟨Rh, hcut, fcut, hspec⟩ := backfill_spec hm.truthful hlimit start end_ s le_rfl
  have hiff : ∀ c ∈ m.history, Requested symbol timeframe start end_ s c.timestamp →
      c.timestamp + interval timeframe ≤ env.utcnow s.turn → _ := fun c hc hreq hclosed =>
    hspec.mem_iff (backfill_returns hm pageLimit start end_ s) hc hreq.1 hclosed
  refine forall₂_congr fun c hc => forall₂_congr fun hreq hclosed => ?_
  rw [hiff c hc hreq hclosed]
  constructor
  · intro hstored hmissed
    obtain ⟨hnot, hnb, hna⟩ := hmissed.not_filled
    rcases hstored with h | h | h
    · exact hnot h
    · exact hnb h
    · exact hna h
  · intro hmissed
    by_cases hnot : c.timestamp ∈ s.timestamps symbol timeframe
    · exact Or.inl hnot
    rcases hs.requested_cases hc hreq hnot with ⟨v, hmin, hle⟩ | ⟨hfwd, hend⟩
    · refine Or.inr (Or.inl ⟨v, hmin, hle, ?_⟩)
      rintro ⟨heq, hb⟩
      exact hmissed (Or.inl ⟨v, hmin, heq, hb⟩)
    · refine Or.inr (Or.inr ⟨hfwd, hend, ?_⟩)
      rintro ⟨heq, hb⟩
      exact hmissed (Or.inr ⟨heq, hfwd, hb⟩)

end Complete

section Example

/-- A candle of one minute. -/
def minuteCandle (minute : ℕ) : OHLCV :=
  { timestamp := Timedelta.minutes minute
    open_ := 1
    high := 1
    low := 1
    close := 1
    volume := 1
    timeframe := "1m"
    symbol := "BTC/USDT" }

/-- The first three minutes of a history. -/
def threeMinutes : Market "BTC/USDT" "1m" where
  history := [minuteCandle 0, minuteCandle 1, minuteCandle 2]
  chronological := by decide +kernel
  origin := 0
  aligned := by decide +kernel
  labelled := by decide +kernel

/-- An exchange that answers every fetch from the market, an hour later. -/
def Market.honestEnvironment (m : Market symbol timeframe) : Environment where
  fetchOhlcv _ _ _ since limit := some (page OHLCV.timestamp since limit m.history)
  utcnow _ := Timedelta.hours 1

theorem Market.honestEnvironment_honest (m : Market symbol timeframe) :
    m.honestEnvironment.Honest m :=
  ⟨fun _ _ _ => rfl, fun _ _ _ => le_rfl⟩

/-- With pages of two candles, the closed candle at the requested end is not stored. -/
theorem backfill_misses_end :
    ¬∀ c ∈ threeMinutes.history,
      Requested "BTC/USDT" "1m" 0 (Timedelta.minutes 2) {} c.timestamp →
      c.timestamp + interval "1m" ≤ threeMinutes.honestEnvironment.utcnow 0 →
      c.timestamp ∈ (backfill threeMinutes.honestEnvironment "BTC/USDT" "1m" 0
        (Timedelta.minutes 2) 2 {}).2.timestamps "BTC/USDT" "1m" := by
  intro h
  have hmem := h (minuteCandle 2) (by decide +kernel) ⟨by decide +kernel, Or.inl (by decide +kernel)⟩
    (by decide +kernel)
  revert hmem
  decide +kernel

/-- With pages of four, every requested candle is stored. -/
theorem backfill_complete_threeMinutes :
    GapFree "BTC/USDT" "1m" 0 {} ∧ ∀ c ∈ threeMinutes.history,
      Requested "BTC/USDT" "1m" 0 (Timedelta.minutes 2) {} c.timestamp →
      c.timestamp + interval "1m" ≤ threeMinutes.honestEnvironment.utcnow 0 →
      c.timestamp ∈ (backfill threeMinutes.honestEnvironment "BTC/USDT" "1m" 0
        (Timedelta.minutes 2) 4 {}).2.timestamps "BTC/USDT" "1m" := by
  refine ⟨gapFree_empty 0, (backfill_complete_iff threeMinutes.honestEnvironment_honest
    (by decide) (gapFree_empty 0)).2 ?_⟩
  rintro c - - - (⟨v, hv, -⟩ | ⟨hend, -, hb⟩)
  · simp [Session.minTimestamp, Session.timestamps] at hv
  · rw [hend] at hb
    rcases hb with heq | ⟨p, -, -, -, hdvd⟩
    · exact absurd heq (by decide +kernel)
    · exact absurd hdvd (by decide +kernel)

end Example

end AlphaOne.MarketData

import AlphaOne.MarketData.Ingestion
import Mathlib.Data.Rat.Floor

/-!
# The termination of the paging loop

`_backfill_range` of `services/market_data/ingestion.py` leaves its loop in four ways and goes on in
two, and nothing is assumed of what the exchange answers: it may be empty, unsorted, repeated or out
of range. Each turn that goes on advances the cursor by an interval at least, so that the loop makes
as many fetches as intervals fit into the range, at most.
-/

namespace AlphaOne.MarketData

/-- The variables of the loop of `_backfill_range`. -/
structure PagingState where
  since : Datetime
  consecutiveEmptyPages : ℕ := 0
  totalStored : ℕ := 0
  session : Session
  deriving DecidableEq, Repr

section Turns

variable (env : Environment) (symbol timeframe : String) (rangeStart rangeEnd : Datetime)
  (pageLimit : ℕ)

/-- The body of the loop: the variables it goes on with, or how it ends. -/
def backfillTurn (c : PagingState) : PagingState ⊕ Option ℕ × Session :=
  let turn := c.session.turn
  let s := { c.session with turn := turn + 1 }
  match env.fetchOhlcv turn symbol timeframe c.since pageLimit with
  | none => .inr (none, s)
  | some fetched =>
    let candles := inRange rangeStart rangeEnd fetched
    if candles = [] then
      if c.consecutiveEmptyPages + 1 ≥ 2 then .inr (some c.totalStored, s)
      else
        .inl
          { since := c.since + interval timeframe * pageLimit
            consecutiveEmptyPages := c.consecutiveEmptyPages + 1
            totalStored := c.totalStored
            session := s }
    else
      let complete := completeBy timeframe (env.utcnow turn) candles
      match complete.getLast? with
      | none => .inr (some c.totalStored, s)
      | some last =>
        let (stored, s) := bulkInsertCandles complete s
        if last.timestamp < c.since then .inr (some (c.totalStored + stored), s)
        else
          .inl
            { since := last.timestamp + interval timeframe
              totalStored := c.totalStored + stored
              session := s }

/-- A run of the loop: its number of fetches, the values of `since` at its tests, and how it
ends. -/
inductive Fetches : PagingState → ℕ → List Datetime → Option ℕ × Session → Prop
  | finished {c : PagingState} (h : ¬c.since < rangeEnd) :
    Fetches c 0 [c.since] (some c.totalStored, c.session)
  | ended {c : PagingState} {r : Option ℕ × Session} (h : c.since < rangeEnd)
    (hturn : backfillTurn env symbol timeframe rangeStart rangeEnd pageLimit c = .inr r) :
    Fetches c 1 [c.since] r
  | again {c c' : PagingState} {fetches : ℕ} {sinces : List Datetime} {r : Option ℕ × Session}
    (h : c.since < rangeEnd)
    (hturn : backfillTurn env symbol timeframe rangeStart rangeEnd pageLimit c = .inl c')
    (hrest : Fetches c' fetches sinces r) : Fetches c (fetches + 1) (c.since :: sinces) r

end Turns

variable {env : Environment} {symbol timeframe : String} {rangeStart rangeEnd : Datetime}
  {pageLimit : ℕ}

/-- The loop has a run, which is finite and ends as the loop does. -/
theorem exists_fetches (since : Datetime) (empties total : ℕ) (s : Session) :
    ∃ fetches sinces, Fetches env symbol timeframe rangeStart rangeEnd pageLimit
      { since := since, consecutiveEmptyPages := empties, totalStored := total, session := s }
      fetches sinces
      (backfillLoop env symbol timeframe rangeStart rangeEnd pageLimit since empties total s) := by
  fun_induction backfillLoop env symbol timeframe rangeStart rangeEnd pageLimit since empties
    total s with
  | case1 since empties total s hlt turn s' hraise =>
    exact ⟨_, _, .ended hlt (by simp [backfillTurn, hraise, s', turn])⟩
  | case2 since empties total s hlt turn s' fetched hfetch candles hempty hstop =>
    exact ⟨_, _, .ended hlt (by simp_all +zetaDelta [backfillTurn])⟩
  | case3 since empties total s hlt turn s' fetched hfetch candles hempty hstop ih =>
    obtain ⟨fetches, sinces, hrest⟩ := ih
    exact ⟨_, _, .again hlt (by simp_all +zetaDelta [backfillTurn]) hrest⟩
  | case4 since empties total s hlt turn s' fetched hfetch candles hne complete hlast =>
    exact ⟨_, _, .ended hlt (by simp_all +zetaDelta [backfillTurn])⟩
  | case5 since empties total s hlt turn s' fetched hfetch candles hne complete last hlast stored
      s'' hinsert hback =>
    exact ⟨_, _, .ended hlt (by simp_all +zetaDelta [backfillTurn])⟩
  | case6 since empties total s hlt turn s' fetched hfetch candles hne complete last hlast stored
      s'' hinsert hback ih =>
    obtain ⟨fetches, sinces, hrest⟩ := ih
    exact ⟨_, _, .again hlt (by simp_all +zetaDelta [backfillTurn]) hrest⟩
  | case7 since empties total s hge => exact ⟨_, _, .finished hge⟩

/-- **A turn that goes on advances the cursor by an interval at least**, and each turn takes one
fetch. -/
theorem backfillTurn_spec (hlimit : 1 ≤ pageLimit) (c : PagingState) :
    match backfillTurn env symbol timeframe rangeStart rangeEnd pageLimit c with
    | .inl c' => c.since + interval timeframe ≤ c'.since ∧ c'.session.turn = c.session.turn + 1
    | .inr r => r.2.turn = c.session.turn + 1 := by
  have hI := interval_pos timeframe
  have hskip : interval timeframe ≤ interval timeframe * pageLimit :=
    le_mul_of_one_le_right hI.le (by exact_mod_cast hlimit)
  unfold backfillTurn
  dsimp only
  cases env.fetchOhlcv c.session.turn symbol timeframe c.since pageLimit with
  | none => exact rfl
  | some fetched =>
    dsimp only
    by_cases hempty : inRange rangeStart rangeEnd fetched = []
    · rw [if_pos hempty]
      by_cases hstop : c.consecutiveEmptyPages + 1 ≥ 2
      · rw [if_pos hstop]
      · rw [if_neg hstop]
        exact ⟨by dsimp only; linarith, rfl⟩
    · rw [if_neg hempty]
      cases (completeBy timeframe (env.utcnow c.session.turn)
          (inRange rangeStart rangeEnd fetched)).getLast? with
      | none => exact rfl
      | some last =>
        dsimp only
        by_cases hback : last.timestamp < c.since
        · rw [if_pos hback]
          exact rfl
        · rw [if_neg hback]
          exact ⟨by dsimp only; linarith, rfl⟩

/-- All but the last fetch are an interval apart within the range, the cursor only moves forward,
and the exchange has been asked once for each fetch. -/
theorem Fetches.spec {c : PagingState} {fetches : ℕ} {sinces : List Datetime}
    {r : Option ℕ × Session} (hlimit : 1 ≤ pageLimit)
    (h : Fetches env symbol timeframe rangeStart rangeEnd pageLimit c fetches sinces r) :
    (fetches = 0 ∨ (fetches - 1) * interval timeframe < rangeEnd - c.since) ∧
      (∀ since ∈ sinces, c.since ≤ since) ∧ sinces.Pairwise (· ≤ ·) ∧
      r.2.turn = c.session.turn + fetches := by
  have hI := interval_pos timeframe
  induction h with
  | finished h => exact ⟨.inl rfl, by simp, List.pairwise_singleton _ _, rfl⟩
  | @ended c r h hturn =>
    have hspec :=
      @backfillTurn_spec env symbol timeframe rangeStart rangeEnd pageLimit hlimit c
    rw [hturn] at hspec
    refine ⟨.inr ?_, by simp, List.pairwise_singleton _ _, hspec⟩
    push_cast
    linarith
  | @again c c' fetches sinces r h hturn hrest ih =>
    have hspec :=
      @backfillTurn_spec env symbol timeframe rangeStart rangeEnd pageLimit hlimit c
    rw [hturn] at hspec
    obtain ⟨hadvance, hcount⟩ := hspec
    obtain ⟨hfew, hfrom, hsorted, hturns⟩ := ih
    refine ⟨.inr ?_, ?_, ?_, ?_⟩
    · rcases hfew with rfl | hfew
      · push_cast
        linarith
      · push_cast
        linarith
    · intro since hsince
      rcases List.mem_cons.1 hsince with rfl | hsince
      · exact le_rfl
      · exact (by linarith [hfrom since hsince])
    · refine List.pairwise_cons.2 ⟨fun since hsince => ?_, hsorted⟩
      linarith [hfrom since hsince]
    · rw [hturns, hcount]
      omega

/-- **`_backfill_range` terminates whatever the exchange answers**: it has a finite run, and a run
makes at most as many fetches as intervals fit into the range, rounded up, while its cursor never
moves backwards. -/
theorem backfillRange_terminates (env : Environment) (symbol timeframe : String)
    (rangeStart rangeEnd : Datetime) (pageLimit : ℕ) (s : Session) (hlimit : 1 ≤ pageLimit) :
    let start : PagingState := { since := rangeStart, session := s }
    (∃ fetches sinces, Fetches env symbol timeframe rangeStart rangeEnd pageLimit start fetches
      sinces (backfillRange env symbol timeframe rangeStart rangeEnd pageLimit s)) ∧
    ∀ fetches sinces r,
      Fetches env symbol timeframe rangeStart rangeEnd pageLimit start fetches sinces r →
      fetches ≤ ⌈((rangeEnd - rangeStart : ℤ) : ℚ) / interval timeframe⌉₊ ∧
        sinces.Pairwise (· ≤ ·) ∧ r.2.turn = s.turn + fetches := by
  intro start
  refine ⟨exists_fetches rangeStart 0 0 s, fun fetches sinces r h => ?_⟩
  obtain ⟨hfew, -, hsorted, hturns⟩ := h.spec hlimit
  refine ⟨?_, hsorted, hturns⟩
  rcases hfew with rfl | hfew
  · exact Nat.zero_le _
  · have hI : (0 : ℚ) < interval timeframe := by exact_mod_cast interval_pos timeframe
    have hfit : ((fetches : ℚ) - 1) < ((rangeEnd - rangeStart : ℤ) : ℚ) / interval timeframe := by
      rw [lt_div_iff₀ hI]
      exact_mod_cast hfew
    have hceil := Nat.le_ceil (((rangeEnd - rangeStart : ℤ) : ℚ) / interval timeframe)
    have hlt : (fetches : ℚ) < ⌈((rangeEnd - rangeStart : ℤ) : ℚ) / interval timeframe⌉₊ + 1 := by
      linarith
    exact Nat.lt_succ_iff.1 (by exact_mod_cast hlt)

/-- Ten minutes of one-minute candles of an exchange that answers nothing but empty pages, one
candle a page. -/
theorem backfillRange_terminates_empty :
    let env : Environment := { fetchOhlcv := fun _ _ _ _ _ => some [], utcnow := fun _ => 0 }
    1 ≤ 1 ∧ ∀ fetches sinces r,
      Fetches env "BTC/USDT" "1m" 0 (Timedelta.minutes 10) 1 { since := 0, session := {} } fetches
        sinces r →
      fetches ≤ ⌈((Timedelta.minutes 10 - 0 : ℤ) : ℚ) / interval "1m"⌉₊ ∧
        sinces.Pairwise (· ≤ ·) ∧ r.2.turn = 0 + fetches :=
  ⟨le_rfl, (backfillRange_terminates _ "BTC/USDT" "1m" 0 (Timedelta.minutes 10) 1 {} le_rfl).2⟩

end AlphaOne.MarketData

import AlphaOne.Backtester.Results
import AlphaOne.Foundations.Extremes

/-!
# The drawdown and the streaks of a backtest

`_compile_results` reads the equity curve and the P&L of the trades once each, and keeps the running
peak, the greatest drawdowns so far, and the current and longest streaks. What the loops end with
is what the figures are meant to be.

* `Drawdown.Tracks` and `tracks_drawdown`: what the first loop knows after any part of the curve.
* `Streaks.Tracks` and `tracks_streaks`: the same for the second.
* `reported_extremes`: the figures that are reported.
-/

namespace AlphaOne.Backtester

open Foundations

/-! ## The drawdown -/

/-- The falls from a positive running peak, in percent of the peak. -/
def dropPercents (equityValues : List ℚ) : Set ℚ :=
  (fun q => (q.1 - q.2) / q.1 * 100) '' {q ∈ peakPairs equityValues | 0 < q.1}

/-- What the loop over the equity curve knows after the values `vs`, from the peak `start` on. -/
structure Drawdown.Tracks (start : ℚ) (vs : List ℚ) (d : Drawdown) : Prop where
  started : vs = [] → d.peak = start
  peak : vs ≠ [] → IsGreatest {v | v ∈ vs} d.peak
  maxDd : IsGreatest (insert 0 ((fun q => q.1 - q.2) '' peakPairs vs)) d.maxDd
  maxDdPct : IsGreatest (insert 0 (dropPercents vs)) d.maxDdPct

theorem Drawdown.tracks_init (start : ℚ) : Drawdown.Tracks start [] { peak := start } where
  started _ := rfl
  peak h := absurd rfl h
  maxDd := by simp
  maxDdPct := by simp [dropPercents]

variable {start val : ℚ} {vs : List ℚ} {d : Drawdown}

theorem Drawdown.step_peak : (d.step val).peak = max val d.peak := by
  simp only [Drawdown.step, max_comm val, max_def_lt]

theorem Drawdown.step_maxDd :
    (d.step val).maxDd = max ((d.step val).peak - val) d.maxDd := by
  simp only [Drawdown.step, max_comm _ d.maxDd, max_def_lt]

theorem Drawdown.step_maxDdPct : (d.step val).maxDdPct =
    max (if (d.step val).peak > 0 then ((d.step val).peak - val) / (d.step val).peak * 100 else 0)
      d.maxDdPct := by
  rw [max_comm, max_def_lt]
  rfl

/-- One value more. -/
theorem Drawdown.Tracks.step (h : Drawdown.Tracks start vs d) (hstart : vs = [] → val = start) :
    Drawdown.Tracks start (vs ++ [val]) (d.step val) := by
  have hpeak : IsGreatest {v | v ∈ vs ++ [val]} (d.step val).peak := by
    rw [Drawdown.step_peak]
    exact isGreatest_concat h.peak fun hnil => (h.started hnil).trans (hstart hnil).symm
  refine ⟨fun hnil => absurd hnil (by simp), fun _ => hpeak, ?_, ?_⟩
  · rw [peakPairs_concat hpeak, Set.image_insert_eq, Set.insert_comm, Drawdown.step_maxDd]
    exact h.maxDd.insert _
  · rw [dropPercents, peakPairs_concat hpeak, Drawdown.step_maxDdPct]
    split_ifs with hpos
    · have hset : {q ∈ insert ((d.step val).peak, val) (peakPairs vs) | 0 < q.1} =
          insert ((d.step val).peak, val) {q ∈ peakPairs vs | 0 < q.1} := by
        ext q
        simp only [Set.mem_sep_iff, Set.mem_insert_iff]
        grind
      rw [hset, Set.image_insert_eq, Set.insert_comm]
      exact h.maxDdPct.insert _
    · have hset : {q ∈ insert ((d.step val).peak, val) (peakPairs vs) | 0 < q.1} =
          {q ∈ peakPairs vs | 0 < q.1} := by
        ext q
        simp only [Set.mem_sep_iff, Set.mem_insert_iff]
        grind
      have hzero : 0 ≤ d.maxDdPct := h.maxDdPct.2 (Set.mem_insert _ _)
      rw [hset, max_eq_right hzero]
      exact h.maxDdPct

/-- After any part of the curve, the loop knows its peak and its greatest drops. -/
theorem tracks_drawdown (start : ℚ) (vs : List ℚ) (h : ∀ v ∈ vs.head?, v = start) :
    Drawdown.Tracks start vs (run Drawdown.step { peak := start } vs) := by
  induction vs using List.reverseRecOn with
  | nil => exact Drawdown.tracks_init start
  | append_singleton vs val ih =>
    rw [run_append]
    refine (ih fun v hv => h v ?_).step ?_
    · rw [List.head?_append, Option.mem_def.1 hv]
      rfl
    · rintro rfl
      exact h val rfl

/-- The greatest fall of a curve, and the greatest in percent, where its peak is ever positive. -/
theorem isGreatest_drawdownOf (hne : vs ≠ []) :
    IsGreatest (drops vs) (drawdownOf vs).maxDd ∧
      ((dropPercents vs).Nonempty → IsGreatest (dropPercents vs) (drawdownOf vs).maxDdPct) ∧
      (dropPercents vs = ∅ → (drawdownOf vs).maxDdPct = 0) := by
  have htracks : Drawdown.Tracks (vs.headD 0) vs (drawdownOf vs) := by
    refine tracks_drawdown _ vs fun v hv => ?_
    rw [List.headD_eq_head?_getD, Option.mem_def.1 hv, Option.getD_some]
  refine ⟨isGreatest_drops ?_, fun hsome => ?_, fun hnone => ?_⟩
  · obtain ⟨q, hq⟩ := peakPairs_nonempty hne
    have hzero : (0 : ℚ) ∈ (fun q : ℚ × ℚ => q.1 - q.2) '' peakPairs vs :=
      ⟨(q.1, q.1), peakPairs_self hq, sub_self q.1⟩
    have hgreatest := htracks.maxDd
    rwa [Set.insert_eq_of_mem hzero] at hgreatest
  · obtain ⟨_, q, ⟨hq, hpos⟩, rfl⟩ := hsome
    have hzero : (0 : ℚ) ∈ dropPercents vs :=
      ⟨(q.1, q.1), ⟨peakPairs_self hq, hpos⟩, by simp⟩
    have hgreatest := htracks.maxDdPct
    rwa [Set.insert_eq_of_mem hzero] at hgreatest
  · have hgreatest := htracks.maxDdPct
    rw [hnone] at hgreatest
    simpa using hgreatest.1

/-! ## The streaks -/

/-- What the loop over the P&L knows after the values `ps`. -/
structure Streaks.Tracks (ps : List ℚ) (s : Streaks) : Prop where
  wins : IsGreatest (runLengths (0 < ·) ps) s.maxConsecutiveWins
  losses : IsGreatest (runLengths (· ≤ 0) ps) s.maxConsecutiveLosses
  currentWins : IsGreatest (endLengths (0 < ·) ps) s.currentWins
  currentLosses : IsGreatest (endLengths (· ≤ 0) ps) s.currentLosses

theorem Streaks.tracks_init : Streaks.Tracks [] {} where
  wins := isGreatest_runLengths_nil _
  losses := isGreatest_runLengths_nil _
  currentWins := isGreatest_endLengths_nil _
  currentLosses := isGreatest_endLengths_nil _

/-- The longest run is as it was, where the new entry ends it. -/
theorem isGreatest_runLengths_concat_neg {P : ℚ → Prop} {ps : List ℚ} {p : ℚ} {b : ℕ}
    (h : IsGreatest (runLengths P ps) b) (hp : ¬P p) : IsGreatest (runLengths P (ps ++ [p])) b := by
  simpa using isGreatest_runLengths_concat h (isGreatest_endLengths_concat_neg hp)

/-- One trade more. -/
theorem Streaks.Tracks.step {ps : List ℚ} {s : Streaks} (h : Streaks.Tracks ps s) (p : ℚ) :
    Streaks.Tracks (ps ++ [p]) (s.step p) := by
  rw [Streaks.step]
  split_ifs with hp
  · have hcurrent := isGreatest_endLengths_concat_pos h.currentWins hp
    exact ⟨isGreatest_runLengths_concat h.wins hcurrent,
      isGreatest_runLengths_concat_neg h.losses (not_le.2 hp), hcurrent,
      isGreatest_endLengths_concat_neg (not_le.2 hp)⟩
  · have hcurrent := isGreatest_endLengths_concat_pos h.currentLosses (not_lt.1 hp)
    exact ⟨isGreatest_runLengths_concat_neg h.wins hp,
      isGreatest_runLengths_concat h.losses hcurrent, isGreatest_endLengths_concat_neg hp, hcurrent⟩

/-- After any of the trades, the loop knows the longest streaks and the current ones. -/
theorem tracks_streaks (ps : List ℚ) : Streaks.Tracks ps (run Streaks.step {} ps) := by
  induction ps using List.reverseRecOn with
  | nil => exact Streaks.tracks_init
  | append_singleton ps p ih =>
    rw [run_append]
    exact ih.step p

/-! ## The report -/

/-- **The drawdown and the streaks of a report are the true ones.** For trades and an equity curve,
before it is rounded to cents the drawdown is the greatest difference between a value of the curve
and the same or a later one, the drawdown in percent is the greatest fall from a positive running
peak (none, where the peak is never positive), and the streaks are the longest runs of winning and
of other trades. -/
theorem reported_extremes (config : BacktestConfig) (trades : List BacktestTrade)
    (equityCurve : List EquityPoint) (htrades : trades ≠ []) (hcurve : equityCurve ≠ []) :
    let result := compileResults config trades equityCurve
    let equityValues := equityCurve.map EquityPoint.equity
    let pnls := trades.map BacktestTrade.pnl
    IsGreatest (drops equityValues) (drawdownOf equityValues).maxDd ∧
      ((dropPercents equityValues).Nonempty →
        IsGreatest (dropPercents equityValues) (drawdownOf equityValues).maxDdPct) ∧
      (dropPercents equityValues = ∅ → (drawdownOf equityValues).maxDdPct = 0) ∧
      result.maxDrawdown = roundTo (drawdownOf equityValues).maxDd 2 ∧
      result.maxDrawdownPct = roundTo (drawdownOf equityValues).maxDdPct 2 ∧
      IsGreatest (runLengths (0 < ·) pnls) result.consecutiveWins ∧
      IsGreatest (runLengths (· ≤ 0) pnls) result.consecutiveLosses := by
  intro result equityValues pnls
  have hresult : result.maxDrawdown = roundTo (drawdownOf equityValues).maxDd 2 ∧
      result.maxDrawdownPct = roundTo (drawdownOf equityValues).maxDdPct 2 ∧
      result.consecutiveWins = (run Streaks.step {} pnls).maxConsecutiveWins ∧
      result.consecutiveLosses = (run Streaks.step {} pnls).maxConsecutiveLosses := by
    simp only [result, compileResults, List.isEmpty_iff, htrades, if_false]
    exact ⟨rfl, rfl, rfl, rfl⟩
  obtain ⟨hdd, hpct, hwins, hlosses⟩ := hresult
  have hvalues : equityValues ≠ [] := by simpa [equityValues] using hcurve
  obtain ⟨hdrop, hpercent, hnone⟩ := isGreatest_drawdownOf hvalues
  have hstreaks := tracks_streaks pnls
  rw [hwins, hlosses]
  exact ⟨hdrop, hpercent, hnone, hdd, hpct, hstreaks.wins, hstreaks.losses⟩

/-- A trade with a P&L. -/
def tradeOf (pnl : ℚ) : BacktestTrade where
  tradeId := 1
  side := .long
  entryPrice := 100
  entryTime := 0
  pnl := pnl

def pointOf (equity : ℚ) : EquityPoint where
  timestamp := 0
  equity := equity
  price := 100

/-- Two wins, two losses and a win: the fall from 120 to 90 is the greatest, a quarter of its peak,
and the streaks are of two trades each. -/
theorem reported_extremes_of_five_trades :
    IsGreatest (drops [(100 : ℚ), 110, 120, 108, 90, 105]) 30 ∧
      IsGreatest (runLengths (0 < ·) [(10 : ℚ), 10, -12, -18, 15]) 2 ∧
      IsGreatest (runLengths (· ≤ 0) [(10 : ℚ), 10, -12, -18, 15]) 2 ∧
      (compileResults {} ([10, 10, -12, -18, 15].map tradeOf)
        ([100, 110, 120, 108, 90, 105].map pointOf)).maxDrawdownPct = 25 := by
  have hdd : (drawdownOf [100, 110, 120, 108, 90, 105]).maxDd = 30 := by decide +kernel
  have hwins : (compileResults {} ([10, 10, -12, -18, 15].map tradeOf)
      ([100, 110, 120, 108, 90, 105].map pointOf)).consecutiveWins = 2 := by decide +kernel
  have hlosses : (compileResults {} ([10, 10, -12, -18, 15].map tradeOf)
      ([100, 110, 120, 108, 90, 105].map pointOf)).consecutiveLosses = 2 := by decide +kernel
  obtain ⟨hdrop, -, -, -, -, hw, hl⟩ := reported_extremes {}
    ([10, 10, -12, -18, 15].map tradeOf) ([100, 110, 120, 108, 90, 105].map pointOf)
    (by simp) (by simp)
  rw [hwins] at hw
  rw [hlosses] at hl
  exact ⟨hdd ▸ hdrop, hw, hl, by decide +kernel⟩

end AlphaOne.Backtester

import AlphaOne.SignalEngine.SupertrendFlips

/-!
# The geometry of a signal

A long signal should have its stop below its entry and its targets above, in order, and a short
signal the other way round. Three of the production strategies place all levels at multiples of a
positive ATR from the entry. S06 stops a trade at the supertrend line, which is the band that the
flip leaves behind; that band is not clamped to the entry. A candle whose range is large beside the
ATR may close beyond one band while the other lies beyond its close.

`geometry_iff` is the exact condition.
-/

namespace AlphaOne.SignalEngine

open Foundations FeatureEngine

/-- The stop, the entry and the targets of a signal are in this order. -/
def OrderedBy (r : ℚ → ℚ → Prop) (s : StrategySignal) : Prop :=
  ∃ entry stop tp1, s.entryPrice = some entry ∧ s.stopLoss = some stop ∧
    s.takeProfit1 = some tp1 ∧ r stop entry ∧ r entry tp1 ∧
      ∀ tp2, s.takeProfit2 = some tp2 → r tp1 tp2 ∧ ∀ tp3, s.takeProfit3 = some tp3 → r tp2 tp3

/-- The levels of a signal are on the right sides of its entry. -/
def Geometric (s : StrategySignal) : Prop :=
  match s.signalType with
  | .long => OrderedBy (· < ·) s
  | .short => OrderedBy (· > ·) s
  | _ => True

/-- What a strategy says about a frame. -/
def StrategyDefinition.generate (s : StrategyDefinition) (df df1d : List Candle) :
    StrategySignal :=
  match s.strategy with
  | .single generate => generate df
  | .mtfTrend generateWithDaily => generateWithDaily df df1d

/-- The signal of a decision at an entry. -/
def RawSignal.at (raw : RawSignal) (entry : ℚ) (strategyName : String) : StrategySignal :=
  { signalType := raw.signalType
    entryPrice := some entry
    stopLoss := raw.stopLoss
    takeProfit1 := raw.takeProfit1
    takeProfit2 := raw.takeProfit2
    takeProfit3 := raw.takeProfit3
    strategyName }

section AtrLevels

variable {entry a : ℚ} {side : SignalType} {name : String}

/-- A long or a short side. -/
def IsTrade (side : SignalType) : Prop := side = .long ∨ side = .short

theorem geometric_defaultSignal (ha : 0 < a) (hside : IsTrade side) :
    Geometric ((defaultSignal entry a side).at entry name) := by
  rcases hside with rfl | rfl
  · refine ⟨entry, _, _, rfl, rfl, rfl, ?_, ?_, fun _ h => ?_⟩
    · change entry - 2 * a < entry
      linarith
    · change entry < entry + 3 * a
      linarith
    · cases h
  · refine ⟨entry, _, _, rfl, rfl, rfl, ?_, ?_, fun _ h => ?_⟩
    · change entry < entry + 2 * a
      linarith
    · change entry - 3 * a < entry
      linarith
    · cases h

theorem geometric_atrSlTp (ha : 0 < a) (hside : IsTrade side) :
    Geometric ((atrSlTp entry a side).at entry name) := by
  rcases hside with rfl | rfl
  · refine ⟨entry, _, _, rfl, rfl, rfl, ?_, ?_, ?_⟩
    · change entry - 2 * a < entry
      linarith
    · change entry < entry + 3 / 2 * a
      linarith
    · rintro _ ⟨⟩
      refine ⟨by linarith, ?_⟩
      rintro _ ⟨⟩
      linarith
  · refine ⟨entry, _, _, rfl, rfl, rfl, ?_, ?_, ?_⟩
    · change entry < entry + 2 * a
      linarith
    · change entry - 3 / 2 * a < entry
      linarith
    · rintro _ ⟨⟩
      refine ⟨by linarith, ?_⟩
      rintro _ ⟨⟩
      linarith

end AtrLevels

/-! ## The strategies with ATR levels -/

/-- The levels of a decision are multiples of a positive ATR from the last close. -/
def AtrLevels {γ : Type} (levels : ℚ → ℚ → SignalType → RawSignal) (rows : List (PreparedRow γ))
    (raw : RawSignal) : Prop :=
  ∃ last ∈ back rows 0, ∃ a side, 0 < a ∧ IsTrade side ∧ raw = levels last.candle.close a side

theorem trendFollowingSignal_levels {breakoutPeriod : ℕ} {adxThreshold : ℚ}
    {rows : List (PreparedRow BaselineColumns)} {raw : RawSignal}
    (h : trendFollowingSignal breakoutPeriod adxThreshold rows = some raw) :
    AtrLevels defaultSignal rows raw := by
  unfold trendFollowingSignal at h
  split at h
  · cases h
  · obtain ⟨last, hlast, h⟩ := Option.bind_eq_some_iff.1 h
    obtain ⟨prev, -, h⟩ := Option.bind_eq_some_iff.1 h
    obtain ⟨adx14, -, h⟩ := Option.bind_eq_some_iff.1 h
    obtain ⟨a, -, h⟩ := Option.bind_eq_some_iff.1 h
    split at h
    · cases h
    · rename_i hgate
      have ha : 0 < a := not_le.1 fun hle => hgate (.inl hle)
      obtain ⟨high, -, h⟩ := Option.bind_eq_some_iff.1 h
      obtain ⟨low, -, h⟩ := Option.bind_eq_some_iff.1 h
      dsimp only at h
      split_ifs at h
      · exact ⟨last, hlast, a, .long, ha, .inl rfl, (Option.some.inj h).symm⟩
      · exact ⟨last, hlast, a, .short, ha, .inr rfl, (Option.some.inj h).symm⟩

theorem kamaTrendSignal_levels {flatBars : ℕ} {rows : List (PreparedRow KamaColumns)}
    {raw : RawSignal} (h : kamaTrendSignal flatBars rows = some raw) :
    AtrLevels atrSlTp rows raw := by
  unfold kamaTrendSignal at h
  split at h
  · cases h
  · obtain ⟨last, hlast, h⟩ := Option.bind_eq_some_iff.1 h
    obtain ⟨prev, -, h⟩ := Option.bind_eq_some_iff.1 h
    obtain ⟨lastKama, -, h⟩ := Option.bind_eq_some_iff.1 h
    obtain ⟨prevKama, -, h⟩ := Option.bind_eq_some_iff.1 h
    obtain ⟨a, -, h⟩ := Option.bind_eq_some_iff.1 h
    split at h
    · cases h
    · rename_i hgate
      have ha : 0 < a := not_le.1 fun hle => hgate (.inl hle)
      obtain ⟨flat, -, h⟩ := Option.bind_eq_some_iff.1 h
      obtain ⟨flatKama, -, h⟩ := Option.bind_eq_some_iff.1 h
      dsimp only at h
      split_ifs at h
      · exact ⟨last, hlast, a, .long, ha, .inl rfl, (Option.some.inj h).symm⟩
      · exact ⟨last, hlast, a, .short, ha, .inr rfl, (Option.some.inj h).symm⟩

theorem rangeExpansionBreakoutSignal_levels {trRatioMult : ℚ}
    {rows : List (PreparedRow RangeColumns)} {raw : RawSignal}
    (h : rangeExpansionBreakoutSignal trRatioMult rows = some raw) :
    AtrLevels atrSlTp rows raw := by
  unfold rangeExpansionBreakoutSignal at h
  split at h
  · cases h
  · obtain ⟨last, hlast, h⟩ := Option.bind_eq_some_iff.1 h
    obtain ⟨prev, -, h⟩ := Option.bind_eq_some_iff.1 h
    obtain ⟨trRatio, -, h⟩ := Option.bind_eq_some_iff.1 h
    obtain ⟨_, -, h⟩ := Option.bind_eq_some_iff.1 h
    obtain ⟨_, -, h⟩ := Option.bind_eq_some_iff.1 h
    obtain ⟨prevHigh, -, h⟩ := Option.bind_eq_some_iff.1 h
    obtain ⟨prevLow, -, h⟩ := Option.bind_eq_some_iff.1 h
    obtain ⟨a, -, h⟩ := Option.bind_eq_some_iff.1 h
    dsimp only at h
    split_ifs at h with hgate
    · have ha : 0 < a := not_le.1 fun hle => hgate (.inl hle)
      exact ⟨last, hlast, a, .long, ha, .inl rfl, (Option.some.inj h).symm⟩
    · have ha : 0 < a := not_le.1 fun hle => hgate (.inl hle)
      exact ⟨last, hlast, a, .short, ha, .inr rfl, (Option.some.inj h).symm⟩

/-- The last candle of a prepared frame is that of the frame. -/
theorem back_of_prepare {γ : Type} {columns : List Candle → List γ} (hc : Causal columns)
    {df : List Candle} {last : PreparedRow γ} (h : last ∈ back (prepare columns df) 0) :
    back df 0 = some last.candle := by
  have hmap : (prepare columns df).map PreparedRow.candle = df := by
    rw [prepare, ← List.map_uncurry_zip_eq_zipWith, List.map_map]
    exact List.map_fst_zip (hc.length df).ge
  rw [← hmap, back_map, h, Option.map_some]

/-- A decision with ATR levels makes a geometric signal. -/
theorem AtrLevels.geometric {γ : Type} {levels : ℚ → ℚ → SignalType → RawSignal}
    (hlevels : ∀ {entry a side name}, 0 < a → IsTrade side →
      Geometric ((levels entry a side).at entry name))
    {columns : List Candle → List γ} (hc : Causal columns) {df : List Candle} {raw : RawSignal}
    (h : AtrLevels levels (prepare columns df) raw) (name : String) :
    ∃ entry, back df 0 = some entry ∧ Geometric (raw.at entry.close name) := by
  obtain ⟨last, hlast, a, side, ha, hside, rfl⟩ := h
  exact ⟨last.candle, back_of_prepare hc hlast, hlevels ha hside⟩

theorem geometric_s05 (df : List Candle) : Geometric (s05.generate df []) := by
  change Geometric (baselineGenerate s05Pair df)
  unfold baselineGenerate
  cases hraw : s05Pair.decide df with
  | none => trivial
  | some raw =>
    have hlevels := trendFollowingSignal_levels hraw
    obtain ⟨last, hlast, a, side, ha, hside, rfl⟩ := hlevels
    rw [back_of_prepare s05Pair_causal hlast]
    exact geometric_defaultSignal ha hside

theorem geometric_ruleBased {name : String} {s : StrategyPair} {df : List Candle}
    (h : ∀ raw, s.decide df = some raw →
      ∃ entry, back df 0 = some entry ∧ Geometric (raw.at entry.close name)) :
    Geometric (ruleBasedGenerate name s df) := by
  unfold ruleBasedGenerate
  cases hraw : s.decide df with
  | none => trivial
  | some raw =>
    obtain ⟨entry, hentry, hgeometric⟩ := h raw hraw
    rw [hentry]
    exact hgeometric

theorem geometric_v3Kama (df : List Candle) : Geometric (v3Kama.generate df []) :=
  geometric_ruleBased fun _ hraw =>
    (kamaTrendSignal_levels hraw).geometric geometric_atrSlTp kamaPair_causal _

theorem geometric_v3Range (df : List Candle) : Geometric (v3Range.generate df []) :=
  geometric_ruleBased fun _ hraw =>
    (rangeExpansionBreakoutSignal_levels hraw).geometric geometric_atrSlTp rangePair_causal _

/-! ## The supertrend's stop -/

/-- A close that is on the right side of the band that a flip out of this direction leaves behind:
of the basic band, and of the carried one unless the close before is beyond it. -/
def ClearOfBand (basic prev : Bands) (prevClose close : ℚ) : Direction → Prop
  | .up => close < basic.upper ∧ (prev.upper < prevClose ∨ close < prev.upper)
  | .down => basic.lower < close ∧ (prevClose < prev.lower ∨ prev.lower < close)

instance (basic prev : Bands) (prevClose close : ℚ) :
    DecidablePred (ClearOfBand basic prev prevClose close)
  | .up => inferInstanceAs (Decidable (_ ∧ _))
  | .down => inferInstanceAs (Decidable (_ ∧ _))

/-- The candle `c` closes clear of the band that its flip after the frame `df` would leave behind.
-/
def ClearOfStop (df : List Candle) (c : Candle) : Prop :=
  ∀ prev ∈ (carried df).bands, ∀ a ∈ lastAtr (df ++ [c]) 10,
    ClearOfBand (basicBands 3 c a) prev (carried df).close c.close (carried df).direction

instance (df : List Candle) (c : Candle) : Decidable (ClearOfStop df c) :=
  inferInstanceAs (Decidable (∀ prev ∈ (carried df).bands, ∀ a ∈ lastAtr (df ++ [c]) 10, _))

/-- The signal that stops a trade at a level is geometric when the level is on the right side. -/
theorem geometric_flipSignal_iff {entry a stop : ℚ} {name : String} (ha : 0 < a) (d : Direction) :
    Geometric ((flipSignal entry a (some stop) (flipSide d)).at entry name) ↔
      match d with
      | .up => entry < stop
      | .down => stop < entry := by
  cases d with
  | up =>
    constructor
    · rintro ⟨_, _, _, ⟨⟩, ⟨⟩, ⟨⟩, hstop, -⟩
      exact hstop
    · intro hstop
      refine ⟨entry, stop, _, rfl, rfl, rfl, hstop, ?_, ?_⟩
      · change entry - 3 / 2 * a < entry
        linarith
      · rintro _ ⟨⟩
        refine ⟨by linarith, ?_⟩
        rintro _ ⟨⟩
        linarith
  | down =>
    constructor
    · rintro ⟨_, _, _, ⟨⟩, ⟨⟩, ⟨⟩, hstop, -⟩
      exact hstop
    · intro hstop
      refine ⟨entry, stop, _, rfl, rfl, rfl, hstop, ?_, ?_⟩
      · change entry < entry + 3 / 2 * a
        linarith
      · rintro _ ⟨⟩
        refine ⟨by linarith, ?_⟩
        rintro _ ⟨⟩
        linarith

variable {df : List Candle} {c : Candle}

/-- The band that is left behind is on the right side of the close when the close is clear of it. -/
theorem clearOfStop_iff {b : Bands} (hb : bandsAt df c = some b) : ClearOfStop df c ↔
    match (carried df).direction with
    | .up => c.close < b.behind .up
    | .down => b.behind .down < c.close := by
  unfold bandsAt at hb
  cases hprev : (carried df).bands with
  | none => simp [hprev] at hb
  | some prev =>
    cases ha : lastAtr (df ++ [c]) 10 with
    | none => simp [hprev, ha] at hb
    | some a =>
      simp only [hprev, ha, Option.some.injEq] at hb
      subst hb
      simp only [ClearOfStop, hprev, ha, Option.mem_some_iff, forall_eq']
      cases (carried df).direction with
      | up => exact lt_nextBands_upper_iff.symm
      | down => exact nextBands_lower_lt_iff.symm

theorem geometric_s06_iff (df : List Candle) (c : Candle) :
    Geometric (s06.generate (df ++ [c]) []) ↔ (Fires df c → ClearOfStop df c) := by
  change Geometric (ruleBasedGenerate _ s06Pair (df ++ [c])) ↔ _
  unfold ruleBasedGenerate
  by_cases hfires : Fires df c
  · obtain ⟨a, b, ha, hb, hdecide⟩ := decide_of_fires hfires
    rw [hdecide, back_concat_zero, forall_prop_of_true hfires, clearOfStop_iff hb]
    refine (geometric_flipSignal_iff ha (carried df).direction).trans ?_
    cases (carried df).direction <;> rfl
  · rw [decide_of_not_fires hfires]
    exact ⟨fun _ h => absurd h hfires, fun _ => trivial⟩

/-- **A production strategy makes a geometric signal of a frame exactly when** it is not S06, or the
last candle of the frame, where it fires, closes clear of the band that the flip leaves behind. -/
theorem geometry_iff {s : StrategyDefinition} (hs : s ∈ productionRegistry)
    (history : List Candle) : Geometric (s.generate history []) ↔
      (s.strategyId = "S06_SUPERTREND_ATR_4H" → ∀ c ∈ history.getLast?,
        Fires history.dropLast c → ClearOfStop history.dropLast c) := by
  have hother : s.strategyId ≠ "S06_SUPERTREND_ATR_4H" → Geometric (s.generate history []) →
      (Geometric (s.generate history []) ↔ (s.strategyId = "S06_SUPERTREND_ATR_4H" →
        ∀ c ∈ history.getLast?, Fires history.dropLast c → ClearOfStop history.dropLast c)) :=
    fun hne h => ⟨fun _ heq => absurd heq hne, fun _ => h⟩
  simp only [productionRegistry, List.mem_cons, List.not_mem_nil, or_false] at hs
  rcases hs with rfl | rfl | rfl | rfl
  · exact hother (by decide) (geometric_s05 history)
  · have hid : s06.strategyId = "S06_SUPERTREND_ATR_4H" := rfl
    rw [forall_prop_of_true hid]
    rcases List.eq_nil_or_concat history with rfl | ⟨df, c, rfl⟩
    · simp
      trivial
    · rw [List.concat_eq_append, geometric_s06_iff]
      simp
  · exact hother (by decide) (geometric_v3Kama history)
  · exact hother (by decide) (geometric_v3Range history)

/-! ## Sample frames -/

/-- A candle of positive prices whose open and close are within its range. -/
def ValidOhlc (c : Candle) : Prop :=
  0 < c.low ∧ c.low ≤ min c.open_ c.close ∧ max c.open_ c.close ≤ c.high

instance : DecidablePred ValidOhlc := fun c =>
  inferInstanceAs (Decidable (0 < c.low ∧ c.low ≤ min c.open_ c.close ∧
    max c.open_ c.close ≤ c.high))

def sampleCandle (open_ high low close : ℚ) : Candle :=
  { timestamp := 0, timeframe := "4h", open_, high, low, close, volume := 1 }

/-- A candle that closes where it opens, with a range of two. -/
def flatCandle (price : ℚ) : Candle := sampleCandle price (price + 1) (price - 1) price

/-- A market that has fallen from 200 to 100, where it rests. -/
def fallen (rest : ℕ) : List Candle :=
  List.replicate 20 (flatCandle 200) ++ List.replicate rest (flatCandle 100)

/-- A close near the high of the candle that breaks out. -/
def breakoutCandle : Candle := sampleCandle 100 120 99 119

/-- A gap to 110 with a wick to 310 that closes where it opened. -/
def wickCandle : Candle := sampleCandle 110 310 110 110

theorem geometric_breakout : Geometric (s06.generate (fallen 45 ++ [breakoutCandle]) []) :=
  (geometry_iff (by simp [productionRegistry]) (fallen 45 ++ [breakoutCandle])).2
    fun _ => by decide +kernel

/-- The wick lifts the lower band above the close, which is beyond the upper one. -/
theorem not_geometric_wick : s06 ∈ productionRegistry ∧
    (∀ c ∈ fallen 45 ++ [wickCandle], ValidOhlc c) ∧
    (s06.generate (fallen 45 ++ [wickCandle]) []).signalType = .long ∧
    ¬Geometric (s06.generate (fallen 45 ++ [wickCandle]) []) := by
  refine ⟨by simp [productionRegistry], by decide +kernel, by decide +kernel, fun h => ?_⟩
  exact absurd ((geometric_s06_iff _ _).1 h) (by decide +kernel)

end AlphaOne.SignalEngine

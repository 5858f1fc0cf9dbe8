import AlphaOne.FeatureEngine.PriceMaps
import AlphaOne.SignalEngine.Geometry
import AlphaOne.SignalEngine.ResearchStrategies

/-!
# Strategies without a bias

A chart may be drawn in another currency, from another zero or upside down. Seven strategies do
not care: S01, S03, S05, S07, S08, V3_KAMA and V3_RANGE decide on the changed chart what they decide
on the chart, with the levels changed alike and, on a chart that is upside down, short for long
(`decisions_follow`). They compare prices with averages and extremes of prices, and moves with ranges
of prices.

The others do not all turn over: S06 starts each supertrend upwards, the RSI of S02 and S04 is
missing where there was no loss but zero where there was no gain, S02 measures a tolerance from zero,
S09 divides by a price, and S12 and V3_HMA have ties that go to one side.
-/

namespace AlphaOne.SignalEngine

open Foundations FeatureEngine

/-! ## Signals on a changed chart -/

section Signals

variable (T : PriceMap)

/-- The side of a trade on a changed chart. -/
def sideOn : SignalType → SignalType
  | .long => if 0 < T.scale then .long else .short
  | .short => if 0 < T.scale then .short else .long
  | side => side

/-- A decision on a changed chart. -/
def signalOn (raw : RawSignal) : RawSignal :=
  { raw with
    signalType := sideOn T raw.signalType
    stopLoss := raw.stopLoss.map T.price
    takeProfit1 := raw.takeProfit1.map T.price
    takeProfit2 := raw.takeProfit2.map T.price
    takeProfit3 := raw.takeProfit3.map T.price }

/-- A row of a prepared frame on a changed chart. -/
def rowOn {γ : Type} (columns : γ → γ) (row : PreparedRow γ) : PreparedRow γ :=
  ⟨T.candle row.candle, columns row.columns⟩

theorem sideOn_long_of_pos (h : 0 < T.scale) : sideOn T .long = .long := if_pos h

theorem sideOn_short_of_pos (h : 0 < T.scale) : sideOn T .short = .short := if_pos h

theorem sideOn_long_of_neg (h : T.scale < 0) : sideOn T .long = .short := if_neg h.not_gt

theorem sideOn_short_of_neg (h : T.scale < 0) : sideOn T .short = .long := if_neg h.not_gt

/-- Levels at multiples of a range from a price. -/
def LevelsFollow (levels : ℚ → ℚ → SignalType → RawSignal) : Prop :=
  ∀ (T : PriceMap) (entry a : ℚ) (side : SignalType), IsTrade side →
    levels (T.price entry) (T.range a) (sideOn T side) = signalOn T (levels entry a side)

theorem levelsFollow_atrSlTp : LevelsFollow atrSlTp := by
  rintro T entry a side (rfl | rfl)
  all_goals
    rcases T.sign with h | h
    · simp only [sideOn, if_pos h, atrSlTp, signalOn, Option.map_some, T.range_of_pos h,
        PriceMap.price, PriceMap.move]
      congr 2 <;> ring
    · simp only [sideOn, if_neg h.not_gt, atrSlTp, signalOn, Option.map_some, T.range_of_neg h,
        PriceMap.price, PriceMap.move]
      congr 2 <;> ring

theorem levelsFollow_defaultSignal : LevelsFollow defaultSignal := by
  rintro T entry a side (rfl | rfl)
  all_goals
    rcases T.sign with h | h
    · simp only [sideOn, if_pos h, defaultSignal, defaultSlTp, signalOn, Option.map_some,
        Option.map_none, T.range_of_pos h, PriceMap.price, PriceMap.move]
      congr 2 <;> ring
    · simp only [sideOn, if_neg h.not_gt, defaultSignal, defaultSlTp, signalOn, Option.map_some,
        Option.map_none, T.range_of_neg h, PriceMap.price, PriceMap.move]
      congr 2 <;> ring

/-! ## Following a decision -/

variable {α α' : Type} {p q p' q' : Prop} [Decidable p] [Decidable q] [Decidable p'] [Decidable q']

/-- The next value that a decision reads, on both charts. -/
theorem bind_follows {x : Option α} {x' : Option α'} {f : α → α'} {k : α → Option RawSignal}
    {k' : α' → Option RawSignal} (hx : x' = x.map f)
    (hk : ∀ a, x = some a → k' (f a) = (k a).map (signalOn T)) :
    x'.bind k' = (x.bind k).map (signalOn T) := by
  subst hx
  cases x with
  | none => rfl
  | some a => exact hk a rfl

theorem bind_same {x : Option α} {k k' : α → Option RawSignal}
    (hk : ∀ a, x = some a → k' a = (k a).map (signalOn T)) :
    x.bind k' = (x.bind k).map (signalOn T) :=
  bind_follows T (f := id) (Option.map_id_apply ..).symm hk

/-- A test that stops a decision on both charts. -/
theorem gate_follows {x x' : Option RawSignal} (hp : p' ↔ p)
    (hx : ¬p → x' = x.map (signalOn T)) :
    (if p' then none else x') = (if p then none else x).map (signalOn T) := by
  by_cases h : p
  · rw [if_pos h, if_pos (hp.2 h)]
    rfl
  · rw [if_neg h, if_neg (hp.not.2 h)]
    exact hx h

variable {long short long' short' : RawSignal}

/-- A choice of a side, on a chart that is not upside down. -/
theorem sides_follow (hp : p' ↔ p) (hq : q' ↔ q) (hlong : long' = signalOn T long)
    (hshort : short' = signalOn T short) :
    (if p' then some long' else if q' then some short' else none) =
      (if p then some long else if q then some short else none).map (signalOn T) := by
  simp only [hp, hq, hlong, hshort]
  split_ifs <;> rfl

/-- A choice of a side on a chart that is upside down: no chart has reasons for both. -/
theorem sides_turn (hp : p' ↔ q) (hq : q' ↔ p) (hlong : long' = signalOn T short)
    (hshort : short' = signalOn T long) (hboth : ¬(p ∧ q)) :
    (if p' then some long' else if q' then some short' else none) =
      (if p then some long else if q then some short else none).map (signalOn T) := by
  simp only [hp, hq, hlong, hshort]
  split_ifs with h₁ h₂
  · exact absurd ⟨h₂, h₁⟩ hboth
  · rfl
  · rfl
  · rfl

/-- Levels that follow the chart, for a choice that does. -/
theorem levels_follow {levels : ℚ → ℚ → SignalType → RawSignal} (h : LevelsFollow levels)
    (entry a : ℚ) (hpos : 0 < T.scale → (p' ↔ p) ∧ (q' ↔ q))
    (hneg : T.scale < 0 → (p' ↔ q) ∧ (q' ↔ p)) (hboth : ¬(p ∧ q)) :
    (if p' then some (levels (T.price entry) (T.range a) .long)
      else if q' then some (levels (T.price entry) (T.range a) .short) else none) =
      (if p then some (levels entry a .long)
        else if q then some (levels entry a .short) else none).map (signalOn T) := by
  have hlong := h T entry a .long (Or.inl rfl)
  have hshort := h T entry a .short (Or.inr rfl)
  rcases T.sign with hT | hT
  · rw [sideOn_long_of_pos T hT] at hlong
    rw [sideOn_short_of_pos T hT] at hshort
    exact sides_follow T (hpos hT).1 (hpos hT).2 hlong hshort
  · rw [sideOn_long_of_neg T hT] at hlong
    rw [sideOn_short_of_neg T hT] at hshort
    exact sides_turn T (hneg hT).1 (hneg hT).2 hshort hlong hboth

/-- The bounds of a channel on both charts. -/
structure Channel (high low high' low' : ℚ) : Prop where
  pos : 0 < T.scale → high' = T.price high ∧ low' = T.price low
  neg : T.scale < 0 → high' = T.price low ∧ low' = T.price high

/-- The channel of a changed chart: upside down, its bounds change places. -/
def upperOn (high low : Option ℚ) : Option ℚ :=
  if 0 < T.scale then high.map T.price else low.map T.price

def lowerOn (high low : Option ℚ) : Option ℚ :=
  if 0 < T.scale then low.map T.price else high.map T.price

/-- The next channel that a decision reads, on both charts. -/
theorem bind_bounds {high low : Option ℚ} {k k' : ℚ → ℚ → Option RawSignal}
    (hk : ∀ h l h' l', high = some h → low = some l → Channel T h l h' l' →
      k' h' l' = (k h l).map (signalOn T)) :
    ((upperOn T high low).bind fun h => (lowerOn T high low).bind fun l => k' h l) =
      (high.bind fun h => low.bind fun l => k h l).map (signalOn T) := by
  unfold upperOn lowerOn
  rcases T.sign with hT | hT
  · simp only [if_pos hT]
    cases high <;> cases low <;> try rfl
    exact hk _ _ _ _ rfl rfl ⟨fun _ => ⟨rfl, rfl⟩, fun hneg => absurd hT hneg.not_gt⟩
  · simp only [if_neg hT.not_gt]
    cases high <;> cases low <;> try rfl
    exact hk _ _ _ _ rfl rfl ⟨fun hpos => absurd hT hpos.not_gt, fun _ => ⟨rfl, rfl⟩⟩

/-- A close beyond a channel. -/
theorem breakout_follows {levels : ℚ → ℚ → SignalType → RawSignal} (h : LevelsFollow levels)
    (entry a : ℚ) {high low high' low' : ℚ} (hchannel : Channel T high low high' low')
    (hle : low ≤ high) :
    (if T.price entry > high' then some (levels (T.price entry) (T.range a) .long)
      else if T.price entry < low' then some (levels (T.price entry) (T.range a) .short)
      else none) =
      (if entry > high then some (levels entry a .long)
        else if entry < low then some (levels entry a .short) else none).map (signalOn T) := by
  refine levels_follow T h entry a (fun hT => ?_) (fun hT => ?_) fun hboth => ?_
  · obtain ⟨rfl, rfl⟩ := hchannel.pos hT
    exact ⟨T.price_lt_price_of_pos hT .., T.price_lt_price_of_pos hT ..⟩
  · obtain ⟨rfl, rfl⟩ := hchannel.neg hT
    exact ⟨T.price_lt_price_of_neg hT .., T.price_lt_price_of_neg hT ..⟩
  · linarith [hboth.1, hboth.2]

end Signals

/-! ## Channels -/

/-- The bounds of a row's channel are in order. -/
def BoundsOrdered (high low : Option ℚ) : Prop := ∀ h ∈ high, ∀ l ∈ low, l ≤ h

theorem minOf_le_maxOf {recent : List Candle} (hne : recent ≠ [])
    (h : ∀ c ∈ recent, c.low ≤ c.high) :
    minOf (recent.map Candle.low) ≤ maxOf (recent.map Candle.high) := by
  obtain ⟨c, rest, rfl⟩ := List.exists_cons_of_ne_nil hne
  have hlow : ∀ (l : List ℚ) (x y : ℚ), y ∈ l → l.foldr min x ≤ y := by
    intro l x y hy
    induction l with
    | nil => cases hy
    | cons z l ih =>
      rcases List.mem_cons.1 hy with rfl | hy
      · exact min_le_left _ _
      · exact (min_le_right _ _).trans (ih hy)
  have hhigh : ∀ (l : List ℚ) (x y : ℚ), y ∈ l → y ≤ l.foldr max x := by
    intro l x y hy
    induction l with
    | nil => cases hy
    | cons z l ih =>
      rcases List.mem_cons.1 hy with rfl | hy
      · exact le_max_left _ _
      · exact (ih hy).trans (le_max_right _ _)
  calc minOf ((c :: rest).map Candle.low) ≤ c.low := hlow _ _ _ (by simp)
    _ ≤ c.high := h c (by simp)
    _ ≤ maxOf ((c :: rest).map Candle.high) := hhigh _ _ _ (by simp)

/-- A column of candles' prices over a window. -/
theorem rolling_prices (w : ℕ) (agg : List ℚ → ℚ) (get : Candle → ℚ) (df : List Candle) :
    rolling w agg (df.map fun c => some (get c)) =
      (windows w df).map fun recent =>
        if recent.length = w then some (agg (recent.map get)) else none := by
  rw [rolling, carries_windows (fun c : Candle => some (get c)) w df, List.map_map]
  refine List.map_congr_left fun recent _ => ?_
  have hall : (recent.map fun c => some (get c)).all Option.isSome = true := by simp
  have hvalues : (recent.map fun c => some (get c)).filterMap id = recent.map get := by
    rw [List.filterMap_map]
    exact congrFun List.filterMap_eq_map' recent
  simp only [Function.comp_apply, List.length_map, hall, and_true, hvalues]

/-- A window has rows of the frame only. -/
theorem subset_of_mem_windows {w : ℕ} {df recent : List Candle} (h : recent ∈ windows w df) :
    recent ⊆ df := by
  have hstates : ∀ (df acc : List Candle),
      recent ∈ states (fun recent x => (x :: recent).take w) acc df → recent ⊆ acc ++ df := by
    intro df
    induction df with
    | nil => intro _ h; cases h
    | cons c df ih =>
      intro acc h
      have hwindow : (c :: acc).take w ⊆ acc ++ c :: df := fun x hx => by
        have hmem := List.mem_of_mem_take hx
        simp only [List.mem_cons, List.mem_append] at hmem ⊢
        tauto
      rcases List.mem_cons.1 h with rfl | h
      · exact hwindow
      · intro x hx
        rcases List.mem_append.1 (ih _ h hx) with hx | hx
        · exact hwindow hx
        · simp [hx]
  simpa using hstates df [] h

/-- The highest high and the lowest low of the same candles are in order. -/
theorem bounds_ordered {w : ℕ} (hw : 0 < w) {df : List Candle} (h : ∀ c ∈ df, c.low ≤ c.high) :
    ∀ bounds ∈ (rolling w maxOf (highs df)).zip (rolling w minOf (lows df)),
      BoundsOrdered bounds.1 bounds.2 := by
  rw [highs, lows, rolling_prices, rolling_prices, List.zip_map', List.forall_mem_map]
  intro recent hrecent high hhigh low hlow
  dsimp only at hhigh hlow
  split_ifs at hhigh hlow with hfull
  · cases hhigh
    cases hlow
    refine minOf_le_maxOf ?_ fun c hc => h c (subset_of_mem_windows hrecent hc)
    rintro rfl
    exact hw.ne hfull
  · cases hhigh

section Rows

variable {β γ δ : Type} {rows : List (PreparedRow γ)} {row : PreparedRow γ}

theorem mem_of_back {α : Type} {xs : List α} {k : ℕ} {x : α} (h : back xs k = some x) : x ∈ xs :=
  List.mem_reverse.1 (List.mem_of_getElem? h)

/-- The columns of a prepared row come from rows of its parts. -/
theorem columns_of_mem {as : List β} {bs : List δ} {op : β → δ → γ} {df : List Candle}
    (h : row ∈ List.zipWith PreparedRow.mk df (List.zipWith op as bs)) :
    ∃ a ∈ as, ∃ b ∈ bs, row.columns = op a b := by
  obtain ⟨i, hi, rfl⟩ := List.mem_iff_getElem.1 h
  have ha : i < as.length := by
    simp only [List.length_zipWith] at hi
    omega
  have hb : i < bs.length := by
    simp only [List.length_zipWith] at hi
    omega
  exact ⟨as[i], List.getElem_mem ha, bs[i], List.getElem_mem hb, by simp⟩

end Rows

/-! ## The columns of a changed chart -/

section Columns

variable (T : PriceMap)

theorem carries_closes : Carries T.candle (Option.map T.price) closes closes :=
  carries_map fun _ => rfl

theorem carries_highs_of_pos (h : 0 < T.scale) :
    Carries T.candle (Option.map T.price) highs highs :=
  carries_map fun c => congrArg some (T.candle_high_of_pos h c)

theorem carries_lows_of_pos (h : 0 < T.scale) :
    Carries T.candle (Option.map T.price) lows lows :=
  carries_map fun c => congrArg some (T.candle_low_of_pos h c)

theorem carries_highs_of_neg (h : T.scale < 0) :
    Carries T.candle (Option.map T.price) lows highs :=
  carries_map fun c => congrArg some (T.candle_high_of_neg h c)

theorem carries_lows_of_neg (h : T.scale < 0) :
    Carries T.candle (Option.map T.price) highs lows :=
  carries_map fun c => congrArg some (T.candle_low_of_neg h c)

theorem price_monotone (h : 0 < T.scale) : Monotone T.price :=
  fun x y hxy => (T.price_le_price_of_pos h x y).2 hxy

theorem price_antitone (h : T.scale < 0) : Antitone T.price :=
  fun x y hxy => (T.price_le_price_of_neg h y x).2 hxy

/-- The channel of a changed chart is the channel, changed. -/
theorem carries_bounds {w : ℕ} (hw : 0 < w) :
    Carries T.candle (fun b : Option ℚ × Option ℚ => (upperOn T b.1 b.2, lowerOn T b.1 b.2))
      (fun df => (rolling w maxOf (highs df)).zip (rolling w minOf (lows df)))
      (fun df => (rolling w maxOf (highs df)).zip (rolling w minOf (lows df))) := by
  rcases T.sign with hT | hT
  · have hmax := (carries_rolling fun l hl => maxOf_map (price_monotone T hT)
      (ne_nil_of_length hw hl)).comp (carries_highs_of_pos T hT)
    have hmin := (carries_rolling fun l hl => minOf_map (price_monotone T hT)
      (ne_nil_of_length hw hl)).comp (carries_lows_of_pos T hT)
    exact hmax.zipWith hmin fun x y => by simp [upperOn, lowerOn, if_pos hT]
  · intro df
    have hmax := (carries_rolling fun l hl => maxOf_map_antitone (price_antitone T hT)
      (ne_nil_of_length hw hl)).comp (carries_highs_of_neg T hT) df
    have hmin := (carries_rolling fun l hl => minOf_map_antitone (price_antitone T hT)
      (ne_nil_of_length hw hl)).comp (carries_lows_of_neg T hT) df
    dsimp only at hmax hmin ⊢
    rw [hmax, hmin, List.zip_map, ← List.zip_swap, List.map_map]
    refine List.map_congr_left fun b _ => ?_
    obtain ⟨high, low⟩ := b
    simp [upperOn, lowerOn, if_neg hT.not_gt]

/-- The mean of a session's prices, weighted with their volumes. -/
theorem vwapSession_eq (df : List Candle) : vwapSession df =
    (states (fun seen c => c :: seen) [] df).map fun seen => seen.head?.bind fun c =>
      let session := seen.filter fun d => d.timestamp.date = c.timestamp.date
      let volume := (session.map Candle.volume).sum
      if volume = 0 then none
      else some ((session.map fun d => (d.high + d.low + d.close) / 3 * d.volume).sum / volume) := by
  rw [vwapSession, safeDiv, sessionSums, sessionSums, List.zipWith_map, List.zipWith_self]
  refine List.map_congr_left fun seen _ => ?_
  cases seen with
  | nil => rfl
  | cons c seen => rfl

theorem sum_typicalPrice (session : List Candle) :
    (session.map fun d => ((T.candle d).high + (T.candle d).low + (T.candle d).close) / 3 *
      (T.candle d).volume).sum =
      T.scale * (session.map fun d => (d.high + d.low + d.close) / 3 * d.volume).sum +
        T.shift * (session.map Candle.volume).sum := by
  have hsum : ∀ d, (T.candle d).high + (T.candle d).low = T.price d.high + T.price d.low := by
    intro d
    rcases T.sign with h | h
    · rw [T.candle_high_of_pos h, T.candle_low_of_pos h]
    · rw [T.candle_high_of_neg h, T.candle_low_of_neg h, add_comm]
  induction session with
  | nil => simp
  | cons d session ih =>
    rw [List.map_cons, List.sum_cons, ih, hsum, T.candle_close, T.candle_volume]
    simp only [List.map_cons, List.sum_cons, PriceMap.price]
    ring

theorem carries_vwapSession : Carries T.candle (Option.map T.price) vwapSession vwapSession := by
  intro df
  have hseen : Carries T.candle (List.map T.candle) (states (fun seen c => c :: seen) [])
      (states (fun seen c => c :: seen) []) := carries_states (fun _ _ => rfl) []
  rw [vwapSession_eq, vwapSession_eq, hseen df, List.map_map, List.map_map]
  refine List.map_congr_left fun seen _ => ?_
  cases seen with
  | nil => rfl
  | cons c seen =>
    have hsession : ((c :: seen).map T.candle).filter
        (fun d => d.timestamp.date = (T.candle c).timestamp.date) =
        ((c :: seen).filter fun d => d.timestamp.date = c.timestamp.date).map T.candle := by
      rw [List.filter_map]
      rfl
    have hvolume : ∀ session : List Candle,
        ((session.map T.candle).map Candle.volume) = session.map Candle.volume := by
      intro session
      rw [List.map_map]
      rfl
    simp only [Function.comp_apply, List.map_cons, List.head?_cons, Option.bind_some]
    rw [← List.map_cons, hsession, hvolume, List.map_map]
    generalize (c :: seen).filter (fun d => d.timestamp.date = c.timestamp.date) = session
    have htypical := sum_typicalPrice T session
    split_ifs with hzero
    · rfl
    · simp only [Option.map_some, PriceMap.price, Option.some.injEq]
      rw [show ((fun d : Candle => (d.high + d.low + d.close) / 3 * d.volume) ∘ T.candle) =
        fun d => ((T.candle d).high + (T.candle d).low + (T.candle d).close) / 3 *
          (T.candle d).volume from rfl, htypical]
      field_simp

end Columns

/-! ## The strategies -/

section Strategies

variable (T : PriceMap)

/-- A strategy whose columns and whose signal function follow the chart. -/
theorem decide_follows {s : StrategyPair} {columns : s.Columns → s.Columns}
    (hcolumns : Carries T.candle columns s.precompute s.precompute) {df : List Candle}
    (hsignal : s.signalFunc ((prepare s.precompute df).map (rowOn T columns)) =
      (s.signalFunc (prepare s.precompute df)).map (signalOn T)) :
    s.decide (df.map T.candle) = (s.decide df).map (signalOn T) := by
  have hrows : Carries T.candle (rowOn T columns) (prepare s.precompute) (prepare s.precompute) :=
    (carries_id T.candle).zipWith hcolumns fun _ _ => rfl
  rw [StrategyPair.decide, hrows df, hsignal, StrategyPair.decide]

/-- A column that does not change. -/
theorem carries_same {F F' : List Candle → Series} (h : ∀ df, F' (df.map T.candle) = F df) :
    Carries T.candle id F F' := fun df => by rw [List.map_id, h]

/-! ### S01 -/

def momentumOn (c : MomentumColumns) : MomentumColumns where
  atr14 := c.atr14.map T.range
  rangeHigh := upperOn T c.rangeHigh c.rangeLow
  rangeLow := lowerOn T c.rangeHigh c.rangeLow
  volSma20 := c.volSma20

theorem carries_momentum : Carries T.candle (momentumOn T) (precomputeMomentumBreakout 20)
    (precomputeMomentumBreakout 20) := by
  have hvolume : Carries T.candle id (fun df : List Candle => sma (df.map fun c => some c.volume) 20)
      (fun df => sma (df.map fun c => some c.volume) 20) :=
    carries_same T fun df => by rw [List.map_map]; rfl
  exact ((carries_atr T (by decide : 0 < 14)).zip hvolume).zipWith (carries_bounds T (by decide))
    fun _ _ => rfl

theorem momentumBreakoutSignal_map (lookback : ℕ) (volumeMult : ℚ) (atrLookback : ℕ)
    (rows : List (PreparedRow MomentumColumns))
    (hordered : ∀ row ∈ rows, BoundsOrdered row.columns.rangeHigh row.columns.rangeLow) :
    momentumBreakoutSignal lookback volumeMult atrLookback (rows.map (rowOn T (momentumOn T))) =
      (momentumBreakoutSignal lookback volumeMult atrLookback rows).map (signalOn T) := by
  unfold momentumBreakoutSignal
  rw [List.length_map]
  refine gate_follows T Iff.rfl fun _ => bind_follows T (back_map ..) fun last _ =>
    bind_follows T (back_map ..) fun prev hprev => bind_bounds T fun high low _ _ hhigh hlow hc =>
    bind_follows T rfl fun a _ => bind_same T fun vol _ => gate_follows T (by simp) fun _ =>
    bind_follows T (back_map ..) fun earlier _ => bind_follows T rfl fun earlierAtr _ =>
    gate_follows T (by simp [rowOn]) fun _ => ?_
  exact breakout_follows T levelsFollow_atrSlTp last.candle.close a hc
    (hordered prev (mem_of_back hprev) high hhigh low hlow)

/-- The rows of a frame of S01 have their channels in order. -/
theorem ordered_momentum {df : List Candle} (h : ∀ c ∈ df, c.low ≤ c.high) :
    ∀ row ∈ prepare (precomputeMomentumBreakout 20) df,
      BoundsOrdered row.columns.rangeHigh row.columns.rangeLow := by
  intro row hrow
  obtain ⟨_, -, bounds, hbounds, hcolumns⟩ := columns_of_mem hrow
  rw [hcolumns]
  exact bounds_ordered (by decide) h bounds hbounds

/-! ### S03 -/

def vwapOn (c : VwapColumns) : VwapColumns where
  vwap := c.vwap.map T.price
  atr14 := c.atr14.map T.range

theorem carries_vwap :
    Carries T.candle (vwapOn T) precomputeVwapReversion precomputeVwapReversion :=
  (carries_vwapSession T).zipWith (carries_atr T (by decide)) fun _ _ => rfl

theorem vwapReversionSignal_map {mult : ℚ} (hmult : 0 < mult)
    (rows : List (PreparedRow VwapColumns)) :
    vwapReversionSignal mult (rows.map (rowOn T (vwapOn T))) =
      (vwapReversionSignal mult rows).map (signalOn T) := by
  unfold vwapReversionSignal
  rw [List.length_map]
  refine gate_follows T Iff.rfl fun _ => bind_follows T (back_map ..) fun last _ =>
    bind_follows T (back_map ..) fun prev _ => bind_follows T rfl fun vwap _ =>
    bind_follows T rfl fun a _ => bind_follows T rfl fun prevVwap _ =>
    gate_follows T (by simp) fun ha => ?_
  have hthreshold : 0 < mult * a := mul_pos hmult (not_le.1 ha)
  have hrange : mult * T.range a = T.range (mult * a) := by
    simp only [PriceMap.range]
    ring
  simp only [rowOn, T.candle_close, T.price_sub_price, hrange]
  rcases T.sign with hT | hT
  · have hneg : -T.range (mult * a) = T.move (-(mult * a)) := by
      rw [T.range_of_pos hT]
      simp [PriceMap.move]
    rw [hneg, T.range_of_pos hT (mult * a)]
    refine sides_follow T ?_ ?_ ?_ ?_
    · exact and_congr (T.move_lt_move_of_pos hT ..) (T.move_lt_move_of_pos hT ..)
    · exact and_congr (T.move_lt_move_of_pos hT ..) (T.move_lt_move_of_pos hT ..)
    all_goals
      simp only [signalOn, sideOn, if_pos hT, Option.map_some, Option.map_none,
        T.range_of_pos hT, PriceMap.price, PriceMap.move]
      congr 2 <;> ring
  · have hpos : T.range (mult * a) = T.move (-(mult * a)) := T.range_of_neg hT _
    have hneg : -T.range (mult * a) = T.move (mult * a) := by
      rw [hpos]
      simp [PriceMap.move]
    rw [hneg, hpos]
    refine sides_turn T ?_ ?_ ?_ ?_ ?_
    · exact and_congr (T.move_lt_move_of_neg hT ..) (T.move_lt_move_of_neg hT ..)
    · exact and_congr (T.move_lt_move_of_neg hT ..) (T.move_lt_move_of_neg hT ..)
    · simp only [signalOn, sideOn, if_neg hT.not_gt, Option.map_some, Option.map_none,
        T.range_of_neg hT, PriceMap.price, PriceMap.move]
      congr 2 <;> ring
    · simp only [signalOn, sideOn, if_neg hT.not_gt, Option.map_some, Option.map_none,
        T.range_of_neg hT, PriceMap.price, PriceMap.move]
      congr 2 <;> ring
    · rintro ⟨⟨hlt, -⟩, hgt, -⟩
      linarith

/-! ### S05 -/

def baselineOn (c : BaselineColumns) : BaselineColumns where
  atr14 := c.atr14.map T.range
  adx14 := c.adx14
  donchianHigh20 := upperOn T c.donchianHigh20 c.donchianLow20
  donchianLow20 := lowerOn T c.donchianHigh20 c.donchianLow20

theorem carries_baseline :
    Carries T.candle (baselineOn T) precomputeIndicators precomputeIndicators :=
  Carries.zipWith (h := Prod.map (Option.map T.range) id)
    ((carries_atr T (by decide)).zipWith (carries_adx T (by decide)) fun _ _ => rfl)
    (carries_bounds T (by decide)) fun _ _ => rfl

theorem trendFollowingSignal_map (breakoutPeriod : ℕ) (adxThreshold : ℚ)
    (rows : List (PreparedRow BaselineColumns))
    (hordered : ∀ row ∈ rows, BoundsOrdered row.columns.donchianHigh20 row.columns.donchianLow20) :
    trendFollowingSignal breakoutPeriod adxThreshold (rows.map (rowOn T (baselineOn T))) =
      (trendFollowingSignal breakoutPeriod adxThreshold rows).map (signalOn T) := by
  unfold trendFollowingSignal
  rw [List.length_map]
  refine gate_follows T Iff.rfl fun _ => bind_follows T (back_map ..) fun last _ =>
    bind_follows T (back_map ..) fun prev hprev => bind_same T fun adx14 _ =>
    bind_follows T rfl fun a _ => gate_follows T (by simp) fun _ =>
    bind_bounds T fun high low _ _ hhigh hlow hc => ?_
  exact breakout_follows T levelsFollow_defaultSignal last.candle.close a hc
    (hordered prev (mem_of_back hprev) high hhigh low hlow)

theorem ordered_baseline {df : List Candle} (h : ∀ c ∈ df, c.low ≤ c.high) :
    ∀ row ∈ prepare precomputeIndicators df,
      BoundsOrdered row.columns.donchianHigh20 row.columns.donchianLow20 := by
  intro row hrow
  obtain ⟨_, -, bounds, hbounds, hcolumns⟩ := columns_of_mem hrow
  rw [hcolumns]
  exact bounds_ordered (by decide) h bounds hbounds

/-! ### S07 -/

def macdOn (c : MacdColumns) : MacdColumns where
  macd := c.macd.map T.move
  macdSignal := c.macdSignal.map T.move
  ema50 := c.ema50.map T.price
  ema200 := c.ema200.map T.price
  atr14 := c.atr14.map T.range

theorem carries_macd :
    Carries T.candle (macdOn T) precomputeMacdMomentum precomputeMacdMomentum := by
  have hema : ∀ {period : ℕ}, 0 < period → Carries T.candle (Option.map T.price)
      (fun df => ema (closes df) period) (fun df => ema (closes df) period) :=
    fun h => (carries_ema_price T h).comp (carries_closes T)
  have hmacd := ((carries_macdLine T).comp (carries_closes T)).zip
    ((carries_macdSignal T).comp (carries_closes T))
  have hslow := (hema (by decide : 0 < 200)).zip (carries_atr T (by decide : 0 < 14))
  have htrend := (hema (by decide : 0 < 50)).zip hslow
  exact hmacd.zipWith htrend fun _ _ => rfl

theorem macdMomentumSignal_map (rows : List (PreparedRow MacdColumns)) :
    macdMomentumSignal (rows.map (rowOn T (macdOn T))) =
      (macdMomentumSignal rows).map (signalOn T) := by
  unfold macdMomentumSignal
  rw [List.length_map]
  refine gate_follows T Iff.rfl fun _ => bind_follows T (back_map ..) fun last _ =>
    bind_follows T (back_map ..) fun prev _ => bind_follows T rfl fun lastMacd _ =>
    bind_follows T rfl fun lastSignal _ => bind_follows T rfl fun ema50 _ =>
    bind_follows T rfl fun ema200 _ => bind_follows T rfl fun a _ =>
    bind_follows T rfl fun prevMacd _ => bind_follows T rfl fun prevSignal _ =>
    bind_follows T rfl fun _ _ => bind_follows T rfl fun _ _ => bind_follows T rfl fun _ _ =>
    gate_follows T (by simp) fun _ => ?_
  refine levels_follow T levelsFollow_atrSlTp last.candle.close a (fun hT => ?_) (fun hT => ?_) ?_
  · simp only [gt_iff_lt, ge_iff_le, ← not_lt (a := T.move _), T.price_lt_price_of_pos hT,
      T.move_lt_move_of_pos hT, not_lt, and_self]
  · simp only [gt_iff_lt, ge_iff_le, ← not_lt (a := T.move _), T.price_lt_price_of_neg hT,
      T.move_lt_move_of_neg hT, not_lt, and_self]
  · rintro ⟨⟨hup, -⟩, hdown, -⟩
    exact hup.not_gt hdown

/-! ### S08 -/

def emaStructureOn (c : EmaStructureColumns) : EmaStructureColumns where
  ema9 := c.ema9.map T.price
  ema20 := c.ema20.map T.price
  ema50 := c.ema50.map T.price
  adx14 := c.adx14
  atr14 := c.atr14.map T.range

theorem carries_emaStructure :
    Carries T.candle (emaStructureOn T) precomputeEmaStructure precomputeEmaStructure := by
  have hema : ∀ {period : ℕ}, 0 < period → Carries T.candle (Option.map T.price)
      (fun df => ema (closes df) period) (fun df => ema (closes df) period) :=
    fun h => (carries_ema_price T h).comp (carries_closes T)
  have hfast := (hema (by decide : 0 < 9)).zip (hema (by decide : 0 < 20))
  have hrange := (carries_adx T (by decide : 0 < 14)).zip (carries_atr T (by decide : 0 < 14))
  have hslow := (hema (by decide : 0 < 50)).zip hrange
  exact hfast.zipWith hslow fun _ _ => rfl

theorem emaStructureAdxSignal_map (adxThreshold : ℚ)
    (rows : List (PreparedRow EmaStructureColumns)) :
    emaStructureAdxSignal adxThreshold (rows.map (rowOn T (emaStructureOn T))) =
      (emaStructureAdxSignal adxThreshold rows).map (signalOn T) := by
  unfold emaStructureAdxSignal
  rw [List.length_map]
  refine gate_follows T Iff.rfl fun _ => bind_follows T (back_map ..) fun last _ =>
    bind_follows T (back_map ..) fun prev _ => bind_follows T rfl fun ema9 _ =>
    bind_follows T rfl fun ema20 _ => bind_follows T rfl fun ema50 _ =>
    bind_same T fun adx14 _ => bind_follows T rfl fun a _ => bind_follows T rfl fun _ _ =>
    bind_follows T rfl fun prevEma20 _ => bind_follows T rfl fun _ _ =>
    bind_same T fun _ _ => bind_follows T rfl fun _ _ => gate_follows T (by simp) fun _ => ?_
  refine levels_follow T levelsFollow_atrSlTp last.candle.close a (fun hT => ?_) (fun hT => ?_) ?_
  · simp only [rowOn, gt_iff_lt, ge_iff_le, T.candle_close, T.candle_low_of_pos hT,
      T.candle_high_of_pos hT, T.price_lt_price_of_pos hT, T.price_le_price_of_pos hT, and_self]
  · simp only [rowOn, gt_iff_lt, ge_iff_le, T.candle_close, T.candle_low_of_neg hT,
      T.candle_high_of_neg hT, T.price_lt_price_of_neg hT, T.price_le_price_of_neg hT, and_self]
  · rintro ⟨⟨⟨hup, -⟩, -⟩, ⟨hdown, -⟩, -⟩
    exact hup.not_gt hdown

/-! ### V3_KAMA -/

def kamaOn (c : KamaColumns) : KamaColumns where
  kama := c.kama.map T.price
  atr14 := c.atr14.map T.range

theorem carries_kamaTrend (period : ℕ) :
    Carries T.candle (kamaOn T) (precomputeKamaTrend period) (precomputeKamaTrend period) :=
  (carries_kama T period 2 30).zipWith (carries_atr T (by decide)) fun _ _ => rfl

theorem kamaTrendSignal_map (flatBars : ℕ) (rows : List (PreparedRow KamaColumns)) :
    kamaTrendSignal flatBars (rows.map (rowOn T (kamaOn T))) =
      (kamaTrendSignal flatBars rows).map (signalOn T) := by
  unfold kamaTrendSignal
  rw [List.length_map]
  refine gate_follows T Iff.rfl fun _ => bind_follows T (back_map ..) fun last _ =>
    bind_follows T (back_map ..) fun prev _ => bind_follows T rfl fun lastKama _ =>
    bind_follows T rfl fun prevKama _ => bind_follows T rfl fun a _ =>
    gate_follows T (by simp) fun _ => bind_follows T (back_map ..) fun flat _ =>
    bind_follows T rfl fun flatKama _ => ?_
  refine levels_follow T levelsFollow_atrSlTp last.candle.close a (fun hT => ?_) (fun hT => ?_) ?_
  · simp only [rowOn, gt_iff_lt, ge_iff_le, T.candle_close, sub_pos, sub_neg,
      T.price_lt_price_of_pos hT, T.price_le_price_of_pos hT, and_self]
  · simp only [rowOn, gt_iff_lt, ge_iff_le, T.candle_close, sub_pos, sub_neg,
      T.price_lt_price_of_neg hT, T.price_le_price_of_neg hT, and_self]
  · rintro ⟨⟨-, -, hup⟩, -, -, hdown⟩
    exact hup.not_gt hdown

/-! ### V3_RANGE -/

def rangeOn (c : RangeColumns) : RangeColumns where
  trRatio := c.trRatio
  rangeHigh := upperOn T c.rangeHigh c.rangeLow
  rangeLow := lowerOn T c.rangeHigh c.rangeLow
  atr14 := c.atr14.map T.range

theorem carries_range :
    Carries T.candle (rangeOn T) (precomputeRangeExpansionBreakout 20)
      (precomputeRangeExpansionBreakout 20) := by
  have hmean : Carries (Option.map T.range) (Option.map T.range) (rolling 20 meanOf)
      (rolling 20 meanOf) := carries_rolling fun l hl => by
    have hne := ne_nil_of_length (by decide) hl
    have hmean := meanOf_map_affine |T.scale| 0 hne
    simp only [add_zero] at hmean
    exact hmean
  have hratio : Carries T.candle id
      (fun df => safeDiv (trueRanges df) (rolling 20 meanOf (trueRanges df)))
      (fun df => safeDiv (trueRanges df) (rolling 20 meanOf (trueRanges df))) := by
    intro df
    have hdiv := carries_safeDiv (j := id) (carries_trueRanges T)
      (hmean.comp (carries_trueRanges T)) T.range_eq_zero_iff
      (fun a b _ => mul_div_mul_left a b T.abs_scale_pos.ne') df
    rwa [Option.map_id] at hdiv
  exact Carries.zipWith (h := Prod.map id (Option.map T.range))
    (hratio.zipWith (carries_atr T (by decide)) fun _ _ => rfl)
    (carries_bounds T (by decide)) fun _ _ => rfl

theorem rangeExpansionBreakoutSignal_map (trRatioMult : ℚ)
    (rows : List (PreparedRow RangeColumns))
    (hordered : ∀ row ∈ rows, BoundsOrdered row.columns.rangeHigh row.columns.rangeLow) :
    rangeExpansionBreakoutSignal trRatioMult (rows.map (rowOn T (rangeOn T))) =
      (rangeExpansionBreakoutSignal trRatioMult rows).map (signalOn T) := by
  unfold rangeExpansionBreakoutSignal
  rw [List.length_map]
  refine gate_follows T Iff.rfl fun _ => bind_follows T (back_map ..) fun last _ =>
    bind_follows T (back_map ..) fun prev hprev => bind_same T fun ratio _ =>
    bind_bounds T fun _ _ _ _ _ _ _ => bind_bounds T fun high low _ _ hhigh hlow hc =>
    bind_follows T rfl fun a _ => gate_follows T (by simp) fun _ => ?_
  exact breakout_follows T levelsFollow_atrSlTp last.candle.close a hc
    (hordered prev (mem_of_back hprev) high hhigh low hlow)

theorem ordered_range {df : List Candle} (h : ∀ c ∈ df, c.low ≤ c.high) :
    ∀ row ∈ prepare (precomputeRangeExpansionBreakout 20) df,
      BoundsOrdered row.columns.rangeHigh row.columns.rangeLow := by
  intro row hrow
  obtain ⟨_, -, bounds, hbounds, hcolumns⟩ := columns_of_mem hrow
  rw [hcolumns]
  exact bounds_ordered (by decide) h bounds hbounds

end Strategies

/-- The strategies that have no bias. -/
def unbiasedPairs : List StrategyPair :=
  [s01Pair, s03Pair, s05Pair, s07Pair, s08Pair, kamaPair, rangePair]

/-- **No bias.** On a chart in another currency, from another zero or upside down, each of these
strategies makes the decision it makes on the chart, with its levels changed like the prices and, if
the chart is upside down, with the other side. -/
theorem decisions_follow (T : PriceMap) (df : List Candle) (hdf : ∀ c ∈ df, c.low ≤ c.high) :
    ∀ s ∈ unbiasedPairs, s.decide (df.map T.candle) = (s.decide df).map (signalOn T) := by
  intro s hs
  simp only [unbiasedPairs, List.mem_cons, List.not_mem_nil, or_false] at hs
  rcases hs with rfl | rfl | rfl | rfl | rfl | rfl | rfl
  · exact decide_follows T (carries_momentum T)
      (momentumBreakoutSignal_map T _ _ _ _ (ordered_momentum hdf))
  · exact decide_follows T (carries_vwap T) (vwapReversionSignal_map T (by norm_num) _)
  · exact decide_follows T (carries_baseline T)
      (trendFollowingSignal_map T _ _ _ (ordered_baseline hdf))
  · exact decide_follows T (carries_macd T) (macdMomentumSignal_map T _)
  · exact decide_follows T (carries_emaStructure T) (emaStructureAdxSignal_map T _ _)
  · exact decide_follows T (carries_kamaTrend T _) (kamaTrendSignal_map T _ _)
  · exact decide_follows T (carries_range T)
      (rangeExpansionBreakoutSignal_map T _ _ (ordered_range hdf))

/-- A chart upside down. -/
def upsideDown : PriceMap := ⟨-1, 0, by norm_num⟩

/-- V3_RANGE buys the breakout, and sells it upside down. -/
theorem decisions_follow_breakout :
    (rangePair.decide (fallen 45 ++ [breakoutCandle])).map RawSignal.signalType = some .long ∧
      (rangePair.decide ((fallen 45 ++ [breakoutCandle]).map upsideDown.candle)).map
        RawSignal.signalType = some .short := by
  rw [decisions_follow upsideDown (fallen 45 ++ [breakoutCandle]) (by decide +kernel) rangePair
    (by simp [unbiasedPairs])]
  decide +kernel

end AlphaOne.SignalEngine

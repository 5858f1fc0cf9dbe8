import AlphaOne.Foundations.Neighbours
import AlphaOne.LiveExecution.Sizing
import Mathlib.Tactic.FieldSimp
import Mathlib.Tactic.Ring

/-!
# The quantities that precision sizing finds

`calculate_precision_sized_quantity` of `services/live_execution/sizing.py` tries the two multiples
of the quantity increment next to the exact quantity. Among all multiples that the instrument
admits these two are the best ones, if it admits one of them; if it admits neither, a multiple
farther away may still be within the tolerance, and is not found. The deviations are compared with
four decimals.
-/

namespace AlphaOne.Live

open Foundations

section Sizing

variable (i : InstrumentMetadata) (entry rate marginInr : ℚ) (leverage : ℤ)

/-- The quantity of exactly the margin asked for. -/
def rawQuantity : ℚ := marginInr / rate * leverage / entry

/-- By how many percent the margin of a quantity differs from the one asked for. -/
def deviationPct (q : ℚ) : ℚ := |q * entry / leverage * rate - marginInr| / marginInr * 100

/-- The steps from zero to a neighbour of the exact quantity. -/
def neighbourSteps : RoundingDirection → ℤ
  | .down => ⌊rawQuantity entry rate marginInr leverage / i.quantityIncrement⌋
  | .up => ⌈rawQuantity entry rate marginInr leverage / i.quantityIncrement⌉

/-- The multiple of the increment next to the exact quantity. -/
def neighbour (direction : RoundingDirection) : ℚ :=
  neighbourSteps i entry rate marginInr leverage direction * i.quantityIncrement

/-- The instrument admits a quantity at a price. -/
structure Admits (q : ℚ) : Prop where
  pos : 0 < q
  min_le : i.minQuantity ≤ q
  le_max : q ≤ i.maxQuantity
  notional_le : i.minNotional ≤ q * entry

/-- A multiple of the increment that the instrument admits and whose margin is within the
tolerance. -/
structure Tradeable (q : ℚ) : Prop where
  multiple : ∃ k : ℕ, 0 < k ∧ q = k * i.quantityIncrement
  admits : Admits i entry q
  within : deviationPct entry rate marginInr leverage q ≤ maxMarginDeviationPct

/-- The sizing approves if and only if a quantity is tradeable, and then one of the least
deviation. -/
def FindsTradeable : Prop :=
  let sized := calculatePrecisionSizedQuantity (some entry) (some rate) (some i) marginInr leverage
  ((∃ best, sized = .ok best) ↔ ∃ q, Tradeable i entry rate marginInr leverage q) ∧
    ∀ best, sized = .ok best → Tradeable i entry rate marginInr leverage best.quantity ∧
      ∀ q, Tradeable i entry rate marginInr leverage q →
        deviationPct entry rate marginInr leverage best.quantity ≤
          deviationPct entry rate marginInr leverage q

/-- What the sizing is asked for: amounts that are positive, and an active instrument with a step of
at most ten decimals that allows the leverage. -/
structure Sizeable : Prop where
  entry_pos : 0 < entry
  rate_pos : 0 < rate
  margin_pos : 0 < marginInr
  active : i.status = "active" ∧ i.exitOnly = false
  leverage_le : leverage ≤ i.maxLeverageLong ∧ leverage ≤ i.maxLeverageShort
  increment_pos : 0 < i.quantityIncrement
  decimals : ∃ n : ℤ, i.quantityIncrement * 10 ^ 10 = n

end Sizing

variable {i : InstrumentMetadata} {entry rate marginInr : ℚ} {leverage : ℤ}

/-! ## The candidates -/

/-- A multiple of the increment is not rounded. -/
theorem roundToIncrement_eq (h : Sizeable i entry rate marginInr leverage)
    (direction : RoundingDirection) :
    roundToIncrement (rawQuantity entry rate marginInr leverage) i.quantityIncrement direction =
      neighbour i entry rate marginInr leverage direction := by
  obtain ⟨n, hn⟩ := h.decimals
  have hdecimals : ∀ m : ℤ, roundTo (m * i.quantityIncrement) 10 = m * i.quantityIncrement := by
    intro m
    refine roundTo_of_decimals (n := m * n) ?_
    rw [mul_assoc, hn]
    push_cast
    rfl
  unfold roundToIncrement
  rw [if_neg (not_le.2 h.increment_pos)]
  cases direction with
  | down => exact hdecimals _
  | up => exact hdecimals _

/-- A candidate is an admitted neighbour with its deviation to four decimals. -/
theorem sizingCandidate_eq_some (h : Sizeable i entry rate marginInr leverage)
    {direction : RoundingDirection} {c : SizedQuantity} :
    sizingCandidate i (rawQuantity entry rate marginInr leverage) entry rate marginInr leverage
        direction = some c →
      c.quantity = neighbour i entry rate marginInr leverage direction ∧
        Admits i entry c.quantity ∧
        c.marginDeviationPct =
          roundTo (deviationPct entry rate marginInr leverage c.quantity) 4 := by
  intro hc
  unfold sizingCandidate at hc
  rw [roundToIncrement_eq h] at hc
  dsimp only at hc
  split at hc
  · cases hc
  · next hadmits =>
    push Not at hadmits
    obtain ⟨hmin, hpos, hmax, hnotional⟩ := hadmits
    obtain rfl := Option.some.inj hc
    exact ⟨rfl, ⟨hpos, hmin, hmax, hnotional⟩, rfl⟩

/-- An admitted neighbour is a candidate. -/
theorem exists_sizingCandidate (h : Sizeable i entry rate marginInr leverage)
    {direction : RoundingDirection}
    (hadmits : Admits i entry (neighbour i entry rate marginInr leverage direction)) :
    ∃ c, sizingCandidate i (rawQuantity entry rate marginInr leverage) entry rate marginInr leverage
        direction = some c ∧
      c.quantity = neighbour i entry rate marginInr leverage direction := by
  unfold sizingCandidate
  rw [roundToIncrement_eq h]
  dsimp only
  rw [if_neg]
  · exact ⟨_, rfl, rfl⟩
  · push Not
    exact ⟨hadmits.min_le, hadmits.pos, hadmits.le_max, hadmits.notional_le⟩

/-- The sizing takes the closest candidate that is within the tolerance. -/
theorem calculatePrecisionSizedQuantity_ok_iff (h : Sizeable i entry rate marginInr leverage)
    {best : SizedQuantity} :
    calculatePrecisionSizedQuantity (some entry) (some rate) (some i) marginInr leverage =
        .ok best ↔
      closest ([RoundingDirection.down, .up].filterMap
        (sizingCandidate i (rawQuantity entry rate marginInr leverage) entry rate marginInr
          leverage)) = some best ∧ best.marginDeviationPct ≤ maxMarginDeviationPct := by
  have hactive : ¬(i.status ≠ "active" ∨ i.exitOnly) := by simp [h.active.1, h.active.2]
  have hleverage : ¬(leverage > i.maxLeverageLong ∨ leverage > i.maxLeverageShort) := by
    simp [h.leverage_le.1, h.leverage_le.2]
  unfold calculatePrecisionSizedQuantity
  dsimp only
  rw [if_neg (not_le.2 h.rate_pos), if_neg (not_le.2 h.entry_pos), if_neg hactive,
    if_neg hleverage, ← rawQuantity]
  split
  · next hnone => simp [hnone]
  · next c hsome =>
    rw [hsome]
    split
    · next hlt =>
      refine iff_of_false nofun ?_
      rintro ⟨heq, hle⟩
      obtain rfl := Option.some.inj heq
      exact not_lt.2 hle hlt
    · next hle =>
      constructor
      · intro heq
        obtain rfl := Except.ok.inj heq
        exact ⟨rfl, not_lt.1 hle⟩
      · rintro ⟨heq, -⟩
        rw [Option.some.inj heq]

/-! ## The deviation -/

/-- A positive neighbour needs a positive leverage. -/
theorem leverage_pos (h : Sizeable i entry rate marginInr leverage) {direction : RoundingDirection}
    (hpos : 0 < neighbour i entry rate marginInr leverage direction) : 0 < leverage := by
  by_contra hle
  have hraw : rawQuantity entry rate marginInr leverage / i.quantityIncrement ≤ 0 := by
    refine div_nonpos_of_nonpos_of_nonneg ?_ h.increment_pos.le
    refine div_nonpos_of_nonpos_of_nonneg ?_ h.entry_pos.le
    refine mul_nonpos_of_nonneg_of_nonpos (div_pos h.margin_pos h.rate_pos).le ?_
    exact_mod_cast not_lt.1 hle
  have hsteps : neighbourSteps i entry rate marginInr leverage direction ≤ 0 := by
    cases direction with
    | down => exact Int.floor_nonpos hraw
    | up => exact Int.ceil_nonpos.2 hraw
  have hle : neighbour i entry rate marginInr leverage direction ≤ 0 :=
    mul_nonpos_of_nonpos_of_nonneg (by exact_mod_cast hsteps) h.increment_pos.le
  exact absurd hpos (not_lt.2 hle)

/-- The deviation is that of the quantity from the exact one. -/
theorem deviationPct_eq (h : Sizeable i entry rate marginInr leverage) (hleverage : 0 < leverage)
    (q : ℚ) :
    deviationPct entry rate marginInr leverage q =
      |q - rawQuantity entry rate marginInr leverage| *
        (entry * rate / leverage / marginInr * 100) :=
  by
  have hentry := h.entry_pos
  have hrate := h.rate_pos
  have hmargin := h.margin_pos
  have hlev : (0 : ℚ) < leverage := by exact_mod_cast hleverage
  have hscale : 0 < entry * rate / leverage := by positivity
  have hdiff : q * entry / leverage * rate - marginInr =
      (q - rawQuantity entry rate marginInr leverage) * (entry * rate / leverage) := by
    unfold rawQuantity
    field_simp
  rw [deviationPct, hdiff, abs_mul, abs_of_pos hscale]
  ring

/-- The farther from the exact quantity, the more deviation. -/
theorem deviationPct_le (h : Sizeable i entry rate marginInr leverage) (hleverage : 0 < leverage)
    {q q' : ℚ} (hle : |q - rawQuantity entry rate marginInr leverage| ≤
      |q' - rawQuantity entry rate marginInr leverage|) :
    deviationPct entry rate marginInr leverage q ≤
      deviationPct entry rate marginInr leverage q' := by
  have hentry := h.entry_pos
  have hrate := h.rate_pos
  have hmargin := h.margin_pos
  have hlev : (0 : ℚ) < leverage := by exact_mod_cast hleverage
  rw [deviationPct_eq h hleverage, deviationPct_eq h hleverage]
  exact mul_le_mul_of_nonneg_right hle (by positivity)

/-- The multiples the instrument admits have no gap. -/
theorem ordConnected_admits (h : Sizeable i entry rate marginInr leverage) :
    {k : ℤ | Admits i entry (k * i.quantityIncrement)}.OrdConnected := by
  refine ⟨fun a ha c hc b ⟨hab, hbc⟩ => ?_⟩
  have hlow : a * i.quantityIncrement ≤ b * i.quantityIncrement :=
    mul_le_mul_of_nonneg_right (by exact_mod_cast hab) h.increment_pos.le
  have hhigh : b * i.quantityIncrement ≤ c * i.quantityIncrement :=
    mul_le_mul_of_nonneg_right (by exact_mod_cast hbc) h.increment_pos.le
  have hnotional := mul_le_mul_of_nonneg_right hlow h.entry_pos.le
  exact ⟨ha.pos.trans_le hlow, ha.min_le.trans hlow, hhigh.trans hc.le_max,
    ha.notional_le.trans hnotional⟩

/-- The deviations of two multiples compare as their distances from the exact number of steps. -/
theorem deviationPct_steps_le (h : Sizeable i entry rate marginInr leverage)
    (hleverage : 0 < leverage) {steps : ℚ}
    (hsteps : steps = rawQuantity entry rate marginInr leverage / i.quantityIncrement) {j j' : ℤ}
    (hle : |(j : ℚ) - steps| ≤ |(j' : ℚ) - steps|) :
    deviationPct entry rate marginInr leverage (j * i.quantityIncrement) ≤
      deviationPct entry rate marginInr leverage (j' * i.quantityIncrement) := by
  have hinc := h.increment_pos
  have hdistance : ∀ m : ℤ, |m * i.quantityIncrement -
      rawQuantity entry rate marginInr leverage| = |(m : ℚ) - steps| * i.quantityIncrement := by
    intro m
    rw [← div_mul_cancel₀ (rawQuantity entry rate marginInr leverage) hinc.ne', ← hsteps,
      ← sub_mul, abs_mul, abs_of_pos hinc]
  refine deviationPct_le h hleverage ?_
  rw [hdistance, hdistance]
  exact mul_le_mul_of_nonneg_right hle hinc.le

/-- **An admitted neighbour deviates least** of all multiples that the instrument admits, when it
admits one of the neighbours. -/
theorem exists_neighbour_deviationPct_le (h : Sizeable i entry rate marginInr leverage)
    {direction : RoundingDirection}
    (hnear : Admits i entry (neighbour i entry rate marginInr leverage direction)) {k : ℤ}
    (hk : Admits i entry (k * i.quantityIncrement)) :
    ∃ best, Admits i entry (neighbour i entry rate marginInr leverage best) ∧
      deviationPct entry rate marginInr leverage (neighbour i entry rate marginInr leverage best) ≤
        deviationPct entry rate marginInr leverage (k * i.quantityIncrement) := by
  have hleverage := leverage_pos h hnear.pos
  obtain ⟨steps, hsteps⟩ : ∃ steps,
      steps = rawQuantity entry rate marginInr leverage / i.quantityIncrement := ⟨_, rfl⟩
  let cost (j : ℤ) : ℚ := deviationPct entry rate marginInr leverage (j * i.quantityIncrement)
  have hfloor := Int.floor_le steps
  have hceil := Int.le_ceil steps
  have hfalls : ∀ j ≤ ⌊steps⌋, cost ⌊steps⌋ ≤ cost j := by
    intro j hj
    have hj' : (j : ℚ) ≤ ⌊steps⌋ := by exact_mod_cast hj
    refine deviationPct_steps_le h hleverage hsteps ?_
    rw [abs_of_nonpos (by linarith), abs_of_nonpos (by linarith)]
    linarith
  have hrises : ∀ j, ⌈steps⌉ ≤ j → cost ⌈steps⌉ ≤ cost j := by
    intro j hj
    have hj' : (⌈steps⌉ : ℚ) ≤ j := by exact_mod_cast hj
    refine deviationPct_steps_le h hleverage hsteps ?_
    rw [abs_of_nonneg (by linarith), abs_of_nonneg (by linarith)]
    linarith
  have hallowed : Admits i entry (⌊steps⌋ * i.quantityIncrement) ∨
      Admits i entry (⌈steps⌉ * i.quantityIncrement) := by
    rw [hsteps]
    cases direction with
    | down => exact .inl hnear
    | up => exact .inr hnear
  have hbest := exists_neighbour_le (ordConnected_admits h) (Int.floor_le_ceil steps)
    (Int.ceil_le_floor_add_one steps) hfalls hrises hallowed hk
  rw [hsteps] at hbest
  rcases hbest with ⟨hadmits, hle⟩ | ⟨hadmits, hle⟩
  · exact ⟨.down, hadmits, hle⟩
  · exact ⟨.up, hadmits, hle⟩

/-! ## What is found -/

/-- An admitted neighbour within the tolerance is enough for an approval. -/
theorem approves_of_neighbour (h : Sizeable i entry rate marginInr leverage)
    {direction : RoundingDirection}
    (hadmits : Admits i entry (neighbour i entry rate marginInr leverage direction))
    (hwithin : deviationPct entry rate marginInr leverage
      (neighbour i entry rate marginInr leverage direction) ≤ maxMarginDeviationPct) :
    ∃ best, calculatePrecisionSizedQuantity (some entry) (some rate) (some i) marginInr leverage =
      .ok best := by
  obtain ⟨c, hc, hquantity⟩ := exists_sizingCandidate h hadmits
  have hmem : c ∈ [RoundingDirection.down, .up].filterMap
      (sizingCandidate i (rawQuantity entry rate marginInr leverage) entry rate marginInr
        leverage) :=
    List.mem_filterMap.2 ⟨direction, by cases direction <;> simp, hc⟩
  obtain ⟨best, hbest⟩ := exists_closest (List.ne_nil_of_mem hmem)
  refine ⟨best,
    (calculatePrecisionSizedQuantity_ok_iff h).2 ⟨hbest, (closest_le hbest hmem).trans ?_⟩⟩
  rw [(sizingCandidate_eq_some h hc).2.2, hquantity]
  have hround := roundTo_mono hwithin 4
  have hten : roundTo maxMarginDeviationPct 4 = maxMarginDeviationPct :=
    roundTo_of_decimals (n := 100000) (by norm_num [maxMarginDeviationPct])
  exact hround.trans_eq hten

/-- What is approved is an admitted neighbour, and as good as any multiple to four decimals. -/
theorem approved_neighbour (h : Sizeable i entry rate marginInr leverage) {best : SizedQuantity}
    (hbest : calculatePrecisionSizedQuantity (some entry) (some rate) (some i) marginInr leverage =
      .ok best) :
    (∃ direction, best.quantity = neighbour i entry rate marginInr leverage direction) ∧
      Admits i entry best.quantity ∧
      deviationPct entry rate marginInr leverage best.quantity ≤ maxMarginDeviationPct + 1 / 20000 ∧
      ∀ k : ℤ, Admits i entry (k * i.quantityIncrement) →
        deviationPct entry rate marginInr leverage best.quantity ≤
          deviationPct entry rate marginInr leverage (k * i.quantityIncrement) + 1 / 10000 := by
  obtain ⟨hclosest, hwithin⟩ := (calculatePrecisionSizedQuantity_ok_iff h).1 hbest
  obtain ⟨direction, -, hc⟩ := List.mem_filterMap.1 (mem_of_closest hclosest)
  obtain ⟨hquantity, hadmits, hdeviation⟩ := sizingCandidate_eq_some h hc
  have hround := abs_le.1 (abs_roundTo_sub_le
    (deviationPct entry rate marginInr leverage best.quantity) 4)
  rw [← hdeviation] at hround
  refine ⟨⟨direction, hquantity⟩, hadmits, by linarith, fun k hk => ?_⟩
  obtain ⟨other, hother, hle⟩ := exists_neighbour_deviationPct_le h (hquantity ▸ hadmits) hk
  obtain ⟨c, hcand, hcq⟩ := exists_sizingCandidate h hother
  have hmem : c ∈ [RoundingDirection.down, .up].filterMap
      (sizingCandidate i (rawQuantity entry rate marginInr leverage) entry rate marginInr
        leverage) :=
    List.mem_filterMap.2 ⟨other, by cases other <;> simp, hcand⟩
  have hcloser := closest_le hclosest hmem
  rw [(sizingCandidate_eq_some h hcand).2.2, hcq] at hcloser
  have hround' := abs_le.1 (abs_roundTo_sub_le (deviationPct entry rate marginInr leverage
    (neighbour i entry rate marginInr leverage other)) 4)
  linarith

/-- A positive multiple of the increment has a positive number of steps. -/
theorem Admits.multiple (h : Sizeable i entry rate marginInr leverage)
    {direction : RoundingDirection} {q : ℚ} (hq : Admits i entry q)
    (heq : q = neighbour i entry rate marginInr leverage direction) :
    ∃ k : ℕ, 0 < k ∧ q = k * i.quantityIncrement := by
  have hpos : (0 : ℚ) < neighbourSteps i entry rate marginInr leverage direction := by
    have := hq.pos
    rw [heq, neighbour] at this
    exact (mul_pos_iff_of_pos_right h.increment_pos).1 this
  have hsteps : 0 < neighbourSteps i entry rate marginInr leverage direction := by
    exact_mod_cast hpos
  refine ⟨(neighbourSteps i entry rate marginInr leverage direction).toNat, by omega, ?_⟩
  rw [heq, neighbour]
  congr 1
  exact_mod_cast (Int.toNat_of_nonneg hsteps.le).symm

/-- **Precision sizing finds the better neighbour.** It approves when a neighbour of the exact
quantity is tradeable; and what it approves is a neighbour that the instrument admits, within the
tolerance and no worse than any multiple it admits, up to the four decimals that are compared. -/
theorem finds_neighbour (i : InstrumentMetadata) (entry rate marginInr : ℚ) (leverage : ℤ)
    (h : Sizeable i entry rate marginInr leverage) :
    let sized :=
      calculatePrecisionSizedQuantity (some entry) (some rate) (some i) marginInr leverage
    ((∃ direction, Tradeable i entry rate marginInr leverage
      (neighbour i entry rate marginInr leverage direction)) → ∃ best, sized = .ok best) ∧
    ∀ best, sized = .ok best →
      (∃ direction, best.quantity = neighbour i entry rate marginInr leverage direction) ∧
      (∃ k : ℕ, 0 < k ∧ best.quantity = k * i.quantityIncrement) ∧
      Admits i entry best.quantity ∧
      deviationPct entry rate marginInr leverage best.quantity ≤ maxMarginDeviationPct + 1 / 20000 ∧
      ∀ k : ℤ, Admits i entry (k * i.quantityIncrement) →
        deviationPct entry rate marginInr leverage best.quantity ≤
          deviationPct entry rate marginInr leverage (k * i.quantityIncrement) + 1 / 10000 := by
  intro sized
  refine ⟨?_, fun best hbest => ?_⟩
  · rintro ⟨direction, htradeable⟩
    exact approves_of_neighbour h htradeable.admits htradeable.within
  · obtain ⟨⟨direction, hquantity⟩, hadmits, hwithin, hleast⟩ := approved_neighbour h hbest
    exact ⟨⟨direction, hquantity⟩, hadmits.multiple h hquantity, hadmits, hwithin, hleast⟩

/-- ₹200 at ten times leverage on a price of 100 and a rate of 80, with a step of 0.01. -/
theorem finds_neighbour_of_fine_step :
    let i : InstrumentMetadata :=
      { pair := "B-X_USDT", status := "active", maxLeverageLong := 20, maxLeverageShort := 20
        quantityIncrement := 1 / 100, minQuantity := 1 / 100, maxQuantity := 100, minNotional := 5
        exitOnly := false }
    let sized := calculatePrecisionSizedQuantity (some 100) (some 80) (some i) 200 10
    Sizeable i 100 80 200 10 ∧
    ((∃ direction, Tradeable i 100 80 200 10 (neighbour i 100 80 200 10 direction)) →
      ∃ best, sized = .ok best) ∧
    ∀ best, sized = .ok best →
      (∃ direction, best.quantity = neighbour i 100 80 200 10 direction) ∧
      (∃ k : ℕ, 0 < k ∧ best.quantity = k * i.quantityIncrement) ∧
      Admits i 100 best.quantity ∧
      deviationPct 100 80 200 10 best.quantity ≤ maxMarginDeviationPct + 1 / 20000 ∧
      ∀ k : ℤ, Admits i 100 (k * i.quantityIncrement) →
        deviationPct 100 80 200 10 best.quantity ≤
          deviationPct 100 80 200 10 (k * i.quantityIncrement) + 1 / 10000 := by
  intro i sized
  have h : Sizeable i 100 80 200 10 := by
    refine ⟨by norm_num, by norm_num, by norm_num, ⟨rfl, rfl⟩, by decide +kernel,
      by decide +kernel, 100000000, ?_⟩
    norm_num [i]
  exact ⟨h, finds_neighbour i 100 80 200 10 h⟩

/-- **A tradeable quantity is not found, and one that is not tradeable is approved.** The exact
quantity 0.25 has a notional of 25, below the minimum of 26; 0.26 would have a margin of ₹208, and
is not tried. With a step of 1.1000003 around an exact quantity of 1 the only candidate deviates by
10.00003 percent, which is 10 to four decimals. -/
theorem sizing_misses_farther_multiple :
    let i : InstrumentMetadata :=
      { pair := "B-X_USDT", status := "active", maxLeverageLong := 20, maxLeverageShort := 20
        quantityIncrement := 1 / 100, minQuantity := 1 / 100, maxQuantity := 100, minNotional := 26
        exitOnly := false }
    let j : InstrumentMetadata :=
      { i with quantityIncrement := 11000003 / 10000000, minNotional := 1 }
    (Tradeable i 100 80 200 10 (26 / 100) ∧ ¬FindsTradeable i 100 80 200 10) ∧
      ((∃ best, calculatePrecisionSizedQuantity (some 1) (some 1) (some j) 1 1 = .ok best) ∧
        ¬FindsTradeable j 1 1 1 1) := by
  intro i j
  have htradeable : Tradeable i 100 80 200 10 (26 / 100) := by
    refine ⟨⟨26, by decide, by norm_num [i]⟩, ⟨by norm_num, ?_, ?_, ?_⟩, ?_⟩
    · norm_num [i]
    · norm_num [i]
    · norm_num [i]
    · norm_num [deviationPct, maxMarginDeviationPct]
  have hrefused : (calculatePrecisionSizedQuantity (some 100) (some 80) (some i) 200 10).toOption =
      none := by decide +kernel
  have happroved : (calculatePrecisionSizedQuantity (some 1) (some 1) (some j) 1 1).toOption.map
      SizedQuantity.quantity = some (11000003 / 10000000) := by decide +kernel
  obtain ⟨best, hbest, hquantity⟩ := Option.map_eq_some_iff.1 happroved
  have hok : calculatePrecisionSizedQuantity (some 1) (some 1) (some j) 1 1 = .ok best := by
    cases hsized : calculatePrecisionSizedQuantity (some 1) (some 1) (some j) 1 1 with
    | error e =>
      rw [hsized] at hbest
      cases hbest
    | ok b =>
      rw [hsized] at hbest
      rw [Option.some.inj hbest]
  refine ⟨⟨htradeable, fun h => ?_⟩, ⟨best, hok⟩, fun h => ?_⟩
  · obtain ⟨b, hb⟩ := h.1.2 ⟨_, htradeable⟩
    rw [hb] at hrefused
    cases hrefused
  · have hwithin := (h.2 best hok).1.within
    rw [hquantity] at hwithin
    norm_num [deviationPct, maxMarginDeviationPct, abs_of_pos] at hwithin

end AlphaOne.Live

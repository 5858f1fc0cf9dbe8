import AlphaOne.Risk.FixedMargin
import Mathlib.Data.Rat.Floor

/-!
# Precision sizing

`services/live_execution/sizing.py`: the quantity of a fixed-margin position, rounded to the step of
an instrument. The two neighbours of the exact quantity are tried, and the one whose margin lands
closer to ₹200 is taken, unless it misses it by more than ten percent.
-/

namespace AlphaOne.Live

open Foundations Risk

/-- `MAX_MARGIN_DEVIATION_PCT`. -/
def maxMarginDeviationPct : ℚ := 10

/-- The fields of `InstrumentMetadata` that the sizing reads. -/
structure InstrumentMetadata where
  pair : String
  status : String
  maxLeverageLong : ℚ
  maxLeverageShort : ℚ
  quantityIncrement : ℚ
  minQuantity : ℚ
  maxQuantity : ℚ
  minNotional : ℚ
  exitOnly : Bool
  deriving DecidableEq, Repr

/-- A quantity that can be traded, with what it comes to. -/
structure SizedQuantity where
  quantity : ℚ
  realizedNotionalUsdt : ℚ
  realizedMarginUsdt : ℚ
  realizedMarginInr : ℚ
  marginDeviationPct : ℚ
  deriving DecidableEq, Repr

/-- Why no quantity is approved, with the values its reason is formatted from. -/
inductive SizingRefusal
  /-- `No CoinDCX instrument metadata available -- cannot round to a real quantity precision.` -/
  | noInstrument
  /-- `No live USDT/INR conversion rate available.` -/
  | noRate
  /-- `Invalid entry price.` -/
  | invalidEntryPrice
  /-- `Instrument {pair} is not active for new entries (status={status}, exit_only={exit_only}).` -/
  | notActive (pair status : String) (exitOnly : Bool)
  /-- `{pair} max leverage is {max_leverage:.0f}x -- {leverage}x is not supported.` -/
  | leverageUnsupported (pair : String) (maxLeverage : ℚ) (leverage : ℤ)
  /-- `{pair}: no tradeable quantity (step={step}, …) can represent Rs.{margin_inr:.0f} margin …` -/
  | noQuantity (pair : String) (step minQuantity minNotional marginInr : ℚ) (leverage : ℤ)
      (targetNotionalUsdt : ℚ)
  /-- `{pair}: closest achievable margin … is Rs.{realized_margin_inr:.2f} ({deviation:.1f}% away
  …`, with the sizing it refuses. -/
  | deviates (pair : String) (best : SizedQuantity)
  deriving DecidableEq, Repr

inductive RoundingDirection
  | down
  | up
  deriving DecidableEq, Repr

/-- `_round_to_increment`. -/
def roundToIncrement (value increment : ℚ) (direction : RoundingDirection) : ℚ :=
  if increment ≤ 0 then value
  else
    let steps := value / increment
    let steps : ℤ := match direction with
      | .down => ⌊steps⌋
      | .up => ⌈steps⌉
    roundTo (steps * increment) 10

/-- The candidate in one direction, when the instrument admits it. -/
def sizingCandidate (instrument : InstrumentMetadata) (rawQuantity entryPriceUsdt usdtInrRate
    marginInr : ℚ) (leverage : ℤ) (direction : RoundingDirection) : Option SizedQuantity :=
  let qty := roundToIncrement rawQuantity instrument.quantityIncrement direction
  let notional := qty * entryPriceUsdt
  if qty < instrument.minQuantity ∨ qty ≤ 0 ∨ qty > instrument.maxQuantity ∨
      notional < instrument.minNotional then none
  else
    let realizedMarginUsdt := notional / leverage
    let realizedMarginInr := realizedMarginUsdt * usdtInrRate
    some
      { quantity := qty
        realizedNotionalUsdt := roundTo notional 8
        realizedMarginUsdt := roundTo realizedMarginUsdt 8
        realizedMarginInr := roundTo realizedMarginInr 4
        marginDeviationPct := roundTo (|realizedMarginInr - marginInr| / marginInr * 100) 4 }

/-- `min(candidates, key=lambda c: c.margin_deviation_pct)`, the first of the closest. -/
def closest : List SizedQuantity → Option SizedQuantity
  | [] => none
  | c :: rest =>
    match closest rest with
    | none => some c
    | some best => if c.marginDeviationPct ≤ best.marginDeviationPct then some c else some best

def calculatePrecisionSizedQuantity (entryPriceUsdt usdtInrRate : Option ℚ)
    (instrument : Option InstrumentMetadata) (marginInr : ℚ := fixedMarginInr)
    (leverage : ℤ := fixedLeverage) : Except SizingRefusal SizedQuantity :=
  match instrument with
  | none => .error .noInstrument
  | some instrument =>
    match usdtInrRate with
    | none => .error .noRate
    | some rate =>
      if rate ≤ 0 then .error .noRate
      else
        match entryPriceUsdt with
        | none => .error .invalidEntryPrice
        | some entry =>
          if entry ≤ 0 then .error .invalidEntryPrice
          else if instrument.status ≠ "active" ∨ instrument.exitOnly then
            .error (.notActive instrument.pair instrument.status instrument.exitOnly)
          else if leverage > instrument.maxLeverageLong ∨ leverage > instrument.maxLeverageShort then
            .error (.leverageUnsupported instrument.pair
              (min instrument.maxLeverageLong instrument.maxLeverageShort) leverage)
          else
            let targetNotionalUsdt := marginInr / rate * leverage
            let rawQuantity := targetNotionalUsdt / entry
            let candidates := [RoundingDirection.down, .up].filterMap
              (sizingCandidate instrument rawQuantity entry rate marginInr leverage)
            match closest candidates with
            | none =>
              .error (.noQuantity instrument.pair instrument.quantityIncrement
                instrument.minQuantity instrument.minNotional marginInr leverage targetNotionalUsdt)
            | some best =>
              if best.marginDeviationPct > maxMarginDeviationPct then
                .error (.deviates instrument.pair best)
              else .ok best

theorem mem_of_closest {l : List SizedQuantity} {best : SizedQuantity}
    (h : closest l = some best) : best ∈ l := by
  induction l generalizing best with
  | nil => cases h
  | cons c rest ih =>
    unfold closest at h
    split at h
    · obtain rfl := Option.some.inj h
      simp
    · rename_i b hb
      split at h
      · obtain rfl := Option.some.inj h
        simp
      · obtain rfl := Option.some.inj h
        exact List.mem_cons_of_mem c (ih hb)

/-- The closest candidate is at least as close as any. -/
theorem closest_le {l : List SizedQuantity} {best c : SizedQuantity}
    (h : closest l = some best) (hc : c ∈ l) : best.marginDeviationPct ≤ c.marginDeviationPct := by
  induction l generalizing best with
  | nil => cases hc
  | cons d rest ih =>
    unfold closest at h
    cases hrest : closest rest with
    | none =>
      rw [hrest] at h
      obtain rfl := Option.some.inj h
      cases rest with
      | nil => rw [List.mem_singleton.1 hc]
      | cons e rest =>
        unfold closest at hrest
        split at hrest
        · cases hrest
        · split at hrest <;> cases hrest
    | some b =>
      rw [hrest] at h
      dsimp only at h
      split at h
      · next hle =>
        obtain rfl := Option.some.inj h
        rcases List.mem_cons.1 hc with rfl | hc
        · exact le_rfl
        · exact hle.trans (ih hrest hc)
      · next hlt =>
        obtain rfl := Option.some.inj h
        rcases List.mem_cons.1 hc with rfl | hc
        · exact (not_le.1 hlt).le
        · exact ih hrest hc

theorem exists_closest {l : List SizedQuantity} (h : l ≠ []) : ∃ best, closest l = some best := by
  cases l with
  | nil => exact absurd rfl h
  | cons c rest =>
    unfold closest
    cases closest rest with
    | none => exact ⟨c, rfl⟩
    | some best =>
      dsimp only
      split
      · exact ⟨c, rfl⟩
      · exact ⟨best, rfl⟩

end AlphaOne.Live

import Mathlib.Data.Rat.Floor
import Mathlib.Tactic.Linarith
import Mathlib.Tactic.Positivity

/-!
# Decimal rounding

Python's `round`: to the nearest multiple of a power of ten, and to the even one of two that are
equally near. The argument is an exact rational number.
-/

namespace AlphaOne.Foundations

/-- The nearest integer, the even one of two that are equally near. -/
def roundHalfEven (x : ℚ) : ℤ :=
  let lower := ⌊x⌋
  let rest := x - lower
  if rest < 1 / 2 then lower
  else if 1 / 2 < rest then lower + 1
  else if lower % 2 = 0 then lower
  else lower + 1

theorem floor_le_roundHalfEven (x : ℚ) : ⌊x⌋ ≤ roundHalfEven x := by
  unfold roundHalfEven
  dsimp only
  split_ifs <;> omega

@[simp] theorem roundHalfEven_intCast (n : ℤ) : roundHalfEven n = n := by
  simp [roundHalfEven]

theorem abs_roundHalfEven_sub_le (x : ℚ) : |(roundHalfEven x : ℚ) - x| ≤ 1 / 2 := by
  have hfloor := Int.floor_le x
  have hceil := Int.lt_floor_add_one x
  unfold roundHalfEven
  dsimp only
  rw [abs_le]
  split_ifs with hlow hhigh
  · constructor <;> linarith
  · push_cast
    constructor <;> linarith
  · constructor <;> linarith
  · push_cast
    constructor <;> linarith

/-- Rounding keeps the order: two results apart are half a unit or less from their arguments, which
leaves room for equal arguments only. -/
theorem roundHalfEven_mono {x y : ℚ} (h : x ≤ y) : roundHalfEven x ≤ roundHalfEven y := by
  by_contra hnot
  have hapart : (roundHalfEven y : ℚ) + 1 ≤ roundHalfEven x := by
    exact_mod_cast Int.add_one_le_iff.2 (not_le.1 hnot)
  have hx := abs_le.1 (abs_roundHalfEven_sub_le x)
  have hy := abs_le.1 (abs_roundHalfEven_sub_le y)
  obtain rfl : x = y := by linarith
  exact hnot le_rfl

/-- The integer that is less than half a unit away is the nearest. -/
theorem roundHalfEven_eq {x : ℚ} {n : ℤ} (h : |x - n| < 1 / 2) : roundHalfEven x = n := by
  have hround := abs_roundHalfEven_sub_le x
  have hclose : |((roundHalfEven x - n : ℤ) : ℚ)| < 1 := by
    push_cast
    calc |(roundHalfEven x : ℚ) - n| ≤ |(roundHalfEven x : ℚ) - x| + |x - n| := abs_sub_le _ _ _
      _ < 1 / 2 + 1 / 2 := add_lt_add_of_le_of_lt hround h
      _ = 1 := by norm_num
  have hint : |roundHalfEven x - n| < 1 := by exact_mod_cast hclose
  exact sub_eq_zero.1 (Int.abs_lt_one_iff.1 hint)

theorem roundHalfEven_of_tie {x : ℚ} (h : x - ⌊x⌋ = 1 / 2) :
    roundHalfEven x = if ⌊x⌋ % 2 = 0 then ⌊x⌋ else ⌊x⌋ + 1 := by
  simp [roundHalfEven, h]

/-- **What is rounded to an integer or above**: what is more than half way to it, and what is half
way if the integer is even. -/
theorem le_roundHalfEven_iff {x : ℚ} {n : ℤ} :
    n ≤ roundHalfEven x ↔ (n : ℚ) - 1 / 2 < x ∨ ((n : ℚ) - 1 / 2 = x ∧ Even n) := by
  have hround := abs_le.1 (abs_roundHalfEven_sub_le x)
  rcases lt_trichotomy ((n : ℚ) - 1 / 2) x with h | h | h
  · refine iff_of_true (Int.lt_add_one_iff.1 ?_) (.inl h)
    have hlt : (n : ℚ) < roundHalfEven x + 1 := by linarith
    exact_mod_cast hlt
  · have hfloor : ⌊x⌋ = n - 1 := by
      rw [Int.floor_eq_iff, ← h]
      push_cast
      constructor <;> linarith
    have htie : x - ⌊x⌋ = 1 / 2 := by
      rw [hfloor, ← h]
      push_cast
      ring
    rw [roundHalfEven_of_tie htie, hfloor, Int.even_iff]
    split_ifs with heven
    · exact iff_of_false (by omega) fun hor => hor.elim h.not_lt fun hand => by omega
    · exact iff_of_true (by omega) (.inr ⟨h, by omega⟩)
  · refine iff_of_false (fun hle => ?_) fun hor => hor.elim h.not_gt fun hand => h.ne' hand.1
    have hcast : (n : ℚ) ≤ roundHalfEven x := by exact_mod_cast hle
    linarith

/-- An even integer takes both of its ties. -/
theorem le_roundHalfEven_iff_of_even {x : ℚ} {n : ℤ} (h : Even n) :
    n ≤ roundHalfEven x ↔ (n : ℚ) - 1 / 2 ≤ x := by
  rw [le_roundHalfEven_iff, and_iff_left h, ← le_iff_lt_or_eq]

theorem roundHalfEven_neg (x : ℚ) : roundHalfEven (-x) = -roundHalfEven x := by
  have hlow := Int.floor_le x
  have hhigh := Int.lt_floor_add_one x
  rcases lt_trichotomy (x - ⌊x⌋) (1 / 2) with h | h | h
  · have hx : roundHalfEven x = ⌊x⌋ := roundHalfEven_eq (abs_lt.2 ⟨by linarith, h⟩)
    rw [hx]
    exact roundHalfEven_eq (abs_lt.2 (by push_cast; constructor <;> linarith))
  · -- a tie, where one of the two neighbours is even
    have hfloor : ⌊-x⌋ = -⌊x⌋ - 1 := by
      rw [Int.floor_eq_iff]
      push_cast
      constructor <;> linarith
    rw [roundHalfEven_of_tie h, roundHalfEven_of_tie (by rw [hfloor]; push_cast; linarith), hfloor]
    split_ifs <;> omega
  · have hx : roundHalfEven x = ⌊x⌋ + 1 := by
      refine roundHalfEven_eq (abs_lt.2 ?_)
      push_cast
      constructor <;> linarith
    rw [hx]
    exact roundHalfEven_eq (abs_lt.2 (by push_cast; constructor <;> linarith))

/-- `round(x, digits)`. -/
def roundTo (x : ℚ) (digits : ℕ) : ℚ := roundHalfEven (x * 10 ^ digits) / 10 ^ digits

theorem abs_roundTo_sub_le (x : ℚ) (digits : ℕ) :
    |roundTo x digits - x| ≤ 1 / 2 / 10 ^ digits := by
  have hpow : (0 : ℚ) < 10 ^ digits := by positivity
  have hscaled : roundTo x digits - x =
      (roundHalfEven (x * 10 ^ digits) - x * 10 ^ digits) / 10 ^ digits := by
    rw [roundTo, sub_div, mul_div_cancel_right₀ _ hpow.ne']
  rw [hscaled, abs_div, abs_of_pos hpow]
  exact div_le_div_of_nonneg_right (abs_roundHalfEven_sub_le _) hpow.le

/-- A number with no more decimals is not rounded. -/
theorem roundTo_of_decimals {x : ℚ} {digits : ℕ} {n : ℤ} (h : x * 10 ^ digits = n) :
    roundTo x digits = x := by
  have hpow : (10 : ℚ) ^ digits ≠ 0 := by positivity
  rw [roundTo, h, roundHalfEven_intCast, ← h, mul_div_cancel_right₀ _ hpow]

theorem roundTo_mono {x y : ℚ} (h : x ≤ y) (digits : ℕ) : roundTo x digits ≤ roundTo y digits := by
  have hpow : (0 : ℚ) < 10 ^ digits := by positivity
  refine div_le_div_of_nonneg_right ?_ hpow.le
  exact_mod_cast roundHalfEven_mono (mul_le_mul_of_nonneg_right h hpow.le)

theorem roundTo_nonneg {x : ℚ} (h : 0 ≤ x) (digits : ℕ) : 0 ≤ roundTo x digits := by
  have hzero : roundTo 0 digits = 0 := by simp [roundTo, roundHalfEven]
  exact hzero.symm.trans_le (roundTo_mono h digits)

example : roundTo (2675 / 1000) 2 = 268 / 100 ∧ roundTo (-5 / 2) 0 = -2 := by decide +kernel

end AlphaOne.Foundations

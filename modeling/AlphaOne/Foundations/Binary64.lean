import AlphaOne.Foundations.Rounding
import Mathlib.Data.Int.Log
import Mathlib.Algebra.Order.Field.Power
import Mathlib.Algebra.Group.Int.Even

/-!
# Doubles

The double nearest to a rational number: 53 significant bits, and the even one of two that are
equally near. The exponent is not bounded, so that this is the rounding of IEEE 754 for a number
that is zero or, in size, between `2 ^ (-1022)` and `2 ^ 1023`.

`toDouble_of_binade` rounds in a binade that the number is known to be in, with its upper end, and
`le_toDouble_iff` says which numbers are rounded to a given double or above.
-/

namespace AlphaOne.Foundations

/-- The spacing of the doubles between `2 ^ e` and `2 ^ (e + 1)`. -/
def spacing (e : ℤ) : ℚ := 2 ^ (e - 52)

/-- The double nearest to `x`. -/
def toDouble (x : ℚ) : ℚ :=
  let unit := spacing (Int.log 2 |x|)
  roundHalfEven (x / unit) * unit

variable {e : ℤ} {x : ℚ}

theorem spacing_pos (e : ℤ) : 0 < spacing e := zpow_pos (by norm_num) _

theorem two_zpow_eq (e : ℤ) : (2 : ℚ) ^ e = 2 ^ 52 * spacing e := by
  rw [spacing, ← zpow_natCast, ← zpow_add₀ (by norm_num)]
  congr 1
  push_cast
  ring

theorem two_zpow_succ_eq (e : ℤ) : (2 : ℚ) ^ (e + 1) = 2 ^ 53 * spacing e := by
  rw [zpow_add_one₀ (by norm_num), two_zpow_eq]
  ring

theorem two_zpow_log_le (h : 0 < x) : 2 ^ Int.log 2 x ≤ x := by
  exact_mod_cast Int.zpow_log_le_self (by norm_num) h

theorem spacing_succ (e : ℤ) : spacing (e + 1) = 2 * spacing e := by
  have h := two_zpow_succ_eq e
  rw [two_zpow_eq (e + 1)] at h
  linarith

@[simp] theorem toDouble_zero : toDouble 0 = 0 := by simp [toDouble, roundHalfEven]

@[simp] theorem toDouble_neg (x : ℚ) : toDouble (-x) = -toDouble x := by
  simp [toDouble, neg_div, roundHalfEven_neg]

/-- **A number in a binade**, its upper end included, is rounded to the spacing there. -/
theorem toDouble_of_binade (hlow : 2 ^ e ≤ x) (hhigh : x ≤ 2 ^ (e + 1)) :
    toDouble x = roundHalfEven (x / spacing e) * spacing e := by
  have hpos : 0 < x := (zpow_pos (by norm_num) e).trans_le hlow
  rcases hhigh.lt_or_eq with hlt | rfl
  · have hlog : Int.log 2 |x| = e := by
      rw [abs_of_pos hpos]
      refine le_antisymm ?_ ((Int.zpow_le_iff_le_log (by norm_num) hpos).1 (by exact_mod_cast hlow))
      exact Int.lt_add_one_iff.1 ((Int.lt_zpow_iff_log_lt (by norm_num) hpos).1
        (by exact_mod_cast hlt))
    rw [toDouble, hlog]
  · -- the upper end is a double of both binades
    have hlog : Int.log 2 |(2 : ℚ) ^ (e + 1)| = e + 1 := by
      rw [abs_of_pos hpos]
      exact_mod_cast Int.log_zpow (R := ℚ) (by norm_num) (e + 1)
    have hspacing := (spacing_pos e).ne'
    have hbelow : (2 : ℚ) ^ (e + 1) / spacing e = ((2 ^ 53 : ℤ) : ℚ) := by
      rw [two_zpow_succ_eq, mul_div_cancel_right₀ _ hspacing]
      norm_num
    have habove : (2 : ℚ) ^ (e + 1) / spacing (e + 1) = ((2 ^ 52 : ℤ) : ℚ) := by
      rw [two_zpow_eq, mul_div_cancel_right₀ _ (spacing_pos _).ne']
      norm_num
    rw [toDouble, hlog, hbelow, habove, roundHalfEven_intCast, roundHalfEven_intCast, spacing_succ]
    push_cast
    ring

theorem toDouble_of_pos (h : 0 < x) :
    toDouble x = roundHalfEven (x / spacing (Int.log 2 x)) * spacing (Int.log 2 x) := by
  rw [toDouble, abs_of_pos h]

/-- **The error of a rounding** is at most half the spacing. -/
theorem abs_toDouble_sub_le (h : |x| < 2 ^ (e + 1)) : |toDouble x - x| ≤ spacing e / 2 := by
  rcases eq_or_ne x 0 with rfl | hne
  · simpa using (half_pos (spacing_pos e)).le
  · set unit := spacing (Int.log 2 |x|) with hunit
    have hpos : 0 < unit := spacing_pos _
    have hlog : Int.log 2 |x| ≤ e := Int.lt_add_one_iff.1
      ((Int.lt_zpow_iff_log_lt (by norm_num) (abs_pos.2 hne)).1 (by exact_mod_cast h))
    have hle : unit ≤ spacing e := zpow_le_zpow_right₀ (by norm_num) (by linarith)
    have hround := abs_roundHalfEven_sub_le (x / unit)
    have herror : toDouble x - x = (roundHalfEven (x / unit) - x / unit) * unit := by
      rw [sub_mul, div_mul_cancel₀ _ hpos.ne', toDouble]
    calc |toDouble x - x| = |(roundHalfEven (x / unit) : ℚ) - x / unit| * unit := by
          rw [herror, abs_mul, abs_of_pos hpos]
      _ ≤ 1 / 2 * unit := mul_le_mul_of_nonneg_right hround hpos.le
      _ ≤ spacing e / 2 := by linarith

/-- **The relative error of a rounding.** -/
theorem abs_toDouble_sub_le_abs (x : ℚ) : |toDouble x - x| ≤ |x| / 2 ^ 53 := by
  rcases eq_or_ne x 0 with rfl | hne
  · simp
  · have hlt : |x| < 2 ^ (Int.log 2 |x| + 1) := by
      exact_mod_cast Int.lt_zpow_succ_log_self (by norm_num) |x|
    have hsize := two_zpow_log_le (abs_pos.2 hne)
    rw [two_zpow_eq] at hsize
    refine (abs_toDouble_sub_le hlt).trans ?_
    rw [le_div_iff₀ (by norm_num)]
    linarith

/-- A number that is at least a power of two is not rounded below it. -/
theorem two_zpow_le_toDouble (h : 2 ^ e ≤ x) : 2 ^ e ≤ toDouble x := by
  have hpos : 0 < x := (zpow_pos (by norm_num) e).trans_le h
  have hlog : e ≤ Int.log 2 x := (Int.zpow_le_iff_le_log (by norm_num) hpos).1 (by exact_mod_cast h)
  have hunit : 0 < spacing (Int.log 2 x) := spacing_pos _
  have hsize := two_zpow_log_le hpos
  rw [two_zpow_eq] at hsize
  have hround : (2 ^ 52 : ℤ) ≤ roundHalfEven (x / spacing (Int.log 2 x)) := by
    rw [← roundHalfEven_intCast (2 ^ 52)]
    refine roundHalfEven_mono ((le_div_iff₀ hunit).2 ?_)
    exact_mod_cast hsize
  calc (2 : ℚ) ^ e ≤ 2 ^ Int.log 2 x := zpow_le_zpow_right₀ (by norm_num) hlog
    _ = 2 ^ 52 * spacing (Int.log 2 x) := two_zpow_eq _
    _ ≤ roundHalfEven (x / spacing (Int.log 2 x)) * spacing (Int.log 2 x) :=
        mul_le_mul_of_nonneg_right (by exact_mod_cast hround) hunit.le
    _ = toDouble x := (toDouble_of_pos hpos).symm

theorem toDouble_nonneg (h : 0 ≤ x) : 0 ≤ toDouble x := by
  rcases h.eq_or_lt with rfl | hpos
  · simp
  · exact (zpow_pos (by norm_num) _).le.trans (two_zpow_le_toDouble (two_zpow_log_le hpos))

theorem abs_toDouble (x : ℚ) : |toDouble x| = toDouble |x| := by
  rcases le_total 0 x with h | h
  · rw [abs_of_nonneg h, abs_of_nonneg (toDouble_nonneg h)]
  · have hneg := toDouble_nonneg (neg_nonneg.2 h)
    rw [toDouble_neg] at hneg
    rw [abs_of_nonpos h, toDouble_neg, abs_of_nonpos (neg_nonneg.1 hneg)]

/-- **What is rounded to a double with an even significand, or above**: what falls short of it by at
most half the spacing of the doubles below. -/
theorem le_toDouble_iff {m : ℤ} (heven : Even m) (hlow : 2 ^ e ≤ x)
    (hhigh : m * spacing e ≤ 2 ^ (e + 1)) :
    m * spacing e ≤ toDouble x ↔ m * spacing e - spacing e / 2 ≤ x := by
  have hunit : 0 < spacing e := spacing_pos e
  rcases le_total x (2 ^ (e + 1)) with hx | hx
  · rw [toDouble_of_binade hlow hx, mul_le_mul_iff_left₀ hunit, Int.cast_le,
      le_roundHalfEven_iff_of_even heven,
      le_div_iff₀ hunit]
    constructor <;> intro h <;> linarith
  · exact ⟨fun _ => by linarith, fun _ => hhigh.trans (two_zpow_le_toDouble hx)⟩

end AlphaOne.Foundations

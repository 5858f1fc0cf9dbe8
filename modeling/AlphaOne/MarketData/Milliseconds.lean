import AlphaOne.Foundations.Binary64
import AlphaOne.Schema.Time
import Mathlib.Data.Nat.Prime.Basic
import Mathlib.Data.Rat.Floor

/-!
# Milliseconds and doubles

`services/market_data/binance.py`: a time goes to the exchange as `int(since.timestamp() * 1000)`,
and a time `ms` of the exchange comes back through `datetime.fromtimestamp(ms / 1000)`. In between
the seconds are a double, which is rarely a number of milliseconds.

The double nearest to `n` milliseconds is off by the `drift` of `n`. The product by 1000 is rounded
to a whole number of milliseconds again unless the drift is too far below (`toMs_timestampAt_iff`),
and the microseconds are unless the drift is half a microsecond or more (`msToUtcNaive_eq_iff`).
-/

namespace AlphaOne.MarketData

open Foundations

/-- `int(x)`. -/
def toInt (x : ℚ) : ℤ := x.num.tdiv x.den

/-- The end of `timestamp()`: the second of UTC, as a double, and the microseconds after it. -/
def timestampAt (second microsecond : ℤ) : ℚ := toDouble (second + toDouble (microsecond / 1000000))

/-- `int(seconds * 1000)`. -/
def toMs (seconds : ℚ) : ℤ := toInt (toDouble (seconds * 1000))

/-- The microseconds `fromtimestamp` makes of a double: its whole seconds, and the rest, rounded. -/
def microsOf (seconds : ℚ) : ℤ :=
  let intpart := toInt seconds
  Timedelta.seconds intpart + roundHalfEven (toDouble ((seconds - intpart) * 1000000))

/-- `_ms_to_utc_naive`. -/
def msToUtcNaive (ms : ℚ) : Option Datetime :=
  let t := microsOf (toDouble (ms / 1000))
  if Datetime.InRange t then some t else none

/-! ## Which milliseconds survive -/

/-- `n` milliseconds lie, in 1024ths of a second, between this power of two and the next. -/
def binade (n : ℕ) : ℕ := Nat.log 2 (128 * n / 125)

/-- The doubles near `n` milliseconds are the multiples of `2 ^ (-(places n + 3))` seconds. -/
def places (n : ℕ) : ℕ := 59 - binade n

/-- How far `n` milliseconds are beyond the double below, in parts of 125 of the spacing of the
doubles there. -/
def residue (n : ℕ) : ℕ := n * 2 ^ places n % 125

/-- How far the double nearest to `n` milliseconds is beyond them, in these parts. -/
def drift (n : ℕ) : ℤ := if residue n ≤ 62 then -residue n else 125 - residue n

/-- How many of these parts a double may be below `n` milliseconds for its product by 1000 to be
rounded to `n`: half the spacing of the doubles below `n` itself. -/
def slack (n : ℕ) : ℕ := if n ≤ 2 ^ binade n then 32 else 64

/-- What the double of the microseconds adds to the size of the milliseconds `N`. -/
def shift (N : ℤ) : ℚ := N.sign * (drift (N % 1000).toNat / 2 ^ places (N % 1000).toNat)

/-- The double of the milliseconds `N`, multiplied by 1000, is rounded to `N` or further from zero.
From 64 seconds before or after the epoch on it is so unless the double is below by more than the
slack. Nearer the epoch the microseconds count, which have a rounding of their own: the sum of both
has to be above half way to the least double that is near enough. -/
def SentExactly (N : ℤ) : Prop :=
  let n := N.natAbs
  if 64000 ≤ n then ¬(slack n < residue n ∧ residue n ≤ 62)
  else
    let least : ℤ := ⌈((n * 2 ^ places n - slack n) / 125 : ℚ)⌉
    let sum : ℚ := (n + shift N) * 2 ^ places n / 125
    least - 1 / 2 < sum ∨ (least - 1 / 2 = sum ∧ Even least)

/-- The double of the milliseconds `N` is less than half a microsecond off. -/
def ReadExactly (N : ℤ) : Prop :=
  let n := N.natAbs
  2000 * min (residue n) (125 - residue n) < 2 ^ places n

instance (N : ℤ) : Decidable (SentExactly N) := by unfold SentExactly; infer_instance

instance (N : ℤ) : Decidable (ReadExactly N) := by unfold ReadExactly; infer_instance

/-! ## `int` -/

section

variable {x : ℚ} {n : ℤ}

@[simp] theorem toInt_neg (x : ℚ) : toInt (-x) = -toInt x := by simp [toInt, Int.neg_tdiv]

theorem toInt_of_nonneg (h : 0 ≤ x) : toInt x = ⌊x⌋ := by
  rw [toInt, Rat.floor_def', Int.tdiv_eq_ediv_of_nonneg (Rat.num_nonneg.2 h)]

theorem toInt_eq_iff (h : 0 ≤ x) : toInt x = n ↔ (n : ℚ) ≤ x ∧ x < n + 1 := by
  rw [toInt_of_nonneg h, Int.floor_eq_iff]

theorem abs_toInt_sub_lt (x : ℚ) : |(toInt x : ℚ) - x| < 1 := by
  rcases le_total 0 x with h | h
  · rw [toInt_of_nonneg h, abs_sub_comm, abs_lt]
    constructor <;> linarith [Int.floor_le x, Int.lt_floor_add_one x]
  · have hneg : toInt x = -⌊-x⌋ := by rw [← toInt_of_nonneg (neg_nonneg.2 h), toInt_neg, neg_neg]
    rw [hneg, abs_lt]
    push_cast
    constructor <;> linarith [Int.floor_le (-x), Int.lt_floor_add_one (-x)]

@[simp] theorem toMs_neg (x : ℚ) : toMs (-x) = -toMs x := by simp [toMs]

end

/-! ## The double of a number of milliseconds -/

section Drift

variable {n : ℕ} {x : ℚ}

theorem residue_lt (n : ℕ) : residue n < 125 := Nat.mod_lt _ (by norm_num)

theorem abs_drift_le (n : ℕ) : |drift n| ≤ 62 := by
  have := residue_lt n
  rw [abs_le, drift]
  split_ifs <;> omega

theorem abs_drift (n : ℕ) : |drift n| = (min (residue n) (125 - residue n) : ℕ) := by
  have := residue_lt n
  rw [Int.abs_eq_natAbs, drift]
  split_ifs <;> omega

theorem drift_eq_zero (h : 125 ∣ n) : drift n = 0 := by
  have hresidue : residue n = 0 := Nat.mod_eq_zero_of_dvd (h.mul_right _)
  simp [drift, hresidue]

/-- The significand of the double nearest to `n` milliseconds. -/
def significand (n : ℕ) : ℤ := ((n * 2 ^ places n : ℕ) + drift n) / 125

theorem significand_mul (n : ℕ) : (125 : ℚ) * significand n = n * 2 ^ places n + drift n := by
  have hint : 125 * significand n = (n * 2 ^ places n : ℕ) + drift n := by
    unfold significand drift residue
    split_ifs <;> omega
  exact_mod_cast hint

theorem binade_bounds (hn : 0 < n) :
    125 * 2 ^ binade n ≤ 128 * n ∧ 128 * n < 125 * 2 ^ (binade n + 1) := by
  have hlow : 2 ^ binade n ≤ 128 * n / 125 := Nat.pow_log_le_self 2 (by omega)
  have hhigh : 128 * n / 125 < 2 ^ (binade n + 1) := Nat.lt_pow_succ_log_self (by norm_num) _
  constructor <;> omega

theorem binade_le (hsmall : n < 2 ^ 48) : binade n ≤ 48 :=
  Nat.lt_succ_iff.1 (Nat.log_lt_of_lt_pow' (by norm_num) (by omega))

theorem le_places (hsmall : n < 2 ^ 48) : 11 ≤ places n := by
  have := binade_le hsmall
  unfold places
  omega

/-- **The double of a number of seconds in the binade of `n` milliseconds.** -/
theorem toDouble_mul (hsmall : n < 2 ^ 48) (hlow : 125 * 2 ^ binade n ≤ 128 * x)
    (hhigh : 128 * x ≤ 125 * 2 ^ (binade n + 1)) :
    toDouble (x / 1000) * 1000 * 2 ^ places n =
      125 * roundHalfEven (x * 2 ^ places n / 125) := by
  have hbinade := binade_le hsmall
  have hpow : (0 : ℚ) < 2 ^ places n := by positivity
  have hspacing : spacing (49 - places n) = 1 / (8 * 2 ^ places n) := by
    rw [spacing, show (8 : ℚ) = 2 ^ 3 by norm_num, ← pow_add, one_div, ← zpow_natCast, ← zpow_neg]
    congr 1
    push_cast
    ring
  have hscale : (2 : ℚ) ^ places n = 128 * 2 ^ (52 - binade n) := by
    rw [show (128 : ℚ) = 2 ^ 7 by norm_num, ← pow_add, places]
    congr 1
    omega
  have hfull : (2 : ℚ) ^ binade n * 2 ^ (52 - binade n) = 2 ^ 52 := by
    rw [← pow_add]
    congr 1
    omega
  have hrest : (0 : ℚ) ≤ 2 ^ (52 - binade n) := by positivity
  have hbelow : (2 : ℚ) ^ (49 - places n : ℤ) ≤ x / 1000 := by
    have := mul_le_mul_of_nonneg_right hlow hrest
    rw [two_zpow_eq, hspacing, mul_one_div, div_le_iff₀ (by positivity), hscale]
    linarith
  have habove : x / 1000 ≤ 2 ^ (49 - places n + 1 : ℤ) := by
    have := mul_le_mul_of_nonneg_right hhigh hrest
    rw [pow_succ] at this
    rw [two_zpow_succ_eq, hspacing, mul_one_div, le_div_iff₀ (by positivity), hscale]
    linarith
  have hdiv : x / 1000 / spacing (49 - places n) = x * 2 ^ places n / 125 := by
    rw [hspacing]
    field_simp
    ring
  rw [toDouble_of_binade hbelow habove, hdiv, hspacing]
  field_simp
  ring

/-- **The double of `n` thousandths** is off by the drift. -/
theorem toDouble_thousandths (hn : 0 < n) (hsmall : n < 2 ^ 48) :
    toDouble (n / 1000) * 1000 = n + drift n / 2 ^ places n := by
  obtain ⟨hlow, hhigh⟩ := binade_bounds hn
  have hpow : (0 : ℚ) < 2 ^ places n := by positivity
  have hdrift : |(drift n : ℚ)| ≤ 62 := by exact_mod_cast abs_drift_le n
  have hsignificand := significand_mul n
  have hround : roundHalfEven (n * 2 ^ places n / 125) = significand n := by
    refine roundHalfEven_eq ?_
    rw [abs_le] at hdrift
    rw [abs_lt]
    constructor <;> linarith
  have hmul := toDouble_mul (x := n) hsmall (by exact_mod_cast hlow) (by exact_mod_cast hhigh.le)
  rw [hround, hsignificand] at hmul
  field_simp
  linarith

end Drift

/-! ## From the program to the exchange -/

section Sent

variable {n : ℕ} {N : ℤ} {x : ℚ}

/-- **Which numbers near `n` are rounded to a double of whole part `n`**: those that fall short of
`n` by at most half the spacing of the doubles below it. -/
theorem toInt_toDouble_eq_iff (hn : 0 < n) (hsmall : n < 2 ^ 48) (hclose : |x - n| ≤ 1 / 4) :
    toInt (toDouble x) = n ↔ n - spacing (Nat.clog 2 n - 1) / 2 ≤ x := by
  obtain ⟨hlow, hhigh⟩ := abs_le.1 hclose
  set c := Nat.clog 2 n with hc
  have hone : (1 : ℚ) ≤ n := by exact_mod_cast hn
  have hbound : (n : ℚ) < 2 ^ 48 := by exact_mod_cast hsmall
  have hnonneg : 0 ≤ x := by linarith
  have hc48 : c ≤ 48 := Nat.clog_le_of_le_pow hsmall.le
  -- `n` is an even number of spacings
  have hspacing : ((n * 2 ^ (53 - c) : ℕ) : ℚ) * spacing (c - 1) = n := by
    have hpow : (2 : ℚ) ^ (53 - c) * spacing (c - 1) = 1 := by
      rw [spacing, ← zpow_natCast, ← zpow_add₀ (by norm_num), Nat.cast_sub (by omega)]
      push_cast
      rw [show (53 - c + (c - 1 - 52) : ℤ) = 0 by ring, zpow_zero]
    push_cast
    rw [mul_assoc, hpow, mul_one]
  have heven : Even ((n * 2 ^ (53 - c) : ℕ) : ℤ) := by
    rw [Int.even_coe_nat, show 53 - c = 52 - c + 1 by omega, pow_succ, ← mul_assoc]
    exact even_two.mul_left _
  have hbelow : (2 : ℚ) ^ (c - 1 : ℤ) ≤ x := by
    rcases hcases : c with _ | b
    · norm_num
      linarith
    · have hpow : 2 ^ b < n := Nat.pow_lt_of_lt_clog (by omega)
      have hcast : (2 : ℚ) ^ b + 1 ≤ n := by exact_mod_cast hpow
      rw [show ((b + 1 : ℕ) - 1 : ℤ) = b by push_cast; ring, zpow_natCast]
      linarith
  have habove : ((n * 2 ^ (53 - c) : ℕ) : ℤ) * spacing (c - 1) ≤ 2 ^ (c - 1 + 1 : ℤ) := by
    rw [Int.cast_natCast, hspacing, sub_add_cancel, zpow_natCast]
    exact_mod_cast Nat.le_pow_clog (by norm_num) n
  have hround := le_toDouble_iff heven hbelow habove
  rw [Int.cast_natCast, hspacing] at hround
  have herror := (abs_le.1 (abs_toDouble_sub_le_abs x)).2
  rw [abs_of_nonneg hnonneg] at herror
  rw [toInt_eq_iff (toDouble_nonneg hnonneg), Int.cast_natCast, hround, and_iff_left]
  linarith

/-- The sign of a double does not matter. -/
theorem toMs_eq_iff_abs (h : (0 ≤ N ∧ 0 ≤ x) ∨ (N ≤ 0 ∧ x ≤ 0)) :
    toMs x = N ↔ toMs |x| = N.natAbs := by
  rcases h with ⟨hN, hx⟩ | ⟨hN, hx⟩
  · rw [abs_of_nonneg hx]
    omega
  · rw [abs_of_nonpos hx, toMs_neg]
    omega

/-- The double of the microseconds is off by the drift of their milliseconds. -/
theorem toDouble_micros {m : ℤ} (h : 0 ≤ m ∧ m < 1000) :
    toDouble ((m * 1000 : ℤ) / 1000000) * 1000 = m + drift m.toNat / 2 ^ places m.toNat := by
  obtain ⟨m, rfl⟩ := Int.eq_ofNat_of_zero_le h.1
  have hscale : (((m : ℤ) * 1000 : ℤ) / 1000000 : ℚ) = m / 1000 := by
    push_cast
    ring
  rw [hscale, Int.toNat_natCast, Int.cast_natCast]
  rcases Nat.eq_zero_or_pos m with rfl | hm
  · simp [drift_eq_zero]
  · exact toDouble_thousandths hm (by omega)

theorem abs_drift_div_le {m : ℕ} (hm : m < 1000) :
    |(drift m / 2 ^ places m : ℚ)| ≤ 62 / 2 ^ 50 := by
  have hbinade : binade m ≤ 9 :=
    Nat.lt_succ_iff.1 (Nat.log_lt_of_lt_pow' (by norm_num) (by omega))
  have hplaces : 50 ≤ places m := by
    unfold places
    omega
  have hdrift : |(drift m : ℚ)| ≤ 62 := by exact_mod_cast abs_drift_le m
  rw [abs_div, abs_of_pos (by positivity : (0 : ℚ) < 2 ^ places m)]
  exact div_le_div₀ (by norm_num) hdrift (by norm_num) (pow_le_pow_right₀ (by norm_num) hplaces)

/-- The number that is rounded in the end, with the double of its microseconds. -/
def unrounded (N : ℤ) : ℚ := (N / 1000 : ℤ) + toDouble ((N % 1000 * 1000 : ℤ) / 1000000)

theorem timestampAt_eq (N : ℤ) :
    timestampAt (N / 1000) (N % 1000 * 1000) = toDouble (unrounded N) := rfl

theorem unrounded_mul (N : ℤ) : unrounded N * 1000 =
    N + drift (N % 1000).toNat / 2 ^ places (N % 1000).toNat := by
  have hsplit : (N : ℚ) = 1000 * (N / 1000 : ℤ) + (N % 1000 : ℤ) := by
    exact_mod_cast (Int.mul_ediv_add_emod N 1000).symm
  rw [unrounded, add_mul, toDouble_micros (by omega), hsplit]
  ring

theorem abs_shift_le (N : ℤ) : |shift N| ≤ 62 / 2 ^ 50 := by
  have hdrift := abs_drift_div_le (m := (N % 1000).toNat) (by omega)
  have hsign : |(N.sign : ℚ)| ≤ 1 := by
    rcases lt_trichotomy N 0 with h | rfl | h
    · simp [Int.sign_eq_neg_one_of_neg h]
    · simp
    · simp [Int.sign_eq_one_of_pos h]
  rw [shift, abs_mul]
  calc |(N.sign : ℚ)| * _ ≤ 1 * (62 / 2 ^ 50) := mul_le_mul hsign hdrift (abs_nonneg _) zero_le_one
    _ = 62 / 2 ^ 50 := one_mul _

theorem shift_eq_zero (h : 125 ∣ N.natAbs) : shift N = 0 := by
  have hdvd : 125 ∣ (N % 1000).toNat := by omega
  simp [shift, drift_eq_zero hdvd]

/-- The sum before it is rounded has the sign of the time, and in size is off by the shift. -/
theorem abs_unrounded (N : ℤ) : ((0 ≤ N ∧ 0 ≤ unrounded N) ∨ (N ≤ 0 ∧ unrounded N ≤ 0)) ∧
    |unrounded N| * 1000 = N.natAbs + shift N := by
  have hmul := unrounded_mul N
  have hdrift := abs_le.1 (abs_drift_div_le (m := (N % 1000).toNat) (by omega))
  rcases lt_trichotomy N 0 with hN | rfl | hN
  · have hcast : (N : ℚ) ≤ -1 := by exact_mod_cast Int.le_sub_one_of_lt hN
    have hnonpos : unrounded N ≤ 0 := by linarith
    refine ⟨.inr ⟨hN.le, hnonpos⟩, ?_⟩
    rw [abs_of_nonpos hnonpos, shift, Int.sign_eq_neg_one_of_neg hN, Nat.cast_natAbs,
      Int.cast_abs, abs_of_nonpos (by linarith)]
    push_cast
    linarith
  · simp [unrounded, shift]
  · have hcast : (1 : ℚ) ≤ N := by exact_mod_cast hN
    have hnonneg : 0 ≤ unrounded N := by linarith
    refine ⟨.inl ⟨hN.le, hnonneg⟩, ?_⟩
    rw [abs_of_nonneg hnonneg, shift, Int.sign_eq_one_of_pos hN, Nat.cast_natAbs, Int.cast_abs,
      abs_of_nonneg (by linarith)]
    push_cast
    linarith

/-- The shift leaves the binade. -/
theorem shifted_bounds (hN : 0 < N.natAbs) :
    125 * 2 ^ binade N.natAbs ≤ 128 * (N.natAbs + shift N) ∧
      128 * (N.natAbs + shift N) ≤ 125 * 2 ^ (binade N.natAbs + 1) := by
  obtain ⟨hlow, hhigh⟩ := binade_bounds hN
  have hshift := abs_le.1 (abs_shift_le N)
  have hhigh' : (128 * N.natAbs + 1 : ℚ) ≤ 125 * 2 ^ (binade N.natAbs + 1) := by
    exact_mod_cast hhigh
  refine ⟨?_, by linarith⟩
  rcases hlow.eq_or_lt with heq | hlt
  · -- the lower end of a binade is a whole number of eighths of a second
    have hdvd : 125 ∣ N.natAbs :=
      (by decide : Nat.Coprime 125 128).dvd_of_dvd_mul_left (Dvd.intro _ heq)
    have hcast : (125 * 2 ^ binade N.natAbs : ℚ) = 128 * N.natAbs := by exact_mod_cast heq
    rw [shift_eq_zero hdvd, hcast, add_zero]
  · have hcast : (125 * 2 ^ binade N.natAbs + 1 : ℚ) ≤ 128 * N.natAbs := by exact_mod_cast hlt
    linarith

/-- **The double of a time**, by its significand. -/
theorem abs_timestampAt (hN : 0 < N.natAbs) (hsmall : N.natAbs < 2 ^ 48) :
    |timestampAt (N / 1000) (N % 1000 * 1000)| * 1000 * 2 ^ places N.natAbs =
      125 * roundHalfEven ((N.natAbs + shift N) * 2 ^ places N.natAbs / 125) := by
  obtain ⟨hlow, hhigh⟩ := shifted_bounds hN
  have hsum : |unrounded N| = (N.natAbs + shift N) / 1000 := by
    rw [← (abs_unrounded N).2, mul_div_cancel_right₀ _ (by norm_num)]
  rw [timestampAt_eq, abs_toDouble, hsum]
  exact toDouble_mul hsmall hlow hhigh

/-- Half the spacing of the doubles below `n` is the slack, in parts of that of the doubles of its
seconds. -/
theorem spacing_clog (hn : 0 < n) (hsmall : n < 2 ^ 48) :
    spacing (Nat.clog 2 n - 1) / 2 * 2 ^ places n = slack n := by
  obtain ⟨hlow, hhigh⟩ := binade_bounds hn
  have hbinade := binade_le hsmall
  have hclog : Nat.clog 2 n = if n ≤ 2 ^ binade n then binade n else binade n + 1 := by
    split_ifs with h
    · refine le_antisymm (Nat.clog_le_of_le_pow h) ?_
      rcases hb : binade n with _ | b
      · exact Nat.zero_le _
      · rw [hb, pow_succ] at hlow
        exact (Nat.lt_clog_iff_pow_lt (by norm_num)).2 (by omega)
    · exact le_antisymm (Nat.clog_le_of_le_pow (by omega))
        ((Nat.lt_clog_iff_pow_lt (by norm_num)).2 (not_le.1 h))
  have hpow : ∀ i : ℕ, spacing ((binade n + i : ℕ) - 1) / 2 * 2 ^ places n = 2 ^ (5 + i) := by
    intro i
    have hhalf : spacing ((binade n + i : ℕ) - 1) = 2 * spacing ((binade n + i : ℕ) - 2) := by
      rw [← spacing_succ]
      congr 1
      ring
    rw [hhalf, mul_div_cancel_left₀ _ (by norm_num), spacing, ← zpow_natCast,
      ← zpow_add₀ (by norm_num), ← zpow_natCast, places, Nat.cast_sub (by omega)]
    congr 1
    push_cast
    ring
  rw [hclog, slack]
  split_ifs
  · exact (hpow 0).trans (by norm_num)
  · exact (hpow 1).trans (by norm_num)

/-- **Which times are sent as they are**, by the significand. -/
theorem toMs_timestampAt (hN : 0 < N.natAbs) (hsmall : N.natAbs < 2 ^ 48) :
    toMs (timestampAt (N / 1000) (N % 1000 * 1000)) = N ↔
      N.natAbs * 2 ^ places N.natAbs - slack N.natAbs ≤
        (125 : ℚ) * roundHalfEven ((N.natAbs + shift N) * 2 ^ places N.natAbs / 125) := by
  have hsign : (0 ≤ N ∧ 0 ≤ timestampAt (N / 1000) (N % 1000 * 1000)) ∨
      (N ≤ 0 ∧ timestampAt (N / 1000) (N % 1000 * 1000) ≤ 0) := by
    rw [timestampAt_eq]
    refine (abs_unrounded N).1.imp (And.imp_right toDouble_nonneg) (And.imp_right fun h => ?_)
    rw [← neg_nonneg, ← toDouble_neg]
    exact toDouble_nonneg (neg_nonneg.2 h)
  have habs := abs_timestampAt hN hsmall
  have hslack := spacing_clog hN hsmall
  have hshift := abs_shift_le N
  have hplaces := le_places hsmall
  rw [toMs_eq_iff_abs hsign, toMs]
  generalize |timestampAt (N / 1000) (N % 1000 * 1000)| * 1000 = x at *
  generalize N.natAbs = n at *
  have hpow : (0 : ℚ) < 2 ^ places n := by positivity
  have hfine : (2 : ℚ) ^ 11 ≤ 2 ^ places n := pow_le_pow_right₀ (by norm_num) hplaces
  have hclose : |x - n| ≤ 1 / 4 := by
    have hround := abs_le.1 (abs_roundHalfEven_sub_le ((n + shift N) * 2 ^ places n / 125))
    have hoff : |x * 2 ^ places n - (n + shift N) * 2 ^ places n| ≤ 125 / 2 := by
      rw [habs, abs_le]
      constructor <;> linarith
    have hsum : |x - (n + shift N)| ≤ 1 / 8 := by
      refine le_of_mul_le_mul_right ?_ hpow
      rw [← abs_of_pos hpow, ← abs_mul, sub_mul, abs_of_pos hpow]
      linarith
    rw [abs_le] at hshift hsum ⊢
    constructor <;> linarith
  rw [toInt_toDouble_eq_iff hN hsmall hclose, ← mul_le_mul_iff_left₀ hpow, sub_mul, hslack, habs]

/-- From 64 seconds on the microseconds' own rounding does not matter. -/
theorem roundHalfEven_shifted (hlarge : 64000 ≤ N.natAbs) :
    roundHalfEven ((N.natAbs + shift N) * 2 ^ places N.natAbs / 125) =
      significand N.natAbs := by
  have hplaces : places N.natAbs ≤ 43 := by
    have hbinade : 16 ≤ binade N.natAbs := Nat.le_log_of_pow_le (by norm_num) (by omega)
    unfold places
    omega
  have hpow : (2 : ℚ) ^ places N.natAbs ≤ 2 ^ 43 := pow_le_pow_right₀ (by norm_num) hplaces
  have hshift : |shift N * 2 ^ places N.natAbs| ≤ 62 / 2 ^ 7 := by
    rw [abs_mul, abs_of_pos (by positivity : (0 : ℚ) < 2 ^ places N.natAbs)]
    calc |shift N| * 2 ^ places N.natAbs ≤ 62 / 2 ^ 50 * 2 ^ 43 :=
          mul_le_mul (abs_shift_le N) hpow (by positivity) (by norm_num)
      _ = 62 / 2 ^ 7 := by norm_num
  have hdrift : |(drift N.natAbs : ℚ)| ≤ 62 := by exact_mod_cast abs_drift_le N.natAbs
  have hsignificand := significand_mul N.natAbs
  refine roundHalfEven_eq ?_
  rw [add_mul]
  rw [abs_le] at hshift hdrift
  rw [abs_lt]
  constructor <;> linarith

/-- **Which times are sent as they are.** -/
theorem toMs_timestampAt_iff (hsmall : N.natAbs < 2 ^ 48) :
    toMs (timestampAt (N / 1000) (N % 1000 * 1000)) = N ↔ SentExactly N := by
  rcases Nat.eq_zero_or_pos N.natAbs with hzero | hN
  · obtain rfl := Int.natAbs_eq_zero.1 hzero
    exact iff_of_true (by decide +kernel) (by decide +kernel)
  · rw [toMs_timestampAt hN hsmall, SentExactly]
    split_ifs with hlarge
    · rw [roundHalfEven_shifted hlarge, significand_mul]
      generalize N.natAbs = n at *
      have hcast : (n * 2 ^ places n - slack n : ℚ) ≤ n * 2 ^ places n + drift n ↔
          -(slack n : ℤ) ≤ drift n := by
        rw [sub_eq_add_neg, add_le_add_iff_left]
        norm_cast
      rw [hcast, drift, slack]
      have := residue_lt n
      split_ifs <;> omega
    · rw [← div_le_iff₀' (by norm_num), ← Int.ceil_le, le_roundHalfEven_iff]

/-- A time that is sent as it is has been read in its own second. -/
theorem second_eq {u : ℤ} (hsmall : N.natAbs < 2 ^ 48)
    (h : toMs (timestampAt u (N % 1000 * 1000)) = N) : u = N / 1000 := by
  have hmul := toDouble_micros (m := N % 1000) (by omega)
  have hdrift := abs_le.1 (abs_drift_div_le (m := (N % 1000).toNat) (by omega))
  have hrest : (0 : ℚ) ≤ (N % 1000 : ℤ) ∧ ((N % 1000 : ℤ) : ℚ) ≤ 999 := by
    constructor
    · exact_mod_cast (by omega : 0 ≤ N % 1000)
    · exact_mod_cast (by omega : N % 1000 ≤ 999)
  set micro := toDouble ((N % 1000 * 1000 : ℤ) / 1000000)
  have hsum := abs_toDouble_sub_le_abs (u + micro)
  have htimestamp : timestampAt u (N % 1000 * 1000) = toDouble (u + micro) := rfl
  rw [toMs, htimestamp] at h
  set seconds := toDouble (u + micro)
  have hproduct := abs_toDouble_sub_le_abs (seconds * 1000)
  have hint := abs_toInt_sub_lt (toDouble (seconds * 1000))
  rw [h] at hint
  have hsplit : (N : ℚ) = 1000 * (N / 1000 : ℤ) + (N % 1000 : ℤ) := by
    exact_mod_cast (Int.mul_ediv_add_emod N 1000).symm
  have hsize : |((N / 1000 : ℤ) : ℚ)| ≤ 2 ^ 39 := by
    rw [abs_le]
    constructor
    · exact_mod_cast (by omega : -2 ^ 39 ≤ N / 1000)
    · exact_mod_cast (by omega : N / 1000 ≤ 2 ^ 39)
  have hu : |(u : ℚ)| ≤ |((N / 1000 : ℤ) : ℚ)| + |(u : ℚ) - (N / 1000 : ℤ)| := by
    have := abs_add_le ((N / 1000 : ℤ) : ℚ) (u - (N / 1000 : ℤ))
    rwa [add_sub_cancel] at this
  have hsum' : |u + micro| ≤ |(u : ℚ)| + 1 :=
    (abs_add_le _ _).trans (add_le_add_right (abs_le.2 ⟨by linarith, by linarith⟩) _)
  have hseconds : |seconds * 1000| ≤ 2000 * (|(u : ℚ)| + 1) := by
    have hgrow : |seconds| ≤ |u + micro| + |seconds - (u + micro)| := by
      have := abs_add_le (u + micro) (seconds - (u + micro))
      rwa [add_sub_cancel] at this
    have hnonneg := abs_nonneg (u : ℚ)
    rw [abs_mul, abs_of_pos (by norm_num : (0 : ℚ) < 1000)]
    linarith
  -- the roundings and the truncation together are off by less than half a second
  have hclose : |(u : ℚ) - (N / 1000 : ℤ)| ≤ 1 / 1000 + (|(u : ℚ)| + 1) / 2 ^ 50 := by
    have hsum := abs_le.1 (hsum.trans (div_le_div_of_nonneg_right hsum' (by norm_num)))
    have hproduct := abs_le.1
      (hproduct.trans (div_le_div_of_nonneg_right hseconds (by norm_num)))
    have hint := abs_lt.1 hint
    have hnonneg := abs_nonneg (u : ℚ)
    rw [abs_le]
    constructor <;> linarith
  have hlt : |(u : ℚ) - (N / 1000 : ℤ)| < 1 := by linarith
  exact sub_eq_zero.1 (Int.abs_lt_one_iff.1 (by exact_mod_cast hlt))

end Sent

/-! ## From the exchange to the program -/

section Read

variable {n : ℕ} {N ms : ℤ}

/-- The drift leaves the second. -/
theorem rest_bounds (hsmall : n < 2 ^ 48) :
    0 ≤ (n % 1000 : ℕ) * 2 ^ places n + drift n ∧
      (n % 1000 : ℕ) * 2 ^ places n + drift n < 1000 * 2 ^ places n := by
  have hfine : (2 : ℤ) ^ 11 ≤ 2 ^ places n := pow_le_pow_right₀ (by norm_num) (le_places hsmall)
  have hdrift := abs_le.1 (abs_drift_le n)
  rcases Nat.eq_zero_or_pos (n % 1000) with hzero | hpos
  · rw [hzero, drift_eq_zero (by omega)]
    constructor <;> simp
  · have hlow : (2 : ℤ) ^ places n ≤ (n % 1000 : ℕ) * 2 ^ places n :=
      le_mul_of_one_le_left (by positivity) (by exact_mod_cast hpos)
    have hhigh : ((n % 1000 : ℕ) : ℤ) * 2 ^ places n ≤ 999 * 2 ^ places n :=
      mul_le_mul_of_nonneg_right (by omega) (by positivity)
    constructor <;> linarith

/-- The double of `n` thousandths: its whole part, and the rest. -/
theorem toDouble_thousandths_parts (hn : 0 < n) (hsmall : n < 2 ^ 48) :
    toInt (toDouble (n / 1000)) = (n / 1000 : ℕ) ∧
      (toDouble (n / 1000) - (n / 1000 : ℕ)) * 1000000 =
        1000 * ((n % 1000 : ℕ) + drift n / 2 ^ places n) := by
  have hdouble := toDouble_thousandths hn hsmall
  have hpow : (0 : ℚ) < 2 ^ places n := by positivity
  have hsplit := Nat.div_add_mod n 1000
  have hrest := rest_bounds hsmall
  generalize n / 1000 = q at *
  generalize n % 1000 = m at *
  have hbelow : (0 : ℚ) ≤ m + drift n / 2 ^ places n := by
    rw [← mul_nonneg_iff_of_pos_right hpow, add_mul, div_mul_cancel₀ _ hpow.ne']
    exact_mod_cast hrest.1
  have habove : (m + drift n / 2 ^ places n : ℚ) < 1000 := by
    rw [← mul_lt_mul_iff_left₀ hpow, add_mul, div_mul_cancel₀ _ hpow.ne']
    exact_mod_cast hrest.2
  have hcast : (1000 : ℚ) * q + m = n := by exact_mod_cast hsplit
  constructor
  · rw [toInt_eq_iff (toDouble_nonneg (by positivity)), Int.cast_natCast]
    constructor <;> linarith
  · linarith

/-- Microseconds are rounded right when they are off by less than half of one, whatever the double
of them. -/
theorem roundHalfEven_micros_iff {m : ℕ} (hsmall : n < 2 ^ 48) (hm : m < 1000) :
    roundHalfEven (toDouble (1000 * (m + drift n / 2 ^ places n))) = 1000 * m ↔
      2000 * |drift n| < 2 ^ places n := by
  have ha := le_places hsmall
  have hdrift : |(drift n : ℚ)| ≤ 62 := by exact_mod_cast abs_drift_le n
  have hdrift' := abs_drift_le n
  generalize drift n = d at *
  generalize places n = a at *
  have hpow : (0 : ℚ) < 2 ^ a := by positivity
  have hfine : (2 : ℚ) ^ 11 ≤ 2 ^ a := pow_le_pow_right₀ (by norm_num) ha
  have hm' : (m : ℚ) ≤ 999 := by exact_mod_cast Nat.lt_succ_iff.1 hm
  have hm0 : (0 : ℚ) ≤ m := Nat.cast_nonneg m
  set off : ℚ := 1000 * (d / 2 ^ a) with hoff
  have hsize : |off| * 2 ^ a = 1000 * |(d : ℚ)| := by
    rw [hoff, abs_mul, abs_div, abs_of_pos hpow, abs_of_pos (by norm_num : (0 : ℚ) < 1000),
      mul_assoc, div_mul_cancel₀ _ hpow.ne']
  have hsmall : |off| ≤ 31 := by
    refine le_of_mul_le_mul_right ?_ hpow
    linarith
  -- the product by a million is off by less than `2 ^ (-33)`
  have herror : |toDouble (1000 * m + off) - (1000 * m + off)| ≤ 1 / 2 ^ 33 := by
    refine (abs_toDouble_sub_le_abs _).trans ?_
    have := abs_le.1 hsmall
    rw [div_le_div_iff₀ (by norm_num) (by norm_num), one_mul]
    have habs : |1000 * m + off| ≤ 2 ^ 20 := by
      rw [abs_le]
      constructor <;> linarith
    linarith
  have htotal : 1000 * (m + d / 2 ^ a) = 1000 * (m : ℚ) + off := by rw [mul_add]
  have hmicros : ∀ b : ℚ, |off| ≤ b →
      |toDouble (1000 * m + off) - (1000 * m : ℤ)| ≤ b + 1 / 2 ^ 33 := by
    intro b hb
    have := abs_le.1 herror
    have := abs_le.1 hb
    push_cast
    rw [abs_le]
    constructor <;> linarith
  rw [htotal]
  rcases Nat.lt_or_ge 17 a with hclose | hfar
  · have hfine : (2 : ℤ) ^ 18 ≤ 2 ^ a := pow_le_pow_right₀ (by norm_num) hclose
    have hfine' : (2 : ℚ) ^ 18 ≤ 2 ^ a := by exact_mod_cast hfine
    have hquarter : |off| ≤ 1 / 4 := by
      refine le_of_mul_le_mul_right ?_ hpow
      linarith
    refine iff_of_true (roundHalfEven_eq ((hmicros _ hquarter).trans_lt (by norm_num))) ?_
    linarith
  · have hcoarse : (2 : ℚ) ^ a ≤ 2 ^ 17 := pow_le_pow_right₀ (by norm_num) hfar
    constructor
    · intro hround
      have hhalf := abs_roundHalfEven_sub_le (toDouble (1000 * m + off))
      rw [hround] at hhalf
      have hoff' : |off| ≤ 1 / 2 + 1 / 2 ^ 33 := by
        have := abs_le.1 herror
        have := abs_le.1 hhalf
        push_cast at this
        rw [abs_le]
        constructor <;> linarith
      have hle : 2000 * |(d : ℚ)| < 2 ^ a + 1 := by
        have := mul_le_mul_of_nonneg_right hoff' hpow.le
        linarith
      have hle' : 2000 * |d| ≤ 2 ^ a := Int.lt_add_one_iff.1 (by exact_mod_cast hle)
      refine lt_of_le_of_ne hle' fun heq => ?_
      -- a power of two is not a multiple of 125
      have hdvd : (5 : ℤ) ∣ 2 ^ a := heq ▸ Dvd.intro (400 * |d|) (by ring)
      have htwo : 5 ∣ 2 := Nat.prime_five.dvd_of_dvd_pow (n := a) (by exact_mod_cast hdvd)
      omega
    · intro hlt
      have hle : 2000 * |(d : ℚ)| ≤ 2 ^ a - 1 := by
        exact_mod_cast Int.le_sub_one_of_lt hlt
      have hoff' : |off| ≤ 1 / 2 - 1 / 2 ^ 18 := by
        refine le_of_mul_le_mul_right ?_ hpow
        linarith
      exact roundHalfEven_eq ((hmicros _ hoff').trans_lt (by norm_num))

theorem microsOf_natCast_iff (hsmall : n < 2 ^ 48) :
    microsOf (toDouble ((n : ℤ) / 1000)) = 1000 * n ↔ ReadExactly n := by
  have hexact : ReadExactly n ↔ 2000 * |drift n| < 2 ^ places n := by
    rw [abs_drift, ReadExactly, Int.natAbs_natCast]
    norm_cast
  rw [Int.cast_natCast, hexact]
  rcases Nat.eq_zero_or_pos n with rfl | hn
  · simp [microsOf, toInt, Timedelta.seconds, roundHalfEven, drift_eq_zero]
  · obtain ⟨hwhole, hrest⟩ := toDouble_thousandths_parts hn hsmall
    have hsplit := Nat.div_add_mod n 1000
    have hm : n % 1000 < 1000 := Nat.mod_lt n (by norm_num)
    rw [microsOf, hwhole, Int.cast_natCast, hrest, Timedelta.seconds,
      ← roundHalfEven_micros_iff hsmall hm]
    omega

@[simp] theorem microsOf_neg (x : ℚ) : microsOf (-x) = -microsOf x := by
  have hrest : (-x - (-toInt x : ℤ)) * 1000000 = -((x - toInt x) * 1000000) := by
    push_cast
    ring
  simp only [microsOf, toInt_neg, hrest, toDouble_neg, roundHalfEven_neg, Timedelta.seconds]
  ring

theorem abs_microsOf_sub_le (ms : ℤ) :
    |microsOf (toDouble (ms / 1000)) - 1000 * (ms : ℚ)| ≤ 2 + |(ms : ℚ)| / 2 ^ 40 := by
  set seconds := toDouble (ms / 1000) with hseconds
  have hdouble := abs_toDouble_sub_le_abs (ms / 1000 : ℚ)
  rw [← hseconds, abs_div, abs_of_pos (by norm_num : (0 : ℚ) < 1000)] at hdouble
  have hwhole := abs_toInt_sub_lt seconds
  set rest := (seconds - toInt seconds) * 1000000 with hrest
  have hmicros := abs_toDouble_sub_le_abs rest
  have hround := abs_roundHalfEven_sub_le (toDouble rest)
  have hsize : |rest| ≤ 1000000 := by
    rw [hrest, abs_mul, abs_sub_comm, abs_of_pos (by norm_num : (0 : ℚ) < 1000000)]
    linarith
  have hmicrosOf : (microsOf seconds : ℚ) = 1000000 * toInt seconds +
      roundHalfEven (toDouble rest) := by
    rw [microsOf, Timedelta.seconds]
    push_cast
    rfl
  have hnonneg := abs_nonneg (ms : ℚ)
  have hdouble := abs_le.1 hdouble
  have hround := abs_le.1 hround
  have hmicros := abs_le.1 (hmicros.trans (div_le_div_of_nonneg_right hsize (by norm_num)))
  rw [hmicrosOf, abs_le]
  constructor <;> linarith

theorem msToUtcNaive_eq_some_iff {t : Datetime} :
    msToUtcNaive ms = some t ↔ microsOf (toDouble (ms / 1000)) = t ∧ Datetime.InRange t := by
  unfold msToUtcNaive
  dsimp only
  split_ifs with h
  · rw [Option.some.injEq]
    exact ⟨fun heq => ⟨heq, heq ▸ h⟩, And.left⟩
  · exact iff_of_false (by simp) fun hboth => h (hboth.1 ▸ hboth.2)

theorem natAbs_lt_of_inRange (hrange : Datetime.InRange (1000 * N)) : N.natAbs < 2 ^ 48 := by
  obtain ⟨hmin, hmax⟩ := hrange
  lia

/-- **Which times are read as they are.** -/
theorem msToUtcNaive_eq_iff (hrange : Datetime.InRange (1000 * N)) :
    msToUtcNaive N = some (1000 * N) ↔ ReadExactly N := by
  have hsmall := natAbs_lt_of_inRange hrange
  rw [msToUtcNaive_eq_some_iff, and_iff_left hrange]
  obtain ⟨n, rfl | rfl⟩ := N.eq_nat_or_neg
  · exact microsOf_natCast_iff (by simpa using hsmall)
  · have hneg : ReadExactly (-n) ↔ ReadExactly n := by simp [ReadExactly]
    rw [hneg, ← microsOf_natCast_iff (by simpa using hsmall)]
    push_cast
    rw [neg_div, toDouble_neg, microsOf_neg, mul_neg, neg_inj]

/-- What is read as a number of milliseconds is that number. -/
theorem eq_of_msToUtcNaive (h : msToUtcNaive ms = some (1000 * N)) : ms = N := by
  obtain ⟨heq, hrange⟩ := msToUtcNaive_eq_some_iff.1 h
  have hsmall : (N.natAbs : ℚ) < 2 ^ 48 := by exact_mod_cast natAbs_lt_of_inRange hrange
  rw [Nat.cast_natAbs, Int.cast_abs] at hsmall
  have herror := abs_microsOf_sub_le ms
  rw [heq] at herror
  push_cast at herror
  have hfar : |(ms : ℚ)| ≤ |(N : ℚ)| + |(ms : ℚ) - N| := by
    have := abs_add_le (N : ℚ) (ms - N)
    rwa [add_sub_cancel] at this
  have hscale : |1000 * (N : ℚ) - 1000 * ms| = 1000 * |(ms : ℚ) - N| := by
    rw [← mul_sub, abs_mul, abs_sub_comm, abs_of_pos (by norm_num)]
  have hclose : |(ms : ℚ) - N| < 1 := by
    rw [hscale] at herror
    linarith
  exact sub_eq_zero.1 (Int.abs_lt_one_iff.1 (by exact_mod_cast hclose))

end Read

end AlphaOne.MarketData

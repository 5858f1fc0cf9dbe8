import Mathlib.Data.List.Basic
import Mathlib.Algebra.GroupWithZero.Nat
import Mathlib.Order.Basic
import Mathlib.Order.Nat
import Mathlib.Tactic.Tauto

/-!
# The proleptic Gregorian calendar

Python's `datetime` counts days from 1 January of the year 1, whose ordinal is 1. Here are its
conversions between the ordinal of a day and its year, month and day of the month, and the proof
that they are inverse on every ordinal: `toOrdinal_ofOrdinal`, with `ofOrdinal_valid` for the
ranges.
-/

namespace AlphaOne.Foundations

/-- A day of the calendar, as `date` has it. -/
structure CivilDay where
  year : ℕ
  month : ℕ
  day : ℕ
  deriving DecidableEq, Repr

namespace CivilDay

def isLeap (year : ℕ) : Bool := year % 4 = 0 && (year % 100 ≠ 0 || year % 400 = 0)

/-- The number of days before 1 January of the year. -/
def daysBeforeYear (year : ℕ) : ℕ :=
  (year - 1) * 365 + (year - 1) / 4 - (year - 1) / 100 + (year - 1) / 400

def daysInMonth (leap : Bool) : ℕ → ℕ
  | 2 => if leap then 29 else 28
  | 4 | 6 | 9 | 11 => 30
  | _ => 31

/-- The number of days of the year before the first of the month. -/
def daysBeforeMonth (leap : Bool) (month : ℕ) : ℕ :=
  ((List.range' 1 (month - 1)).map (daysInMonth leap)).sum

/-- What the constructor of `date` accepts. -/
def Valid (d : CivilDay) : Prop :=
  1 ≤ d.year ∧ d.year ≤ 9999 ∧ 1 ≤ d.month ∧ d.month ≤ 12 ∧
    1 ≤ d.day ∧ d.day ≤ daysInMonth (isLeap d.year) d.month

instance (d : CivilDay) : Decidable d.Valid := inferInstanceAs (Decidable (_ ∧ _))

/-- `_ymd2ord`. -/
def toOrdinal (d : CivilDay) : ℕ :=
  daysBeforeYear d.year + daysBeforeMonth (isLeap d.year) d.month + d.day

/-- The month and the day of the month of the day `n` of a year, from 0. The month is estimated, and
is the one before when the estimate starts after the day. -/
def monthAndDay (leap : Bool) (n : ℕ) : ℕ × ℕ :=
  let month := (n + 50) / 32
  if daysBeforeMonth leap month > n then (month - 1, n - daysBeforeMonth leap (month - 1) + 1)
  else (month, n - daysBeforeMonth leap month + 1)

/-- `_ord2ymd`. The cycles are of 400, 100, 4 years and of one; the last day of a cycle of 400 or
of 4 years would start one more of the next. -/
def ofOrdinal (ordinal : ℕ) : CivilDay :=
  let n := ordinal - 1
  let n400 := n / 146097
  let n := n % 146097
  let n100 := n / 36524
  let n := n % 36524
  let n4 := n / 1461
  let n := n % 1461
  let n1 := n / 365
  let n := n % 365
  let year := n400 * 400 + 1 + n100 * 100 + n4 * 4 + n1
  if n1 = 4 ∨ n100 = 4 then ⟨year - 1, 12, 31⟩
  else
    let leap : Bool := n1 = 3 && (n4 ≠ 24 || n100 = 3)
    let (month, day) := monthAndDay leap n
    ⟨year, month, day⟩

/-- `date.max.toordinal()`. -/
def maxOrdinal : ℕ := 3652059

/-! ## The day within its year -/

theorem monthAndDay_spec (leap : Bool) (n : ℕ) (h : n < if leap then 366 else 365) :
    1 ≤ (monthAndDay leap n).1 ∧ (monthAndDay leap n).1 ≤ 12 ∧ 1 ≤ (monthAndDay leap n).2 ∧
      (monthAndDay leap n).2 ≤ daysInMonth leap (monthAndDay leap n).1 ∧
      daysBeforeMonth leap (monthAndDay leap n).1 + (monthAndDay leap n).2 = n + 1 := by
  have hall : ∀ leap : Bool, ∀ n < 366, (n < if leap then 366 else 365) →
      1 ≤ (monthAndDay leap n).1 ∧ (monthAndDay leap n).1 ≤ 12 ∧ 1 ≤ (monthAndDay leap n).2 ∧
        (monthAndDay leap n).2 ≤ daysInMonth leap (monthAndDay leap n).1 ∧
        daysBeforeMonth leap (monthAndDay leap n).1 + (monthAndDay leap n).2 = n + 1 := by
    decide +kernel
  exact hall leap n (lt_of_lt_of_le h (by split <;> omega)) h

/-! ## The year within its cycles -/

section Cycles

variable {q c f y : ℕ}

theorem daysBeforeYear_cycles (h100 : c ≤ 3) (h4 : f ≤ 24) (h1 : y ≤ 3) :
    daysBeforeYear (q * 400 + 1 + c * 100 + f * 4 + y) =
      q * 146097 + c * 36524 + f * 1461 + y * 365 := by
  have hyears : q * 400 + 1 + c * 100 + f * 4 + y - 1 =
      q * 400 + c * 100 + f * 4 + y := by omega
  have hfours : (q * 400 + c * 100 + f * 4 + y) / 4 = q * 100 + c * 25 + f := by
    omega
  have hcenturies : (q * 400 + c * 100 + f * 4 + y) / 100 = q * 4 + c := by omega
  have hcycles : (q * 400 + c * 100 + f * 4 + y) / 400 = q := by omega
  rw [daysBeforeYear, hyears, hfours, hcenturies, hcycles]
  omega

theorem isLeap_cycles (h100 : c ≤ 3) (h4 : f ≤ 24) (h1 : y ≤ 3) :
    isLeap (q * 400 + 1 + c * 100 + f * 4 + y) =
      (y = 3 && (f ≠ 24 || c = 3)) := by
  have hfour : (q * 400 + 1 + c * 100 + f * 4 + y) % 4 = 0 ↔ y = 3 := by omega
  have hcentury : (q * 400 + 1 + c * 100 + f * 4 + y) % 100 = 0 ↔ f = 24 ∧ y = 3 := by
    omega
  have hcycle : (q * 400 + 1 + c * 100 + f * 4 + y) % 400 = 0 ↔
      c = 3 ∧ f = 24 ∧ y = 3 := by omega
  rw [isLeap, Bool.eq_iff_iff]
  simp only [Bool.and_eq_true, Bool.or_eq_true, decide_eq_true_eq, ne_eq, hfour, hcentury, hcycle]
  tauto

end Cycles

/-- What is known of the remainders `_ord2ymd` splits a day number into. -/
theorem cycles_bounds (n : ℕ) :
    let n100 := n % 146097 / 36524
    let n4 := n % 146097 % 36524 / 1461
    let n1 := n % 146097 % 36524 % 1461 / 365
    let day := n % 146097 % 36524 % 1461 % 365
    n = n / 146097 * 146097 + n100 * 36524 + n4 * 1461 + n1 * 365 + day ∧ day < 365 ∧ n4 ≤ 24 ∧
      (n100 ≤ 3 ∨ n100 = 4 ∧ n4 = 0 ∧ n1 = 0 ∧ day = 0) ∧
      (n1 ≤ 3 ∨ n1 = 4 ∧ day = 0 ∧ n4 ≤ 23) := by
  refine ⟨by omega, by omega, by omega, by omega, by omega⟩

/-- **The conversions are inverse**, and the month and the day are in their ranges. -/
theorem ofOrdinal_spec {ordinal : ℕ} (h : 1 ≤ ordinal) :
    (ofOrdinal ordinal).toOrdinal = ordinal ∧ 1 ≤ (ofOrdinal ordinal).year ∧
      1 ≤ (ofOrdinal ordinal).month ∧ (ofOrdinal ordinal).month ≤ 12 ∧
      1 ≤ (ofOrdinal ordinal).day ∧
      (ofOrdinal ordinal).day ≤
        daysInMonth (isLeap (ofOrdinal ordinal).year) (ofOrdinal ordinal).month := by
  obtain ⟨hn, hday, h4, h100, h1⟩ := cycles_bounds (ordinal - 1)
  simp only [ofOrdinal]
  generalize (ordinal - 1) / 146097 = n400 at *
  generalize (ordinal - 1) % 146097 / 36524 = n100 at *
  generalize (ordinal - 1) % 146097 % 36524 / 1461 = n4 at *
  generalize (ordinal - 1) % 146097 % 36524 % 1461 / 365 = n1 at *
  generalize (ordinal - 1) % 146097 % 36524 % 1461 % 365 = day at *
  by_cases hlast : n1 = 4 ∨ n100 = 4
  · -- The last day of a cycle belongs to the last year of it, which is a leap year.
    rw [if_pos hlast]
    have hyear : ∃ n100' n4', n100' ≤ 3 ∧ n4' ≤ 24 ∧ (n4' ≠ 24 ∨ n100' = 3) ∧
        n400 * 400 + 1 + n100 * 100 + n4 * 4 + n1 - 1 =
          n400 * 400 + 1 + n100' * 100 + n4' * 4 + 3 ∧
        n100 * 36524 + n4 * 1461 + n1 * 365 = n100' * 36524 + n4' * 1461 + 3 * 365 + 365 := by
      rcases hlast with rfl | rfl
      · exact ⟨n100, n4, by omega, h4, by omega, by omega, by omega⟩
      · exact ⟨3, 24, by omega, by omega, by omega, by omega, by omega⟩
    obtain ⟨n100', n4', h100', h4', hleap, hyear, hdays⟩ := hyear
    rw [hyear]
    have hleap' : isLeap (n400 * 400 + 1 + n100' * 100 + n4' * 4 + 3) = true := by
      rw [isLeap_cycles h100' h4' le_rfl]
      simpa using hleap
    have hbefore : daysBeforeMonth
        (isLeap (n400 * 400 + 1 + n100' * 100 + n4' * 4 + 3)) 12 = 335 := by
      rw [hleap']
      decide
    have hstart := daysBeforeYear_cycles (q := n400) h100' h4' (le_refl 3)
    refine ⟨?_, by simp only; omega, by simp, by simp, by simp, by simp [daysInMonth]⟩
    simp only [toOrdinal]
    omega
  · rw [if_neg hlast]
    have h100' : n100 ≤ 3 := by omega
    have h1' : n1 ≤ 3 := by omega
    rw [← isLeap_cycles (q := n400) h100' h4 h1']
    obtain ⟨hm1, hm12, hd1, hd, hsum⟩ := monthAndDay_spec
      (isLeap (n400 * 400 + 1 + n100 * 100 + n4 * 4 + n1)) day
      (lt_of_lt_of_le hday (by split <;> omega))
    refine ⟨?_, by simp only; omega, hm1, hm12, hd1, hd⟩
    unfold toOrdinal
    simp only
    rw [daysBeforeYear_cycles h100' h4 h1']
    omega

theorem toOrdinal_ofOrdinal {ordinal : ℕ} (h : 1 ≤ ordinal) :
    (ofOrdinal ordinal).toOrdinal = ordinal :=
  (ofOrdinal_spec h).1

/-- The year 10000 starts after the last ordinal. -/
theorem year_ofOrdinal_le {ordinal : ℕ} (h : 1 ≤ ordinal) (hmax : ordinal ≤ maxOrdinal) :
    (ofOrdinal ordinal).year ≤ 9999 := by
  obtain ⟨hord, -, -, -, hd1, -⟩ := ofOrdinal_spec h
  by_contra hlate
  have hbefore : 3652059 ≤ daysBeforeYear (ofOrdinal ordinal).year := by
    unfold daysBeforeYear
    omega
  have : daysBeforeYear (ofOrdinal ordinal).year < ordinal := by
    unfold toOrdinal at hord
    omega
  unfold maxOrdinal at hmax
  omega

theorem ofOrdinal_valid {ordinal : ℕ} (h : 1 ≤ ordinal) (hmax : ordinal ≤ maxOrdinal) :
    (ofOrdinal ordinal).Valid := by
  obtain ⟨-, hy1, hm1, hm12, hd1, hd⟩ := ofOrdinal_spec h
  exact ⟨hy1, year_ofOrdinal_le h hmax, hm1, hm12, hd1, hd⟩

example : ofOrdinal 719163 = ⟨1970, 1, 1⟩ ∧ toOrdinal ⟨9999, 12, 31⟩ = maxOrdinal := by
  decide +kernel

/-! ## Weeks -/

/-- `_isoweek1monday`: the ordinal of the Monday that starts the week of the year's first
Thursday. -/
def isoWeek1Monday (year : ℕ) : ℤ :=
  let firstday : ℤ := (toOrdinal ⟨year, 1, 1⟩ : ℤ)
  let firstweekday := (firstday + 6) % 7
  let week1monday := firstday - firstweekday
  if firstweekday > 3 then week1monday + 7 else week1monday

/-- `date.isocalendar()`: the year and the number of the week a day falls into. The first days of
a year may belong to the last week of the year before, and the last ones to the first week of the
next. -/
def isoCalendar (ordinal : ℕ) : ℕ × ℤ :=
  let year := (ofOrdinal ordinal).year
  let week := ((ordinal : ℤ) - isoWeek1Monday year) / 7
  if week < 0 then (year - 1, ((ordinal : ℤ) - isoWeek1Monday (year - 1)) / 7 + 1)
  else if week ≥ 52 ∧ (ordinal : ℤ) ≥ isoWeek1Monday (year + 1) then (year + 1, 1)
  else (year, week + 1)

example : isoCalendar (toOrdinal ⟨2024, 12, 30⟩) = (2025, 1) ∧
    isoCalendar (toOrdinal ⟨2021, 1, 3⟩) = (2020, 53) := by
  decide +kernel

end CivilDay

end AlphaOne.Foundations

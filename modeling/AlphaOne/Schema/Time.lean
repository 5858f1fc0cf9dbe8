import Mathlib.Data.Rat.Defs
import Mathlib.Algebra.Order.Ring.Int
import Mathlib.Algebra.Order.Ring.Unbundled.Rat

/-!
# Dates and durations

The program keeps every time as a naive UTC `datetime`, whose resolution is one microsecond. A
`Datetime` is the number of microseconds since the epoch, a `Timedelta` a number of
microseconds, so that the comparisons and the arithmetic of the source are those of `ℤ`.
-/

namespace AlphaOne

/-- A naive UTC `datetime`, in microseconds since 1970-01-01T00:00:00. -/
abbrev Datetime := ℤ

/-- A `timedelta`, in microseconds. -/
abbrev Timedelta := ℤ

namespace Timedelta

def seconds (n : ℤ) : Timedelta := 1000000 * n

def minutes (n : ℤ) : Timedelta := seconds (60 * n)

def hours (n : ℤ) : Timedelta := minutes (60 * n)

def days (n : ℤ) : Timedelta := hours (24 * n)

/-- `timedelta.total_seconds()`. -/
def totalSeconds (d : Timedelta) : ℚ := d / 1000000

end Timedelta

namespace Datetime

/-- `datetime.date()`, as the number of days since the epoch. -/
def date (t : Datetime) : ℤ := t / Timedelta.days 1

/-- `datetime(now.year, now.month, now.day)`: the midnight at which the day of `t` starts. -/
def dayStart (t : Datetime) : Datetime := date t * Timedelta.days 1

end Datetime

/-- From `datetime.min` to `datetime.max`. -/
def Datetime.InRange (t : Datetime) : Prop := -62135596800000000 ≤ t ∧ t ≤ 253402300799999999

instance (t : Datetime) : Decidable (Datetime.InRange t) := by
  unfold Datetime.InRange; infer_instance

/-- A `timedelta` has at most 999999999 days. -/
def Timedelta.InRange (d : Timedelta) : Prop :=
  Timedelta.days (-999999999) ≤ d ∧ d < Timedelta.days 1000000000

instance (d : Timedelta) : Decidable (Timedelta.InRange d) := by
  unfold Timedelta.InRange; infer_instance

end AlphaOne

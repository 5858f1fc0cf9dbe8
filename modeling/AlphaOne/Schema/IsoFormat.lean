import AlphaOne.Foundations.Calendar
import AlphaOne.Foundations.Digits
import AlphaOne.Schema.Time

/-!
# Dates and datetimes as ISO text

`date.isoformat`, `datetime.isoformat` and their inverses `fromisoformat`, on the texts
`isoformat` writes: `YYYY-MM-DD` and `YYYY-MM-DDTHH:MM:SS`, with `.ffffff` when the microsecond is
not zero. A `date` is the number of its day since the epoch, as in `Datetime.date`.
-/

namespace AlphaOne

open Foundations

/-- The ordinal of 1970-01-01. -/
def epochOrdinal : ℤ := 719163

namespace Date

/-- The days `date` has, from `date.min` to `date.max`. -/
def Representable (date : ℤ) : Prop :=
  1 ≤ date + epochOrdinal ∧ date + epochOrdinal ≤ CivilDay.maxOrdinal

instance (date : ℤ) : Decidable (Representable date) := inferInstanceAs (Decidable (_ ∧ _))

def isoformat (date : ℤ) : List Char :=
  let d := CivilDay.ofOrdinal (date + epochOrdinal).toNat
  padded 4 d.year ++ '-' :: padded 2 d.month ++ '-' :: padded 2 d.day

/-- `date.fromisoformat`; `none` is its `ValueError`. -/
def fromisoformat (text : List Char) : Option ℤ :=
  if text.length = 10 ∧ text[4]? = some '-' ∧ text[7]? = some '-' then
    match ofDigits? (text.take 4), ofDigits? ((text.drop 5).take 2), ofDigits? (text.drop 8) with
    | some year, some month, some day =>
      let d : CivilDay := ⟨year, month, day⟩
      if d.Valid then some (d.toOrdinal - epochOrdinal) else none
    | _, _, _ => none
  else none

@[simp] theorem length_isoformat (date : ℤ) : (isoformat date).length = 10 := by
  simp [isoformat]

/-- **A date reads back from its text.** -/
theorem fromisoformat_isoformat {date : ℤ} (h : Representable date) :
    fromisoformat (isoformat date) = some date := by
  obtain ⟨hmin, hmax⟩ := h
  have hord : 1 ≤ (date + epochOrdinal).toNat := by omega
  have hvalid : (CivilDay.ofOrdinal (date + epochOrdinal).toNat).Valid :=
    CivilDay.ofOrdinal_valid hord (by omega)
  have hback := CivilDay.toOrdinal_ofOrdinal hord
  unfold isoformat
  generalize CivilDay.ofOrdinal (date + epochOrdinal).toNat = d at hvalid hback
  have hyear : ofDigits? (padded 4 d.year) = some d.year :=
    ofDigits?_padded_of_lt (by have := hvalid.2.1; omega)
  have hmonth : ofDigits? (padded 2 d.month) = some d.month :=
    ofDigits?_padded_of_lt (by have := hvalid.2.2.2.1; omega)
  have hday : ofDigits? (padded 2 d.day) = some d.day := by
    have hle : CivilDay.daysInMonth (CivilDay.isLeap d.year) d.month ≤ 31 := by
      unfold CivilDay.daysInMonth
      split <;> (try split) <;> omega
    exact ofDigits?_padded_of_lt (by have := hvalid.2.2.2.2.2; omega)
  have htake : (padded 4 d.year ++ '-' :: padded 2 d.month ++ '-' :: padded 2 d.day).take 4 =
      padded 4 d.year := by simp
  have hdrop :
      ((padded 4 d.year ++ '-' :: padded 2 d.month ++ '-' :: padded 2 d.day).drop 5).take 2 =
      padded 2 d.month := by simp [List.drop_append, List.take_append]
  have hlast : (padded 4 d.year ++ '-' :: padded 2 d.month ++ '-' :: padded 2 d.day).drop 8 =
      padded 2 d.day := by simp [List.drop_append, List.drop_eq_nil_of_le]
  have hdash : (padded 4 d.year ++ '-' :: padded 2 d.month ++ '-' :: padded 2 d.day)[4]? =
      some '-' := by simp
  have hdash' : (padded 4 d.year ++ '-' :: padded 2 d.month ++ '-' :: padded 2 d.day)[7]? =
      some '-' := by simp
  rw [fromisoformat, if_pos ⟨by simp, hdash, hdash'⟩, htake, hdrop, hlast, hyear, hmonth, hday]
  simp only [hvalid, if_true, hback, Option.some.injEq]
  omega

end Date

/-! ## The time of the day -/

/-- A time of the day, as `time` has it. -/
structure ClockTime where
  hour : ℕ
  minute : ℕ
  second : ℕ
  microsecond : ℕ
  deriving DecidableEq, Repr

namespace ClockTime

/-- What the constructor of `time` accepts. -/
def Valid (t : ClockTime) : Prop :=
  t.hour < 24 ∧ t.minute < 60 ∧ t.second < 60 ∧ t.microsecond < 1000000

instance (t : ClockTime) : Decidable t.Valid := inferInstanceAs (Decidable (_ ∧ _))

/-- The time `n` microseconds into the day. -/
def ofMicroseconds (n : ℕ) : ClockTime :=
  ⟨n / 3600000000, n / 60000000 % 60, n / 1000000 % 60, n % 1000000⟩

def toMicroseconds (t : ClockTime) : ℕ :=
  ((t.hour * 60 + t.minute) * 60 + t.second) * 1000000 + t.microsecond

/-- `HH:MM:SS`, with the microsecond when it is not zero. -/
def isoformat (t : ClockTime) : List Char :=
  padded 2 t.hour ++ ':' :: padded 2 t.minute ++ ':' :: padded 2 t.second ++
    (if t.microsecond = 0 then [] else '.' :: padded 6 t.microsecond)

/-- The fraction after the seconds, which may be absent. -/
def readFraction : List Char → Option ℕ
  | [] => some 0
  | '.' :: digits => if digits.length = 6 then ofDigits? digits else none
  | _ => none

def fromisoformat (text : List Char) : Option ClockTime :=
  if text[2]? = some ':' ∧ text[5]? = some ':' then
    match ofDigits? (text.take 2), ofDigits? ((text.drop 3).take 2),
        ofDigits? ((text.drop 6).take 2), readFraction (text.drop 8) with
    | some hour, some minute, some second, some microsecond =>
      let t : ClockTime := ⟨hour, minute, second, microsecond⟩
      if t.Valid then some t else none
    | _, _, _, _ => none
  else none

theorem ofMicroseconds_valid {n : ℕ} (h : n < 86400000000) : (ofMicroseconds n).Valid := by
  refine ⟨?_, ?_, ?_, ?_⟩ <;> simp only [ofMicroseconds] <;> omega

theorem toMicroseconds_ofMicroseconds (n : ℕ) : (ofMicroseconds n).toMicroseconds = n := by
  simp only [toMicroseconds, ofMicroseconds]
  omega

theorem readFraction_isoformat {microsecond : ℕ} (h : microsecond < 1000000) :
    readFraction (if microsecond = 0 then [] else '.' :: padded 6 microsecond) =
      some microsecond := by
  split_ifs with hzero
  · rw [hzero]
    rfl
  · rw [readFraction, if_pos (length_padded 6 microsecond)]
    exact ofDigits?_padded_of_lt h

theorem fromisoformat_isoformat {t : ClockTime} (h : t.Valid) :
    fromisoformat t.isoformat = some t := by
  obtain ⟨hhour, hminute, hsecond, hmicro⟩ := h
  have hread := readFraction_isoformat hmicro
  unfold isoformat
  generalize hrest : (if t.microsecond = 0 then [] else '.' :: padded 6 t.microsecond) = rest
    at hread
  set text := padded 2 t.hour ++ ':' :: padded 2 t.minute ++ ':' :: padded 2 t.second ++ rest
    with htext
  have hcolon : text[2]? = some ':' := by simp [htext]
  have hcolon' : text[5]? = some ':' := by simp [htext, List.getElem?_append]
  have hh : ofDigits? (text.take 2) = some t.hour := by
    have htake : text.take 2 = padded 2 t.hour := by simp [htext]
    rw [htake]
    exact ofDigits?_padded_of_lt (by omega)
  have hm : ofDigits? ((text.drop 3).take 2) = some t.minute := by
    have htake : (text.drop 3).take 2 = padded 2 t.minute := by
      simp [htext, List.drop_append, List.drop_eq_nil_of_le]
    rw [htake]
    exact ofDigits?_padded_of_lt (by omega)
  have hs : ofDigits? ((text.drop 6).take 2) = some t.second := by
    have htake : (text.drop 6).take 2 = padded 2 t.second := by
      simp [htext, List.drop_append, List.drop_eq_nil_of_le]
    rw [htake]
    exact ofDigits?_padded_of_lt (by omega)
  have hlast : text.drop 8 = rest := by
    simp [htext, List.drop_append, List.drop_eq_nil_of_le]
  rw [fromisoformat, if_pos ⟨hcolon, hcolon'⟩, hh, hm, hs, hlast, hread]
  have hvalid : ClockTime.Valid ⟨t.hour, t.minute, t.second, t.microsecond⟩ :=
    ⟨hhour, hminute, hsecond, hmicro⟩
  simp [hvalid]

end ClockTime

/-! ## Datetimes -/

namespace Datetime

/-- The times `datetime` has, from `datetime.min` to `datetime.max`. -/
def Representable (t : Datetime) : Prop := Date.Representable t.date

instance (t : Datetime) : Decidable (Representable t) :=
  inferInstanceAs (Decidable (Date.Representable _))

def isoformat (t : Datetime) : List Char :=
  Date.isoformat t.date ++
    'T' :: (ClockTime.ofMicroseconds (t % Timedelta.days 1).toNat).isoformat

/-- `datetime.fromisoformat`; a text without a time is midnight, and any separator will do. -/
def fromisoformat (text : List Char) : Option Datetime :=
  match Date.fromisoformat (text.take 10), text.drop 10 with
  | some date, [] => some (date * Timedelta.days 1)
  | some date, _ :: time =>
    (ClockTime.fromisoformat time).map fun t => date * Timedelta.days 1 + t.toMicroseconds
  | none, _ => none

/-- **A datetime reads back from its text.** -/
theorem fromisoformat_isoformat {t : Datetime} (h : t.Representable) :
    fromisoformat t.isoformat = some t := by
  have hday : Timedelta.days 1 = 86400000000 := by decide
  have htake : t.isoformat.take 10 = Date.isoformat t.date := by
    simp [isoformat]
  have hdrop : t.isoformat.drop 10 =
      'T' :: (ClockTime.ofMicroseconds (t % Timedelta.days 1).toNat).isoformat := by
    simp [isoformat]
  have hvalid : (ClockTime.ofMicroseconds (t % Timedelta.days 1).toNat).Valid := by
    refine ClockTime.ofMicroseconds_valid ?_
    have := Int.emod_lt_of_pos t (show 0 < Timedelta.days 1 by decide)
    lia
  have hsum : t.date * Timedelta.days 1 + ((t % Timedelta.days 1).toNat : ℤ) = t := by
    rw [Int.toNat_of_nonneg (Int.emod_nonneg t (by decide))]
    exact Int.ediv_mul_add_emod t (Timedelta.days 1)
  rw [fromisoformat, htake, hdrop, Date.fromisoformat_isoformat h]
  simp only [ClockTime.fromisoformat_isoformat hvalid, Option.map_some,
    ClockTime.toMicroseconds_ofMicroseconds, hsum]

example : isoformat 1709164800000250 = "2024-02-29T00:00:00.000250".toList := by decide +kernel

end Datetime

end AlphaOne

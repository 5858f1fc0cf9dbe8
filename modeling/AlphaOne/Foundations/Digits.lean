import Mathlib.Data.Nat.Notation
import Mathlib.Algebra.Order.Ring.Nat
import Mathlib.Tactic.Ring

/-!
# Decimal fields of a fixed width

Numbers as texts of a fixed number of decimal digits, as in a timestamp, and how they read back.
-/

namespace AlphaOne.Foundations

/-- The last `width` decimal digits of a number, with leading zeros. -/
def padded : ℕ → ℕ → List Char
  | 0, _ => []
  | width + 1, n => padded width (n / 10) ++ [Nat.digitChar (n % 10)]

/-- Append one digit to what has been read. -/
def readDigit (acc : Option ℕ) (c : Char) : Option ℕ :=
  acc.bind fun n => if c.isDigit then some (n * 10 + (c.toNat - 48)) else none

/-- The number a text of decimal digits stands for. -/
def ofDigits? (text : List Char) : Option ℕ := text.foldl readDigit (some 0)

@[simp] theorem length_padded (width n : ℕ) : (padded width n).length = width := by
  induction width generalizing n with
  | zero => rfl
  | succ width ih => simp [padded, ih]

theorem readDigit_digitChar (n d : ℕ) (h : d < 10) :
    readDigit (some n) (Nat.digitChar d) = some (n * 10 + d) := by
  have hdigit : ∀ d < 10, (Nat.digitChar d).isDigit = true ∧ (Nat.digitChar d).toNat - 48 = d := by
    decide
  obtain ⟨hisDigit, hvalue⟩ := hdigit d h
  simp [readDigit, hisDigit, hvalue]

theorem ofDigits?_padded (width n : ℕ) : ofDigits? (padded width n) = some (n % 10 ^ width) := by
  unfold ofDigits?
  induction width generalizing n with
  | zero => simp [padded, Nat.mod_one]
  | succ width ih =>
    rw [padded, List.foldl_append, ih, List.foldl_cons, List.foldl_nil,
      readDigit_digitChar _ _ (Nat.mod_lt n (by decide)), pow_succ, Nat.mul_comm (10 ^ width) 10,
      Nat.mod_mul, Option.some.injEq]
    omega

/-- A number that fits its field reads back. -/
theorem ofDigits?_padded_of_lt {width n : ℕ} (h : n < 10 ^ width) :
    ofDigits? (padded width n) = some n := by
  rw [ofDigits?_padded, Nat.mod_eq_of_lt h]

end AlphaOne.Foundations

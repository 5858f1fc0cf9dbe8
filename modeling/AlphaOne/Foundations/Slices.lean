import Mathlib.Algebra.BigOperators.Group.List.Basic
import Mathlib.Algebra.Field.Basic
import Mathlib.Algebra.Order.BigOperators.Group.List
import Mathlib.Algebra.Order.Field.Basic
import Mathlib.Tactic.FieldSimp
import Mathlib.Tactic.Ring

/-!
# Quantities filled in slices

A quantity is bought or sold in slices, each at its own price. Over any field, the gain of closing a
position slice by slice depends only on the notional of the slices and on their total quantity
(`gain_eq`), however the slices were cut.
-/

namespace AlphaOne.Foundations

/-- A quantity at a price. -/
structure Slice (K : Type*) where
  price : K
  quantity : K
  deriving DecidableEq, Repr

namespace Slice

variable {K : Type*} [Field K]

/-- The total quantity of the slices. -/
def total (l : List (Slice K)) : K := (l.map Slice.quantity).sum

/-- The money paid for the slices. -/
def notional (l : List (Slice K)) : K := (l.map fun s => s.price * s.quantity).sum

/-- The volume-weighted average price of the slices. -/
def vwap (l : List (Slice K)) : K := notional l / total l

/-- The gain, at the leverage and in the direction of `c`, of closing the slices of a position
entered at the price `entry`. -/
def gain (c entry : K) (l : List (Slice K)) : K :=
  (l.map fun s => c * (s.price - entry) * s.quantity).sum

@[simp] theorem total_nil : total ([] : List (Slice K)) = 0 := rfl

@[simp] theorem notional_nil : notional ([] : List (Slice K)) = 0 := rfl

@[simp] theorem gain_nil (c entry : K) : gain c entry [] = 0 := rfl

@[simp] theorem total_append (l m : List (Slice K)) : total (l ++ m) = total l + total m := by
  simp [total]

@[simp] theorem notional_append (l m : List (Slice K)) :
    notional (l ++ m) = notional l + notional m := by
  simp [notional]

@[simp] theorem total_singleton (s : Slice K) : total [s] = s.quantity := by simp [total]

@[simp] theorem notional_singleton (s : Slice K) : notional [s] = s.price * s.quantity := by
  simp [notional]

/-- The gain depends on the slices only through their notional and their total. -/
theorem gain_eq (c entry : K) (l : List (Slice K)) :
    gain c entry l = c * (notional l - entry * total l) := by
  induction l with
  | nil => simp
  | cons s l ih =>
    have hg : gain c entry (s :: l) = c * (s.price - entry) * s.quantity + gain c entry l := by
      simp [gain]
    have hn : notional (s :: l) = s.price * s.quantity + notional l := by simp [notional]
    have ht : total (s :: l) = s.quantity + total l := by simp [total]
    rw [hg, hn, ht, ih]
    ring

section Order

variable [LinearOrder K] [IsStrictOrderedRing K]

theorem total_nonneg {l : List (Slice K)} (h : ∀ s ∈ l, 0 < s.quantity) : 0 ≤ total l := by
  refine List.sum_nonneg fun q hq => ?_
  obtain ⟨s, hs, rfl⟩ := List.mem_map.1 hq
  exact (h s hs).le

theorem total_pos {l : List (Slice K)} (h : ∀ s ∈ l, 0 < s.quantity) (hl : l ≠ []) :
    0 < total l := by
  cases l with
  | nil => exact absurd rfl hl
  | cons s l =>
    have hs := h s (by simp)
    have ht := total_nonneg (l := l) fun s hs => h s (by simp [hs])
    have hsum : total (s :: l) = s.quantity + total l := by simp [total]
    rw [hsum]
    exact add_pos_of_pos_of_nonneg hs ht

end Order

end Slice

end AlphaOne.Foundations

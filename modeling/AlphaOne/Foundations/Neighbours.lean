import Mathlib.Order.Interval.Set.OrdConnected
import Mathlib.Algebra.Order.Ring.Int
import Mathlib.Data.Int.ConditionallyCompleteOrder
import Mathlib.Tactic.Linarith

/-!
# The two neighbours of a point

The integers are searched for one that is allowed and costs as little as possible. When the allowed
ones have no gap, and the cost falls up to `lo` and rises from its successor on, it is enough to
look at these two, as long as one of them is allowed.
-/

namespace AlphaOne.Foundations

variable {β : Type*} [LinearOrder β] {cost : ℤ → β} {allowed : Set ℤ} {lo hi k : ℤ}

/-- **An allowed neighbour costs no more** than any allowed integer, if there is one. -/
theorem exists_neighbour_le (hconn : allowed.OrdConnected) (hle : lo ≤ hi) (hnext : hi ≤ lo + 1)
    (hfalls : ∀ j ≤ lo, cost lo ≤ cost j) (hrises : ∀ j, hi ≤ j → cost hi ≤ cost j)
    (hnear : lo ∈ allowed ∨ hi ∈ allowed) (hk : k ∈ allowed) :
    (lo ∈ allowed ∧ cost lo ≤ cost k) ∨ (hi ∈ allowed ∧ cost hi ≤ cost k) := by
  rcases le_or_gt k lo with hbelow | habove
  · have hlo : lo ∈ allowed := by
      rcases hnear with hlo | hhi
      · exact hlo
      · exact hconn.out hk hhi ⟨hbelow, hle⟩
    exact .inl ⟨hlo, hfalls k hbelow⟩
  · have hhik : hi ≤ k := by omega
    have hhi : hi ∈ allowed := by
      rcases hnear with hlo | hhi
      · exact hconn.out hlo hk ⟨hle, hhik⟩
      · exact hhi
    exact .inr ⟨hhi, hrises k hhik⟩

end AlphaOne.Foundations

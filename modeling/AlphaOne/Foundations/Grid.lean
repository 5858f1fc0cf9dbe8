import Mathlib.Data.Finset.Card
import Mathlib.Data.Finset.Dedup
import Mathlib.Data.Int.Order.Basic
import Mathlib.Data.List.Pairwise
import Mathlib.Order.Bounds.Basic
import Mathlib.Tactic.Linarith

/-!
# Counting along a grid

A sequence of points of a grid, with points that are missing, repeated or out of order.

* `descents`: how often a point comes before a smaller one; none exactly in a sorted sequence
  (`descents_eq_zero_iff`).
* `repeats`: how many points are repetitions of earlier ones (`repeats_add_card`).
* `absent`: how many points of the grid are skipped between neighbours; in a sorted sequence they
  and the points that are there make up the stretch of the grid (`sum_absent_add_card`).
-/

namespace AlphaOne.Foundations

variable {α : Type*}

/-- The neighbours in a sequence. -/
def neighbours (xs : List α) : List (α × α) := xs.zip xs.tail

@[simp] theorem neighbours_cons_cons (x y : α) (xs : List α) :
    neighbours (x :: y :: xs) = (x, y) :: neighbours (y :: xs) := rfl

/-! ## Order -/

section Order

variable [LinearOrder α]

/-- How often a point comes right before a smaller one. -/
def descents (xs : List α) : ℕ := (neighbours xs).countP fun p => p.2 < p.1

/-- A sequence without descents is sorted. -/
theorem descents_eq_zero_iff {xs : List α} : descents xs = 0 ↔ xs.Pairwise (· ≤ ·) := by
  have : IsTrans α (· ≤ ·) := ⟨fun _ _ _ => le_trans⟩
  rw [← List.isChain_iff_pairwise]
  induction xs with
  | nil => simp [descents, neighbours]
  | cons x xs ih =>
    cases xs with
    | nil => simp [descents, neighbours]
    | cons y xs =>
      have hcount : descents (x :: y :: xs) = descents (y :: xs) + if y < x then 1 else 0 := by
        rw [descents, neighbours_cons_cons, List.countP_cons]
        simp [descents]
      rw [List.isChain_cons_cons, hcount, Nat.add_eq_zero_iff, and_comm]
      refine and_congr ?_ ih
      split_ifs with hxy
      · simpa using hxy
      · simpa using hxy

end Order

/-! ## Repetitions -/

section Repetitions

variable [DecidableEq α]

/-- How many points are among those seen before. -/
def repeats : List α → List α → ℕ
  | _, [] => 0
  | seen, x :: xs => (if x ∈ seen then 1 else 0) + repeats (x :: seen) xs

theorem repeats_add_card_sdiff (seen xs : List α) :
    repeats seen xs + (xs.toFinset \ seen.toFinset).card = xs.length := by
  induction xs generalizing seen with
  | nil => simp [repeats]
  | cons x xs ih =>
    have hrest := ih (x :: seen)
    rw [repeats, List.length_cons, List.toFinset_cons]
    rw [List.toFinset_cons] at hrest
    by_cases hx : x ∈ seen
    · have hset : insert x xs.toFinset \ seen.toFinset = xs.toFinset \ insert x seen.toFinset := by
        ext y
        simp only [Finset.mem_sdiff, Finset.mem_insert, List.mem_toFinset]
        grind
      rw [if_pos hx, hset]
      omega
    · have hset : insert x xs.toFinset \ seen.toFinset =
          insert x (xs.toFinset \ insert x seen.toFinset) := by
        ext y
        simp only [Finset.mem_sdiff, Finset.mem_insert, List.mem_toFinset]
        grind
      rw [if_neg hx, hset, Finset.card_insert_of_notMem (by simp)]
      omega

/-- The repetitions and the different points make up the sequence. -/
theorem repeats_add_card (xs : List α) : repeats [] xs + xs.toFinset.card = xs.length := by
  simpa using repeats_add_card_sdiff [] xs

end Repetitions

/-! ## Steps -/

/-- The points of the grid that are skipped between two of its points. -/
def absent (interval x y : ℤ) : ℤ := if x = y then 0 else (y - x) / interval - 1

/-- **The points that are skipped and those that are there make up the grid**, from the first to the
last. -/
theorem sum_absent_add_card {interval : ℤ} {xs : List ℤ} (hsorted : xs.Pairwise (· ≤ ·))
    (hgrid : ∀ x ∈ xs, ∀ y ∈ xs, interval ∣ y - x) {lo hi : ℤ}
    (hlo : IsLeast {x | x ∈ xs} lo) (hhi : IsGreatest {x | x ∈ xs} hi) :
    ((neighbours xs).map fun p => absent interval p.1 p.2).sum + xs.toFinset.card =
      (hi - lo) / interval + 1 := by
  induction xs generalizing lo with
  | nil => exact absurd hlo.1 (List.not_mem_nil)
  | cons x xs ih =>
    obtain ⟨hx, hrest⟩ := List.pairwise_cons.1 hsorted
    obtain rfl : lo = x := hlo.unique
      ⟨List.mem_cons_self, fun y hy => (List.mem_cons.1 hy).elim (fun h => h ▸ le_rfl) (hx y)⟩
    cases xs with
    | nil =>
      obtain rfl : hi = lo := List.mem_singleton.1 hhi.1
      simp [neighbours]
    | cons y xs =>
      have hy : IsLeast {z | z ∈ y :: xs} y := ⟨List.mem_cons_self, fun z hz =>
        (List.mem_cons.1 hz).elim (fun h => h ▸ le_rfl) ((List.pairwise_cons.1 hrest).1 z)⟩
      have hhi' : IsGreatest {z | z ∈ y :: xs} hi := by
        refine ⟨?_, fun z hz => hhi.2 (List.mem_cons_of_mem lo hz)⟩
        rcases List.mem_cons.1 hhi.1 with rfl | hmem
        · have hle : y ≤ hi := hhi.2 (List.mem_cons_of_mem hi List.mem_cons_self)
          rw [le_antisymm hle (hx y List.mem_cons_self)]
          exact List.mem_cons_self
        · exact hmem
      have hcount := ih hrest (fun z hz w hw => hgrid z (List.mem_cons_of_mem lo hz) w
        (List.mem_cons_of_mem lo hw)) hy hhi'
      rw [neighbours_cons_cons, List.map_cons, List.sum_cons, absent]
      by_cases hsame : lo = y
      · subst hsame
        rw [if_pos rfl, List.toFinset_cons, Finset.insert_eq_of_mem (by simp)]
        linarith
      · have hnew : lo ∉ (y :: xs).toFinset := by
          rw [List.mem_toFinset]
          intro hmem
          exact hsame (le_antisymm (hx y List.mem_cons_self) (hy.2 hmem))
        have hsteps : (hi - lo) / interval = (hi - y) / interval + (y - lo) / interval := by
          rw [← Int.add_ediv_of_dvd_left (hgrid y (by simp) hi hhi.1)]
          congr 1
          omega
        dsimp only
        rw [if_neg hsame, List.toFinset_cons, Finset.card_insert_of_notMem hnew, hsteps]
        push_cast
        linarith

end AlphaOne.Foundations

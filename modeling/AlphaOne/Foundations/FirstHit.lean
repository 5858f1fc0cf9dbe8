import Mathlib.Data.List.Basic
import Mathlib.Data.List.TakeDrop

/-!
# The first decision along a list

A test looks at the entries of a list one after another and stops at the first one it decides on.
`firstHit test xs` is the index of that entry with the decision.

* `firstHit_eq_some_iff`: the entry is decided, and none before it is.
* `lt_length_of_firstHit` and `firstHit_take`: the hit is in the list, and nothing is before it.
* `firstHit_map` and `map_snd_firstHit`: tests along a map, and `List.findSome?`.
* `findSome?_not_both`: tests that exclude each other at every entry do so along the list.
-/

namespace AlphaOne.Foundations

variable {α β γ : Type*}

/-- The index of the first entry that the test decides on, and the decision. -/
def firstHit (test : α → Option β) : List α → Option (ℕ × β)
  | [] => none
  | x :: xs =>
    match test x with
    | some b => some (0, b)
    | none => (firstHit test xs).map fun d => (d.1 + 1, d.2)

variable {test : α → Option β} {xs : List α} {i : ℕ} {b : β}

theorem firstHit_cons_of_some {x : α} (h : test x = some b) :
    firstHit test (x :: xs) = some (0, b) := by
  rw [firstHit, h]

theorem firstHit_cons_of_none {x : α} (h : test x = none) :
    firstHit test (x :: xs) = (firstHit test xs).map fun d => (d.1 + 1, d.2) := by
  rw [firstHit, h]

theorem firstHit_eq_some_iff : firstHit test xs = some (i, b) ↔
    (∃ x, xs[i]? = some x ∧ test x = some b) ∧
      ∀ j < i, ∀ x, xs[j]? = some x → test x = none := by
  induction xs generalizing i with
  | nil => simp [firstHit]
  | cons x xs ih =>
    cases hx : test x with
    | some c =>
      rw [firstHit_cons_of_some hx]
      constructor
      · rintro ⟨⟩
        exact ⟨⟨x, rfl, hx⟩, fun j hj => absurd hj (Nat.not_lt_zero j)⟩
      · rintro ⟨⟨y, hy, hb⟩, hbefore⟩
        cases i with
        | zero =>
          obtain rfl : x = y := by simpa using hy
          rw [hx] at hb
          rw [Option.some.inj hb]
        | succ i =>
          have hnone := hbefore 0 (Nat.succ_pos i) x rfl
          rw [hx] at hnone
          cases hnone
    | none =>
      rw [firstHit_cons_of_none hx]
      cases i with
      | zero => simp [hx]
      | succ i =>
        have hshift : (firstHit test xs).map (fun d => (d.1 + 1, d.2)) = some (i + 1, b) ↔
            firstHit test xs = some (i, b) := by
          constructor
          · intro h
            obtain ⟨d, hd, heq⟩ := Option.map_eq_some_iff.1 h
            obtain ⟨rfl, rfl⟩ : d.1 = i ∧ d.2 = b := by simpa using heq
            exact hd
          · intro h
            rw [h]
            rfl
        rw [hshift, ih]
        refine and_congr (by simp) ⟨fun h j hj y hy => ?_, fun h j hj y hy => ?_⟩
        · cases j with
          | zero =>
            obtain rfl : x = y := by simpa using hy
            exact hx
          | succ j => exact h j (by omega) y (by simpa using hy)
        · exact h (j + 1) (by omega) y (by simpa using hy)

theorem firstHit_eq_none_iff : firstHit test xs = none ↔ ∀ x ∈ xs, test x = none := by
  induction xs with
  | nil => simp [firstHit]
  | cons x xs ih =>
    cases hx : test x with
    | some c => simp [firstHit, hx]
    | none => simp [firstHit_cons_of_none hx, ih, hx]

/-- The decision alone. -/
theorem map_snd_firstHit (test : α → Option β) (xs : List α) :
    (firstHit test xs).map Prod.snd = xs.findSome? test := by
  induction xs with
  | nil => rfl
  | cons x xs ih =>
    rw [List.findSome?_cons]
    cases hx : test x with
    | some c => rw [firstHit_cons_of_some hx, Option.map_some]
    | none => rw [firstHit_cons_of_none hx, Option.map_map, ← ih]; rfl

theorem firstHit_map (test : β → Option γ) (f : α → β) (xs : List α) :
    firstHit test (xs.map f) = firstHit (fun x => test (f x)) xs := by
  induction xs with
  | nil => rfl
  | cons x xs ih => rw [List.map_cons, firstHit, firstHit, ih]

/-- Naming the decisions does not move them. -/
theorem firstHit_option_map (test : α → Option β) (f : β → γ) (xs : List α) :
    firstHit (fun x => (test x).map f) xs = (firstHit test xs).map fun d => (d.1, f d.2) := by
  induction xs with
  | nil => rfl
  | cons x xs ih =>
    cases hx : test x with
    | some b => rw [firstHit, firstHit, hx]; rfl
    | none =>
      rw [firstHit, firstHit, hx, ih, Option.map_none]
      dsimp only
      rw [Option.map_map, Option.map_map]
      rfl

theorem lt_length_of_firstHit (h : firstHit test xs = some (i, b)) : i < xs.length := by
  obtain ⟨⟨x, hx, -⟩, -⟩ := firstHit_eq_some_iff.1 h
  exact (List.getElem?_eq_some_iff.1 hx).1

/-- Nothing is decided on the entries before the hit. -/
theorem firstHit_take (h : firstHit test xs = some (i, b)) : firstHit test (xs.take i) = none := by
  refine firstHit_eq_none_iff.2 fun x hx => ?_
  obtain ⟨j, hj⟩ := List.mem_iff_getElem?.1 hx
  rw [List.getElem?_take] at hj
  split at hj
  · next hji => exact (firstHit_eq_some_iff.1 h).2 j hji x hj
  · cases hj

/-- Two tests stop with the same decision in no list, where an entry that decides one of them so
decides the other otherwise. -/
theorem findSome?_not_both {f g : α → Option β} (hf : ∀ x, f x = some b → ∃ c ≠ b, g x = some c)
    (hg : ∀ x, g x = some b → ∃ c ≠ b, f x = some c) (xs : List α) :
    ¬(xs.findSome? f = some b ∧ xs.findSome? g = some b) := by
  induction xs with
  | nil => simp
  | cons x xs ih =>
    rintro ⟨hfx, hgx⟩
    rw [List.findSome?_cons] at hfx hgx
    cases hfirst : f x with
    | some c =>
      rw [hfirst] at hfx
      obtain rfl : c = b := Option.some.inj hfx
      obtain ⟨d, hd, hsecond⟩ := hf x hfirst
      rw [hsecond] at hgx
      exact hd (Option.some.inj hgx)
    | none =>
      rw [hfirst] at hfx
      cases hsecond : g x with
      | some c =>
        rw [hsecond] at hgx
        obtain rfl : c = b := Option.some.inj hgx
        obtain ⟨d, -, hfirst'⟩ := hg x hsecond
        rw [hfirst] at hfirst'
        cases hfirst'
      | none =>
        rw [hsecond] at hgx
        exact ih ⟨hfx, hgx⟩

end AlphaOne.Foundations

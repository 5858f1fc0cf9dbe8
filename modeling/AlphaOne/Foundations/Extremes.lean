import Mathlib.Algebra.Order.Group.Basic
import Mathlib.Data.Finset.Max
import Mathlib.Data.List.Basic
import Mathlib.Order.Bounds.Basic

/-!
# Extremes of a sequence that is read once

What a loop over a sequence can keep track of in a few variables: the values seen with the highest
one before each, and the runs of entries that pass a test. The loop appends one entry at a time, and
each lemma says what that changes.

* `peakPairs xs`: every value with its running peak; `peakPairs_concat`.
* `drops xs`: the differences between a value and a later one; `isGreatest_drops` is their greatest,
  over the running peaks alone.
* `runLengths P xs` and `endLengths P xs`: the lengths of the runs, and of those that end the
  sequence; `isGreatest_runLengths_concat` and `isGreatest_endLengths_concat`.
-/

namespace AlphaOne.Foundations

variable {α : Type*}

/-! ## Running peaks -/

section Peaks

variable [LinearOrder α]

/-- Every value of a sequence, as `q.2`, with the greatest value up to it, as `q.1`. -/
def peakPairs (xs : List α) : Set (α × α) :=
  {q | ∃ j, xs[j]? = some q.2 ∧ IsGreatest {x | x ∈ xs.take (j + 1)} q.1}

@[simp] theorem peakPairs_nil : peakPairs ([] : List α) = ∅ := by
  simp [peakPairs]

/-- An entry that is appended comes with the greatest of all values. -/
theorem peakPairs_concat {xs : List α} {x p : α} (hp : IsGreatest {y | y ∈ xs ++ [x]} p) :
    peakPairs (xs ++ [x]) = insert (p, x) (peakPairs xs) := by
  ext q
  simp only [peakPairs, Set.mem_ofPred_eq, Set.mem_insert_iff]
  constructor
  · rintro ⟨j, hj, hpeak⟩
    rcases Nat.lt_or_ge j xs.length with hlt | hge
    · rw [List.getElem?_append_left hlt] at hj
      rw [List.take_append_of_le_length hlt] at hpeak
      exact .inr ⟨j, hj, hpeak⟩
    · have hlast : j = xs.length := by
        have hlength := (List.getElem?_eq_some_iff.1 hj).1
        rw [List.length_append, List.length_singleton] at hlength
        omega
      subst hlast
      rw [List.getElem?_concat_length] at hj
      rw [List.take_of_length_le (by simp)] at hpeak
      exact .inl (Prod.ext (hpeak.unique hp) (Option.some.inj hj).symm)
  · rintro (rfl | ⟨j, hj, hpeak⟩)
    · refine ⟨xs.length, List.getElem?_concat_length, ?_⟩
      rwa [List.take_of_length_le (by simp)]
    · have hlt := (List.getElem?_eq_some_iff.1 hj).1
      refine ⟨j, by rwa [List.getElem?_append_left hlt], ?_⟩
      rwa [List.take_append_of_le_length hlt]

/-- A running peak has been a value, and then was the peak. -/
theorem peakPairs_self {xs : List α} {q : α × α} (h : q ∈ peakPairs xs) :
    (q.1, q.1) ∈ peakPairs xs := by
  obtain ⟨j, -, hpeak⟩ := h
  obtain ⟨i, hi, hvalue⟩ := List.mem_take_iff_getElem.1 hpeak.1
  have hle : i + 1 ≤ j + 1 := by omega
  refine ⟨i, List.getElem?_eq_some_iff.2 ⟨by omega, hvalue⟩, ?_, fun y hy => hpeak.2 ?_⟩
  · exact List.mem_take_iff_getElem.2 ⟨i, by omega, hvalue⟩
  · exact List.take_subset_take_left xs hle hy

theorem peakPairs_nonempty {xs : List α} (h : xs ≠ []) : (peakPairs xs).Nonempty := by
  obtain ⟨x, xs, rfl⟩ := List.exists_cons_of_ne_nil h
  exact ⟨(x, x), 0, rfl, by simp⟩

/-- The greatest value, with one value more. -/
theorem isGreatest_concat {xs : List α} {x m : α} (h : xs ≠ [] → IsGreatest {y | y ∈ xs} m)
    (hnil : xs = [] → m = x) : IsGreatest {y | y ∈ xs ++ [x]} (max x m) := by
  by_cases hxs : xs = []
  · subst hxs
    rw [hnil rfl, max_self]
    simp
  · have hset : {y | y ∈ xs ++ [x]} = insert x {y | y ∈ xs} := by
      ext y
      simp [or_comm]
    rw [hset]
    exact (h hxs).insert x

/-- The differences between a value and the same or a later one. -/
def drops [Sub α] (xs : List α) : Set α :=
  {d | ∃ (i j : ℕ) (e e' : α), i ≤ j ∧ xs[i]? = some e ∧ xs[j]? = some e' ∧ d = e - e'}

/-- The greatest drop is one from a running peak. -/
theorem isGreatest_drops [AddCommGroup α] [IsOrderedAddMonoid α] {xs : List α} {d : α}
    (h : IsGreatest ((fun q : α × α => q.1 - q.2) '' peakPairs xs) d) : IsGreatest (drops xs) d := by
  constructor
  · obtain ⟨q, ⟨j, hj, hpeak⟩, rfl⟩ := h.1
    obtain ⟨i, hi, hvalue⟩ := List.mem_take_iff_getElem.1 hpeak.1
    exact ⟨i, j, q.1, q.2, by omega, List.getElem?_eq_some_iff.2 ⟨by omega, hvalue⟩, hj, rfl⟩
  · rintro _ ⟨i, j, e, e', hij, hi, hj, rfl⟩
    have hmem : e ∈ xs.take (j + 1) := by
      obtain ⟨hlt, hvalue⟩ := List.getElem?_eq_some_iff.1 hi
      exact List.mem_take_iff_getElem.2 ⟨i, by omega, hvalue⟩
    obtain ⟨p, hpmem, hpmax⟩ := (xs.take (j + 1)).toFinset.exists_max_image id
      ⟨e, List.mem_toFinset.2 hmem⟩
    have hp : IsGreatest {x | x ∈ xs.take (j + 1)} p :=
      ⟨List.mem_toFinset.1 hpmem, fun y hy => hpmax y (List.mem_toFinset.2 hy)⟩
    calc e - e' ≤ p - e' := sub_le_sub_right (hp.2 hmem) e'
      _ ≤ d := h.2 ⟨(p, e'), ⟨j, hj, hp⟩, rfl⟩

end Peaks

/-! ## Longest runs -/

section Runs

variable (P : α → Prop)

/-- The lengths of the stretches of a sequence all of whose entries pass the test. -/
def runLengths (xs : List α) : Set ℕ :=
  {n | ∃ stretch, stretch <:+: xs ∧ (∀ x ∈ stretch, P x) ∧ stretch.length = n}

/-- The lengths of those stretches that end the sequence. -/
def endLengths (xs : List α) : Set ℕ :=
  {n | ∃ stretch, stretch <:+ xs ∧ (∀ x ∈ stretch, P x) ∧ stretch.length = n}

theorem isGreatest_runLengths_nil : IsGreatest (runLengths P []) 0 := by
  constructor
  · exact ⟨[], List.infix_rfl, by simp, rfl⟩
  · rintro _ ⟨stretch, hstretch, -, rfl⟩
    rw [List.eq_nil_of_infix_nil hstretch]
    exact le_rfl

theorem isGreatest_endLengths_nil : IsGreatest (endLengths P []) 0 := by
  constructor
  · exact ⟨[], List.suffix_rfl, by simp, rfl⟩
  · rintro _ ⟨stretch, hstretch, -, rfl⟩
    rw [List.suffix_nil.1 hstretch]
    exact le_rfl

variable {P}

/-- A stretch is one of the shorter sequence, or it ends the longer one. -/
theorem runLengths_concat (xs : List α) (x : α) :
    runLengths P (xs ++ [x]) = endLengths P (xs ++ [x]) ∪ runLengths P xs := by
  ext n
  simp only [runLengths, endLengths, Set.mem_union, Set.mem_ofPred_eq, List.infix_concat_iff]
  constructor
  · rintro ⟨stretch, hend | hwithin, hall, hn⟩
    · exact .inl ⟨stretch, hend, hall, hn⟩
    · exact .inr ⟨stretch, hwithin, hall, hn⟩
  · rintro (⟨stretch, hend, hall, hn⟩ | ⟨stretch, hwithin, hall, hn⟩)
    · exact ⟨stretch, .inl hend, hall, hn⟩
    · exact ⟨stretch, .inr hwithin, hall, hn⟩

/-- The last run is one longer, where the new entry passes. -/
theorem isGreatest_endLengths_concat_pos {xs : List α} {x : α} {c : ℕ}
    (h : IsGreatest (endLengths P xs) c) (hx : P x) :
    IsGreatest (endLengths P (xs ++ [x])) (c + 1) := by
  constructor
  · obtain ⟨stretch, hstretch, hall, rfl⟩ := h.1
    refine ⟨stretch ++ [x], List.suffix_concat_iff.2 (.inr ⟨stretch, rfl, hstretch⟩), ?_, by simp⟩
    intro y hy
    rcases List.mem_append.1 hy with hy | hy
    · exact hall y hy
    · rwa [List.mem_singleton.1 hy]
  · rintro _ ⟨stretch, hstretch, hall, rfl⟩
    rcases List.suffix_concat_iff.1 hstretch with rfl | ⟨shorter, rfl, hshorter⟩
    · exact Nat.zero_le _
    · have hle : shorter.length ≤ c := h.2 ⟨shorter, hshorter, fun y hy => hall y (by simp [hy]), rfl⟩
      simpa using hle

/-- There is no last run, where the new entry does not pass. -/
theorem isGreatest_endLengths_concat_neg {xs : List α} {x : α} (hx : ¬P x) :
    IsGreatest (endLengths P (xs ++ [x])) 0 := by
  constructor
  · exact ⟨[], List.nil_suffix, by simp, rfl⟩
  · rintro _ ⟨stretch, hstretch, hall, rfl⟩
    rcases List.suffix_concat_iff.1 hstretch with rfl | ⟨shorter, rfl, hshorter⟩
    · exact le_rfl
    · exact absurd (hall x (by simp)) hx

/-- The longest run is that of the shorter sequence, or the last one. -/
theorem isGreatest_runLengths_concat {xs : List α} {x : α} {b c : ℕ}
    (hb : IsGreatest (runLengths P xs) b) (hc : IsGreatest (endLengths P (xs ++ [x])) c) :
    IsGreatest (runLengths P (xs ++ [x])) (max b c) := by
  rw [runLengths_concat, max_comm]
  exact hc.union hb

end Runs

end AlphaOne.Foundations

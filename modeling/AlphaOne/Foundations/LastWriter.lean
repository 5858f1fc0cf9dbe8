import AlphaOne.Foundations.Run
import Mathlib.Data.List.Induction
import Mathlib.Order.Lattice

/-!
# Registers in which the last writer wins

Writes arrive in any order, some more than once, each a value with its time. A register keeps the
newest: whatever the order, it ends with the newest write, if no two values share a time.

* `newest_of_mem_run`: what a register keeps is a newest write.
* `run_keepNewest_eq`: it keeps the newest write, if times tell the writes apart.
-/

namespace AlphaOne.Foundations

variable {τ β : Type*} [LinearOrder τ]

/-- Keep a write that is newer than what is kept. -/
def keepNewest (kept : Option (τ × β)) (write : τ × β) : Option (τ × β) :=
  if kept.all (·.1 < write.1) then some write else kept

/-- No write is newer. -/
structure Newest (writes : List (τ × β)) (write : τ × β) : Prop where
  mem : write ∈ writes
  le : ∀ other ∈ writes, other.1 ≤ write.1

variable {writes : List (τ × β)} {write : τ × β}

theorem Newest.ne_nil (h : Newest writes write) : writes ≠ [] := List.ne_nil_of_mem h.mem

/-- One write more. -/
theorem exists_newest_concat (h : writes ≠ [] → ∃ kept, run keepNewest none writes = some kept ∧
      Newest writes kept) :
    ∃ kept, run keepNewest none (writes ++ [write]) = some kept ∧
      Newest (writes ++ [write]) kept := by
  rw [run_append, run_cons, run_nil, keepNewest]
  by_cases hnil : writes = []
  · subst hnil
    exact ⟨write, rfl, by simp, by simp⟩
  · obtain ⟨kept, hkept, hmem, hle⟩ := h hnil
    rw [hkept]
    simp only [Option.all_some, decide_eq_true_eq]
    split_ifs with hlt
    · refine ⟨write, rfl, by simp, fun other hother => ?_⟩
      rcases List.mem_append.1 hother with hother | hother
      · exact (hle other hother).trans hlt.le
      · rw [List.mem_singleton.1 hother]
    · refine ⟨kept, rfl, List.mem_append_left _ hmem, fun other hother => ?_⟩
      rcases List.mem_append.1 hother with hother | hother
      · exact hle other hother
      · rw [List.mem_singleton.1 hother]
        exact not_lt.1 hlt

/-- A register that is written to keeps a newest write. -/
theorem exists_newest_run (h : writes ≠ []) :
    ∃ kept, run keepNewest none writes = some kept ∧ Newest writes kept := by
  induction writes using List.reverseRecOn with
  | nil => exact absurd rfl h
  | append_singleton writes write ih => exact exists_newest_concat ih

theorem newest_of_mem_run {kept : τ × β} (h : kept ∈ run keepNewest none writes) :
    Newest writes kept := by
  have hne : writes ≠ [] := by
    rintro rfl
    cases h
  obtain ⟨other, hother, hnewest⟩ := exists_newest_run hne
  obtain rfl : kept = other := Option.some.inj ((Option.mem_def.1 h).symm.trans hother)
  exact hnewest

/-- **The last writer wins**, in whatever order the writes arrive and however often. -/
theorem run_keepNewest_eq (hunique : ∀ other ∈ writes, other.1 = write.1 → other = write)
    (h : Newest writes write) : run keepNewest none writes = some write := by
  obtain ⟨kept, hkept, hnewest⟩ := exists_newest_run h.ne_nil
  have htime : kept.1 = write.1 := le_antisymm (h.le kept hnewest.mem) (hnewest.le write h.mem)
  rw [hkept, hunique kept hnewest.mem htime]

end AlphaOne.Foundations

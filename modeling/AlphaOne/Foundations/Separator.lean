import Mathlib.Data.List.Basic

/-!
# Texts joined by a separator

Two texts that are joined by a separator, which may occur in either of them, give the joined text of
two others in two ways only: they are the same, or a piece that begins or ends at a separator has
moved from one part to the other. `append_cons_eq_iff` says so for lists over any alphabet, and
`join_eq_join_iff` for strings.
-/

namespace AlphaOne.Foundations

variable {α : Type*}

/-- A piece has moved over the separator: the first part of the second text continues that of the
first by a separator and `u`, and the second part of the first text begins with `u`. -/
def Shifted (sep : α) (s t s' t' : List α) : Prop :=
  ∃ u, s' = s ++ sep :: u ∧ t = u ++ sep :: t'

theorem Shifted.joined {sep : α} {s t s' t' : List α} (h : Shifted sep s t s' t') :
    s ++ sep :: t = s' ++ sep :: t' := by
  obtain ⟨u, rfl, rfl⟩ := h
  simp

/-- What is left when one first part begins with the other. -/
theorem eq_or_shifted {sep : α} {s u t t' : List α} (h : sep :: t = u ++ sep :: t') :
    (u = [] ∧ t = t') ∨ Shifted sep s t (s ++ u) t' := by
  cases u with
  | nil => exact Or.inl ⟨rfl, (List.cons.inj h).2⟩
  | cons c u =>
    obtain ⟨rfl, ht⟩ := List.cons.inj h
    exact Or.inr ⟨u, rfl, ht⟩

/-- **When two joins are the same.** -/
theorem append_cons_eq_iff (sep : α) (s t s' t' : List α) :
    s ++ sep :: t = s' ++ sep :: t' ↔
      (s = s' ∧ t = t') ∨ Shifted sep s t s' t' ∨ Shifted sep s' t' s t := by
  constructor
  · intro h
    rcases List.append_eq_append_iff.1 h with ⟨u, rfl, ht⟩ | ⟨u, rfl, ht⟩
    · rcases eq_or_shifted ht with ⟨rfl, rfl⟩ | hshift
      · exact Or.inl ⟨(List.append_nil s).symm, rfl⟩
      · exact Or.inr (Or.inl hshift)
    · rcases eq_or_shifted ht with ⟨rfl, rfl⟩ | hshift
      · exact Or.inl ⟨List.append_nil s', rfl⟩
      · exact Or.inr (Or.inr hshift)
  · rintro (⟨rfl, rfl⟩ | hshift | hshift)
    · rfl
    · exact hshift.joined
    · exact hshift.joined.symm

/-- First parts without a separator can be read back. -/
theorem append_cons_eq_iff_of_notMem {sep : α} {s t s' t' : List α} (hs : sep ∉ s)
    (hs' : sep ∉ s') : s ++ sep :: t = s' ++ sep :: t' ↔ s = s' ∧ t = t' := by
  rw [append_cons_eq_iff, or_iff_left]
  rintro (⟨u, rfl, -⟩ | ⟨u, rfl, -⟩)
  · simp at hs'
  · simp at hs

/-! ## Strings -/

theorem toList_join (s t : String) : (s ++ ":" ++ t).toList = s.toList ++ ':' :: t.toList := by
  simp

/-- The join of two strings at a colon. -/
theorem join_eq_join_iff (s t s' t' : String) :
    s ++ ":" ++ t = s' ++ ":" ++ t' ↔ (s = s' ∧ t = t') ∨
      (∃ u, s' = s ++ ":" ++ u ∧ t = u ++ ":" ++ t') ∨
      ∃ u, s = s' ++ ":" ++ u ∧ t' = u ++ ":" ++ t := by
  have hshift (s t s' t' : String) : Shifted ':' s.toList t.toList s'.toList t'.toList ↔
      ∃ u, s' = s ++ ":" ++ u ∧ t = u ++ ":" ++ t' := by
    constructor
    · rintro ⟨u, hs, ht⟩
      refine ⟨String.ofList u, String.toList_inj.1 ?_, String.toList_inj.1 ?_⟩
      · rw [toList_join, String.toList_ofList, hs]
      · rw [toList_join, String.toList_ofList, ht]
    · rintro ⟨u, rfl, rfl⟩
      exact ⟨u.toList, toList_join s u, toList_join u t'⟩
  rw [← String.toList_inj, toList_join, toList_join, append_cons_eq_iff, hshift, hshift,
    String.toList_inj, String.toList_inj]

theorem join_eq_join_iff_of_notMem {s t s' t' : String} (hs : ':' ∉ s.toList)
    (hs' : ':' ∉ s'.toList) : s ++ ":" ++ t = s' ++ ":" ++ t' ↔ s = s' ∧ t = t' := by
  rw [← String.toList_inj, toList_join, toList_join, append_cons_eq_iff_of_notMem hs hs',
    String.toList_inj, String.toList_inj]

end AlphaOne.Foundations

import AlphaOne.Foundations.Table
import Mathlib.Combinatorics.Hall.Basic
import Mathlib.Data.List.FinRange

/-!
# Matching two lists

Two lists are matched when the entries of one are related, one to one, to those of the other.
Entries that a key tells apart may be matched key by key (`matched_iff_keys`), and entries of one
key are matched when there are as many of both and no group of the first is related to fewer of the
second (`matched_iff_groups`, which is Hall's theorem).
-/

namespace AlphaOne.Foundations

variable {α β κ : Type*} {R : α → β → Prop} {xs xs' : List α} {ys ys' : List β}

/-- The second list, in some order, is related to the first entry by entry. -/
def Matched (R : α → β → Prop) (xs : List α) (ys : List β) : Prop :=
  ∃ l, l.Perm ys ∧ List.Forall₂ R xs l

theorem Matched.nil : Matched R [] [] := ⟨[], .refl [], .nil⟩

theorem Matched.append (h : Matched R xs ys) (h' : Matched R xs' ys') :
    Matched R (xs ++ xs') (ys ++ ys') := by
  obtain ⟨l, hl, hR⟩ := h
  obtain ⟨l', hl', hR'⟩ := h'
  exact ⟨l ++ l', hl.append hl', List.rel_append hR hR'⟩

theorem Matched.perm (h : Matched R xs ys) (hxs : xs'.Perm xs) (hys : ys.Perm ys') :
    Matched R xs' ys' := by
  obtain ⟨l, hl, hR⟩ := h
  obtain ⟨l', hR', hl'⟩ := List.perm_comp_forall₂ hxs hR
  exact ⟨l', hl'.trans (hl.trans hys), hR'⟩

theorem Matched.length_eq (h : Matched R xs ys) : xs.length = ys.length := by
  obtain ⟨l, hl, hR⟩ := h
  exact hR.length_eq.trans hl.length_eq

/-! ## Key by key -/

section Keys

variable [DecidableEq κ] {key : α → κ} {key' : β → κ}

/-- Entries that are related have the same key. -/
theorem Matched.filter (hkey : ∀ x y, R x y → key x = key' y) (h : Matched R xs ys) (k : κ) :
    Matched R (xs.filter (key · = k)) (ys.filter (key' · = k)) := by
  obtain ⟨l, hl, hR⟩ := h
  refine ⟨l.filter (key' · = k), hl.filter _, List.rel_filter (fun x y hxy => ?_) hR⟩
  simp [hkey x y hxy]

theorem filter_filter_ne {γ : Type*} (f : γ → κ) {k k' : κ} (hne : k ≠ k') (l : List γ) :
    (l.filter (f · ≠ k')).filter (f · = k) = l.filter (f · = k) := by
  rw [List.filter_filter]
  refine List.filter_congr fun x _ => ?_
  by_cases hx : f x = k
  · simp [hx, hne]
  · simp [hx]

theorem filter_append_filter_ne {γ : Type*} (f : γ → κ) (k : κ) (l : List γ) :
    (l.filter (f · = k) ++ l.filter (f · ≠ k)).Perm l := by
  have hperm := List.filter_append_perm (fun x => decide (f x = k)) l
  simpa only [decide_not] using hperm

/-- **Lists are matched key by key.** -/
theorem matched_iff_keys (hkey : ∀ x y, R x y → key x = key' y) :
    Matched R xs ys ↔ ∀ k, Matched R (xs.filter (key · = k)) (ys.filter (key' · = k)) := by
  refine ⟨fun h k => h.filter hkey k, fun h => ?_⟩
  induction hn : xs.length using Nat.strong_induction_on generalizing xs ys with
  | _ n ih =>
    subst hn
    rcases xs with _ | ⟨x, xs⟩
    · rcases ys with _ | ⟨y, ys⟩
      · exact .nil
      · have hlength := (h (key' y)).length_eq
        simp at hlength
    · -- the entries of the first key, and then the others
      set k := key x
      have hx : key x = k := rfl
      have hshorter : ((x :: xs).filter (key · ≠ k)).length < (x :: xs).length := by
        rw [List.filter_cons_of_neg (by simp [hx]), List.length_cons]
        exact Nat.lt_succ_of_le (List.length_filter_le _ _)
      have hrest : Matched R ((x :: xs).filter (key · ≠ k)) (ys.filter (key' · ≠ k)) := by
        refine ih _ hshorter (fun k' => ?_) rfl
        by_cases hk : k' = k
        · subst hk
          rw [List.filter_filter, List.filter_filter, List.filter_eq_nil_iff.2 (by simp),
            List.filter_eq_nil_iff.2 (by simp)]
          exact .nil
        · rw [filter_filter_ne key hk, filter_filter_ne key' hk]
          exact h k'
      exact ((h k).append hrest).perm (filter_append_filter_ne key k (x :: xs)).symm
        (filter_append_filter_ne key' k ys)

end Keys

/-! ## Groups -/

/-- A part of the first list is related to a part of the second. -/
theorem exists_sublist_of_forall₂ {group : List α} (hR : List.Forall₂ R xs ys)
    (hgroup : group.Sublist xs) : ∃ l, l.Sublist ys ∧ List.Forall₂ R group l := by
  induction hR generalizing group with
  | nil => exact ⟨[], .slnil, by rw [List.sublist_nil.1 hgroup]; exact .nil⟩
  | cons hxy _ ih =>
    cases hgroup with
    | cons _ hgroup =>
      obtain ⟨l, hl, hR'⟩ := ih hgroup
      exact ⟨l, hl.cons _, hR'⟩
    | cons_cons _ hgroup =>
      obtain ⟨l, hl, hR'⟩ := ih hgroup
      exact ⟨_ :: l, hl.cons_cons _, .cons hxy hR'⟩

/-- The entries at some places of a list. -/
def entriesAt (xs : List α) (places : Finset (Fin xs.length)) : List α :=
  ((List.finRange xs.length).filter (· ∈ places)).map xs.get

section Places

variable {places : Finset (Fin xs.length)}

theorem entriesAt_sublist : (entriesAt xs places).Sublist xs := by
  conv_rhs => rw [← List.map_get_finRange xs]
  exact List.filter_sublist.map xs.get

theorem length_entriesAt : (entriesAt xs places).length = places.card := by
  rw [entriesAt, List.length_map,
    ← List.toFinset_card_of_nodup ((List.nodup_finRange _).filter _)]
  congr 1
  ext i
  simp

theorem mem_entriesAt {x : α} : x ∈ entriesAt xs places ↔ ∃ i ∈ places, xs.get i = x := by
  simp [entriesAt]

/-- How many entries pass a test is how many places they are at. -/
theorem countP_eq_card (p : α → Prop) [DecidablePred p] :
    xs.countP (fun x => p x) = (Finset.univ.filter fun i => p (xs.get i)).card := by
  conv_lhs => rw [← List.map_get_finRange xs]
  rw [List.countP_map, List.countP_eq_length_filter,
    ← List.toFinset_card_of_nodup ((List.nodup_finRange _).filter _)]
  congr 1
  ext i
  simp

/-- An injection into the places of a list that is not longer takes all of them. -/
theorem map_get_perm {f : Fin xs.length → Fin ys.length} (hf : Function.Injective f)
    (hlength : xs.length = ys.length) :
    ((List.finRange xs.length).map fun i => ys.get (f i)).Perm ys := by
  have hbij : Function.Bijective f :=
    (Fintype.bijective_iff_injective_and_card f).2 ⟨hf, by simp [hlength]⟩
  have hperm : ((List.finRange xs.length).map f).Perm (List.finRange ys.length) := by
    refine (List.perm_ext_iff_of_nodup ((List.nodup_finRange _).map hf)
      (List.nodup_finRange _)).2 fun j => ?_
    obtain ⟨i, hi⟩ := hbij.surjective j
    simp only [List.mem_finRange, iff_true]
    exact List.mem_map.2 ⟨i, List.mem_finRange i, hi⟩
  have hmap := hperm.map ys.get
  rwa [List.map_map, List.map_get_finRange] at hmap

end Places

section Hall

variable [DecidableRel R]

/-- Matched lists have an entry for each entry of a group. -/
theorem Matched.length_le_countP (h : Matched R xs ys) {group : List α}
    (hgroup : group.Sublist xs) :
    group.length ≤ ys.countP fun y => ∃ x ∈ group, R x y := by
  obtain ⟨l, hl, hR⟩ := h
  obtain ⟨l', hl', hR'⟩ := exists_sublist_of_forall₂ hR hgroup
  have hall : l'.countP (fun y => ∃ x ∈ group, R x y) = l'.length :=
    List.countP_eq_length.2 fun y hy => decide_eq_true ((partner_of_mem hR').2 y hy)
  rw [hR'.length_eq, ← hall, ← hl.countP_eq]
  exact hl'.countP_le

/-- **Hall's theorem for lists**: as many entries on both sides, and no group on the first with
fewer partners. -/
theorem matched_iff_groups : Matched R xs ys ↔ xs.length = ys.length ∧
    ∀ group : List α, group.Sublist xs →
      group.length ≤ ys.countP fun y => ∃ x ∈ group, R x y := by
  refine ⟨fun h => ⟨h.length_eq, fun group => h.length_le_countP⟩, ?_⟩
  rintro ⟨hlength, hgroups⟩
  -- the entries at some places are a group
  have hhall : ∀ places : Finset (Fin xs.length), places.card ≤
      (Finset.univ.filter fun j : Fin ys.length => ∃ i ∈ places, R (xs.get i) (ys.get j)).card := by
    intro places
    have hgroup := hgroups (entriesAt xs places) entriesAt_sublist
    rw [length_entriesAt, countP_eq_card] at hgroup
    simpa [mem_entriesAt] using hgroup
  obtain ⟨f, hf, hR⟩ := (Fintype.all_card_le_filter_rel_iff_exists_injective
    (fun (i : Fin xs.length) (j : Fin ys.length) => R (xs.get i) (ys.get j))).1 fun places => by
      convert hhall places
  refine ⟨_, map_get_perm hf hlength, ?_⟩
  conv => arg 2; rw [← List.map_get_finRange xs]
  rw [List.forall₂_map_left_iff, List.forall₂_map_right_iff, List.forall₂_same]
  exact fun i _ => hR i

end Hall

end AlphaOne.Foundations

import Mathlib.Algebra.BigOperators.Group.List.Basic
import Mathlib.Data.List.Induction
import Mathlib.Data.List.Perm.Basic

/-!
# Groups

The rows of a table are told apart by a class. However the classes are listed, the rows of each
class, one after the other, are the rows that have one (`flatMap_filter_perm`).

`groupBy` is the loop that appends each row to the list under its key, as `setdefault` does. Its
keys are different and each list has the rows of its key in their order (`groupBy_eq`); together the
lists are the table (`groupBy_perm`).
-/

namespace AlphaOne.Foundations

variable {α κ : Type*} [DecidableEq κ]

/-! ## Classes -/

section Classes

variable {classes : List κ} (classOf : α → Option κ)

/-- A class is listed once. -/
theorem flatMap_singleton_class (hnodup : classes.Nodup) (x : α)
    (hmem : ∀ k ∈ classOf x, k ∈ classes) :
    (classes.flatMap fun k => if classOf x = some k then [x] else []) =
      if (classOf x).isSome then [x] else [] := by
  cases hx : classOf x with
  | none => simp
  | some k =>
    have hk : k ∈ classes := hmem k hx
    obtain ⟨before, after, rfl⟩ := List.append_of_mem hk
    have hne : ∀ l ∈ before ++ after, l ≠ k := by
      rintro l hl rfl
      exact (List.nodup_cons.1 ((List.perm_middle.nodup_iff).1 hnodup)).1 hl
    have hnone : ∀ ls : List κ, (∀ l ∈ ls, l ≠ k) →
        (ls.flatMap fun l => if some k = some l then [x] else []) = [] := by
      intro ls hls
      refine List.flatMap_eq_nil_iff.2 fun l hl => if_neg ?_
      exact fun heq => hls l hl (Option.some.inj heq).symm
    rw [List.flatMap_append, List.flatMap_cons, if_pos rfl,
      hnone before fun l hl => hne l (List.mem_append_left _ hl),
      hnone after fun l hl => hne l (List.mem_append_right _ hl)]
    rfl

/-- **Every row of a class is in the list of one class**, and in it once. -/
theorem flatMap_filter_perm (hnodup : classes.Nodup) {xs : List α}
    (hmem : ∀ x ∈ xs, ∀ k ∈ classOf x, k ∈ classes) :
    (classes.flatMap fun k => xs.filter fun x => classOf x = some k).Perm
      (xs.filter fun x => (classOf x).isSome) := by
  induction xs with
  | nil => simp
  | cons x xs ih =>
    have hrow : ∀ k, (x :: xs).filter (fun x => decide (classOf x = some k)) =
        (if classOf x = some k then [x] else []) ++ xs.filter fun x => classOf x = some k := by
      intro k
      by_cases hk : classOf x = some k <;> simp [hk]
    have hhead : (x :: xs).filter (fun x => (classOf x).isSome) =
        (if (classOf x).isSome then [x] else []) ++ xs.filter fun x => (classOf x).isSome := by
      cases hx : (classOf x).isSome <;> simp [hx]
    simp only [hrow]
    refine (List.flatMap_append_perm classes _ _).symm.trans ?_
    rw [flatMap_singleton_class classOf hnodup x (hmem x List.mem_cons_self), hhead]
    exact (ih fun y hy => hmem y (List.mem_cons_of_mem x hy)).append_left _

end Classes

/-! ## The loop with a dictionary -/

section Dictionary

variable (key : α → κ)

/-- `groups.setdefault(k, []).append(x)`. -/
def appendTo (k : κ) (x : α) : List (κ × List α) → List (κ × List α)
  | [] => [(k, [x])]
  | (l, group) :: groups =>
    if l = k then (l, group ++ [x]) :: groups else (l, group) :: appendTo k x groups

/-- The rows under their keys, in the order in which the keys occur. -/
def groupBy (xs : List α) : List (κ × List α) :=
  xs.foldl (fun groups x => appendTo (key x) x groups) []

theorem groupBy_concat (xs : List α) (x : α) :
    groupBy key (xs ++ [x]) = appendTo (key x) x (groupBy key xs) := by
  rw [groupBy, List.foldl_append]
  rfl

/-- The keys after one more row. -/
def addKey (k : κ) (ks : List κ) : List κ := if k ∈ ks then ks else ks ++ [k]

/-- A turn adds the row to the list under its key, which is new or empty before. -/
theorem appendTo_map (k : κ) (x : α) (rows : κ → List α) {ks : List κ} (hnodup : ks.Nodup)
    (hnew : k ∉ ks → rows k = []) :
    appendTo k x (ks.map fun l => (l, rows l)) =
      (addKey k ks).map fun l => (l, rows l ++ if k = l then [x] else []) := by
  induction ks with
  | nil => simp [appendTo, addKey, hnew]
  | cons l ks ih =>
    obtain ⟨hl, hks⟩ := List.nodup_cons.1 hnodup
    by_cases heq : l = k
    · subst heq
      have hother : ∀ m ∈ ks, (m, rows m ++ if l = m then [x] else []) = (m, rows m) := by
        intro m hm
        have hne : l ≠ m := fun heq => hl (heq ▸ hm)
        rw [if_neg hne, List.append_nil]
      rw [addKey, if_pos List.mem_cons_self, List.map_cons, List.map_cons,
        List.map_congr_left hother, if_pos rfl, appendTo, if_pos rfl]
    · have hne : k ≠ l := fun h => heq h.symm
      have hadd : addKey k (l :: ks) = l :: addKey k ks := by
        unfold addKey
        by_cases hk : k ∈ ks <;> simp [hk, hne]
      have hnew' : k ∉ ks → rows k = [] := fun hk =>
        hnew fun hmem => (List.mem_cons.1 hmem).elim hne hk
      rw [hadd, List.map_cons, List.map_cons, appendTo, if_neg heq, ih hks hnew', if_neg hne,
        List.append_nil]

/-- **The groups**: under each of the different keys the rows that have it. -/
theorem groupBy_eq (xs : List α) : ∃ ks : List κ, ks.Nodup ∧ (∀ k, k ∈ ks ↔ k ∈ xs.map key) ∧
    groupBy key xs = ks.map fun k => (k, xs.filter fun x => key x = k) := by
  induction xs using List.reverseRecOn with
  | nil => exact ⟨[], List.nodup_nil, by simp, rfl⟩
  | append_singleton xs x ih =>
    obtain ⟨ks, hnodup, hkeys, heq⟩ := ih
    have hnew : key x ∉ ks → (xs.filter fun y => key y = key x) = [] := by
      intro hx
      refine List.filter_eq_nil_iff.2 fun y hy hkey => hx ((hkeys _).2 ?_)
      exact List.mem_map.2 ⟨y, hy, of_decide_eq_true hkey⟩
    refine ⟨addKey (key x) ks, ?_, fun k => ?_, ?_⟩
    · unfold addKey
      split_ifs with hx
      · exact hnodup
      · exact (List.perm_append_singleton _ _).nodup_iff.2 (List.nodup_cons.2 ⟨hx, hnodup⟩)
    · unfold addKey
      split_ifs with hx
      · rw [hkeys k, List.map_append, List.mem_append, List.map_singleton, List.mem_singleton]
        refine ⟨.inl, fun h => h.elim id ?_⟩
        rintro rfl
        exact (hkeys _).1 hx
      · simp [hkeys k]
    · rw [groupBy_concat, heq, appendTo_map (key x) x _ hnodup hnew]
      refine List.map_congr_left fun k _ => ?_
      rw [List.filter_append]
      by_cases hk : key x = k <;> simp [hk]

/-- **Together the groups are the table.** -/
theorem groupBy_perm (xs : List α) : ((groupBy key xs).flatMap Prod.snd).Perm xs := by
  obtain ⟨ks, hnodup, hkeys, heq⟩ := groupBy_eq key xs
  have hperm := flatMap_filter_perm (fun x => some (key x)) hnodup fun x (hx : x ∈ xs) k hk =>
    (hkeys k).2 (List.mem_map.2 ⟨x, hx, Option.some.inj hk⟩)
  rw [heq, List.flatMap_map]
  simpa using hperm

/-- A number that is summed over the groups is summed over the table. -/
theorem sum_groupBy {M : Type*} [AddCommMonoid M] (f : α → M) (xs : List α) :
    ((groupBy key xs).map fun g => (g.2.map f).sum).sum = (xs.map f).sum := by
  rw [← ((groupBy_perm key xs).map f).sum_eq, List.map_flatMap, List.flatMap_def, List.sum_flatten,
    List.map_map]
  rfl

end Dictionary

end AlphaOne.Foundations

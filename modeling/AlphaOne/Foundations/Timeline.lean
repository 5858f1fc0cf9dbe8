import AlphaOne.Foundations.Causal
import Mathlib.Algebra.Order.Ring.Int
import Mathlib.Data.List.Sort
import Mathlib.Algebra.Order.Group.Unbundled.Abs

/-!
# Tables in the order of a key

The rows of a table in time order that lie before some time are its first rows. So a causal column
says on them what it says on the whole table (`Causal.filter`, `Causal.zip_filter`), and two tables
with the same rows up to a time are the same up to it (`eq_of_strict`).
-/

namespace AlphaOne.Foundations

variable {α β κ : Type*}

section Prefix

variable {p : α → Bool} {xs : List α}

/-- A test that fails from some row on holds of the first rows. -/
theorem filter_eq_take (h : xs.Pairwise fun a b => p b → p a) :
    xs.filter p = xs.take (xs.countP p) := by
  induction xs with
  | nil => rfl
  | cons x xs ih =>
    obtain ⟨hx, hxs⟩ := List.pairwise_cons.1 h
    by_cases hp : p x
    · rw [List.filter_cons_of_pos hp, List.countP_cons_of_pos hp, List.take_succ_cons, ih hxs]
    · have hnone : ∀ b ∈ x :: xs, ¬p b := by
        intro b hb
        rcases List.mem_cons.1 hb with rfl | hb
        · exact hp
        · exact fun hpb => hp (hx b hb hpb)
      rw [List.filter_eq_nil_iff.2 hnone, List.countP_eq_zero.2 hnone, List.take_zero]

variable {f : List α → List β}

/-- A causal column of the first rows. -/
theorem Causal.filter (hf : Causal f) (h : xs.Pairwise fun a b => p b → p a) :
    f (xs.filter p) = (f xs).take (xs.countP p) := by
  rw [filter_eq_take h, hf.take]

/-- The rows of a table with a causal column, up to a row. -/
theorem Causal.zip_filter (hf : Causal f) (h : xs.Pairwise fun a b => p b → p a) :
    (xs.zip (f xs)).filter (fun row => p row.1) = (xs.filter p).zip (f (xs.filter p)) := by
  have hfst : (xs.zip (f xs)).map Prod.fst = xs := List.map_fst_zip (hf.length xs).ge
  have hrows : (xs.zip (f xs)).Pairwise fun a b => p b.1 → p a.1 := by
    rw [← hfst, List.pairwise_map] at h
    exact h
  have hcount : (xs.zip (f xs)).countP (fun row => p row.1) = xs.countP p := by
    conv_rhs => rw [← hfst, List.countP_map]
    rfl
  rw [filter_eq_take hrows, hcount, hf.filter h, filter_eq_take h, List.zip_eq_zipWith,
    List.zip_eq_zipWith, List.take_zipWith]

end Prefix

section Sorted

variable [LinearOrder κ] (key : α → κ)

/-- The rows in the order of a key. -/
def byKey (xs : List α) : List α := xs.insertionSort fun a b => key a ≤ key b

theorem byKey_perm (xs : List α) : (byKey key xs).Perm xs := List.perm_insertionSort _ _

theorem mem_byKey {xs : List α} {a : α} : a ∈ byKey key xs ↔ a ∈ xs := (byKey_perm key xs).mem_iff

theorem byKey_sorted (xs : List α) : (byKey key xs).Pairwise fun a b => key a ≤ key b := by
  have : Std.Total fun a b : α => key a ≤ key b := ⟨fun a b => le_total _ _⟩
  have : IsTrans α fun a b => key a ≤ key b := ⟨fun a b c => le_trans⟩
  exact List.pairwise_insertionSort _ _

/-- Rows of different keys are in strict order. -/
theorem byKey_strict {xs : List α} (h : xs.Pairwise fun a b => key a ≠ key b) :
    (byKey key xs).Pairwise fun a b => key a < key b := by
  have hne : (byKey key xs).Pairwise fun a b => key a ≠ key b :=
    ((byKey_perm key xs).pairwise_iff fun hab => Ne.symm hab).2 h
  exact (byKey_sorted key xs).imp₂ (fun _ _ => lt_of_le_of_ne) hne

/-- Tables in strict order with the same rows are the same. -/
theorem eq_of_strict {xs ys : List α} (hxs : xs.Pairwise fun a b => key a < key b)
    (hys : ys.Pairwise fun a b => key a < key b) (h : ∀ a, a ∈ xs ↔ a ∈ ys) : xs = ys := by
  have : Std.Irrefl fun a b : α => key a < key b := ⟨fun a => lt_irrefl _⟩
  have : Std.Antisymm fun a b : α => key a < key b := ⟨fun a b hab hba => absurd hab hba.asymm⟩
  exact hxs.eq_of_mem_iff hys h

/-- Tables with the same rows of a kind have them in the same order. -/
theorem filter_byKey_congr {p : α → Bool} {xs ys : List α}
    (hxs : xs.Pairwise fun a b => key a ≠ key b)
    (hys : ys.Pairwise fun a b => key a ≠ key b) (h : ∀ a, p a → (a ∈ xs ↔ a ∈ ys)) :
    (byKey key xs).filter p = (byKey key ys).filter p := by
  refine eq_of_strict key ((byKey_strict key hxs).filter _) ((byKey_strict key hys).filter _)
    fun a => ?_
  rw [List.mem_filter, List.mem_filter, mem_byKey, mem_byKey]
  exact and_congr_left (h a)

/-- The first row at or after a key. -/
theorem head?_filter_eq_some_iff {xs : List α} (hxs : xs.Pairwise fun a b => key a < key b) {t : κ}
    {a : α} : (xs.filter (t ≤ key ·)).head? = some a ↔
      a ∈ xs ∧ t ≤ key a ∧ ∀ b ∈ xs, key b < key a → key b < t := by
  have hmem : ∀ b, b ∈ xs.filter (t ≤ key ·) ↔ b ∈ xs ∧ t ≤ key b := fun b => by
    rw [List.mem_filter, decide_eq_true_eq]
  have hstrict : (xs.filter (t ≤ key ·)).Pairwise fun a b => key a < key b := hxs.filter _
  revert hmem hstrict
  generalize xs.filter (t ≤ key ·) = later
  intro hmem hstrict
  cases later with
  | nil =>
    refine iff_of_false (by simp) ?_
    rintro ⟨ha, hle, -⟩
    exact List.not_mem_nil ((hmem a).2 ⟨ha, hle⟩)
  | cons first rest =>
    obtain ⟨hfirst, -⟩ := List.pairwise_cons.1 hstrict
    have hfirstmem := (hmem first).1 List.mem_cons_self
    rw [List.head?_cons, Option.some_inj]
    constructor
    · rintro rfl
      refine ⟨hfirstmem.1, hfirstmem.2, fun b hb hlt => ?_⟩
      by_contra hle
      rcases List.mem_cons.1 ((hmem b).2 ⟨hb, not_lt.1 hle⟩) with rfl | hb
      · exact lt_irrefl _ hlt
      · exact lt_asymm hlt (hfirst b hb)
    · rintro ⟨ha, hle, hbefore⟩
      rcases List.mem_cons.1 ((hmem a).2 ⟨ha, hle⟩) with rfl | ha
      · rfl
      · exact absurd (hbefore first hfirstmem.1 (hfirst a ha)) (not_lt.2 hfirstmem.2)

/-- The last row at or before a key. -/
theorem getLast?_filter_eq_some_iff {xs : List α} (hxs : xs.Pairwise fun a b => key a < key b)
    {t : κ} {a : α} : (xs.filter (key · ≤ t)).getLast? = some a ↔
      a ∈ xs ∧ key a ≤ t ∧ ∀ b ∈ xs, key b ≤ t → key b ≤ key a := by
  have hmem : ∀ b, b ∈ xs.filter (key · ≤ t) ↔ b ∈ xs ∧ key b ≤ t := fun b => by
    rw [List.mem_filter, decide_eq_true_eq]
  have hstrict : (xs.filter (key · ≤ t)).Pairwise fun a b => key a < key b := hxs.filter _
  revert hmem hstrict
  generalize xs.filter (key · ≤ t) = earlier
  intro hmem hstrict
  rcases List.eq_nil_or_concat earlier with rfl | ⟨before, last, rfl⟩
  · refine iff_of_false (by simp) ?_
    rintro ⟨ha, hle, -⟩
    exact List.not_mem_nil ((hmem a).2 ⟨ha, hle⟩)
  · rw [List.concat_eq_append] at hmem hstrict ⊢
    obtain ⟨-, -, hlast⟩ := List.pairwise_append.1 hstrict
    have hlt : ∀ b ∈ before, key b < key last := fun b hb => hlast b hb last (by simp)
    have hlastmem := (hmem last).1 (by simp)
    rw [List.getLast?_concat, Option.some_inj]
    constructor
    · rintro rfl
      refine ⟨hlastmem.1, hlastmem.2, fun b hb hle => ?_⟩
      rcases List.mem_append.1 ((hmem b).2 ⟨hb, hle⟩) with hb | hb
      · exact (hlt b hb).le
      · rw [List.mem_singleton.1 hb]
    · rintro ⟨ha, hle, hafter⟩
      rcases List.mem_append.1 ((hmem a).2 ⟨ha, hle⟩) with ha | ha
      · exact absurd (hafter last hlastmem.1 hlastmem.2) (not_le.2 (hlt a ha))
      · exact (List.mem_singleton.1 ha).symm

end Sorted

/-! ## Rows that last -/

section Lasting

variable {start : α → ℤ} {length t : ℤ} {xs : List α}

/-- Rows that start at least `length` apart, in whatever order, do so in the order of their
starts. -/
theorem byKey_apart (h : xs.Pairwise fun a b => length ≤ |start b - start a|) :
    (byKey start xs).Pairwise fun a b => start a + length ≤ start b := by
  have hsymm : ∀ {a b : α}, length ≤ |start b - start a| → length ≤ |start a - start b| :=
    fun h => by rwa [abs_sub_comm]
  have happart := ((byKey_perm start xs).pairwise_iff hsymm).2 h
  refine (byKey_sorted start xs).imp₂ (fun a b hle hapart => ?_) happart
  rw [abs_of_nonneg (sub_nonneg.2 hle)] at hapart
  omega

theorem apart_ne (hpos : 0 < length) (h : xs.Pairwise fun a b => length ≤ |start b - start a|) :
    xs.Pairwise fun a b => start a ≠ start b :=
  h.imp fun {a b} hab heq => by
    rw [heq, sub_self, abs_zero] at hab
    omega

/-- **At most one row is open**: of rows that last until the next one may start, those that have
started by a time are those that have ended by then, and possibly one more. -/
theorem filter_started (h : xs.Pairwise fun a b => start a + length ≤ start b) {p : α → Bool}
    (hstarted : ∀ a ∈ xs, p a → start a ≤ t) (hended : ∀ a ∈ xs, start a + length ≤ t → p a) :
    (∃ a ∈ xs, p a ∧ t < start a + length ∧
      xs.filter p = xs.filter (start · + length ≤ t) ++ [a]) ∨
    (∀ a ∈ xs, p a → start a + length ≤ t) ∧ xs.filter p = xs.filter (start · + length ≤ t) := by
  induction xs with
  | nil => exact .inr ⟨by simp, rfl⟩
  | cons x xs ih =>
    obtain ⟨hx, hxs⟩ := List.pairwise_cons.1 h
    by_cases hclosed : start x + length ≤ t
    · have hpx : p x := hended x List.mem_cons_self hclosed
      rw [List.filter_cons_of_pos hpx, List.filter_cons_of_pos (by simpa using hclosed)]
      rcases ih hxs (fun a ha => hstarted a (List.mem_cons_of_mem x ha))
        fun a ha => hended a (List.mem_cons_of_mem x ha) with ⟨a, ha, hpa, hopen, heq⟩ | ⟨hall, heq⟩
      · exact .inl ⟨a, List.mem_cons_of_mem x ha, hpa, hopen, by rw [heq, List.cons_append]⟩
      · refine .inr ⟨fun a ha hpa => ?_, by rw [heq]⟩
        rcases List.mem_cons.1 ha with rfl | ha
        · exact hclosed
        · exact hall a ha hpa
    · -- nothing after an open row has started
      have hlater : ∀ a ∈ xs, ¬p a := fun a ha hpa => by
        have hle := hstarted a (List.mem_cons_of_mem x ha) hpa
        have hnext := hx a ha
        omega
      have hended' : ∀ a ∈ xs, ¬start a + length ≤ t := fun a ha hle =>
        hlater a ha (hended a (List.mem_cons_of_mem x ha) hle)
      have hnil : (x :: xs).filter (start · + length ≤ t) = [] := by
        refine List.filter_eq_nil_iff.2 fun a ha => ?_
        rw [decide_eq_true_eq]
        rcases List.mem_cons.1 ha with rfl | ha
        · exact hclosed
        · exact hended' a ha
      rw [hnil]
      by_cases hpx : p x
      · refine .inl ⟨x, List.mem_cons_self, hpx, not_le.1 hclosed, ?_⟩
        rw [List.filter_cons_of_pos hpx, List.filter_eq_nil_iff.2 hlater, List.nil_append]
      · refine .inr ⟨fun a ha hpa => ?_, ?_⟩
        · rcases List.mem_cons.1 ha with rfl | ha
          · exact absurd hpa hpx
          · exact absurd hpa (hlater a ha)
        · rw [List.filter_cons_of_neg hpx, List.filter_eq_nil_iff.2 hlater]

end Lasting

end AlphaOne.Foundations

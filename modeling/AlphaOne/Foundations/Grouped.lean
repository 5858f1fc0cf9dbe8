import AlphaOne.Foundations.Digits
import AlphaOne.Foundations.Rounding

/-!
# Digits in groups

A number is printed in groups of digits with a separator between them. `groupsFromEnd k` cuts groups
of `k` digits off the end while more than `k` are left; the digits stay in order
(`flatten_groupsFromEnd`), the first group is as long as is left, and the others are full
(`groupsFromEnd_shape`). Without the separators the digits are those of the number again
(`filter_intercalate`).
-/

namespace AlphaOne.Foundations

variable {α : Type*}

/-- Cut groups off the end of a list and put them before `groups`; `fuel` bounds their number. -/
def groupsFromEnd (k : ℕ) : ℕ → List α → List (List α) → List (List α)
  | 0, rest, groups => if rest.isEmpty then groups else rest :: groups
  | fuel + 1, rest, groups =>
    if k < rest.length then
      groupsFromEnd k fuel (rest.take (rest.length - k)) (rest.drop (rest.length - k) :: groups)
    else if rest.isEmpty then groups
    else rest :: groups

theorem flatten_groupsFromEnd (k fuel : ℕ) (rest : List α) (groups : List (List α)) :
    (groupsFromEnd k fuel rest groups).flatten = rest ++ groups.flatten := by
  have hlast : ∀ (rest : List α) (groups : List (List α)),
      (if rest.isEmpty then groups else rest :: groups).flatten = rest ++ groups.flatten := by
    intro rest groups
    cases rest <;> simp
  induction fuel generalizing rest groups with
  | zero => exact hlast rest groups
  | succ fuel ih =>
    rw [groupsFromEnd]
    split
    · rw [ih, List.flatten_cons, ← List.append_assoc, List.take_append_drop]
    · exact hlast rest groups

/-- A first group that may be short, before full ones. -/
theorem groupsFromEnd_shape {k : ℕ} (hk : 0 < k) {fuel : ℕ} {rest : List α}
    (hfuel : rest.length ≤ fuel) (hrest : rest ≠ []) (groups : List (List α)) :
    ∃ first full, groupsFromEnd k fuel rest groups = first :: (full ++ groups) ∧
      0 < first.length ∧ first.length ≤ k ∧ ∀ g ∈ full, g.length = k := by
  have hpos := List.length_pos_iff.2 hrest
  induction fuel generalizing rest groups with
  | zero => omega
  | succ fuel ih =>
    rw [groupsFromEnd]
    split
    · rename_i hlong
      have hlength : (rest.take (rest.length - k)).length = rest.length - k := by
        rw [List.length_take]
        omega
      have hshort : rest.take (rest.length - k) ≠ [] := by
        rw [← List.length_pos_iff, hlength]
        omega
      obtain ⟨first, full, hgroups, h₀, h₁, hfull⟩ := ih (by omega) hshort
        (rest.drop (rest.length - k) :: groups) (by omega)
      refine ⟨first, full ++ [rest.drop (rest.length - k)], ?_, h₀, h₁, ?_⟩
      · rw [hgroups, List.append_assoc, List.singleton_append]
      · intro g hg
        rcases List.mem_append.1 hg with hg | hg
        · exact hfull g hg
        · rw [List.mem_singleton.1 hg, List.length_drop]
          omega
    · rename_i hshort
      refine ⟨rest, [], ?_, hpos, not_lt.1 hshort, by simp⟩
      rw [if_neg (by simpa using hrest), List.nil_append]

/-! ## Separators -/

theorem intercalate_cons (sep : α) (g : List α) (gs : List (List α)) :
    List.intercalate [sep] (g :: gs) = g ++ gs.flatMap (sep :: ·) := by
  induction gs generalizing g with
  | nil => simp
  | cons g' gs ih => simp [List.intercalate_cons_cons, ih]

/-- Without the separators the groups are one list again. -/
theorem filter_intercalate [DecidableEq α] {sep : α} {groups : List (List α)}
    (h : ∀ g ∈ groups, sep ∉ g) :
    (List.intercalate [sep] groups).filter (· ≠ sep) = groups.flatten := by
  have hkeep : ∀ g ∈ groups, g.filter (· ≠ sep) = g := fun g hg =>
    List.filter_eq_self.2 fun x hx => decide_eq_true fun heq => h g hg (heq ▸ hx)
  cases groups with
  | nil => rfl
  | cons g gs =>
    rw [intercalate_cons, List.filter_append, hkeep g (by simp), List.flatten_cons]
    congr 1
    induction gs with
    | nil => rfl
    | cons g' gs ih =>
      rw [List.flatMap_cons, List.filter_append, List.filter_cons_of_neg (by simp),
        hkeep g' (by simp), ih (fun g hg => h g (by simp at hg ⊢; tauto))
          (fun g hg => hkeep g (by simp at hg ⊢; tauto)), List.flatten_cons]

/-! ## Cents -/

/-- A shift by an even number does not change which of two neighbours is even. -/
theorem roundHalfEven_add_even (x : ℚ) (n : ℤ) :
    roundHalfEven (x + 2 * n) = roundHalfEven x + 2 * n := by
  have hfloor : ⌊x + 2 * n⌋ = ⌊x⌋ + 2 * n := by exact_mod_cast Int.floor_add_intCast x (2 * n)
  have hrest : x + 2 * n - ((⌊x⌋ + 2 * n : ℤ) : ℚ) = x - ⌊x⌋ := by
    push_cast
    ring
  have hparity : (⌊x⌋ + 2 * n) % 2 = ⌊x⌋ % 2 := by omega
  unfold roundHalfEven
  simp only [hfloor, hrest, hparity]
  split_ifs <;> ring

end AlphaOne.Foundations

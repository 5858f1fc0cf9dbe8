import AlphaOne.Foundations.Cursor
import Mathlib.Data.List.Basic
import Mathlib.Data.List.Induction
import Mathlib.Data.List.Sort

/-!
# Feeding inputs to a machine that may end

A machine reacts to an input with events and its next state, or with events and its end. `feed`
is its run over a list of inputs: the events in order, and the state it is left in, if any.

An input to which the machine has no reaction changes nothing, so that a run over all inputs and
a run over some of them agree when no input that is left out would have had a reaction where it
stands (`feed_filter`). For a history in the strict order of a key, the inputs before a point of
it are those with a smaller key (`feed_chronological`).
-/

namespace AlphaOne.Foundations

variable {σ ι ε : Type*} (react : ι → σ → List ε × Option σ)

/-- The run of a machine, which `none` says has ended, over the inputs in order. -/
def feed : Option σ → List ι → List ε × Option σ
  | s, [] => ([], s)
  | none, _ :: _ => ([], none)
  | some s, i :: is =>
    let (events, s') := react i s
    let (more, s'') := feed s' is
    (events ++ more, s'')

variable {s : σ} {o : Option σ} {i : ι} {is js : List ι}

@[simp] theorem feed_nil : feed react o [] = ([], o) := by
  cases o <;> rfl

/-- A machine that has ended stays so. -/
@[simp] theorem feed_none : feed react none is = ([], none) := by
  cases is <;> rfl

theorem feed_append : feed react o (is ++ js) =
    ((feed react o is).1 ++ (feed react (feed react o is).2 js).1,
      (feed react (feed react o is).2 js).2) := by
  induction is generalizing o with
  | nil => simp
  | cons i is ih =>
    cases o with
    | none => simp
    | some s => simp [feed, ih]

/-- One more input after a run: the machine, if it has not ended, reacts to it. -/
theorem feed_concat_some (h : (feed react o is).2 = some s) :
    feed react o (is ++ [i]) = ((feed react o is).1 ++ (react i s).1, (react i s).2) := by
  simp [feed_append, h, feed]

theorem feed_concat_none (h : (feed react o is).2 = none) :
    feed react o (is ++ [i]) = feed react o is := by
  rw [feed_append, h, feed_none, List.append_nil, ← h]

/-- An input without a reaction after a run leaves the run as it is. -/
theorem feed_concat_idle (h : ∀ s ∈ (feed react o is).2, react i s = ([], some s)) :
    feed react o (is ++ [i]) = feed react o is := by
  cases hs : (feed react o is).2 with
  | none => exact feed_concat_none react hs
  | some s => rw [feed_concat_some react hs, h s hs, List.append_nil, ← hs]

/-- **Inputs without a reaction can be left out**: the run over the inputs that meet `p` is the run
over all of them, when none of the others has a reaction after those before it. -/
theorem feed_filter (p : ι → Prop) [DecidablePred p]
    (h : ∀ l₁ i l₂, is = l₁ ++ i :: l₂ → ¬p i →
      ∀ s ∈ (feed react o (l₁.filter p)).2, react i s = ([], some s)) :
    feed react o (is.filter p) = feed react o is := by
  induction is using List.reverseRecOn with
  | nil => rfl
  | append_singleton is i ih =>
    have ih := ih fun l₁ j l₂ hl => h l₁ j (l₂ ++ [i]) (by simp [hl])
    by_cases hp : p i
    · rw [List.filter_append, List.filter_cons_of_pos (by simpa using hp), List.filter_nil,
        feed_append, feed_append, ih]
    · rw [List.filter_append, List.filter_cons_of_neg (by simpa using hp), List.filter_nil,
        List.append_nil, ih, feed_concat_idle react]
      rw [← ih]
      exact h is i [] (by simp) hp

/-! ## Histories in the order of a key -/

section Chronological

variable {τ : Type*} [LinearOrder τ] {key : ι → τ} {hits : List ι}

/-- Two histories of the same inputs are the same. -/
theorem Chronological.eq_of_mem_iff (h : Chronological key is) (h' : Chronological key js)
    (hmem : ∀ i, i ∈ is ↔ i ∈ js) : is = js := by
  refine List.Perm.eq_of_pairwise (fun i j _ _ hij hji => ?_) h h'
    ((List.perm_ext_iff_of_nodup h.nodup h'.nodup).2 hmem)
  exact absurd hij hji.asymm

/-- What comes before a point of a history has a smaller key. -/
theorem Chronological.mem_left_iff {l₁ l₂ : List ι} {j : ι}
    (h : Chronological key (l₁ ++ i :: l₂)) :
    j ∈ l₁ ↔ j ∈ l₁ ++ i :: l₂ ∧ key j < key i := by
  obtain ⟨-, hright, hcross⟩ := List.pairwise_append.1 h
  constructor
  · intro hj
    exact ⟨List.mem_append_left _ hj, hcross j hj i (by simp)⟩
  · rintro ⟨hj, hlt⟩
    rcases List.mem_append.1 hj with hj | hj
    · exact hj
    · rcases List.mem_cons.1 hj with rfl | hj
      · exact absurd hlt (lt_irrefl _)
      · exact absurd hlt ((List.pairwise_cons.1 hright).1 j hj).asymm

/-- Rows with different keys, sorted by key, are a history. -/
theorem chronological_insertionSort (h : (is.map key).Nodup) :
    Chronological key (is.insertionSort fun i j => key i ≤ key j) := by
  have hsorted := List.pairwise_insertionSort (fun i j => key i ≤ key j) is
  have hperm := List.perm_insertionSort (fun i j => key i ≤ key j) is
  have hnodup : ((is.insertionSort fun i j => key i ≤ key j).map key).Nodup :=
    (hperm.map key).nodup_iff.2 h
  have hne := List.pairwise_map.1 hnodup
  exact (hsorted.and hne).imp fun hij => lt_of_le_of_ne hij.1 hij.2

/-- **A machine that reacts to nothing else is replayed by its hits**: the run over a history is the
run over some of its inputs, when each of the others finds no reaction after the hits with a
smaller key. -/
theorem feed_chronological [DecidableEq ι] (h : Chronological key is)
    (hhits : Chronological key hits) (hsub : ∀ i ∈ hits, i ∈ is)
    (hidle : ∀ i ∈ is, i ∉ hits →
      ∀ s ∈ (feed react o (hits.filter fun j => key j < key i)).2, react i s = ([], some s)) :
    feed react o is = feed react o hits := by
  have hfilter : is.filter (· ∈ hits) = hits := by
    refine (h.sublist List.filter_sublist).eq_of_mem_iff hhits fun i => ?_
    simpa using fun hi => hsub i hi
  rw [← feed_filter react (· ∈ hits), hfilter]
  intro l₁ i l₂ his hi s hs
  have hbefore : l₁.filter (· ∈ hits) = hits.filter fun j => key j < key i := by
    rw [his] at h
    have hl₁ : Chronological key (l₁.filter (· ∈ hits)) :=
      h.sublist (List.filter_sublist.trans (List.sublist_append_left _ _))
    refine hl₁.eq_of_mem_iff (hhits.sublist List.filter_sublist) fun j => ?_
    have hsub' : j ∈ hits → j ∈ l₁ ++ i :: l₂ := fun hj => his ▸ hsub j hj
    simp only [List.mem_filter, decide_eq_true_eq, h.mem_left_iff]
    tauto
  refine hidle i (by simp [his]) hi s ?_
  rwa [← hbefore]

end Chronological

/-- Every event of a run is an event of the reaction to one of its inputs. -/
theorem exists_input_of_mem_feed {e : ε} (h : e ∈ (feed react o is).1) :
    ∃ l₁ i l₂ s, is = l₁ ++ i :: l₂ ∧ (feed react o l₁).2 = some s ∧ e ∈ (react i s).1 := by
  induction is using List.reverseRecOn with
  | nil => simp at h
  | append_singleton is i ih =>
    cases hs : (feed react o is).2 with
    | none =>
      rw [feed_concat_none react hs] at h
      obtain ⟨l₁, j, l₂, s, rfl, hl, he⟩ := ih h
      exact ⟨l₁, j, l₂ ++ [i], s, by simp, hl, he⟩
    | some s =>
      rw [feed_concat_some react hs] at h
      rcases List.mem_append.1 h with h | h
      · obtain ⟨l₁, j, l₂, s, rfl, hl, he⟩ := ih h
        exact ⟨l₁, j, l₂ ++ [i], s, by simp, hl, he⟩
      · exact ⟨is, i, [], s, rfl, hs, h⟩

end AlphaOne.Foundations

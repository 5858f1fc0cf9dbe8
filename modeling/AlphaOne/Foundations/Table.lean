import Mathlib.Data.List.Nodup
import Mathlib.Data.List.Basic
import Mathlib.Data.List.Induction
import Mathlib.Algebra.BigOperators.Group.List.Basic
import Mathlib.Tactic.Abel

/-!
# Tables of rows under a key

A table is a list of rows, in insertion order, and a key is a function of a row. The operations
are those a relational store offers to a program that addresses rows by a unique key: finding
the row of a key, writing a changed row back, inserting a row with a new key.

`UniqueKey` is the unique index. Under it `lookup` and membership say the same
(`lookup_eq_some_iff`), and saving a row or inserting one with a new key keeps it. `UniqueWhere` is
the unique index of the rows that have a key.
-/

namespace AlphaOne.Foundations

variable {ρ κ : Type*} [DecidableEq κ] (key : ρ → κ)

/-- The rows have pairwise different keys. -/
def UniqueKey (rows : List ρ) : Prop := (rows.map key).Nodup

/-- The first row with the key `k`. -/
def lookup (k : κ) (rows : List ρ) : Option ρ := rows.find? fun r => key r = k

/-- The rows with `r` written over those that have its key. -/
def save (r : ρ) (rows : List ρ) : List ρ := rows.map fun s => if key s = key r then r else s

/-- `INSERT … ON CONFLICT DO NOTHING`: the rows with `r` added unless its key is taken. -/
def insertNew (rows : List ρ) (r : ρ) : List ρ :=
  if ∃ s ∈ rows, key s = key r then rows else rows ++ [r]

/-- A bulk insert, row by row. -/
def insertAllNew (rows new : List ρ) : List ρ := new.foldl (insertNew key) rows

/-- `d[key] = r` on a dictionary: `r` written over the entry with its key, or added last. -/
def upsert (r : ρ) (rows : List ρ) : List ρ :=
  if ∃ s ∈ rows, key s = key r then save key r rows else rows ++ [r]

/-- A dictionary comprehension: of rows with one key the last counts, in the place of the first. -/
def dictOf (rows : List ρ) : List ρ := rows.foldl (fun d r => upsert key r d) []

/-- `r` is the last row of its key. -/
def LastOf (rows : List ρ) (r : ρ) : Prop :=
  ∃ before after, rows = before ++ r :: after ∧ ∀ s ∈ after, key s ≠ key r

/-- `del d[k]`. -/
def remove (k : κ) (rows : List ρ) : List ρ := rows.filter fun r => key r ≠ k

variable {key} {k : κ} {r s : ρ} {rows : List ρ}

theorem mem_of_lookup (h : lookup key k rows = some r) : r ∈ rows := List.mem_of_find?_eq_some h

theorem key_of_lookup (h : lookup key k rows = some r) : key r = k := by
  simpa using List.find?_some h

theorem lookup_eq_none_iff : lookup key k rows = none ↔ ∀ r ∈ rows, key r ≠ k := by
  simp [lookup, List.find?_eq_none]

/-- At most one row passes a test exactly if no two rows do. -/
theorem length_filter_le_one_iff {p : ρ → Prop} [DecidablePred p] :
    (rows.filter fun r => p r).length ≤ 1 ↔ rows.Pairwise fun r s => ¬(p r ∧ p s) := by
  induction rows with
  | nil => simp
  | cons r rows ih =>
    rw [List.pairwise_cons]
    by_cases hr : p r
    · have hnone : (rows.filter fun s => p s).length + 1 ≤ 1 ↔ ∀ s ∈ rows, ¬p s := by
        simp [List.filter_eq_nil_iff]
      simp only [List.filter_cons, hr, decide_true, if_true, List.length_cons, true_and, hnone]
      constructor
      · intro h
        exact ⟨h, List.Pairwise.imp_of_mem (fun hs _ _ hboth => h _ hs hboth.1)
          (List.pairwise_of_forall fun _ _ => trivial)⟩
      · exact fun h => h.1
    · simp [hr, ih]

omit [DecidableEq κ] in
theorem UniqueKey.eq_of_key {r' : ρ} (hu : UniqueKey key rows) (hr : r ∈ rows) (hr' : r' ∈ rows)
    (h : key r = key r') : r = r' := List.inj_on_of_nodup_map hu hr hr' h

omit [DecidableEq κ] in
theorem UniqueKey.ne_of_append_cons {pre post : List ρ} (hu : UniqueKey key (pre ++ s :: post)) :
    (∀ o ∈ pre, key o ≠ key s) ∧ ∀ o ∈ post, key o ≠ key s := by
  unfold UniqueKey at hu
  rw [List.map_append, List.map_cons, List.nodup_append, List.nodup_cons] at hu
  obtain ⟨-, ⟨hpost, -⟩, hpre⟩ := hu
  refine ⟨fun o ho => hpre _ (List.mem_map_of_mem ho) _ (by simp), fun o ho he => ?_⟩
  exact hpost (he ▸ List.mem_map_of_mem ho)

/-- Under a unique index only the row itself has its key. -/
theorem UniqueKey.filter_key (hu : UniqueKey key rows) (hr : r ∈ rows) :
    rows.filter (fun s => key s = key r) = [r] := by
  obtain ⟨pre, post, rfl⟩ := List.append_of_mem hr
  obtain ⟨hpre, hpost⟩ := hu.ne_of_append_cons
  have hnil : ∀ l : List ρ, (∀ o ∈ l, key o ≠ key r) →
      l.filter (fun s => key s = key r) = [] := fun l hl =>
    List.filter_eq_nil_iff.2 fun o ho => by simpa using hl o ho
  rw [List.filter_append, hnil pre hpre, List.filter_cons_of_pos (by simp), hnil post hpost,
    List.nil_append]

/-- Under a unique index the row found for a key is the row with that key. -/
theorem lookup_eq_some_iff (hu : UniqueKey key rows) :
    lookup key k rows = some r ↔ r ∈ rows ∧ key r = k := by
  constructor
  · intro h
    exact ⟨mem_of_lookup h, key_of_lookup h⟩
  · rintro ⟨hr, hk⟩
    cases hl : lookup key k rows with
    | none => exact absurd hk (lookup_eq_none_iff.1 hl r hr)
    | some r' =>
      have hkey : key r' = key r := (key_of_lookup hl).trans hk.symm
      rw [hu.eq_of_key (mem_of_lookup hl) hr hkey]

theorem mem_save :
    s ∈ save key r rows ↔ (s ∈ rows ∧ key s ≠ key r) ∨ (s = r ∧ ∃ o ∈ rows, key o = key r) := by
  simp only [save, List.mem_map]
  constructor
  · rintro ⟨o, ho, rfl⟩
    by_cases h : key o = key r
    · exact Or.inr ⟨by simp [h], o, ho, h⟩
    · exact Or.inl (by simp [h, ho])
  · rintro (⟨hs, h⟩ | ⟨rfl, o, ho, h⟩)
    · exact ⟨s, hs, by simp [h]⟩
    · exact ⟨o, ho, by simp [h]⟩

/-- Saving a row changes what is found under its own key only. -/
theorem lookup_save_of_ne (h : k ≠ key r) : lookup key k (save key r rows) = lookup key k rows := by
  induction rows with
  | nil => rfl
  | cons o rows ih =>
    have hcons : save key r (o :: rows) = (if key o = key r then r else o) :: save key r rows := rfl
    rw [hcons]
    by_cases ho : key o = key r
    · have hk : key o ≠ k := fun he => h (he.symm.trans ho)
      simp only [lookup, if_pos ho, List.find?_cons, decide_eq_false hk,
        decide_eq_false (Ne.symm h)]
      exact ih
    · simp only [lookup, if_neg ho, List.find?_cons]
      split
      · rfl
      · exact ih

/-- What is found under the key of a saved row is that row, if there was one. -/
theorem lookup_save (h : lookup key (key r) rows = some s) :
    lookup key (key r) (save key r rows) = some r := by
  induction rows with
  | nil => cases h
  | cons o rows ih =>
    have hcons : save key r (o :: rows) = (if key o = key r then r else o) :: save key r rows := rfl
    rw [hcons]
    by_cases ho : key o = key r
    · simp [lookup, ho]
    · simp only [lookup, if_neg ho, List.find?_cons, decide_eq_false ho] at h ⊢
      exact ih h

/-- A new row changes what is found under its own key only. -/
theorem lookup_append_of_ne (h : key r ≠ k) :
    lookup key k (rows ++ [r]) = lookup key k rows := by
  simp [lookup, List.find?_append, h]

theorem lookup_append_of_new (h : ∀ s ∈ rows, key s ≠ key r) :
    lookup key (key r) (rows ++ [r]) = some r := by
  have hnone : rows.find? (fun s => key s = key r) = none := lookup_eq_none_iff.2 h
  simp [lookup, List.find?_append, hnone]

/-- A row with another key is untouched when a row is saved. -/
theorem mem_save_of_ne (hs : s ∈ rows) (h : key s ≠ key r) : s ∈ save key r rows :=
  mem_save.2 (Or.inl ⟨hs, h⟩)

@[simp] theorem map_key_save : (save key r rows).map key = rows.map key := by
  simp only [save, List.map_map]
  refine List.map_congr_left fun s _ => ?_
  by_cases h : key s = key r <;> simp [h]

theorem UniqueKey.save (hu : UniqueKey key rows) : UniqueKey key (save key r rows) := by
  unfold UniqueKey at *
  rwa [map_key_save]

/-- Saving a row that is there changes nothing. -/
theorem UniqueKey.save_self (hu : UniqueKey key rows) (hr : r ∈ rows) :
    Foundations.save key r rows = rows := by
  refine (List.map_congr_left fun s hs => ?_).trans (List.map_id rows)
  split
  · rename_i h
    exact (hu.eq_of_key hs hr h).symm
  · rfl

theorem nodup_append_singleton {α : Type*} {l : List α} {a : α} (h : l.Nodup) (ha : a ∉ l) :
    (l ++ [a]).Nodup := by
  rw [← List.concat_eq_append]
  exact h.concat ha

omit [DecidableEq κ] in
/-- Inserting a row whose key no row has keeps the index unique. -/
theorem UniqueKey.append_singleton (hu : UniqueKey key rows) (h : ∀ r ∈ rows, key r ≠ key s) :
    UniqueKey key (rows ++ [s]) := by
  unfold UniqueKey at *
  rw [List.map_append, List.map_singleton]
  refine nodup_append_singleton hu fun hmem => ?_
  obtain ⟨r, hr, heq⟩ := List.mem_map.1 hmem
  exact h r hr heq

/-! ## Updating rows in place -/

section Map

variable {f : ρ → ρ} (hf : ∀ r, key (f r) = key r)
include hf

/-- An update that keeps the keys finds, under a key, the updated row. -/
theorem lookup_map : lookup key k (rows.map f) = (lookup key k rows).map f := by
  rw [lookup, lookup, List.find?_map]
  congr 2
  funext r
  simp [hf]

omit [DecidableEq κ] in
theorem UniqueKey.map (hu : UniqueKey key rows) : UniqueKey key (rows.map f) := by
  unfold UniqueKey at *
  rwa [List.map_map, show key ∘ f = key from funext hf]

end Map

/-! ## Writing and deleting dictionary entries -/

theorem UniqueKey.remove (hu : UniqueKey key rows) : UniqueKey key (remove key k rows) := by
  unfold UniqueKey Foundations.remove
  exact hu.sublist (List.filter_sublist.map key)

/-- An entry with a new key is added last. -/
theorem upsert_of_new (h : ∀ s ∈ rows, key s ≠ key r) : upsert key r rows = rows ++ [r] := by
  unfold upsert
  rw [if_neg]
  simpa using h

/-- Another key finds what it found before. -/
theorem lookup_upsert_of_ne (h : k ≠ key r) :
    lookup key k (upsert key r rows) = lookup key k rows := by
  unfold upsert
  split
  · exact lookup_save_of_ne h
  · exact lookup_append_of_ne h.symm

theorem mem_upsert : s ∈ upsert key r rows ↔ (s ∈ rows ∧ key s ≠ key r) ∨ s = r := by
  unfold upsert
  split
  · rename_i h
    rw [mem_save]
    simp [h]
  · rename_i h
    push Not at h
    rw [List.mem_append, List.mem_singleton]
    constructor
    · rintro (hs | rfl)
      · exact Or.inl ⟨hs, h s hs⟩
      · exact Or.inr rfl
    · rintro (⟨hs, -⟩ | rfl)
      · exact Or.inl hs
      · exact Or.inr rfl

theorem UniqueKey.upsert (hu : UniqueKey key rows) : UniqueKey key (upsert key r rows) := by
  unfold Foundations.upsert
  split
  · exact hu.save
  · rename_i h
    push Not at h
    exact hu.append_singleton h

theorem dictOf_concat : dictOf key (rows ++ [r]) = upsert key r (dictOf key rows) := by
  simp [dictOf]

theorem mem_of_mem_dictOf (hs : s ∈ dictOf key rows) : s ∈ rows := by
  induction rows using List.reverseRecOn with
  | nil => exact hs
  | append_singleton rows r ih =>
    rw [dictOf_concat, mem_upsert] at hs
    rcases hs with ⟨hs, -⟩ | rfl
    · exact List.mem_append_left _ (ih hs)
    · simp

theorem uniqueKey_dictOf : UniqueKey key (dictOf key rows) := by
  induction rows using List.reverseRecOn with
  | nil => exact List.nodup_nil
  | append_singleton rows r ih =>
    rw [dictOf_concat]
    exact ih.upsert

/-- A row whose key no other row has is an entry of the dictionary. -/
theorem mem_dictOf (hs : s ∈ rows) (halone : ∀ r ∈ rows, key r = key s → r = s) :
    s ∈ dictOf key rows := by
  induction rows using List.reverseRecOn with
  | nil => exact hs
  | append_singleton rows r ih =>
    rw [dictOf_concat, mem_upsert]
    by_cases hk : key s = key r
    · exact Or.inr (halone r (by simp) hk.symm).symm
    · have hs' : s ∈ rows := by
        rcases List.mem_append.1 hs with hs | hs
        · exact hs
        · exact absurd (congrArg key (List.mem_singleton.1 hs)) hk
      exact Or.inl ⟨ih hs' fun o ho => halone o (by simp [ho]), hk⟩

theorem UniqueKey.mem_dictOf (hu : UniqueKey key rows) : s ∈ dictOf key rows ↔ s ∈ rows :=
  ⟨mem_of_mem_dictOf, fun hs => Foundations.mem_dictOf hs fun _ hr hk => hu.eq_of_key hr hs hk⟩

/-- Every key of the rows has an entry in the dictionary. -/
theorem exists_mem_dictOf (hs : s ∈ rows) : ∃ r ∈ dictOf key rows, key r = key s := by
  induction rows using List.reverseRecOn with
  | nil => cases hs
  | append_singleton rows o ih =>
    rw [dictOf_concat]
    by_cases hk : key s = key o
    · exact ⟨o, mem_upsert.2 (.inr rfl), hk.symm⟩
    · have hs' : s ∈ rows := by
        rcases List.mem_append.1 hs with hs | hs
        · exact hs
        · exact absurd (congrArg key (List.mem_singleton.1 hs)) hk
      obtain ⟨r, hr, hkr⟩ := ih hs'
      exact ⟨r, mem_upsert.2 (.inl ⟨hr, fun h => hk (hkr.symm.trans h)⟩), hkr⟩

/-- **The entries of a dictionary** are the last rows of their keys. -/
theorem mem_dictOf_iff : r ∈ dictOf key rows ↔ LastOf key rows r := by
  induction rows using List.reverseRecOn with
  | nil => exact ⟨fun h => absurd h List.not_mem_nil, fun ⟨_, _, h, _⟩ => by simp at h⟩
  | append_singleton rows s ih =>
    rw [dictOf_concat, mem_upsert, ih]
    constructor
    · rintro (⟨⟨before, after, rfl, hafter⟩, hne⟩ | rfl)
      · refine ⟨before, after ++ [s], by simp, fun t ht => ?_⟩
        rcases List.mem_append.1 ht with ht | ht
        · exact hafter t ht
        · rw [List.mem_singleton.1 ht]
          exact hne.symm
      · exact ⟨rows, [], rfl, by simp⟩
    · rintro ⟨before, after, heq, hafter⟩
      rcases List.eq_nil_or_concat after with rfl | ⟨after, t, rfl⟩
      · exact .inr (List.append_inj_right' heq rfl |> List.cons.inj |>.1).symm
      · rw [List.concat_eq_append, ← List.cons_append, ← List.append_assoc] at heq
        obtain ⟨rfl, hts⟩ := List.append_inj' heq rfl
        obtain rfl : s = t := (List.cons.inj hts).1
        exact .inl ⟨⟨before, after, rfl, fun u hu => hafter u (by simp [hu])⟩,
          (hafter s (by simp)).symm⟩

/-- A row that is alone with its key is the last one of it. -/
theorem lastOf_of_singleton (h : rows.filter (fun s => key s = k) = [r]) : LastOf key rows r := by
  have hmem : ∀ s, s ∈ rows ∧ key s = k ↔ s = r := by
    intro s
    have hmem : s ∈ [r] ↔ s = r := List.mem_singleton
    rw [← h, List.mem_filter, decide_eq_true_eq] at hmem
    exact hmem
  obtain ⟨hr, hkey⟩ := (hmem r).2 rfl
  exact mem_dictOf_iff.1 (mem_dictOf hr fun s hs hks => (hmem s).1 ⟨hs, hks.trans hkey⟩)

/-- Saving a row under a unique index replaces it where it stands. -/
theorem save_append_cons {pre post : List ρ} (hu : UniqueKey key (pre ++ s :: post))
    (h : key s = key r) : save key r (pre ++ s :: post) = pre ++ r :: post := by
  obtain ⟨hpre, hpost⟩ := hu.ne_of_append_cons
  have hkeep : ∀ l : List ρ, (∀ o ∈ l, key o ≠ key s) →
      l.map (fun o => if key o = key r then r else o) = l := by
    intro l hl
    refine (List.map_congr_left fun o ho => ?_).trans (List.map_id l)
    rw [if_neg (h ▸ hl o ho), id]
  rw [save, List.map_append, List.map_cons, if_pos h, hkeep pre hpre, hkeep post hpost]

/-- Deleting a row under a unique index leaves the others as they stand. -/
theorem remove_append_cons {pre post : List ρ} (hu : UniqueKey key (pre ++ s :: post)) :
    remove key (key s) (pre ++ s :: post) = pre ++ post := by
  obtain ⟨hpre, hpost⟩ := hu.ne_of_append_cons
  have hkeep : ∀ l : List ρ, (∀ o ∈ l, key o ≠ key s) → remove key (key s) l = l := by
    intro l hl
    exact List.filter_eq_self.2 fun o ho => by simpa using hl o ho
  have happ : remove key (key s) (pre ++ s :: post) =
      remove key (key s) pre ++ remove key (key s) post := by
    simp [remove, List.filter_append]
  rw [happ, hkeep pre hpre, hkeep post hpost]

/-- A column's total after an entry is written: the new value for the old one, if there was one. -/
theorem sum_map_upsert {M : Type*} [AddCommMonoid M] (f : ρ → M) (hu : UniqueKey key rows) :
    ((upsert key r rows).map f).sum + ((lookup key (key r) rows).map f).getD 0 =
      (rows.map f).sum + f r := by
  by_cases hnew : ∃ s ∈ rows, key s = key r
  · obtain ⟨s, hs, hk⟩ := hnew
    have hfound : lookup key (key r) rows = some s := (lookup_eq_some_iff hu).2 ⟨hs, hk⟩
    obtain ⟨pre, post, rfl⟩ := List.append_of_mem hs
    rw [upsert, if_pos ⟨s, hs, hk⟩, save_append_cons hu hk, hfound]
    simp only [List.map_append, List.map_cons, List.sum_append, List.sum_cons, Option.map_some,
      Option.getD_some]
    abel
  · push Not at hnew
    rw [upsert_of_new hnew, lookup_eq_none_iff.2 hnew]
    simp

/-! ## Inserting without conflict -/

@[simp] theorem insertAllNew_nil : insertAllNew key rows [] = rows := rfl

theorem mem_insertNew_of_mem (hs : s ∈ rows) : s ∈ insertNew key rows r := by
  unfold insertNew
  split
  · exact hs
  · exact List.mem_append_left _ hs

/-- After an insert without conflict the key is there, whoever brought it. -/
theorem key_mem_insertNew : k ∈ (insertNew key rows r).map key ↔ k ∈ rows.map key ∨ k = key r := by
  unfold insertNew
  split
  · rename_i h
    obtain ⟨s, hs, hk⟩ := h
    constructor
    · exact Or.inl
    · rintro (h | rfl)
      · exact h
      · exact hk ▸ List.mem_map_of_mem hs
  · simp

theorem UniqueKey.insertNew (hu : UniqueKey key rows) : UniqueKey key (insertNew key rows r) := by
  unfold Foundations.insertNew
  split
  · exact hu
  · rename_i h
    push Not at h
    exact hu.append_singleton h

variable {new : List ρ}

theorem mem_insertAllNew_of_mem (hs : s ∈ rows) : s ∈ insertAllNew key rows new := by
  induction new generalizing rows with
  | nil => exact hs
  | cons r new ih => exact ih (mem_insertNew_of_mem hs)

/-- The keys after a bulk insert are those of the table and those of the new rows. -/
theorem key_mem_insertAllNew :
    k ∈ (insertAllNew key rows new).map key ↔ k ∈ rows.map key ∨ k ∈ new.map key := by
  induction new generalizing rows with
  | nil => simp
  | cons r new ih =>
    rw [insertAllNew, List.foldl_cons, ← insertAllNew, ih, key_mem_insertNew, List.map_cons,
      List.mem_cons, or_assoc]

/-- What a bulk insert leaves was there, or is a new row with a new key. -/
theorem mem_insertAllNew (hs : s ∈ insertAllNew key rows new) :
    s ∈ rows ∨ s ∈ new ∧ ∀ r ∈ rows, key r ≠ key s := by
  induction new generalizing rows with
  | nil => exact Or.inl hs
  | cons o new ih =>
    rw [insertAllNew, List.foldl_cons, ← insertAllNew] at hs
    rcases ih hs with hs | ⟨hs, hfree⟩
    · unfold insertNew at hs
      split at hs
      · exact Or.inl hs
      · rename_i hfree
        push Not at hfree
        rcases List.mem_append.1 hs with hs | hs
        · exact Or.inl hs
        · obtain rfl := List.mem_singleton.1 hs
          exact Or.inr ⟨by simp, hfree⟩
    · exact Or.inr ⟨by simp [hs], fun r hr => hfree r (mem_insertNew_of_mem hr)⟩

theorem UniqueKey.insertAllNew (hu : UniqueKey key rows) :
    UniqueKey key (insertAllNew key rows new) := by
  induction new generalizing rows with
  | nil => exact hu
  | cons r new ih => exact ih hu.insertNew

/-- A bulk insert of rows whose keys are all taken inserts nothing. -/
theorem insertAllNew_eq_self (h : ∀ r ∈ new, ∃ s ∈ rows, key s = key r) :
    insertAllNew key rows new = rows := by
  induction new with
  | nil => rfl
  | cons r new ih =>
    rw [insertAllNew, List.foldl_cons, ← insertAllNew, insertNew, if_pos (h r List.mem_cons_self)]
    exact ih fun o ho => h o (List.mem_cons_of_mem r ho)

/-- A bulk insert adds rows at the end, each of them new. -/
theorem exists_insertAllNew_eq (key : ρ → κ) (rows new : List ρ) :
    ∃ added, insertAllNew key rows new = rows ++ added ∧ ∀ r ∈ added, r ∈ new := by
  induction new generalizing rows with
  | nil => exact ⟨[], by simp, by simp⟩
  | cons r new ih =>
    rw [insertAllNew, List.foldl_cons, ← insertAllNew, insertNew]
    split_ifs
    · obtain ⟨added, heq, hadded⟩ := ih rows
      exact ⟨added, heq, fun o ho => List.mem_cons_of_mem r (hadded o ho)⟩
    · obtain ⟨added, heq, hadded⟩ := ih (rows ++ [r])
      refine ⟨r :: added, by rw [heq, List.append_assoc, List.singleton_append], fun o ho => ?_⟩
      rcases List.mem_cons.1 ho with rfl | ho
      · exact List.mem_cons_self
      · exact List.mem_cons_of_mem r (hadded o ho)

/-! ## Keys that a row may lack -/

section Partial

variable {key? : ρ → Option κ}

/-- The rows that have a key have pairwise different ones: a unique index `WHERE key IS NOT NULL`.
-/
def UniqueWhere (key? : ρ → Option κ) (rows : List ρ) : Prop :=
  UniqueKey key? (rows.filter fun r => (key? r).isSome)

/-- Inserting a row that has a key is inserting it among those that have one. -/
theorem filter_insertNew (hr : (key? r).isSome) :
    (insertNew key? rows r).filter (fun s => (key? s).isSome) =
      insertNew key? (rows.filter fun s => (key? s).isSome) r := by
  have hiff : (∃ s ∈ rows.filter fun s => (key? s).isSome, key? s = key? r) ↔
      ∃ s ∈ rows, key? s = key? r := by
    constructor
    · rintro ⟨s, hs, hkey⟩
      exact ⟨s, (List.mem_filter.1 hs).1, hkey⟩
    · rintro ⟨s, hs, hkey⟩
      exact ⟨s, List.mem_filter.2 ⟨hs, hkey ▸ hr⟩, hkey⟩
  simp only [insertNew, hiff]
  split_ifs
  · rfl
  · simp [List.filter_append, hr]

theorem UniqueWhere.insertAllNew (hu : UniqueWhere key? rows)
    (h : ∀ r ∈ new, (key? r).isSome = true) : UniqueWhere key? (insertAllNew key? rows new) := by
  induction new generalizing rows with
  | nil => exact hu
  | cons r new ih =>
    refine ih ?_ fun s hs => h s (List.mem_cons_of_mem r hs)
    rw [UniqueWhere, filter_insertNew (h r List.mem_cons_self)]
    exact UniqueKey.insertNew hu

/-- A key that has a row has one. -/
theorem UniqueWhere.length_filter (hu : UniqueWhere key? rows) (hk : some k ∈ rows.map key?) :
    (rows.filter fun s => key? s = some k).length = 1 := by
  obtain ⟨s, hs, hkey⟩ := List.mem_map.1 hk
  have hmem : s ∈ rows.filter fun s => (key? s).isSome :=
    List.mem_filter.2 ⟨hs, by rw [hkey]; rfl⟩
  have hone := hu.filter_key hmem
  have hsame : (fun o : ρ => decide (key? o = some k) && (key? o).isSome) =
      fun o => decide (key? o = some k) := by
    funext o
    by_cases ho : key? o = some k <;> simp [ho]
  rw [hkey, List.filter_filter, hsame] at hone
  rw [hone, List.length_singleton]

end Partial

/-! ## Tables row by row -/

section Pairs

variable {α β : Type*} {R : α → β → Prop} {xs : List α} {ys : List β}

/-- Every row of a table is related to one of the other. -/
theorem partner_of_mem (h : List.Forall₂ R xs ys) :
    (∀ x ∈ xs, ∃ y ∈ ys, R x y) ∧ ∀ y ∈ ys, ∃ x ∈ xs, R x y := by
  induction h with
  | nil => simp
  | cons hxy _ ih =>
    obtain ⟨hx, hy⟩ := ih
    refine ⟨?_, ?_⟩
    · intro x hmem
      rcases List.mem_cons.1 hmem with rfl | hmem
      · exact ⟨_, by simp, hxy⟩
      · obtain ⟨y, hy, hR⟩ := hx x hmem
        exact ⟨y, by simp [hy], hR⟩
    · intro y hmem
      rcases List.mem_cons.1 hmem with rfl | hmem
      · exact ⟨_, by simp, hxy⟩
      · obtain ⟨x, hx, hR⟩ := hy y hmem
        exact ⟨x, by simp [hx], hR⟩

/-- Two lists that are related to a third are related to each other. -/
theorem forall₂_meet {γ : Type*} {S : α → γ → Prop} {T : β → γ → Prop}
    (hRS : ∀ x y z, R x y → S x z → T y z) {zs : List γ}
    (hR : List.Forall₂ R xs ys) (hS : List.Forall₂ S xs zs) : List.Forall₂ T ys zs := by
  induction hR generalizing zs with
  | nil =>
    cases hS
    exact .nil
  | cons hxy _ ih =>
    obtain _ | ⟨hxz, htail⟩ := hS
    exact .cons (hRS _ _ _ hxy hxz) (ih htail)

end Pairs

end AlphaOne.Foundations

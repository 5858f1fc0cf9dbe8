import AlphaOne.Foundations.Run

/-!
# Causal columns

A column of a table is computed from the columns before it, row by row. It is causal when what it
holds in its first rows is what it would hold if the table ended there: then a column that is
computed once over a whole history says at every row what a computation at that time would have
said.

* `states step s xs`: the states of a machine after each of its inputs.
* `withPrevious f prev xs`: the rows computed from an entry and the one before it.
* `Causal`, with `causal_map`, `causal_states`, `Causal.comp` and `Causal.zipWith`: the columns that
  are built from these are causal.
* `back` reads the rows at the end of a table.
-/

namespace AlphaOne.Foundations

variable {σ α β γ δ : Type*}

/-- The states a machine is in after each of its inputs. -/
def states (step : σ → α → σ) : σ → List α → List σ
  | _, [] => []
  | s, x :: xs => step s x :: states step (step s x) xs

/-- A column whose rows are computed from a row of the table and the one before it. -/
def withPrevious (f : Option α → α → β) : Option α → List α → List β
  | _, [] => []
  | prev, x :: xs => f prev x :: withPrevious f (some x) xs

section States

variable (step : σ → α → σ) (s : σ)

@[simp] theorem states_nil : states step s [] = [] := rfl

@[simp] theorem length_states (xs : List α) : (states step s xs).length = xs.length := by
  induction xs generalizing s with
  | nil => rfl
  | cons x xs ih => simp [states, ih]

theorem states_append (xs ys : List α) :
    states step s (xs ++ ys) = states step s xs ++ states step (run step s xs) ys := by
  induction xs generalizing s with
  | nil => rfl
  | cons x xs ih => simp [states, ih]

theorem states_concat (xs : List α) (x : α) :
    states step s (xs ++ [x]) = states step s xs ++ [step (run step s xs) x] := by
  rw [states_append]
  rfl

/-- The state after an input is that of the run over the inputs up to it. -/
theorem getElem?_states {xs : List α} {j : ℕ} (h : j < xs.length) :
    (states step s xs)[j]? = some (run step s (xs.take (j + 1))) := by
  induction xs generalizing s j with
  | nil => simp at h
  | cons x xs ih =>
    cases j with
    | zero => simp [states]
    | succ j => simpa [states] using ih (step s x) (by simpa using h)

/-- What every step keeps holds of every state. -/
theorem mem_states_of_step {P : σ → Prop} (hstep : ∀ s x, P s → P (step s x)) {s : σ} (hs : P s)
    {xs : List α} {t : σ} (ht : t ∈ states step s xs) : P t := by
  induction xs generalizing s with
  | nil => simp at ht
  | cons x xs ih =>
    rcases List.mem_cons.1 ht with rfl | ht
    · exact hstep s x hs
    · exact ih (hstep s x hs) ht

end States

/-! ## Columns -/

/-- A column with one row for each row of the table, none of which depends on a later one. -/
structure Causal (f : List α → List β) : Prop where
  length : ∀ xs, (f xs).length = xs.length
  take : ∀ xs k, f (xs.take k) = (f xs).take k

theorem causal_id : Causal (fun xs : List α => xs) := ⟨fun _ => rfl, fun _ _ => rfl⟩

theorem causal_map (g : α → β) : Causal (List.map g) :=
  ⟨fun _ => List.length_map .., fun _ _ => List.map_take ..⟩

theorem causal_states (step : σ → α → σ) (s : σ) : Causal (states step s) := by
  refine ⟨length_states step s, fun xs k => ?_⟩
  induction xs generalizing s k with
  | nil => simp
  | cons x xs ih =>
    cases k with
    | zero => rfl
    | succ k => simp [states, ih]

theorem causal_withPrevious (g : Option α → α → β) (prev : Option α) :
    Causal (withPrevious g prev) := by
  refine ⟨fun xs => ?_, fun xs k => ?_⟩
  · induction xs generalizing prev with
    | nil => rfl
    | cons x xs ih => simp [withPrevious, ih]
  · induction xs generalizing prev k with
    | nil => simp [withPrevious]
    | cons x xs ih =>
      cases k with
      | zero => rfl
      | succ k => simp [withPrevious, ih]

theorem Causal.comp {f : List β → List γ} {g : List α → List β} (hf : Causal f) (hg : Causal g) :
    Causal (fun xs => f (g xs)) :=
  ⟨fun xs => (hf.length _).trans (hg.length xs), fun xs k => by rw [hg.take, hf.take]⟩

theorem Causal.zipWith {f : List α → List β} {g : List α → List γ} (hf : Causal f)
    (hg : Causal g) (op : β → γ → δ) : Causal (fun xs => List.zipWith op (f xs) (g xs)) := by
  refine ⟨fun xs => ?_, fun xs k => ?_⟩
  · rw [List.length_zipWith, hf.length, hg.length, Nat.min_self]
  · rw [hf.take, hg.take, List.take_zipWith]

variable {f : List α → List β}

/-- One more row of the table adds one row to the column. -/
theorem Causal.concat (hf : Causal f) (xs : List α) (x : α) : ∃ y, f (xs ++ [x]) = f xs ++ [y] := by
  have htake := hf.take (xs ++ [x]) xs.length
  rw [List.take_left] at htake
  have hlength := hf.length (xs ++ [x])
  obtain ⟨y, hy⟩ : ∃ y, (f (xs ++ [x])).drop xs.length = [y] := by
    refine List.length_eq_one_iff.1 ?_
    rw [List.length_drop, hlength, List.length_append]
    simp
  exact ⟨y, by rw [htake, ← hy, List.take_append_drop]⟩

/-- The row `k` places before the last one, as `iloc[-1 - k]` reads it. -/
def back (rows : List β) (k : ℕ) : Option β := rows.reverse[k]?

@[simp] theorem back_concat_zero (rows : List β) (r : β) : back (rows ++ [r]) 0 = some r := by
  simp [back]

@[simp] theorem back_concat_succ (rows : List β) (r : β) (k : ℕ) :
    back (rows ++ [r]) (k + 1) = back rows k := by
  simp [back]

@[simp] theorem back_map (g : β → γ) (rows : List β) (k : ℕ) :
    back (rows.map g) k = (back rows k).map g := by
  rw [back, ← List.map_reverse, List.getElem?_map, back]

theorem back_states (step : σ → α → σ) (s : σ) {xs : List α} (h : xs ≠ []) :
    back (states step s xs) 0 = some (run step s xs) := by
  obtain ⟨pre, x, rfl⟩ := List.eq_nil_or_concat xs |>.resolve_left h
  rw [List.concat_eq_append, states_concat, back_concat_zero, run_append]
  rfl

end AlphaOne.Foundations

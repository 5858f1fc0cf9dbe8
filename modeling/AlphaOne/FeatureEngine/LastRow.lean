import AlphaOne.FeatureEngine.Causality
import AlphaOne.FeatureEngine.Frame

/-!
# The last row of a column

What the columns of `services/feature_engine/indicators.py` hold in their last row: a window of the
last entries (`back_rolling`), the change from the entry before (`pctChange_concat`) and the ATR,
which moves by a share of the true range of the last candle (`atr_concat`).
-/

namespace AlphaOne.FeatureEngine

open Foundations

/-! ## Windows -/

/-- The last `k` entries of a column, the latest first, if there are so many and none is a NaN. -/
def lastEntries (k : ℕ) (xs : Series) : Option (List ℚ) :=
  let recent := xs.reverse.take k
  if recent.length = k ∧ recent.all Option.isSome then some (recent.filterMap id) else none

section Entries

variable {k j : ℕ} {xs : Series} {x : Option ℚ} {rs : List ℚ}

theorem back_windows {α : Type*} (w : ℕ) {xs : List α} (h : xs ≠ []) :
    back (windows w xs) 0 = some (xs.reverse.take w) := by
  have hlength : (windows w xs).length = xs.length := (causal_windows w).length xs
  have hpos : 0 < xs.length := List.length_pos_iff.2 h
  have hall : xs.length - 1 - 0 + 1 = xs.length := by omega
  rw [back, List.getElem?_reverse (by omega), hlength, getElem?_windows, if_pos (by omega), hall,
    List.take_length]

/-- The last entry of a shifted column. -/
theorem back_shift (h : xs ≠ []) : back (shift k xs) 0 = some (back xs k).join := by
  rw [shift, back_map, back_windows _ h, Option.map_some,
    List.getElem?_take_of_lt (Nat.lt_succ_self k), back]

/-- **A rolling column** ends with its window of the last entries. -/
theorem back_rolling (k : ℕ) (agg : List ℚ → ℚ) (h : xs ≠ []) :
    back (rolling k agg xs) 0 = some ((lastEntries k xs).map agg) := by
  rw [rolling, back_map, back_windows k h, Option.map_some, lastEntries]
  congr 1
  split_ifs <;> rfl

theorem lastEntries_eq_some_iff :
    lastEntries k xs = some rs ↔ xs.reverse.take k = rs.map some ∧ rs.length = k := by
  unfold lastEntries
  dsimp only
  constructor
  · intro h
    split_ifs at h with hfull
    obtain rfl := Option.some.inj h
    have hsome : ((xs.reverse.take k).filterMap id).map some = xs.reverse.take k := by
      have hall := List.all_eq_true.1 hfull.2
      generalize xs.reverse.take k = recent at hall
      induction recent with
      | nil => rfl
      | cons y recent ih =>
        obtain ⟨a, rfl⟩ := Option.isSome_iff_exists.1 (hall y (by simp))
        simpa using ih fun z hz => hall z (by simp [hz])
    exact ⟨hsome.symm, by rw [← List.length_map some, hsome, hfull.1]⟩
  · rintro ⟨hrecent, hlength⟩
    rw [hrecent, if_pos (by simp [hlength])]
    simp

/-- A further entry comes first. -/
theorem lastEntries_concat :
    lastEntries (k + 1) (xs ++ [x]) = x.bind fun a => (lastEntries k xs).map (a :: ·) := by
  unfold lastEntries
  rw [List.reverse_append, List.reverse_singleton, List.singleton_append, List.take_succ_cons]
  cases x with
  | none => simp
  | some a =>
    dsimp only
    rw [Option.bind_some]
    split_ifs with hcons htail htail
    · simp
    · exact absurd ⟨by simpa using hcons.1, by simpa using hcons.2⟩ htail
    · exact absurd ⟨by simpa using htail.1, by simpa using htail.2⟩ hcons
    · rfl

/-- A shorter window. -/
theorem lastEntries_take (h : lastEntries k xs = some rs) (hj : j ≤ k) :
    lastEntries j xs = some (rs.take j) := by
  obtain ⟨hrecent, hlength⟩ := lastEntries_eq_some_iff.1 h
  refine lastEntries_eq_some_iff.2 ⟨?_, by rw [List.length_take, hlength, Nat.min_eq_left hj]⟩
  rw [List.map_take, ← hrecent, List.take_take, Nat.min_eq_left hj]

theorem length_lastEntries (h : lastEntries k xs = some rs) : rs.length = k :=
  (lastEntries_eq_some_iff.1 h).2

end Entries

/-! ## Changes -/

theorem causal_pctChange (k : ℕ) : Causal (pctChange k) :=
  (causal_map _).comp (causal_id.zipWith (causal_shift k) _)

/-- The change to a further entry is missing after a zero. -/
theorem pctChange_concat (xs : Series) (p a : ℚ) :
    pctChange 1 (xs ++ [some p] ++ [some a]) =
      pctChange 1 (xs ++ [some p]) ++ [if p = 0 then none else some (a / p - 1)] := by
  obtain ⟨z, hz⟩ := (causal_shift 1).concat (xs ++ [some p]) (some a)
  have hprevious : z = some p := by
    have hback : back (shift 1 (xs ++ [some p] ++ [some a])) 0 =
        some (back (xs ++ [some p] ++ [some a]) 1).join := back_shift (by simp)
    rw [hz, back_concat_zero, back_concat_succ, back_concat_zero] at hback
    exact Option.some.inj hback
  have hlength : (xs ++ [some p]).length = (shift 1 (xs ++ [some p])).length :=
    ((causal_shift 1).length _).symm
  rw [pctChange, hz, hprevious, safeDiv, List.zipWith_append hlength, List.map_append]
  congr 1
  by_cases hp : p = 0 <;> simp [hp]

/-! ## The ATR -/

section Atr

theorem withPrevious_concat {α β : Type*} (f : Option α → α → β) (prev : Option α) (xs : List α)
    (p c : α) : withPrevious f prev (xs ++ [p] ++ [c]) =
      withPrevious f prev (xs ++ [p]) ++ [f (some p) c] := by
  induction xs generalizing prev with
  | nil => rfl
  | cons x xs ih => simpa [withPrevious] using ih (some x)

theorem oldWt_pos (alpha : ℚ) (halpha : alpha < 1) (adjust : Bool) (xs : Series) :
    0 < (run (ewmStep alpha adjust) {} xs).oldWt := by
  induction xs using List.reverseRecOn with
  | nil => exact one_pos
  | append_singleton xs x ih =>
    have hshrunk : 0 < (run (ewmStep alpha adjust) {} xs).oldWt * (1 - alpha) :=
      mul_pos ih (by linarith)
    rw [run_append, run_cons, run_nil]
    unfold ewmStep
    split
    · exact ih
    · exact ih
    · exact hshrunk
    · cases adjust
      · exact one_pos
      · exact add_pos hshrunk one_pos

theorem ewmStep_of_some {alpha weighted cur : ℚ} {s : EwmState} (h : s.weighted = some weighted) :
    ewmStep alpha true s (some cur) =
      { weighted := some ((s.oldWt * (1 - alpha) * weighted + cur) / (s.oldWt * (1 - alpha) + 1))
        oldWt := s.oldWt * (1 - alpha) + 1
        nobs := s.nobs + 1 } := by
  simp [ewmStep, h]

/-- **A further candle moves the ATR** towards its true range. -/
theorem atr_concat (rows : List Candle) (p : Candle) (hlength : 14 ≤ (rows ++ [p]).length) :
    ∃ w a, 0 < w ∧ ∀ c, atr (rows ++ [p] ++ [c]) 14 =
      atr (rows ++ [p]) 14 ++ [some ((w * a + trueRange (some p) c) / (w + 1))] := by
  obtain ⟨hnobs, hsome⟩ :=
    run_ewmStep_some (1 / (14 : ℕ)) true (withPrevious trueRange none (rows ++ [p]))
  have hrows : (withPrevious trueRange none (rows ++ [p])).length = (rows ++ [p]).length :=
    (causal_withPrevious trueRange none).length _
  obtain ⟨a, ha⟩ := Option.isSome_iff_exists.1 (hsome (by
    rw [← List.length_pos_iff, hrows]
    omega))
  rw [← trueRanges_eq] at hnobs ha
  have hpos := oldWt_pos (1 / (14 : ℕ)) (by norm_num) true (trueRanges (rows ++ [p]))
  refine ⟨_, a, mul_pos hpos (by norm_num : (0 : ℚ) < 1 - 1 / (14 : ℕ)), fun c => ?_⟩
  have hranges : trueRanges (rows ++ [p] ++ [c]) =
      trueRanges (rows ++ [p]) ++ [some (trueRange (some p) c)] := withPrevious_concat _ _ _ _ _
  rw [atr, ewm, hranges, states_concat, List.map_append]
  congr 1
  rw [List.map_singleton, ewmStep_of_some ha, if_pos]
  dsimp only
  omega

/-- The ATRs of the last rows are established. -/
theorem lastEntries_atr {rows : List Candle} (k : ℕ) (h : 13 + k ≤ rows.length) :
    ∃ as, lastEntries k (atr rows 14) = some as := by
  induction k generalizing rows with
  | zero => exact ⟨[], lastEntries_eq_some_iff.2 ⟨by simp, rfl⟩⟩
  | succ k ih =>
    obtain ⟨rows, p, rfl⟩ := List.eq_nil_or_concat rows |>.resolve_left (by
      rintro rfl
      simp at h)
    rw [List.concat_eq_append] at h ⊢
    rw [List.length_append, List.length_singleton] at h
    obtain ⟨as, has⟩ : ∃ as, lastEntries k (atr rows 14) = some as := ih (by omega)
    obtain ⟨y, hy⟩ := (causal_atr 14).concat rows p
    obtain ⟨a, ha⟩ : ∃ a, back (atr (rows ++ [p]) 14) 0 = some (some a) :=
      back_atr (by simp) (by rw [List.length_append, List.length_singleton]; omega)
    rw [hy, back_concat_zero] at ha
    obtain rfl := Option.some.inj ha
    exact ⟨a :: as, by rw [hy, lastEntries_concat, has]; rfl⟩

end Atr

end AlphaOne.FeatureEngine

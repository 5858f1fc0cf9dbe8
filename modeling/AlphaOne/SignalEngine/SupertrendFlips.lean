import AlphaOne.SignalEngine.Strategies

/-!
# When S06 signals

S06 decides on the last two rows of the supertrend. Here its decision on a frame is read off the
state that the recursion carries into the last candle and off that candle: it signals when the close
crosses the band it faces (`decide_of_fires`), and abstains otherwise (`decide_of_not_fires`).
-/

namespace AlphaOne.SignalEngine

open Foundations FeatureEngine

/-- The state that the supertrend of S06 carries out of a frame. -/
def carried (df : List Candle) : SupertrendState :=
  run (supertrendStep 3) {} (df.zip (atr df 10))

/-- The ATR at the end of a frame. -/
def lastAtr (df : List Candle) (period : ℕ) : Option ℚ := (back (atr df period) 0).join

/-- The bands of the row that the candle `c` adds to the frame `df`. -/
def bandsAt (df : List Candle) (c : Candle) : Option Bands :=
  match (carried df).bands, lastAtr (df ++ [c]) 10 with
  | some prev, some a => some (nextBands (basicBands 3 c a) prev (carried df).close)
  | _, _ => none

/-- The candle `c` crosses the band that the supertrend faces after the frame `df`. -/
def Crosses (df : List Candle) (c : Candle) : Prop :=
  ∃ b ∈ bandsAt df c, b.CrossedBy c.close (carried df).direction

instance (df : List Candle) (c : Candle) : Decidable (Crosses df c) :=
  inferInstanceAs (Decidable (∃ b ∈ bandsAt df c, b.CrossedBy c.close (carried df).direction))

/-- The candle `c` crosses the band, and S06 does not abstain. -/
def Fires (df : List Candle) (c : Candle) : Prop :=
  14 ≤ df.length ∧ (∃ a ∈ lastAtr (df ++ [c]) 14, 0 < a) ∧ Crosses df c

instance (df : List Candle) (c : Candle) : Decidable (Fires df c) :=
  inferInstanceAs (Decidable (14 ≤ df.length ∧ (∃ a ∈ lastAtr (df ++ [c]) 14, 0 < a) ∧
    Crosses df c))

/-- The side of a flip out of a direction. -/
def flipSide : Direction → SignalType
  | .up => .short
  | .down => .long

variable {df : List Candle} {c : Candle}

theorem atr_concat (df : List Candle) (c : Candle) (period : ℕ) :
    atr (df ++ [c]) period = atr df period ++ [lastAtr (df ++ [c]) period] := by
  obtain ⟨a, ha⟩ := (causal_atr period).concat df c
  have hlast : lastAtr (df ++ [c]) period = a := by
    rw [lastAtr, ha, back_concat_zero]
    rfl
  rw [hlast]
  exact ha

theorem zip_concat (df : List Candle) (c : Candle) : (df ++ [c]).zip (atr (df ++ [c]) 10) =
    df.zip (atr df 10) ++ [(c, lastAtr (df ++ [c]) 10)] := by
  rw [atr_concat, List.zip_append ((causal_atr 10).length df).symm]
  rfl

/-- The last candle is one step of the recursion. -/
theorem carried_concat (df : List Candle) (c : Candle) : carried (df ++ [c]) =
    supertrendStep 3 (carried df) (c, lastAtr (df ++ [c]) 10) := by
  rw [carried, zip_concat, run_append]
  rfl

theorem supertrend_concat (df : List Candle) (c : Candle) :
    supertrend (df ++ [c]) 10 3 = supertrend df 10 3 ++ [carried (df ++ [c])] := by
  rw [carried_concat, supertrend, zip_concat]
  exact states_concat _ _ _ _

/-- The prepared row of the last candle. -/
def lastRow (df : List Candle) (c : Candle) : PreparedRow SupertrendColumns :=
  { candle := c
    columns :=
      { stLine := (carried (df ++ [c])).line
        stDir := (carried (df ++ [c])).direction
        atr14 := lastAtr (df ++ [c]) 14 } }

theorem prepare_concat (df : List Candle) (c : Candle) :
    prepare precomputeSupertrend (df ++ [c]) =
      prepare precomputeSupertrend df ++ [lastRow df c] := by
  have hst : (supertrend df 10 3).length = (atr df 14).length :=
    ((causal_supertrend 10 3).length df).trans ((causal_atr 14).length df).symm
  have hcolumns : df.length = (precomputeSupertrend df).length := (s06Pair_causal.length df).symm
  have hconcat : precomputeSupertrend (df ++ [c]) =
      precomputeSupertrend df ++ [(lastRow df c).columns] := by
    rw [precomputeSupertrend, supertrend_concat, atr_concat, List.zipWith_append hst]
    rfl
  rw [prepare, hconcat, List.zipWith_append hcolumns]
  rfl

/-- Without bands the direction is up. -/
theorem carried_direction (h : (carried df).bands = none) : (carried df).direction = .up := by
  have hkeep : ∀ s x, (s.bands = none → s.direction = Direction.up) →
      (supertrendStep 3 s x).bands = none → (supertrendStep 3 s x).direction = .up := by
    rintro s ⟨c, _ | a⟩ _ hnone
    · rfl
    · cases hb : s.bands <;> simp [supertrendStep, hb] at hnone
  by_cases hne : df = []
  · subst hne
    rfl
  · obtain ⟨pre, x, rfl⟩ := List.eq_nil_or_concat df |>.resolve_left hne
    rw [List.concat_eq_append] at h ⊢
    have hmem : carried (pre ++ [x]) ∈ supertrend (pre ++ [x]) 10 3 := by
      simp [supertrend_concat]
    exact mem_states_of_step (P := fun s => s.bands = none → s.direction = .up) (supertrendStep 3)
      hkeep (fun _ => rfl) hmem h

/-- The row of the last candle: its bands, and the direction that is flipped by a crossing. -/
theorem step_of_bandsAt {b : Bands} (h : bandsAt df c = some b) :
    supertrendStep 3 (carried df) (c, lastAtr (df ++ [c]) 10) =
      { bands := some b
        direction := nextDirection b c.close (carried df).direction
        close := c.close } := by
  unfold bandsAt at h
  cases hprev : (carried df).bands with
  | none => simp [hprev] at h
  | some prev =>
    cases ha : lastAtr (df ++ [c]) 10 with
    | none => simp [hprev, ha] at h
    | some a =>
      simp only [hprev, ha, Option.some.injEq] at h
      simp only [supertrendStep, hprev, h]

theorem decide_concat (h : 14 ≤ df.length) : s06Pair.decide (df ++ [c]) =
    (lastAtr (df ++ [c]) 14).bind fun a =>
      if a ≤ 0 then none
      else match (carried df).direction, (carried (df ++ [c])).direction with
        | .down, .up => some (flipSignal c.close a (carried (df ++ [c])).line .long)
        | .up, .down => some (flipSignal c.close a (carried (df ++ [c])).line .short)
        | _, _ => none := by
  have hne : df ≠ [] := by
    rintro rfl
    simp at h
  obtain ⟨pre, x, rfl⟩ := List.eq_nil_or_concat df |>.resolve_left hne
  rw [List.concat_eq_append] at h ⊢
  have hlength : ¬(prepare precomputeSupertrend (pre ++ [x] ++ [c])).length < 15 := by
    have := (causal_prepare s06Pair_causal).length (pre ++ [x] ++ [c])
    have htotal : (pre ++ [x] ++ [c]).length = (pre ++ [x]).length + 1 := by simp
    change (prepare precomputeSupertrend _).length = _ at this
    omega
  change supertrendSignal (prepare precomputeSupertrend (pre ++ [x] ++ [c])) = _
  rw [supertrendSignal, if_neg hlength, prepare_concat, back_concat_zero, back_concat_succ,
    prepare_concat, back_concat_zero]
  rfl

theorem decide_of_short (h : df.length < 14) : s06Pair.decide (df ++ [c]) = none := by
  have hlength : (prepare precomputeSupertrend (df ++ [c])).length < 15 := by
    have := (causal_prepare s06Pair_causal).length (df ++ [c])
    have htotal : (df ++ [c]).length = df.length + 1 := by simp
    change (prepare precomputeSupertrend _).length = _ at this
    omega
  change supertrendSignal (prepare precomputeSupertrend (df ++ [c])) = none
  rw [supertrendSignal, if_pos hlength]

/-- Where no band is crossed the direction stays. -/
theorem carried_concat_of_not_crosses (h : 14 ≤ df.length) (hc : ¬Crosses df c) :
    (carried (df ++ [c])).direction = (carried df).direction := by
  cases hb : bandsAt df c with
  | some b =>
    rw [carried_concat, step_of_bandsAt hb]
    exact nextDirection_of_not_crossed fun hcrossed => hc ⟨b, hb, hcrossed⟩
  | none =>
    have hestablished : 10 ≤ (df ++ [c]).length := by
      rw [List.length_append]
      omega
    obtain ⟨a, ha⟩ := back_atr (by simp) hestablished
    have ha : lastAtr (df ++ [c]) 10 = some a := by rw [lastAtr, ha, Option.join_some]
    have hnone : (carried df).bands = none := by
      cases hprev : (carried df).bands with
      | none => rfl
      | some prev => simp [bandsAt, hprev, ha] at hb
    rw [carried_concat, carried_direction hnone, ha]
    simp [supertrendStep, hnone]

/-- **S06 signals when the last candle fires**, against the direction that the supertrend had, and
stops the trade at the band that the flip leaves behind. -/
theorem decide_of_fires (h : Fires df c) : ∃ a b, 0 < a ∧ bandsAt df c = some b ∧
    s06Pair.decide (df ++ [c]) =
      some (flipSignal c.close a (some (b.behind (carried df).direction))
        (flipSide (carried df).direction)) := by
  obtain ⟨hlength, ⟨a, ha, hpos⟩, b, hb, hcrossed⟩ := h
  have hstep : carried (df ++ [c]) = _ := (carried_concat df c).trans (step_of_bandsAt hb)
  rw [nextDirection_of_crossed hcrossed] at hstep
  have ha : lastAtr (df ++ [c]) 14 = some a := ha
  refine ⟨a, b, hpos, hb, ?_⟩
  rw [decide_concat hlength, ha, Option.bind_some, if_neg (not_le.2 hpos), hstep]
  cases (carried df).direction <;> rfl

/-- It abstains otherwise. -/
theorem decide_of_not_fires (h : ¬Fires df c) : s06Pair.decide (df ++ [c]) = none := by
  by_cases hlength : 14 ≤ df.length
  · rw [decide_concat hlength]
    cases ha : lastAtr (df ++ [c]) 14 with
    | none => rfl
    | some a =>
      rw [Option.bind_some]
      split_ifs with hpos
      · rfl
      · have hcrosses : ¬Crosses df c := fun hc => h ⟨hlength, ⟨a, ha, not_le.1 hpos⟩, hc⟩
        rw [carried_concat_of_not_crosses hlength hcrosses]
        cases (carried df).direction <;> rfl
  · exact decide_of_short (not_le.1 hlength)

end AlphaOne.SignalEngine

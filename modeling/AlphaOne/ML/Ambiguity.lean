import AlphaOne.Foundations.FirstHit
import AlphaOne.ML.Horizon

/-!
# Labels that are decided by one side

A bar is labelled as no trade when the long and the short trade both reach their targets first, the
whipsaw the loop's last comment speaks of. With the target no nearer than the stop that cannot be:
a bar that reaches the target of one trade is beyond the stop of the other, which is tested first.

* `not_both_tp`: never both.
* `label_eq_long_iff` and `label_eq_short_iff`: a label is what one trade reaches.
* `exists_both_tp`: with the target nearer than the stop, one wide bar reaches both.
-/

namespace AlphaOne.ML

open Foundations Backtester

variable {config : TripleBarrierConfig} {df : List (Bar Columns)} {t : ℕ} {entryPrice a : ℚ}

/-- The target is no nearer than the stop, and the stop is off the entry. -/
structure TripleBarrierConfig.TargetBeyondStop (config : TripleBarrierConfig) : Prop where
  pos : 0 < config.slAtrMultiple
  le : config.slAtrMultiple ≤ config.tpAtrMultiple

/-- The two trades of the bar `t` are followed: the horizon has all its bars, the ATR is positive
and the reward is worth the risk. -/
structure Followed (config : TripleBarrierConfig) (df : List (Bar Columns)) (t : ℕ) (a : ℚ)
    (entry : Bar Columns) : Prop where
  length : t + 1 + config.horizonBars < df.length
  atr : atrAt config df t = some a
  pos : 0 < a
  minRr : config.MinRrOk
  entry : df[t + 1]? = some entry

/-! ## One bar -/

theorem touchLong_eq_tp_iff {b : Barriers} {bar : Bar Columns} :
    touchLong b bar = some .tp ↔ b.stop < bar.low ∧ b.target ≤ bar.high := by
  rw [touchLong]
  split_ifs with hstop htarget <;> simp_all

theorem touchShort_eq_tp_iff {b : Barriers} {bar : Bar Columns} :
    touchShort b bar = some .tp ↔ bar.high < b.stop ∧ bar.low ≤ b.target := by
  rw [touchShort]
  split_ifs with hstop htarget <;> simp_all

/-- A bar that takes the long trade to its target stops the short one. -/
theorem touchShort_of_touchLong (h : config.TargetBeyondStop) (ha : 0 < a) {bar : Bar Columns}
    (hlong : touchLong (longBarriers config entryPrice a) bar = some .tp) :
    touchShort (shortBarriers config entryPrice a) bar = some .sl := by
  have hle : config.slAtrMultiple * a ≤ config.tpAtrMultiple * a :=
    mul_le_mul_of_nonneg_right h.le ha.le
  obtain ⟨-, htarget⟩ := touchLong_eq_tp_iff.1 hlong
  rw [touchShort, if_pos]
  simp only [longBarriers, shortBarriers] at htarget ⊢
  linarith

/-- A bar that takes the short trade to its target stops the long one. -/
theorem touchLong_of_touchShort (h : config.TargetBeyondStop) (ha : 0 < a) {bar : Bar Columns}
    (hshort : touchShort (shortBarriers config entryPrice a) bar = some .tp) :
    touchLong (longBarriers config entryPrice a) bar = some .sl := by
  have hle : config.slAtrMultiple * a ≤ config.tpAtrMultiple * a :=
    mul_le_mul_of_nonneg_right h.le ha.le
  obtain ⟨-, htarget⟩ := touchShort_eq_tp_iff.1 hshort
  rw [touchLong, if_pos]
  simp only [longBarriers, shortBarriers] at htarget ⊢
  linarith

/-! ## The horizon -/

/-- The two trades do not both reach their targets. -/
theorem not_both_tp (h : config.TargetBeyondStop) (ha : 0 < a) (df : List (Bar Columns)) (t : ℕ) :
    ¬((hits config df t entryPrice a).long = some .tp ∧
      (hits config df t entryPrice a).short = some .tp) := by
  obtain ⟨hlong, hshort⟩ := hits_eq config df t entryPrice a
  rw [hlong, hshort]
  refine findSome?_not_both (fun bar hbar => ?_) (fun bar hbar => ?_) (horizonOf config df t)
  · exact ⟨.sl, by decide, touchShort_of_touchLong h ha hbar⟩
  · exact ⟨.sl, by decide, touchLong_of_touchShort h ha hbar⟩

/-- Where the two trades are followed, the label is the verdict on them. -/
theorem Followed.label_eq {entry : Bar Columns} (h : Followed config df t a entry) :
    label config df t = some (verdict (hits config df t (config.entryCol.of entry) a)).1 := by
  obtain ⟨hlong, hshort⟩ := hits_eq config df t (config.entryCol.of entry) a
  rw [ML.label_eq h.entry h.length, h.atr]
  dsimp only
  rw [if_neg (by simpa using ⟨h.pos, h.minRr⟩), labelOver, ← hlong, ← hshort, verdict, labelOf]
  split_ifs <;> rfl

/-- A label other than no trade is given where the two trades are followed. -/
theorem exists_followed {l : ℤ} (hl : l ≠ 0) (h : label config df t = some l) :
    ∃ a entry, Followed config df t a entry := by
  have hlength : t + 1 + config.horizonBars < df.length := label_isSome_iff.1 (by rw [h]; rfl)
  obtain ⟨entry, hentry⟩ : ∃ entry, df[t + 1]? = some entry :=
    ⟨_, List.getElem?_eq_getElem (by omega)⟩
  rw [label_eq hentry hlength] at h
  cases hatr : atrAt config df t with
  | none =>
    rw [hatr] at h
    exact absurd (Option.some.inj h).symm hl
  | some a =>
    rw [hatr] at h
    dsimp only at h
    split_ifs at h with hskip
    · exact absurd (Option.some.inj h).symm hl
    · rw [not_or, not_le, not_not] at hskip
      exact ⟨a, entry, hlength, hatr, hskip.1, hskip.2, hentry⟩

theorem verdict_eq_one_iff (hits : Hits) :
    (verdict hits).1 = 1 ↔ hits.long = some .tp ∧ hits.short ≠ some .tp := by
  rw [verdict]
  split_ifs <;> simp_all

theorem verdict_eq_neg_one_iff (hits : Hits) :
    (verdict hits).1 = -1 ↔ hits.short = some .tp ∧ hits.long ≠ some .tp := by
  rw [verdict]
  split_ifs <;> simp_all

/-- **No label is ambiguous.** With the target no nearer than the stop, no bar has both trades reach
their targets, whatever the candles are, and a bar is labelled long exactly when its long trade
reaches its target, and short exactly when its short trade does. -/
theorem decided_by_one_side (config : TripleBarrierConfig) (h : config.TargetBeyondStop)
    (df : List (Bar Columns)) (t : ℕ) :
    (∀ entryPrice a, 0 < a → ¬((hits config df t entryPrice a).long = some .tp ∧
      (hits config df t entryPrice a).short = some .tp)) ∧
    (label config df t = some 1 ↔ ∃ a entry, Followed config df t a entry ∧
      (hits config df t (config.entryCol.of entry) a).long = some .tp) ∧
    (label config df t = some (-1) ↔ ∃ a entry, Followed config df t a entry ∧
      (hits config df t (config.entryCol.of entry) a).short = some .tp) := by
  refine ⟨fun entryPrice a ha => not_both_tp h ha df t, ⟨fun hlabel => ?_, ?_⟩,
    ⟨fun hlabel => ?_, ?_⟩⟩
  · obtain ⟨a, entry, hfollowed⟩ := exists_followed (by decide) hlabel
    rw [hfollowed.label_eq, Option.some.injEq, verdict_eq_one_iff] at hlabel
    exact ⟨a, entry, hfollowed, hlabel.1⟩
  · rintro ⟨a, entry, hfollowed, hlong⟩
    rw [hfollowed.label_eq, Option.some.injEq, verdict_eq_one_iff]
    exact ⟨hlong, fun hshort => not_both_tp h hfollowed.pos df t ⟨hlong, hshort⟩⟩
  · obtain ⟨a, entry, hfollowed⟩ := exists_followed (by decide) hlabel
    rw [hfollowed.label_eq, Option.some.injEq, verdict_eq_neg_one_iff] at hlabel
    exact ⟨a, entry, hfollowed, hlabel.1⟩
  · rintro ⟨a, entry, hfollowed, hshort⟩
    rw [hfollowed.label_eq, Option.some.injEq, verdict_eq_neg_one_iff]
    exact ⟨hshort, fun hlong => not_both_tp h hfollowed.pos df t ⟨hlong, hshort⟩⟩

/-- The default barriers, a bar whose horizon rises to the long target. -/
theorem decided_by_one_side_default :
    label { horizonBars := 1 } (hourAround (barAround 103 (199 / 2))) 0 = some 1 ∧
      ∃ a entry, Followed { horizonBars := 1 } (hourAround (barAround 103 (199 / 2))) 0 a entry ∧
        (hits { horizonBars := 1 } (hourAround (barAround 103 (199 / 2))) 0
          (PriceColumn.open_.of entry) a).long = some .tp := by
  have hlabel : label { horizonBars := 1 } (hourAround (barAround 103 (199 / 2))) 0 = some 1 := by
    decide +kernel
  exact ⟨hlabel, (decided_by_one_side { horizonBars := 1 } ⟨by decide +kernel, by decide +kernel⟩
    _ 0).2.1.1 hlabel⟩

/-! ## Targets nearer than the stops -/

/-- With the target nearer than the stop the branch is taken: a bar as wide as the two targets
reaches both. -/
theorem exists_both_tp (htp : 0 < config.tpAtrMultiple)
    (h : config.tpAtrMultiple < config.slAtrMultiple) (ha : 0 < a) (entryPrice : ℚ) :
    ∃ df, (∀ bar ∈ df, bar.low ≤ bar.high) ∧
      (hits config df 0 entryPrice a).long = some .tp ∧
      (hits config df 0 entryPrice a).short = some .tp := by
  have hlt : config.tpAtrMultiple * a < config.slAtrMultiple * a := mul_lt_mul_of_pos_right h ha
  let wide := barAround (entryPrice + config.tpAtrMultiple * a)
    (entryPrice - config.tpAtrMultiple * a)
  have hlong : touchLong (longBarriers config entryPrice a) wide = some .tp := by
    refine touchLong_eq_tp_iff.2 ⟨?_, le_refl (entryPrice + config.tpAtrMultiple * a)⟩
    simp only [wide, barAround, longBarriers]
    linarith
  have hshort : touchShort (shortBarriers config entryPrice a) wide = some .tp := by
    refine touchShort_eq_tp_iff.2 ⟨?_, le_refl (entryPrice - config.tpAtrMultiple * a)⟩
    simp only [wide, barAround, shortBarriers]
    linarith
  obtain ⟨hl, hs⟩ := hits_eq config [wide, wide] 0 entryPrice a
  refine ⟨[wide, wide], fun bar hbar => ?_, ?_, ?_⟩
  · obtain rfl : bar = wide := by simpa using hbar
    have hpos := mul_pos htp ha
    simp only [wide, barAround]
    linarith
  · rw [hl, show horizonOf config [wide, wide] 0 = [wide] by simp [horizonOf], List.findSome?_cons,
      hlong]
  · rw [hs, show horizonOf config [wide, wide] 0 = [wide] by simp [horizonOf], List.findSome?_cons,
      hshort]

end AlphaOne.ML

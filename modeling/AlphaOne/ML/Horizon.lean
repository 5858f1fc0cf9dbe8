import AlphaOne.ML.Labeling
import Mathlib.Tactic.Linarith

/-!
# The horizon of a label

The docstring of `compute_triple_barrier_labels` lets the label of a bar `T` look at the bars
`T + 1` to `T + horizon_bars`. The loop starts at the bar of the entry, `T + 1`, and goes on for
`horizon_bars` more, so that one bar more takes part, and the test for sufficient data asks for it.

* `label_isSome_iff`: a bar is labelled when the extra bar exists.
* `label_congr`: a label in which both trades are settled over the documented bars depends on
  nothing else.
* `exists_other_label`: in every other case the extra bar can change the label.
* `documented_iff`: the exact condition, at every bar of every frame.
-/

namespace AlphaOne.ML

open Foundations Backtester

variable {config : TripleBarrierConfig} {df df' : List (Bar Columns)} {t : ℕ}

/-- A bar without its columns. -/
def prices (bar : Bar Columns) : Bar Columns :=
  { bar with timestamp := 0, columns := fun _ => none }

/-- The column the barriers are sized by, at the bar `t`. -/
def atrAt (config : TripleBarrierConfig) (df : List (Bar Columns)) (t : ℕ) : Option ℚ :=
  df[t]?.bind fun bar => bar.columns config.atrCol

/-- The bars `t + 1` to `t + horizon_bars`. -/
def documentedBars (config : TripleBarrierConfig) (df : List (Bar Columns)) (t : ℕ) :
    List (Bar Columns) :=
  (df.drop (t + 1)).take config.horizonBars

/-- The label column of a frame, `none` where the row is dropped. -/
def label (config : TripleBarrierConfig) (df : List (Bar Columns)) (t : ℕ) : Option ℤ :=
  (labelAt config df t).label

/-- Two frames agree on what the label of the bar `t` may look at. -/
structure AgreeAt (config : TripleBarrierConfig) (t : ℕ) (df df' : List (Bar Columns)) : Prop where
  atr : atrAt config df' t = atrAt config df t
  bars : (documentedBars config df' t).map prices = (documentedBars config df t).map prices

/-- The label of `t` is as documented: there is one exactly when the bars of the horizon exist, and
every frame that agrees on them and on the ATR and has a label has the same one. -/
structure Documented (config : TripleBarrierConfig) (df : List (Bar Columns)) (t : ℕ) : Prop where
  labelled : (label config df t).isSome ↔ t + config.horizonBars < df.length
  determined : (label config df t).isSome → ∀ df', AgreeAt config t df df' →
    (label config df' t).isSome → label config df' t = label config df t

/-- Bars touch a barrier of the long trade and one of the short trade. -/
def BothTouch (config : TripleBarrierConfig) (entryPrice a : ℚ) (bars : List (Bar Columns)) :
    Prop :=
  (bars.findSome? (touchLong (longBarriers config entryPrice a))).isSome ∧
    (bars.findSome? (touchShort (shortBarriers config entryPrice a))).isSome

/-- No trade is entered at `t`: its ATR is missing or not positive, or the barriers have too small
a reward for their risk. -/
def NoTradeAt (config : TripleBarrierConfig) (df : List (Bar Columns)) (t : ℕ) : Prop :=
  ∀ a ∈ atrAt config df t, a ≤ 0 ∨ ¬config.MinRrOk

/-- The documented bars settle both trades. -/
def SettledAt (config : TripleBarrierConfig) (df : List (Bar Columns)) (t : ℕ) : Prop :=
  ∀ a ∈ atrAt config df t, ∀ entry ∈ df[t + 1]?,
    BothTouch config (config.entryCol.of entry) a (documentedBars config df t)

/-- With no bar in the horizon, an entry at the extreme of its bar, a stop on the side of the profit
and a target beyond the entry, the entry itself settles that nothing is gained. -/
structure NeverWins (config : TripleBarrierConfig) : Prop where
  horizon : config.horizonBars = 0
  entry : config.entryCol = .high ∨ config.entryCol = .low
  stop : config.slAtrMultiple < 0
  target : 0 < config.tpAtrMultiple

/-- The label of what the two trades touch. -/
def labelOf (long short : Option Touch) : ℤ :=
  if long = some .tp ∧ short ≠ some .tp then 1
  else if short = some .tp ∧ long ≠ some .tp then -1
  else 0

/-- The label of trades entered at a price that are followed over some bars. -/
def labelOver (config : TripleBarrierConfig) (entryPrice a : ℚ) (bars : List (Bar Columns)) : ℤ :=
  labelOf (bars.findSome? (touchLong (longBarriers config entryPrice a)))
    (bars.findSome? (touchShort (shortBarriers config entryPrice a)))

/-! ## What a label is -/

/-- The label of a bar with its extra bar. -/
theorem label_eq {entry : Bar Columns} (hentry : df[t + 1]? = some entry)
    (hlength : t + 1 + config.horizonBars < df.length) :
    label config df t = some (match atrAt config df t with
      | none => 0
      | some a =>
        if a ≤ 0 ∨ ¬config.MinRrOk then 0
        else labelOver config (config.entryCol.of entry) a (horizonOf config df t)) := by
  obtain ⟨bar, hbar⟩ : ∃ bar, df[t]? = some bar := ⟨_, List.getElem?_eq_getElem (by omega)⟩
  rw [label, labelAt, hbar, hentry, atrAt, hbar, Option.bind_some]
  dsimp only
  rw [if_neg (by omega)]
  cases bar.columns config.atrCol with
  | none => rfl
  | some a =>
    dsimp only
    split_ifs with hskip
    · rfl
    · obtain ⟨hlong, hshort⟩ := hits_eq config df t (config.entryCol.of entry) a
      rw [labelOver, ← hlong, ← hshort, verdict, labelOf]
      dsimp only
      split_ifs <;> rfl

/-- **A bar is labelled when the bar after its horizon exists.** -/
theorem label_isSome_iff :
    (label config df t).isSome ↔ t + 1 + config.horizonBars < df.length := by
  constructor
  · intro hsome
    by_contra hlength
    rw [label, labelAt] at hsome
    split at hsome
    · rw [if_pos (by omega)] at hsome
      cases hsome
    · cases hsome
  · intro hlength
    rw [label_eq (List.getElem?_eq_getElem (by omega)) hlength]
    rfl

/-- The loop looks at the documented bars and at one more. -/
theorem horizonOf_eq (config : TripleBarrierConfig) (df : List (Bar Columns)) (t : ℕ) :
    horizonOf config df t =
      documentedBars config df t ++ (df[t + 1 + config.horizonBars]?).toList := by
  rw [horizonOf, documentedBars, List.take_add_one, List.getElem?_drop]

/-! ## Where the label is as documented -/

theorem findSome?_prices {f : Bar Columns → Option Touch} (hf : ∀ bar, f (prices bar) = f bar)
    {xs ys : List (Bar Columns)} (h : xs.map prices = ys.map prices) :
    xs.findSome? f = ys.findSome? f := by
  have hprices : ∀ zs : List (Bar Columns), zs.findSome? f = (zs.map prices).findSome? f := by
    intro zs
    rw [List.findSome?_map]
    exact congrArg (zs.findSome? ·) (funext fun bar => (hf bar).symm)
  rw [hprices xs, hprices ys, h]

/-- Bars that settle both trades label them whatever comes after. -/
theorem labelOver_of_bothTouch {entryPrice a : ℚ} {bars : List (Bar Columns)}
    (h : BothTouch config entryPrice a bars) (more : List (Bar Columns)) :
    labelOver config entryPrice a (bars ++ more) = labelOver config entryPrice a bars := by
  obtain ⟨long, hlong⟩ := Option.isSome_iff_exists.1 h.1
  obtain ⟨short, hshort⟩ := Option.isSome_iff_exists.1 h.2
  simp only [labelOver, List.findSome?_append, hlong, hshort, Option.some_or]

theorem labelOver_prices (config : TripleBarrierConfig) (entryPrice a : ℚ)
    {xs ys : List (Bar Columns)} (h : xs.map prices = ys.map prices) :
    labelOver config entryPrice a xs = labelOver config entryPrice a ys := by
  rw [labelOver, labelOver, findSome?_prices (fun _ => rfl) h, findSome?_prices (fun _ => rfl) h]

theorem BothTouch.congr {entryPrice a : ℚ} {xs ys : List (Bar Columns)}
    (h : BothTouch config entryPrice a xs) (hprices : ys.map prices = xs.map prices) :
    BothTouch config entryPrice a ys := by
  unfold BothTouch at h ⊢
  rwa [findSome?_prices (fun _ => rfl) hprices, findSome?_prices (fun _ => rfl) hprices]

/-- Trades that are settled by documented bars have been entered on the first of them. -/
theorem entry_of_bothTouch {entryPrice a : ℚ}
    (h : BothTouch config entryPrice a (documentedBars config df t)) :
    (documentedBars config df t).head? = df[t + 1]? := by
  have hpos : config.horizonBars ≠ 0 := by
    intro hzero
    simp [BothTouch, documentedBars, hzero] at h
  rw [documentedBars, List.head?_take, if_neg hpos, List.head?_drop]

/-- Frames that agree on bars that settle both trades give them the same entry. -/
theorem AgreeAt.entry {entryPrice a : ℚ} (hagree : AgreeAt config t df df')
    (h : BothTouch config entryPrice a (documentedBars config df t)) {entry entry' : Bar Columns}
    (hentry : df[t + 1]? = some entry) (hentry' : df'[t + 1]? = some entry') :
    config.entryCol.of entry' = config.entryCol.of entry := by
  have hhead := congrArg List.head? hagree.bars
  rw [List.head?_map, List.head?_map, entry_of_bothTouch h,
    entry_of_bothTouch (h.congr hagree.bars), hentry, hentry'] at hhead
  have hprices : prices entry' = prices entry := Option.some.inj hhead
  have hcol : ∀ bar, config.entryCol.of (prices bar) = config.entryCol.of bar := by
    intro bar
    cases config.entryCol <;> rfl
  rw [← hcol entry', hprices, hcol]

/-- Trades that never win are labelled as no trade by the bar of their entry. -/
theorem labelOver_of_neverWins (h : NeverWins config) {a : ℚ} (ha : 0 < a) (entry : Bar Columns) :
    labelOver config (config.entryCol.of entry) a [entry] = 0 := by
  have hstop : config.slAtrMultiple * a < 0 := mul_neg_of_neg_of_pos h.stop ha
  have htarget : 0 < config.tpAtrMultiple * a := mul_pos h.target ha
  have hlong : touchLong (longBarriers config (config.entryCol.of entry) a) entry ≠ some .tp ∧
      touchShort (shortBarriers config (config.entryCol.of entry) a) entry ≠ some .tp := by
    rcases h.entry with hcol | hcol <;>
      simp only [hcol, touchLong, touchShort, longBarriers, shortBarriers, PriceColumn.of] <;>
      constructor <;> split_ifs <;> simp <;> linarith
  simp [labelOver, labelOf, hlong]

/-- **A label is as documented** where no trade is entered, where the documented bars settle both
trades, and where nothing can be won. -/
theorem label_congr (h : NoTradeAt config df t ∨ SettledAt config df t ∨ NeverWins config)
    (hagree : AgreeAt config t df df') (hsome : (label config df t).isSome)
    (hsome' : (label config df' t).isSome) : label config df' t = label config df t := by
  have hlength := label_isSome_iff.1 hsome
  have hlength' := label_isSome_iff.1 hsome'
  obtain ⟨entry, hentry⟩ : ∃ entry, df[t + 1]? = some entry :=
    ⟨_, List.getElem?_eq_getElem (by omega)⟩
  obtain ⟨entry', hentry'⟩ : ∃ entry, df'[t + 1]? = some entry :=
    ⟨_, List.getElem?_eq_getElem (by omega)⟩
  rw [label_eq hentry hlength, label_eq hentry' hlength', hagree.atr]
  cases hatr : atrAt config df t with
  | none => rfl
  | some a =>
    dsimp only
    split_ifs with hskip
    · rfl
    · push Not at hskip
      refine congrArg some ?_
      rcases h with hnone | hsettled | hnever
      · exact absurd (hnone a hatr) (by simpa using hskip)
      · have hboth := hsettled a hatr entry hentry
        rw [horizonOf_eq, horizonOf_eq, hagree.entry hboth hentry hentry',
          labelOver_of_bothTouch (hboth.congr hagree.bars), labelOver_of_bothTouch hboth,
          labelOver_prices config _ a hagree.bars]
      · have hone : ∀ (ds : List (Bar Columns)) (e : Bar Columns), ds[t + 1]? = some e →
            horizonOf config ds t = [e] := by
          intro ds e he
          simp [horizonOf_eq, documentedBars, hnever.horizon, he]
        rw [hone df entry hentry, hone df' entry' hentry',
          labelOver_of_neverWins hnever hskip.1, labelOver_of_neverWins hnever hskip.1]

/-! ## Where the extra bar decides -/

/-- The bars up to the end of the horizon of `t`, and one more. -/
def withExtra (config : TripleBarrierConfig) (df : List (Bar Columns)) (t : ℕ)
    (extra : Bar Columns) : List (Bar Columns) :=
  df.take (t + 1 + config.horizonBars) ++ [extra]

/-- A bar with the given extremes, opened and closed at zero. -/
def extremes (high low : ℚ) : Bar Columns where
  timestamp := 0
  open_ := 0
  high := high
  low := low
  close := 0
  columns := fun _ => none

section Extra

variable (hlength : t + 1 + config.horizonBars < df.length) (extra : Bar Columns)

include hlength

theorem getElem?_withExtra {i : ℕ} (hi : i < t + 1 + config.horizonBars) :
    (withExtra config df t extra)[i]? = df[i]? := by
  rw [withExtra, List.getElem?_append_left (by simp; omega), List.getElem?_take_of_lt hi]

theorem getElem?_withExtra_self :
    (withExtra config df t extra)[t + 1 + config.horizonBars]? = some extra := by
  rw [withExtra, List.getElem?_append_right (by simp)]
  have hzero : t + 1 + config.horizonBars - (df.take (t + 1 + config.horizonBars)).length = 0 := by
    simp
    omega
  rw [hzero]
  rfl

theorem documentedBars_withExtra :
    documentedBars config (withExtra config df t extra) t = documentedBars config df t := by
  refine List.ext_getElem? fun i => ?_
  simp only [documentedBars, List.getElem?_take, List.getElem?_drop]
  split_ifs with hi
  · exact getElem?_withExtra hlength extra (by omega)
  · rfl

theorem agreeAt_withExtra : AgreeAt config t df (withExtra config df t extra) where
  atr := by rw [atrAt, atrAt, getElem?_withExtra hlength extra (by omega)]
  bars := by rw [documentedBars_withExtra hlength]

/-- The label with the extra bar, of trades entered at `entry`. -/
theorem label_withExtra {entry : Bar Columns} {a : ℚ} (hatr : atrAt config df t = some a)
    (ha : 0 < a) (hrr : config.MinRrOk)
    (hentry : (withExtra config df t extra)[t + 1]? = some entry) :
    label config (withExtra config df t extra) t =
      some (labelOver config (config.entryCol.of entry) a
        (documentedBars config df t ++ [extra])) := by
  rw [label_eq hentry (by simp [withExtra]; omega), (agreeAt_withExtra hlength extra).atr, hatr,
    horizonOf_eq, documentedBars_withExtra hlength, getElem?_withExtra_self hlength]
  dsimp only
  rw [if_neg (by simpa [hrr] using ha)]
  rfl

end Extra

/-- Two bars that settle every open trade in opposite ways label it differently, unless no trade is
open. -/
theorem labelOf_or_ne {long short : Option Touch} (h : ¬(long.isSome ∧ short.isSome)) :
    labelOf (long.or (some .tp)) (short.or (some .sl)) ≠
      labelOf (long.or (some .sl)) (short.or (some .tp)) := by
  cases long with
  | none => rcases short with _ | (_ | _) <;> decide
  | some l =>
    cases short with
    | none => cases l <;> decide
    | some r => simp at h

/-- A price beyond all barriers of trades entered at a price. -/
def beyond (config : TripleBarrierConfig) (entryPrice a : ℚ) : ℚ :=
  |entryPrice| + |config.slAtrMultiple * a| + |config.tpAtrMultiple * a| + 1

/-- A bar beyond all barriers settles every open trade, upwards or downwards. -/
theorem touch_beyond (entryPrice a : ℚ) (extra : Bar Columns) :
    (extra.high = beyond config entryPrice a → extra.low = beyond config entryPrice a →
      touchLong (longBarriers config entryPrice a) extra = some .tp ∧
        touchShort (shortBarriers config entryPrice a) extra = some .sl) ∧
    (extra.high = -beyond config entryPrice a → extra.low = -beyond config entryPrice a →
      touchLong (longBarriers config entryPrice a) extra = some .sl ∧
        touchShort (shortBarriers config entryPrice a) extra = some .tp) := by
  have hentry := abs_le.1 (le_refl |entryPrice|)
  have hstop := abs_le.1 (le_refl |config.slAtrMultiple * a|)
  have htarget := abs_le.1 (le_refl |config.tpAtrMultiple * a|)
  have hbeyond : beyond config entryPrice a =
    |entryPrice| + |config.slAtrMultiple * a| + |config.tpAtrMultiple * a| + 1 := rfl
  have hlongStop : (longBarriers config entryPrice a).stop =
    entryPrice - config.slAtrMultiple * a := rfl
  have hlongTarget : (longBarriers config entryPrice a).target =
    entryPrice + config.tpAtrMultiple * a := rfl
  have hshortStop : (shortBarriers config entryPrice a).stop =
    entryPrice + config.slAtrMultiple * a := rfl
  have hshortTarget : (shortBarriers config entryPrice a).target =
    entryPrice - config.tpAtrMultiple * a := rfl
  constructor <;> intro hhigh hlow <;> rw [touchLong, touchShort, hhigh, hlow]
  · rw [if_neg (by linarith), if_pos (by linarith), if_pos (by linarith)]
    exact ⟨rfl, rfl⟩
  · rw [if_pos (by linarith), if_neg (by linarith), if_pos (by linarith)]
    exact ⟨rfl, rfl⟩

/-- Trades of which one is open after `bars` are labelled differently by two last bars. -/
theorem exists_labelOver_ne {entryPrice a : ℚ} {bars : List (Bar Columns)}
    (h : ¬BothTouch config entryPrice a bars) {up down : Bar Columns}
    (hup : up.high = beyond config entryPrice a ∧ up.low = beyond config entryPrice a)
    (hdown : down.high = -beyond config entryPrice a ∧ down.low = -beyond config entryPrice a) :
    labelOver config entryPrice a (bars ++ [up]) ≠
      labelOver config entryPrice a (bars ++ [down]) := by
  obtain ⟨hlongUp, hshortUp⟩ := (touch_beyond entryPrice a up).1 hup.1 hup.2
  obtain ⟨hlongDown, hshortDown⟩ := (touch_beyond entryPrice a down).2 hdown.1 hdown.2
  simpa only [labelOver, List.findSome?_append, List.findSome?_cons, hlongUp, hshortUp, hlongDown,
    hshortDown] using labelOf_or_ne h

theorem labelOver_singleton (config : TripleBarrierConfig) (entryPrice a : ℚ)
    (bar : Bar Columns) : labelOver config entryPrice a [bar] =
      labelOf (touchLong (longBarriers config entryPrice a) bar)
        (touchShort (shortBarriers config entryPrice a) bar) := by
  simp [labelOver]

theorem touchLong_extremes (config : TripleBarrierConfig) (entryPrice a high low : ℚ) :
    touchLong (longBarriers config entryPrice a) (extremes high low) =
      if low ≤ entryPrice - config.slAtrMultiple * a then some .sl
      else if high ≥ entryPrice + config.tpAtrMultiple * a then some .tp else none := rfl

theorem touchShort_extremes (config : TripleBarrierConfig) (entryPrice a high low : ℚ) :
    touchShort (shortBarriers config entryPrice a) (extremes high low) =
      if high ≥ entryPrice + config.slAtrMultiple * a then some .sl
      else if low ≤ entryPrice - config.tpAtrMultiple * a then some .tp else none := rfl

/-- A trade entered at the extreme of a bar, when nothing more of the bar is known. -/
theorem exists_labelOver_ne_of_extreme {a : ℚ} (ha : 0 < a)
    (hcol : config.entryCol = .high ∨ config.entryCol = .low) (hsl : config.slAtrMultiple ≠ 0)
    (hwins : ¬(config.slAtrMultiple < 0 ∧ 0 < config.tpAtrMultiple)) :
    ∃ up down, labelOver config (config.entryCol.of up) a [up] ≠
      labelOver config (config.entryCol.of down) a [down] := by
  have hbeyond : beyond config 0 a =
    |0| + |config.slAtrMultiple * a| + |config.tpAtrMultiple * a| + 1 := rfl
  rw [abs_zero, zero_add] at hbeyond
  have hstop := abs_le.1 (le_refl |config.slAtrMultiple * a|)
  have htarget := abs_le.1 (le_refl |config.tpAtrMultiple * a|)
  have hsigns : 0 < config.slAtrMultiple * a ∨
      config.slAtrMultiple * a < 0 ∧ config.tpAtrMultiple * a ≤ 0 := by
    rcases lt_or_gt_of_ne hsl with hneg | hpos
    · have htp : config.tpAtrMultiple ≤ 0 := not_lt.1 fun h => hwins ⟨hneg, h⟩
      exact .inr ⟨mul_neg_of_neg_of_pos hneg ha, mul_nonpos_of_nonpos_of_nonneg htp ha.le⟩
    · exact .inl (mul_pos hpos ha)
  set B := beyond config 0 a
  -- `B` lies beyond every barrier, and `-B` on the other side
  have hupStop : ¬B ≤ 0 - config.slAtrMultiple * a := by linarith
  have hupTarget : ¬B ≤ 0 - config.tpAtrMultiple * a := by linarith
  have hdownStop : -B ≤ 0 - config.slAtrMultiple * a := by linarith
  have hdownTarget : -B ≤ 0 - config.tpAtrMultiple * a := by linarith
  have hhighStop : B ≥ 0 + config.slAtrMultiple * a := by linarith
  have hhighTarget : B ≥ 0 + config.tpAtrMultiple * a := by linarith
  have hlowStop : ¬-B ≥ 0 + config.slAtrMultiple * a := by linarith
  have hlowTarget : ¬-B ≥ 0 + config.tpAtrMultiple * a := by linarith
  rcases hcol with hcol | hcol <;> rw [hcol]
  · refine ⟨extremes 0 B, extremes 0 (-B), ?_⟩
    change labelOver config 0 a [extremes 0 B] ≠ labelOver config 0 a [extremes 0 (-B)]
    simp only [labelOver_singleton, touchLong_extremes, touchShort_extremes, if_neg hupStop,
      if_neg hupTarget, if_pos hdownStop, if_pos hdownTarget]
    rcases hsigns with hsl | ⟨hsl, htp⟩
    · have hno : ¬0 ≥ 0 + config.slAtrMultiple * a := by linarith
      simp only [if_neg hno]
      split_ifs <;> decide
    · have hstopped : 0 ≥ 0 + config.slAtrMultiple * a := by linarith
      have hwon : 0 ≥ 0 + config.tpAtrMultiple * a := by linarith
      simp only [if_pos hstopped, if_pos hwon]
      decide
  · refine ⟨extremes B 0, extremes (-B) 0, ?_⟩
    change labelOver config 0 a [extremes B 0] ≠ labelOver config 0 a [extremes (-B) 0]
    simp only [labelOver_singleton, touchLong_extremes, touchShort_extremes, if_pos hhighStop,
      if_pos hhighTarget, if_neg hlowStop, if_neg hlowTarget]
    rcases hsigns with hsl | ⟨hsl, htp⟩
    · have hno : ¬0 ≤ 0 - config.slAtrMultiple * a := by linarith
      simp only [if_neg hno]
      split_ifs <;> decide
    · have hstopped : 0 ≤ 0 - config.slAtrMultiple * a := by linarith
      have hwon : 0 ≤ 0 - config.tpAtrMultiple * a := by linarith
      simp only [if_pos hstopped, if_pos hwon]
      decide

/-- Without a horizon the extra bar is the bar of the entry. -/
theorem exists_label_ne_of_zero {a : ℚ} (hatr : atrAt config df t = some a) (ha : 0 < a)
    (hrr : config.MinRrOk) (hsl : config.slAtrMultiple ≠ 0)
    (hlength : t + 1 + config.horizonBars < df.length) (hzero : config.horizonBars = 0)
    (hwins : ¬NeverWins config) :
    ∃ up down, label config (withExtra config df t up) t ≠
      label config (withExtra config df t down) t := by
  have hnone : documentedBars config df t = [] := by simp [documentedBars, hzero]
  have hextra : ∀ extra, label config (withExtra config df t extra) t =
      some (labelOver config (config.entryCol.of extra) a [extra]) := by
    intro extra
    have hself : (withExtra config df t extra)[t + 1 + config.horizonBars]? = some extra :=
      getElem?_withExtra_self hlength extra
    rw [hzero, Nat.add_zero] at hself
    rw [label_withExtra hlength extra hatr ha hrr hself, hnone, List.nil_append]
  suffices h : ∃ up down, labelOver config (config.entryCol.of up) a [up] ≠
      labelOver config (config.entryCol.of down) a [down] by
    obtain ⟨up, down, hne⟩ := h
    exact ⟨up, down, by rw [hextra, hextra]; exact fun heq => hne (Option.some.inj heq)⟩
  by_cases hcol : config.entryCol = .high ∨ config.entryCol = .low
  · exact exists_labelOver_ne_of_extreme ha hcol hsl fun h => hwins ⟨hzero, hcol, h.1, h.2⟩
  · have hentry : ∀ high low, config.entryCol.of (extremes high low) = 0 := by
      intro high low
      cases h : config.entryCol <;> simp [h] at hcol <;> rfl
    refine ⟨extremes (beyond config 0 a) (beyond config 0 a),
      extremes (-beyond config 0 a) (-beyond config 0 a), ?_⟩
    rw [hentry, hentry]
    have hboth : ¬BothTouch config 0 a [] := by simp [BothTouch]
    exact exists_labelOver_ne hboth ⟨rfl, rfl⟩ ⟨rfl, rfl⟩

/-- With a horizon the bar of the entry is one of the documented bars. -/
theorem exists_label_ne_of_pos {a : ℚ} (hatr : atrAt config df t = some a) (ha : 0 < a)
    (hrr : config.MinRrOk) (hlength : t + 1 + config.horizonBars < df.length)
    (hpos : config.horizonBars ≠ 0) (hopen : ¬SettledAt config df t) :
    ∃ up down, label config (withExtra config df t up) t ≠
      label config (withExtra config df t down) t := by
  obtain ⟨entry, hentry, hboth⟩ : ∃ entry, df[t + 1]? = some entry ∧
      ¬BothTouch config (config.entryCol.of entry) a (documentedBars config df t) := by
    unfold SettledAt at hopen
    push Not at hopen
    obtain ⟨a', ha', entry, hentry, hboth⟩ := hopen
    obtain rfl : a = a' := Option.some.inj (hatr.symm.trans ha')
    exact ⟨entry, hentry, hboth⟩
  have hextra : ∀ extra, label config (withExtra config df t extra) t =
      some (labelOver config (config.entryCol.of entry) a
        (documentedBars config df t ++ [extra])) := by
    intro extra
    have hkept := (getElem?_withExtra hlength extra (by omega)).trans hentry
    exact label_withExtra hlength extra hatr ha hrr hkept
  set B := beyond config (config.entryCol.of entry) a with hB
  refine ⟨extremes B B, extremes (-B) (-B), ?_⟩
  rw [hextra, hextra]
  exact fun heq => exists_labelOver_ne hboth ⟨rfl, rfl⟩ ⟨rfl, rfl⟩ (Option.some.inj heq)

/-- **The extra bar decides** wherever a trade is entered, not settled by the documented bars, and
can be won: two extra bars give two labels. -/
theorem exists_label_ne (hsl : config.slAtrMultiple ≠ 0)
    (hlength : t + 1 + config.horizonBars < df.length) (hentered : ¬NoTradeAt config df t)
    (hopen : ¬SettledAt config df t) (hwins : ¬NeverWins config) :
    ∃ up down, label config (withExtra config df t up) t ≠
      label config (withExtra config df t down) t := by
  obtain ⟨a, hatr, ha, hrr⟩ : ∃ a, atrAt config df t = some a ∧ 0 < a ∧ config.MinRrOk := by
    unfold NoTradeAt at hentered
    push Not at hentered
    exact hentered
  by_cases hzero : config.horizonBars = 0
  · exact exists_label_ne_of_zero hatr ha hrr hsl hlength hzero hwins
  · exact exists_label_ne_of_pos hatr ha hrr hlength hzero hopen

/-- **Where the horizon is as documented.** The label of `t` is as documented if and only if the
frame does not end with its horizon, and, where it has a label, no trade is entered, the documented
bars settle both trades, or nothing can be won. A stop of no distance divides by zero, and then no
frame is labelled at all. -/
theorem documented_iff (config : TripleBarrierConfig) (hsl : config.slAtrMultiple ≠ 0)
    (df : List (Bar Columns)) (t : ℕ) :
    Documented config df t ↔ df.length ≠ t + config.horizonBars + 1 ∧
      (t + config.horizonBars + 1 < df.length →
        NoTradeAt config df t ∨ SettledAt config df t ∨ NeverWins config) := by
  constructor
  · rintro ⟨hlabelled, hdetermined⟩
    rw [label_isSome_iff] at hlabelled hdetermined
    refine ⟨by omega, fun hlength => ?_⟩
    by_contra! hnot
    obtain ⟨up, down, hne⟩ := exists_label_ne hsl (by omega) hnot.1 hnot.2.1 hnot.2.2
    have hsame : ∀ extra, label config (withExtra config df t extra) t = label config df t := by
      intro extra
      refine hdetermined (by omega) _ (agreeAt_withExtra (by omega) extra) ?_
      rw [label_isSome_iff, withExtra, List.length_append, List.length_take]
      simp only [List.length_singleton]
      omega
    exact hne ((hsame up).trans (hsame down).symm)
  · rintro ⟨hend, hsettled⟩
    refine ⟨by rw [label_isSome_iff]; omega, fun hsome df' hagree hsome' => ?_⟩
    exact label_congr (hsettled (by have := label_isSome_iff.1 hsome; omega)) hagree hsome hsome'

/-! ## A horizon of one bar -/

/-- A bar opened and closed at 100. -/
def barAround (high low : ℚ) : Bar Columns where
  timestamp := 0
  open_ := 100
  high := high
  low := low
  close := 100
  columns := fun col => if col = "atr_14" then some 1 else none

/-- Trades are decided on the first bar and entered on the second. -/
def hourAround (extra : Bar Columns) : List (Bar Columns) :=
  [barAround 101 99, barAround (201 / 2) (199 / 2), extra]

/-- **The bar after the horizon decides.** With a horizon of one bar the label of the first bar is
that of the bar two bars later, and the bar before the last is dropped although the bar of its
horizon exists. -/
theorem label_of_extra_bar :
    let config : TripleBarrierConfig := { horizonBars := 1 }
    label config (hourAround (barAround 103 (199 / 2))) 0 = some 1 ∧
      label config (hourAround (barAround (201 / 2) 97)) 0 = some (-1) ∧
      AgreeAt config 0 (hourAround (barAround 103 (199 / 2))) (hourAround (barAround (201 / 2) 97)) ∧
      (label config (hourAround (barAround 103 (199 / 2))) 1).isNone ∧
      ¬∀ (config : TripleBarrierConfig) (df : List (Bar Columns)) (t : ℕ),
        config.slAtrMultiple ≠ 0 → Documented config df t := by
  intro config
  have hup : label config (hourAround (barAround 103 (199 / 2))) 0 = some 1 := by decide +kernel
  have hdown : label config (hourAround (barAround (201 / 2) 97)) 0 = some (-1) := by
    decide +kernel
  have hagree : AgreeAt config 0 (hourAround (barAround 103 (199 / 2)))
      (hourAround (barAround (201 / 2) 97)) := ⟨rfl, rfl⟩
  refine ⟨hup, hdown, hagree, by decide +kernel, fun h => ?_⟩
  have hsame := (h config (hourAround (barAround 103 (199 / 2))) 0 (by decide +kernel)).determined
    (by rw [hup]; rfl) _ hagree (by rw [hdown]; rfl)
  rw [hup, hdown] at hsame
  cases hsame

/-- Both trades are settled by the bar of the entry: the label is as documented. -/
theorem documented_of_settled :
    Documented { horizonBars := 1 } [barAround 101 99, barAround 103 97, barAround 101 99] 0 :=
  (documented_iff { horizonBars := 1 } (by decide +kernel) _ 0).2
    ⟨by decide, fun _ => .inr (.inl (by
      intro a ha entry hentry
      obtain rfl : a = 1 := (Option.some.inj ha).symm
      obtain rfl : entry = barAround 103 97 := (Option.some.inj hentry).symm
      exact ⟨by decide +kernel, by decide +kernel⟩))⟩

end AlphaOne.ML

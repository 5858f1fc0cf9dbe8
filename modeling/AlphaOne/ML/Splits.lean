import AlphaOne.ML.Labeling
import Mathlib.Data.NNRat.Floor
import Mathlib.Data.Rat.Floor

/-!
# Purged splits

`ml/evaluation/ml_pipeline.py`: the rows of a labelled table are split in time into a part to train
on, one to validate on and one to test on, with an embargo of `horizon_bars + 2` rows between them.

A label is read off the bars up to its `label_end_idx` (`labelAt_congr`), which is at most
`horizon_bars + 1` bars ahead (`labelEndIdx_le`), and the rows that are dropped for want of bars
ahead are the last ones (`computeTripleBarrierLabels_eq`). So no label reaches over an embargo:
`labels_purged`.
-/

namespace AlphaOne.ML

open Foundations Backtester

/-! ## Slices of a table -/

/-- `slice(start, stop)`. -/
structure RowSlice where
  start : ℕ
  stop : ℕ
  deriving DecidableEq, Repr

/-- `df.iloc[slice]`. -/
def RowSlice.of {α : Type*} (s : RowSlice) (df : List α) : List α := (df.take s.stop).drop s.start

theorem RowSlice.mem_of {α : Type*} {s : RowSlice} {xs : List α} {x : α} (h : x ∈ s.of xs) :
    ∃ i, s.start ≤ i ∧ i < s.stop ∧ xs[i]? = some x := by
  obtain ⟨j, hj⟩ := List.mem_iff_getElem?.1 h
  rw [RowSlice.of, List.getElem?_drop, List.getElem?_take] at hj
  split at hj
  · exact ⟨s.start + j, by omega, by omega, hj⟩
  · cases hj

/-- The slices of a split. -/
structure Split where
  train : RowSlice
  val : RowSlice
  test : RowSlice
  deriving DecidableEq, Repr

/-- The parts of a table that a split cuts out. -/
def Split.parts {α : Type*} (split : Split) (df : List α) : List α × List α × List α :=
  (split.train.of df, split.val.of df, split.test.of df)

/-- The slices of `chronological_split_with_embargo`, of a table with `n` rows. -/
def chronologicalSplit (n : ℕ) (trainPct valPct : ℚ≥0) (embargo : ℕ) : Split :=
  let trainEnd := ⌊n * trainPct⌋₊
  let valStart := trainEnd + embargo
  let valEnd := valStart + ⌊n * valPct⌋₊
  let testStart := valEnd + embargo
  { train := ⟨0, trainEnd⟩, val := ⟨valStart, valEnd⟩, test := ⟨testStart, n⟩ }

/-- `chronological_split_with_embargo`. -/
def chronologicalSplitWithEmbargo {α : Type*} (df : List α) (trainPct valPct : ℚ≥0)
    (embargo : ℕ) : List α × List α × List α :=
  (chronologicalSplit df.length trainPct valPct embargo).parts df

/-- The sizes that `rolling_walk_forward_windows` is called with. -/
structure WindowSizes where
  trainWindow : ℕ := 1500
  valWindow : ℕ := 300
  testWindow : ℕ := 300
  step : ℕ := 300
  deriving DecidableEq, Repr

/-- The windows from a row on. -/
def WindowSizes.splitAt (sizes : WindowSizes) (embargo start : ℕ) : Split :=
  let trainEnd := start + sizes.trainWindow
  let valStart := trainEnd + embargo
  let valEnd := valStart + sizes.valWindow
  let testStart := valEnd + embargo
  { train := ⟨start, trainEnd⟩
    val := ⟨valStart, valEnd⟩
    test := ⟨testStart, testStart + sizes.testWindow⟩ }

/-- The loop of `rolling_walk_forward_windows`, which has not ended after `fuel` turns when this is
`none`. -/
def windowsFrom (nRows : ℕ) (sizes : WindowSizes) (embargo : ℕ) : ℕ → ℕ → Option (List Split)
  | 0, _ => none
  | fuel + 1, start =>
    let split := sizes.splitAt embargo start
    if split.test.stop > nRows then some []
    else (windowsFrom nRows sizes embargo fuel (start + sizes.step)).map (split :: ·)

/-- `rolling_walk_forward_windows`; it does not return when the windows do not move. -/
def rollingWalkForwardWindows (nRows : ℕ) (sizes : WindowSizes) (embargo : ℕ) :
    Option (List Split) :=
  windowsFrom nRows sizes embargo (nRows + 2) 0

/-- The embargo that `run_single_combo` and `run_ml_walk_forward` pass. -/
def TripleBarrierConfig.embargo (config : TripleBarrierConfig) : ℕ := config.horizonBars + 2

theorem mem_windowsFrom {nRows embargo fuel start : ℕ} {sizes : WindowSizes}
    {windows : List Split} (h : windowsFrom nRows sizes embargo fuel start = some windows)
    {split : Split} (hsplit : split ∈ windows) : ∃ from_, split = sizes.splitAt embargo from_ := by
  induction fuel generalizing start windows with
  | zero => cases h
  | succ fuel ih =>
    rw [windowsFrom] at h
    split at h
    · obtain rfl := Option.some.inj h
      cases hsplit
    · obtain ⟨rest, hrest, rfl⟩ := Option.map_eq_some_iff.1 h
      rcases List.mem_cons.1 hsplit with rfl | hsplit
      · exact ⟨start, rfl⟩
      · exact ih hrest hsplit

/-! ## What a label is read off -/

section Label

variable {long short : Barriers}

theorem le_lastBarSeen (long short : Barriers) {bars : List (Bar Columns)} (hne : bars ≠ [])
    (h : ℕ) (hits : Hits) :
    h ≤ (followBarriers long short bars h hits).lastBarSeen ∧
      (followBarriers long short bars h hits).lastBarSeen < h + bars.length := by
  induction bars generalizing h hits with
  | nil => exact absurd rfl hne
  | cons bar rest ih =>
    rw [followBarriers]
    dsimp only
    split
    · exact ⟨le_rfl, by simp⟩
    · cases rest with
      | nil => exact ⟨le_rfl, by simp [followBarriers]⟩
      | cons next rest =>
        obtain ⟨hle, hlt⟩ := ih (by simp) (h + 1) _
        refine ⟨by omega, hlt.trans_le ?_⟩
        simp only [List.length_cons]
        omega

/-- The loop over the horizon reads no bar after the last one it has seen. -/
theorem followBarriers_congr {bars bars' : List (Bar Columns)}
    (hlength : bars.length = bars'.length) {h : ℕ} {hits : Hits}
    (hsame : ∀ j, h + j ≤ (followBarriers long short bars h hits).lastBarSeen →
      bars[j]? = bars'[j]?) :
    followBarriers long short bars' h hits = followBarriers long short bars h hits := by
  induction bars generalizing bars' h hits with
  | nil => rw [List.length_eq_zero_iff.1 hlength.symm]
  | cons bar rest ih =>
    obtain ⟨bar', rest', rfl⟩ : ∃ bar' rest', bars' = bar' :: rest' :=
      List.exists_cons_of_length_eq_add_one hlength.symm
    have hfirst := hsame 0 (le_lastBarSeen long short (by simp) h hits).1
    obtain rfl : bar = bar' := by simpa using hfirst
    rw [followBarriers, followBarriers]
    dsimp only
    split
    · rfl
    · next hopen =>
      refine ih (by simpa using hlength) fun j hj => ?_
      have hnext := hsame (j + 1) (by
        rw [followBarriers, if_neg hopen]
        omega)
      simpa using hnext

end Label

variable {config : TripleBarrierConfig} {df df' : List (Bar Columns)} {t : ℕ}

/-- Near the end of the series there is no label, whatever the bars are. -/
theorem labelAt_of_le (h : df.length ≤ t + 1 + config.horizonBars) :
    labelAt config df t =
      if t + 1 < df.length then { labelOutcome := "insufficient_data" } else {} := by
  unfold labelAt
  by_cases ht : t + 1 < df.length
  · rw [List.getElem?_eq_getElem (by omega : t < df.length), List.getElem?_eq_getElem ht, if_pos ht]
    exact if_pos h
  · rw [List.getElem?_eq_none (not_lt.1 ht), if_neg ht]
    cases df[t]? <;> rfl

theorem horizonOf_ne_nil (h : t + 1 + config.horizonBars < df.length) :
    horizonOf config df t ≠ [] := by
  rw [← List.length_pos_iff, horizonOf, List.length_take, List.length_drop]
  omega

/-- A label depends on the entry bar and on bars of the horizon. -/
theorem labelEndIdx_bounds (h : t + 1 + config.horizonBars < df.length) :
    (labelAt config df t).label.isSome ∧ (t + 1 : ℕ) ≤ (labelAt config df t).labelEndIdx ∧
      (labelAt config df t).labelEndIdx ≤ (t + 1 + config.horizonBars : ℕ) := by
  have ht : t < df.length := by omega
  have ht' : t + 1 < df.length := by omega
  have hbar : df[t]? = some df[t] := List.getElem?_eq_getElem ht
  have hentry : df[t + 1]? = some df[t + 1] := List.getElem?_eq_getElem ht'
  have hreach : (t + 1 : ℤ) ≤ (t + 1 + config.horizonBars : ℕ) := by omega
  unfold labelAt
  rw [hbar, hentry]
  dsimp only
  rw [if_neg (not_le.2 h)]
  split
  · exact ⟨rfl, le_rfl, hreach⟩
  · split
    · exact ⟨rfl, le_rfl, hreach⟩
    · next a _ _ =>
      obtain ⟨hle, hlt⟩ := le_lastBarSeen (longBarriers config _ a) (shortBarriers config _ a)
        (horizonOf_ne_nil h) (t + 1) { lastBarSeen := t + 1 }
      have hlength : (horizonOf config df t).length ≤ config.horizonBars + 1 :=
        List.length_take_le _ _
      refine ⟨rfl, ?_, ?_⟩
      · exact Int.ofNat_le.2 hle
      · refine Int.ofNat_le.2 ?_
        rw [hits]
        omega

/-- **A label does not change with the bars after its last one.** -/
theorem labelAt_congr (hlength : df.length = df'.length)
    (hsame : ∀ i : ℕ, (i : ℤ) ≤ (labelAt config df t).labelEndIdx → df[i]? = df'[i]?) :
    labelAt config df' t = labelAt config df t := by
  by_cases hend : t + 1 + config.horizonBars < df.length
  · have hle : (t + 1 : ℕ) ≤ (labelAt config df t).labelEndIdx := (labelEndIdx_bounds hend).2.1
    have hbar : df[t]? = df'[t]? := hsame t (by omega)
    have hentry : df[t + 1]? = df'[t + 1]? := hsame (t + 1) hle
    have hhorizon : (horizonOf config df t).length = (horizonOf config df' t).length := by
      simp only [horizonOf, List.length_take, List.length_drop, hlength]
    unfold labelAt at hsame ⊢
    rw [← hbar, ← hentry, ← hlength]
    cases hcolumns : df[t]? with
    | none => rfl
    | some bar =>
      cases hnext : df[t + 1]? with
      | none => rfl
      | some entry =>
        rw [hcolumns, hnext] at hsame
        dsimp only at hsame ⊢
        simp only [if_neg (not_le.2 hend)] at hsame ⊢
        split
        · rfl
        · next a ha =>
          simp only [ha] at hsame
          split
          · rfl
          · next hguard =>
            simp only [if_neg hguard] at hsame
            have hhits : hits config df' t (config.entryCol.of entry) a =
                hits config df t (config.entryCol.of entry) a := by
              refine followBarriers_congr hhorizon fun j hj => ?_
              rw [horizonOf, horizonOf, List.getElem?_take, List.getElem?_take,
                List.getElem?_drop, List.getElem?_drop, hsame (t + 1 + j) (Int.ofNat_le.2 hj)]
            rw [hhits]
  · rw [labelAt_of_le (not_lt.1 hend), labelAt_of_le (hlength ▸ not_lt.1 hend), hlength]

theorem filter_range_lt {m n : ℕ} (h : m ≤ n) :
    (List.range n).filter (fun t => decide (t < m)) = List.range m := by
  obtain ⟨k, rfl⟩ := Nat.exists_eq_add_of_le h
  have hbelow : ∀ t ∈ List.range m, decide (t < m) := by simp
  have habove : ∀ t ∈ (List.range k).map (m + ·), ¬decide (t < m) := by simp
  rw [List.range_add, List.filter_append, List.filter_eq_self.2 hbelow,
    List.filter_eq_nil_iff.2 habove, List.append_nil]

/-- The rows that are kept are those with enough bars ahead. -/
theorem computeTripleBarrierLabels_eq (config : TripleBarrierConfig) (df : List (Bar Columns)) :
    computeTripleBarrierLabels config df =
      (List.range (df.length - (config.horizonBars + 1))).map fun t =>
        (t, labelAt config df t) := by
  have hkept : ∀ t, (labelAt config df t).label.isSome =
      decide (t < df.length - (config.horizonBars + 1)) := by
    intro t
    by_cases ht : t + 1 + config.horizonBars < df.length
    · rw [(labelEndIdx_bounds ht).1, eq_comm, decide_eq_true_iff]
      omega
    · rw [labelAt_of_le (not_lt.1 ht), eq_comm]
      have hnot : ¬t < df.length - (config.horizonBars + 1) := by omega
      rw [decide_eq_false hnot]
      split <;> rfl
  rw [computeTripleBarrierLabels, List.filter_map]
  congr 1
  simp only [Function.comp_def, hkept]
  exact filter_range_lt (Nat.sub_le _ _)

/-! ## Labels and embargoes -/

/-- The bars that rows of a labelled table belong to. -/
def barsOf (rows : List (ℕ × LabelRow)) : Set ℕ := {i | ∃ r ∈ rows, r.1 = i}

/-- Two series of one length that have the same bars outside of a set. -/
def AgreeOff (s : Set ℕ) (df df' : List (Bar Columns)) : Prop :=
  df.length = df'.length ∧ ∀ i ∉ s, df[i]? = df'[i]?

/-- No label to train on depends on a bar of the other parts, and no label to validate on depends on
a bar of the part to test on. -/
def Purged (config : TripleBarrierConfig)
    (parts : List (ℕ × LabelRow) →
      List (ℕ × LabelRow) × List (ℕ × LabelRow) × List (ℕ × LabelRow)) : Prop :=
  ∀ df df' : List (Bar Columns),
    let (train, val, test) := parts (computeTripleBarrierLabels config df)
    let (train', val', _) := parts (computeTripleBarrierLabels config df')
    (AgreeOff (barsOf val ∪ barsOf test) df df' → train' = train) ∧
      (AgreeOff (barsOf test) df df' → val' = val)

theorem of_map {α β : Type*} (s : RowSlice) (f : α → β) (xs : List α) :
    s.of (xs.map f) = (s.of xs).map f := by
  rw [RowSlice.of, RowSlice.of, ← List.map_take, ← List.map_drop]

theorem mem_of_range {s : RowSlice} {n t : ℕ} (h : t ∈ s.of (List.range n)) :
    s.start ≤ t ∧ t < s.stop ∧ t < n := by
  obtain ⟨i, hstart, hstop, hi⟩ := RowSlice.mem_of h
  obtain ⟨hlt, heq⟩ := List.getElem?_eq_some_iff.1 hi
  rw [List.getElem_range] at heq
  rw [List.length_range] at hlt
  omega

/-- The bars of a part come after its start. -/
theorem start_le_of_mem_barsOf {s : RowSlice} {i : ℕ}
    (h : i ∈ barsOf (s.of (computeTripleBarrierLabels config df))) : s.start ≤ i := by
  obtain ⟨r, hr, rfl⟩ := h
  rw [computeTripleBarrierLabels_eq, of_map] at hr
  obtain ⟨t, ht, rfl⟩ := List.mem_map.1 hr
  exact (mem_of_range ht).1

/-- A part's labels do not reach beyond an embargo. -/
theorem of_labels_congr {s : RowSlice} {later : Set ℕ} (hagree : AgreeOff later df df')
    (hlater : ∀ i ∈ later, s.stop + config.embargo ≤ i) :
    s.of (computeTripleBarrierLabels config df') = s.of (computeTripleBarrierLabels config df) := by
  rw [computeTripleBarrierLabels_eq, computeTripleBarrierLabels_eq, ← hagree.1, of_map, of_map]
  refine List.map_congr_left fun t ht => ?_
  obtain ⟨-, hstop, hrows⟩ := mem_of_range ht
  have hreach : (labelAt config df t).labelEndIdx ≤ (t + 1 + config.horizonBars : ℕ) :=
    (labelEndIdx_bounds (by omega)).2.2
  rw [labelAt_congr hagree.1 fun i hi => hagree.2 i fun hmem => ?_]
  have hfar := hlater i hmem
  rw [TripleBarrierConfig.embargo] at hfar
  omega

/-- Parts with an embargo between them are purged. -/
theorem purged_of_embargo (split : List (ℕ × LabelRow) → Split)
    (hlength : ∀ df df' : List (Bar Columns), df.length = df'.length →
      split (computeTripleBarrierLabels config df) = split (computeTripleBarrierLabels config df'))
    (hval : ∀ rows, (split rows).train.stop + config.embargo ≤ (split rows).val.start)
    (htest : ∀ rows, (split rows).val.stop + config.embargo ≤ (split rows).test.start)
    (hle : ∀ rows, (split rows).val.start ≤ (split rows).val.stop) :
    Purged config fun rows => (split rows).parts rows := by
  intro df df'
  refine ⟨fun hagree => ?_, fun hagree => ?_⟩
  · rw [← hlength df df' hagree.1]
    refine of_labels_congr hagree fun i hi => ?_
    have hval := hval (computeTripleBarrierLabels config df)
    have htest := htest (computeTripleBarrierLabels config df)
    have hle := hle (computeTripleBarrierLabels config df)
    rcases hi with hi | hi
    · exact hval.trans (start_le_of_mem_barsOf hi)
    · have hstart := start_le_of_mem_barsOf hi
      omega
  · rw [← hlength df df' hagree.1]
    exact of_labels_congr hagree fun i hi => (htest _).trans (start_le_of_mem_barsOf hi)

/-- **Purged splits do not leak labels.** -/
theorem labels_purged (config : TripleBarrierConfig) :
    (∀ (df df' : List (Bar Columns)) (t : ℕ), df.length = df'.length →
      (∀ i : ℕ, (i : ℤ) ≤ (labelAt config df t).labelEndIdx → df[i]? = df'[i]?) →
      (labelAt config df' t).label = (labelAt config df t).label) ∧
    (∀ trainPct valPct : ℚ≥0, Purged config fun rows =>
      chronologicalSplitWithEmbargo rows trainPct valPct config.embargo) ∧
    ∀ (nRows : ℕ) (sizes : WindowSizes) (windows : List Split),
      rollingWalkForwardWindows nRows sizes config.embargo = some windows →
      ∀ split ∈ windows, Purged config split.parts := by
  refine ⟨fun df df' t hlength hsame => by rw [labelAt_congr hlength hsame], ?_, ?_⟩
  · intro trainPct valPct
    refine purged_of_embargo
      (fun rows => chronologicalSplit rows.length trainPct valPct config.embargo) ?_ ?_ ?_ ?_
    · intro df df' hlength
      rw [computeTripleBarrierLabels_eq, computeTripleBarrierLabels_eq, List.length_map,
        List.length_map, hlength]
    all_goals
      intro rows
      simp [chronologicalSplit]
  · intro nRows sizes windows hwindows split hsplit
    obtain ⟨start, rfl⟩ := mem_windowsFrom hwindows hsplit
    refine purged_of_embargo (fun _ => sizes.splitAt config.embargo start)
      (fun _ _ _ => rfl) ?_ ?_ ?_
    all_goals
      intro rows
      simp [WindowSizes.splitAt]

section Example

/-- A bar, with an ATR of `1`, that touches the stops of both trades. -/
def wideBar (close : ℚ) : Bar Columns where
  timestamp := 0
  open_ := 100
  high := 103
  low := 97
  close
  columns _ := some 1

/-- A label that is decided on its entry bar, before bars that differ. -/
theorem labels_purged_wide :
    (labelAt { horizonBars := 1 } [wideBar 100, wideBar 100, wideBar 98, wideBar 98] 0).label =
      (labelAt { horizonBars := 1 } [wideBar 100, wideBar 100, wideBar 102, wideBar 102] 0).label :=
  (labels_purged { horizonBars := 1 }).1 _ _ 0 rfl fun i hi => by
    have hend : (labelAt { horizonBars := 1 }
        [wideBar 100, wideBar 100, wideBar 102, wideBar 102] 0).labelEndIdx = 1 := by
      decide +kernel
    rw [hend] at hi
    match i with
    | 0 => rfl
    | 1 => rfl
    | i + 2 => omega

end Example

end AlphaOne.ML

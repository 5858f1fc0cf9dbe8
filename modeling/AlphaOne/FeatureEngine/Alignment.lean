import AlphaOne.FeatureEngine.Engine
import AlphaOne.FeatureEngine.Liquidations

/-!
# Aligning derivatives data

`compute_derivatives_features` of `services/feature_engine/derivatives.py` on a frame of its own: in
any row order, with any index. The readings are joined in time order and then assigned by position,
so that a row gets what belongs to the place it stands at (`InPlace`). The liquidations are assigned
by the labels of the index.

`aligned_iff` is the exact condition on the frame and the tables. A frame of the feature engine is
in time order and its index is the row number, so it meets it (`alignable_ofEngine`).
-/

namespace AlphaOne.FeatureEngine

open Foundations

namespace IndexedFrame

variable {ι : Type} [DecidableEq ι] (df : IndexedFrame ι)

/-- `quantity > quantity.rolling(20).mean() * 3`. -/
def spikes (xs : Series) : Series :=
  compareColumns (· > ·) xs ((rolling 20 meanOf xs).map (Option.map (· * 3)))

/-- The liquidations of a side. -/
def sideOf (side : String) (liquidations : List Liquidation) : List Liquidation :=
  (byKey Liquidation.timestamp liquidations).filter (·.side = side)

/-- The columns of the liquidations. -/
def liquidationColumns : Option (List Liquidation) → Except AlignmentError (List (String × Series))
  | some (l :: liquidations) => do
    let long ← df.bucketSum (sideOf "long" (l :: liquidations))
    let short ← df.bucketSum (sideOf "short" (l :: liquidations))
    return [("long_liquidations", long), ("short_liquidations", short),
      ("liq_spike", List.zipWith (fun x y => some (if x = some 1 ∨ y = some 1 then 1 else 0))
        (spikes long) (spikes short))]
  | _ => .ok (zeroColumns df.toFrame ["long_liquidations", "short_liquidations", "liq_spike"])

/-- A table was given and has rows. -/
def hasRows {α : Type} (table : Option (List α)) : Bool := !(table.getD []).isEmpty

/-- `compute_derivatives_features`. Sorting by `timestamp` is ambiguous when the index has that
name. -/
def computeDerivativesFeatures (np : Numpy) (fundingRates openInterest : Option (List Reading))
    (liquidations : Option (List Liquidation)) : Except AlignmentError Frame :=
  if df.indexName = some "timestamp" ∧
      (hasRows fundingRates ∨ hasRows openInterest ∨ hasRows liquidations) then
    .error .valueError
  else do
    let liquidation ← df.liquidationColumns liquidations
    return df.toFrame.assign (fundingColumns df.toFrame fundingRates ++
      openInterestColumns np df.toFrame openInterest ++ liquidation)

end IndexedFrame

/-! ## What is aligned by time -/

/-- What the latest reading at or before a time says; missing when there is none. -/
def LatestReading (readings : List Reading) (t : Datetime) : Option ℚ → Prop
  | none => ∀ r ∈ readings, t < r.timestamp
  | some x => ∃ r ∈ readings, r.value = x ∧ r.timestamp ≤ t ∧
      ∀ r' ∈ readings, r'.timestamp ≤ t → r'.timestamp ≤ r.timestamp

/-- The columns of derivatives data are aligned by time. -/
structure AlignedByTime (candles : List Candle) (fundingRates openInterest : List Reading)
    (liquidations : List Liquidation) (out : Frame) : Prop where
  rows : out.candles = candles
  funding : ∀ i c, candles[i]? = some c →
    LatestReading fundingRates c.timestamp (out.entry i "funding_rate")
  interest : ∀ i c, candles[i]? = some c →
    LatestReading openInterest c.timestamp (out.entry i "open_interest")
  long : CountsOnce candles (liquidations.filter (·.side = "long"))
    (out.entry · "long_liquidations")
  short : CountsOnce candles (liquidations.filter (·.side = "short"))
    (out.entry · "short_liquidations")

/-! ## When it is -/

/-- Every row stands where the readings say the same as they do at the time that belongs there. -/
structure InPlace (candles : List Candle) (readings : List Reading) : Prop where
  given : readings ≠ [] ∨ candles = []
  same : ∀ (i : ℕ) (c s : Candle), candles[i]? = some c → (sortValues candles)[i]? = some s →
    ∃ x, LatestReading readings c.timestamp x ∧ LatestReading readings s.timestamp x

/-- The frame and the tables can be aligned. -/
structure Alignable {ι : Type} [DecidableEq ι] (df : IndexedFrame ι)
    (fundingRates openInterest : List Reading) (liquidations : List Liquidation) : Prop where
  unambiguous : df.indexName = some "timestamp" →
    fundingRates = [] ∧ openInterest = [] ∧ liquidations = []
  funding : InPlace df.candles fundingRates
  interest : InPlace df.candles openInterest
  long : LabelsUsable df (liquidations.filter (·.side = "long"))
  short : LabelsUsable df (liquidations.filter (·.side = "short"))

/-! ## Readings -/

section Readings

variable {readings : List Reading} {t : Datetime}

theorem LatestReading.unique {x y : Option ℚ} (hdistinct : (readings.map Reading.timestamp).Nodup)
    (hx : LatestReading readings t x) (hy : LatestReading readings t y) : x = y := by
  cases x with
  | none =>
    cases y with
    | none => rfl
    | some y =>
      obtain ⟨r, hr, -, hle, -⟩ := hy
      exact absurd hle (not_le.2 (hx r hr))
  | some x =>
    obtain ⟨r, hr, rfl, hle, hlast⟩ := hx
    cases y with
    | none => exact absurd hle (not_le.2 (hy r hr))
    | some y =>
      obtain ⟨r', hr', rfl, hle', hlast'⟩ := hy
      have htime : r.timestamp = r'.timestamp := le_antisymm (hlast' r hr hle) (hlast r' hr' hle')
      rw [List.inj_on_of_nodup_map hdistinct hr hr' htime]

/-- The join finds the latest reading. -/
theorem latestReading_asof (hdistinct : (readings.map Reading.timestamp).Nodup) (t : Datetime) :
    LatestReading readings t
      (asof ((byKey Reading.timestamp readings).map fun r => (r.timestamp, r.value)) t) := by
  have hstrict := byKey_strict Reading.timestamp (List.pairwise_map.1 hdistinct)
  have hasof : asof ((byKey Reading.timestamp readings).map fun r => (r.timestamp, r.value)) t =
      (((byKey Reading.timestamp readings).filter (·.timestamp ≤ t)).getLast?).map
        Reading.value := by
    rw [asof, List.filter_map, List.getLast?_map, Option.map_map]
    rfl
  rw [hasof]
  cases hlast : ((byKey Reading.timestamp readings).filter (·.timestamp ≤ t)).getLast? with
  | none =>
    have hnil := List.getLast?_eq_none_iff.1 hlast
    intro r hr
    by_contra hle
    have hmem : r ∈ (byKey Reading.timestamp readings).filter (·.timestamp ≤ t) :=
      List.mem_filter.2 ⟨(mem_byKey _).2 hr, decide_eq_true (not_lt.1 hle)⟩
    rw [hnil] at hmem
    cases hmem
  | some r =>
    obtain ⟨hr, hle, hmax⟩ := (getLast?_filter_eq_some_iff Reading.timestamp hstrict).1 hlast
    exact ⟨r, (mem_byKey _).1 hr, rfl, hle, fun r' hr' => hmax r' ((mem_byKey _).2 hr')⟩

/-- A column of readings, joined in time order and assigned by position. -/
def readingColumn (candles : List Candle) (readings : List Reading) : Series :=
  if readings = [] then candles.map fun _ => some 0 else asofMergeValue { candles } readings

theorem getElem?_readingColumn {candles : List Candle} {i : ℕ} {s : Candle}
    (hne : readings ≠ []) (hs : (sortValues candles)[i]? = some s) :
    (readingColumn candles readings)[i]? =
      some (asof ((byKey Reading.timestamp readings).map fun r => (r.timestamp, r.value))
        s.timestamp) := by
  have hsorted : (candles.map Candle.timestamp).insertionSort (· ≤ ·) =
      (sortValues candles).map Candle.timestamp :=
    (List.map_insertionSort _ _ Candle.timestamp candles fun _ _ _ _ => Iff.rfl).symm
  rw [readingColumn, if_neg hne, asofMergeValue, hsorted, List.map_map, List.getElem?_map, hs]
  rfl

/-- **A column of readings is aligned by time** exactly when every row is in place. -/
theorem readingColumn_iff (candles : List Candle)
    (hdistinct : (readings.map Reading.timestamp).Nodup) :
    (∀ (i : ℕ) (c : Candle), candles[i]? = some c →
      LatestReading readings c.timestamp ((readingColumn candles readings)[i]?).join) ↔
      InPlace candles readings := by
  have hlength : (sortValues candles).length = candles.length := List.length_insertionSort _ _
  constructor
  · intro h
    refine ⟨?_, fun i c s hc hs => ?_⟩
    · by_contra hcon
      obtain ⟨rfl, hcandles⟩ := not_or.1 hcon |>.imp not_not.1 id
      obtain ⟨c, rest, rfl⟩ := List.exists_cons_of_ne_nil hcandles
      obtain ⟨r, hr, -⟩ := h 0 c rfl
      cases hr
    · by_cases hne : readings = []
      · subst hne
        obtain ⟨r, hr, -⟩ : LatestReading [] c.timestamp (some 0) := by
          have hentry := h i c hc
          rw [readingColumn, if_pos rfl, List.getElem?_map, hc] at hentry
          exact hentry
        cases hr
      · have hentry := h i c hc
        rw [getElem?_readingColumn hne hs, Option.join_some] at hentry
        exact ⟨_, hentry, latestReading_asof hdistinct s.timestamp⟩
  · rintro ⟨hgiven, hsame⟩ i c hc
    obtain ⟨hi, -⟩ := List.getElem?_eq_some_iff.1 hc
    have hne : readings ≠ [] := hgiven.resolve_right (List.ne_nil_of_length_pos (by omega))
    obtain ⟨s, hs⟩ : ∃ s, (sortValues candles)[i]? = some s :=
      ⟨_, List.getElem?_eq_getElem (by omega)⟩
    obtain ⟨x, hcx, hsx⟩ := hsame i c s hc hs
    rw [getElem?_readingColumn hne hs, Option.join_some,
      (latestReading_asof hdistinct s.timestamp).unique hdistinct hsx]
    exact hcx

/-- A frame in time order is in place for every table. -/
theorem inPlace_of_sorted {candles : List Candle} (hne : readings ≠ [])
    (hdistinct : (readings.map Reading.timestamp).Nodup)
    (hsorted : candles.Pairwise fun a b => a.timestamp ≤ b.timestamp) :
    InPlace candles readings := by
  have hsame : sortValues candles = candles := hsorted.insertionSort_eq
  refine ⟨.inl hne, fun i c s hc hs => ?_⟩
  obtain rfl : c = s := Option.some.inj (by rw [← hc, ← hs, hsame])
  exact ⟨_, latestReading_asof hdistinct _, latestReading_asof hdistinct _⟩

/-- **A frame that is not in time order** is misread with some table of one reading. -/
theorem exists_not_inPlace {candles : List Candle}
    (hunsorted : ¬candles.Pairwise fun a b => a.timestamp ≤ b.timestamp) :
    ∃ reading, ¬InPlace candles [reading] := by
  obtain ⟨i, c, s, hc, hs, hne⟩ : ∃ (i : ℕ) (c s : Candle), candles[i]? = some c ∧
      (sortValues candles)[i]? = some s ∧ c.timestamp ≠ s.timestamp := by
    by_contra hall
    refine hunsorted ?_
    have htimes : candles.map Candle.timestamp = (sortValues candles).map Candle.timestamp := by
      have hlength : (sortValues candles).length = candles.length := List.length_insertionSort _ _
      refine List.ext_getElem (by simp [hlength]) fun i hi hi' => ?_
      rw [List.length_map] at hi hi'
      by_contra hne
      exact hall ⟨i, _, _, List.getElem?_eq_getElem hi, List.getElem?_eq_getElem hi', by
        simpa using hne⟩
    have hsorted : (sortValues candles).Pairwise fun a b => a.timestamp ≤ b.timestamp :=
      byKey_sorted Candle.timestamp candles
    rw [← List.pairwise_map (f := Candle.timestamp) (R := (· ≤ ·)), htimes, List.pairwise_map]
    exact hsorted
  -- the reading lies between the two times
  refine ⟨{ timestamp := max c.timestamp s.timestamp, value := 0 }, fun h => ?_⟩
  obtain ⟨x, hcx, hsx⟩ := h.same i c s hc hs
  rcases lt_or_gt_of_ne hne with hlt | hlt
  · cases x with
    | none => exact absurd (hsx _ (List.mem_singleton_self _)) (by simp [hlt.le])
    | some x =>
      obtain ⟨r, hr, -, hle, -⟩ := hcx
      rw [List.mem_singleton.1 hr] at hle
      exact absurd hle (by simp [hlt])
  · cases x with
    | none => exact absurd (hcx _ (List.mem_singleton_self _)) (by simp [hlt.le])
    | some x =>
      obtain ⟨r, hr, -, hle, -⟩ := hsx
      rw [List.mem_singleton.1 hr] at hle
      exact absurd hle (by simp [hlt])

end Readings

/-! ## The result -/

section Result

variable {ι : Type} [DecidableEq ι] {np : Numpy} {df : IndexedFrame ι}
  {fundingRates openInterest : List Reading} {liquidations : List Liquidation} {out : Frame}

theorem sideOf_perm (side : String) (liquidations : List Liquidation) :
    (IndexedFrame.sideOf side liquidations).Perm (liquidations.filter (·.side = side)) :=
  (byKey_perm _ _).filter _

/-- The columns of the liquidations are the sums of the two sides. -/
theorem liquidationColumns_eq_ok {columns : List (String × Series)}
    (h : df.liquidationColumns (some liquidations) = .ok columns) : ∃ long short,
    df.bucketSum (liquidations.filter (·.side = "long")) = .ok long ∧
      df.bucketSum (liquidations.filter (·.side = "short")) = .ok short ∧
      columns.lookup "long_liquidations" = some long ∧
      columns.lookup "short_liquidations" = some short := by
  cases liquidations with
  | nil =>
    obtain rfl := Except.ok.inj h
    have hzero : (df.index.map fun _ => (some 0 : Option ℚ)) =
        df.toFrame.candles.map fun _ => some 0 := by
      rw [List.map_const', List.map_const', df.labelled]
      rfl
    exact ⟨_, _, rfl, rfl, by rw [hzero]; rfl, by rw [hzero]; rfl⟩
  | cons l liquidations =>
    rw [IndexedFrame.liquidationColumns] at h
    cases hlong : df.bucketSum (IndexedFrame.sideOf "long" (l :: liquidations)) with
    | error e =>
      rw [hlong] at h
      cases h
    | ok long =>
      cases hshort : df.bucketSum (IndexedFrame.sideOf "short" (l :: liquidations)) with
      | error e =>
        rw [hlong, hshort] at h
        cases h
      | ok short =>
        rw [hlong, hshort] at h
        obtain rfl := Except.ok.inj h
        exact ⟨long, short, (bucketSum_ok_perm (sideOf_perm _ _)).1 hlong,
          (bucketSum_ok_perm (sideOf_perm _ _)).1 hshort, rfl, rfl⟩

theorem exists_liquidationColumns {long short : Series}
    (hlong : df.bucketSum (liquidations.filter (·.side = "long")) = .ok long)
    (hshort : df.bucketSum (liquidations.filter (·.side = "short")) = .ok short) :
    ∃ columns, df.liquidationColumns (some liquidations) = .ok columns := by
  cases liquidations with
  | nil => exact ⟨_, rfl⟩
  | cons l liquidations =>
    have hlong' := (bucketSum_ok_perm (sideOf_perm _ _)).2 hlong
    have hshort' := (bucketSum_ok_perm (sideOf_perm _ _)).2 hshort
    rw [IndexedFrame.liquidationColumns, hlong', hshort']
    exact ⟨_, rfl⟩

/-- What the function returns. -/
structure Posts (df : IndexedFrame ι) (fundingRates openInterest : List Reading)
    (liquidations : List Liquidation) (out : Frame) : Prop where
  unambiguous : df.indexName = some "timestamp" →
    fundingRates = [] ∧ openInterest = [] ∧ liquidations = []
  rows : out.candles = df.candles
  funding : out.column "funding_rate" = some (readingColumn df.candles fundingRates)
  interest : out.column "open_interest" = some (readingColumn df.candles openInterest)
  liquidations : ∃ long short,
    df.bucketSum (liquidations.filter (·.side = "long")) = .ok long ∧
      df.bucketSum (liquidations.filter (·.side = "short")) = .ok short ∧
      out.column "long_liquidations" = some long ∧ out.column "short_liquidations" = some short

theorem posts_of_ok (h : df.computeDerivativesFeatures np (some fundingRates) (some openInterest)
    (some liquidations) = .ok out) : Posts df fundingRates openInterest liquidations out := by
  unfold IndexedFrame.computeDerivativesFeatures at h
  split_ifs at h with hambiguous
  cases hcolumns : df.liquidationColumns (some liquidations) with
  | error e =>
    rw [hcolumns] at h
    cases h
  | ok columns =>
    rw [hcolumns] at h
    obtain rfl := Except.ok.inj h
    obtain ⟨long, short, hlong, hshort, hlongcol, hshortcol⟩ := liquidationColumns_eq_ok hcolumns
    have hnew : ∀ name, name ∉ df.toFrame.columnNames := fun name => by
      simp [Frame.columnNames, IndexedFrame.toFrame]
    have hskip : ∀ name, name ∉ ["funding_rate", "funding_rate_sma_8", "funding_extreme_high",
        "funding_extreme_low", "funding_trend", "open_interest", "oi_change", "oi_change_sma",
        "oi_acceleration", "price_oi_corr"] → (df.toFrame.assign
          (fundingColumns df.toFrame (some fundingRates) ++
            openInterestColumns np df.toFrame (some openInterest) ++ columns)).column name =
        columns.lookup name := by
      intro name hname
      rw [column_assign (hnew _), List.lookup_append, lookup_eq_none, Option.none_or]
      rw [List.map_append, map_fst_fundingColumns, map_fst_openInterestColumns]
      exact hname
    refine ⟨fun hname => ?_, rfl, ?_, ?_, long, short, hlong, hshort, ?_, ?_⟩
    · have hnone := not_and.1 hambiguous hname
      simpa [IndexedFrame.hasRows, List.isEmpty_iff] using hnone
    · rw [column_assign (hnew _)]
      cases fundingRates <;> rfl
    · rw [column_assign (hnew _), List.append_assoc, List.lookup_append, lookup_eq_none,
        Option.none_or]
      · cases openInterest <;> rfl
      · rw [map_fst_fundingColumns]
        decide
    · rw [hskip _ (by decide), hlongcol]
    · rw [hskip _ (by decide), hshortcol]

theorem exists_ok (np : Numpy) {long short : Series}
    (hunambiguous : df.indexName = some "timestamp" →
      fundingRates = [] ∧ openInterest = [] ∧ liquidations = [])
    (hlong : df.bucketSum (liquidations.filter (·.side = "long")) = .ok long)
    (hshort : df.bucketSum (liquidations.filter (·.side = "short")) = .ok short) :
    ∃ out, df.computeDerivativesFeatures np (some fundingRates) (some openInterest)
      (some liquidations) = .ok out := by
  obtain ⟨columns, hcolumns⟩ := exists_liquidationColumns hlong hshort
  have hname : ¬(df.indexName = some "timestamp" ∧ (IndexedFrame.hasRows (some fundingRates) ∨
      IndexedFrame.hasRows (some openInterest) ∨ IndexedFrame.hasRows (some liquidations))) := by
    rintro ⟨hname, hrows⟩
    obtain ⟨rfl, rfl, rfl⟩ := hunambiguous hname
    simp [IndexedFrame.hasRows] at hrows
  rw [IndexedFrame.computeDerivativesFeatures, if_neg hname, hcolumns]
  exact ⟨_, rfl⟩

/-- **When derivatives data is aligned by time**: on every frame whose candles have different times,
`compute_derivatives_features` returns columns that are aligned by time if and only if the frame and
the tables can be aligned. -/
theorem aligned_iff (np : Numpy) (df : IndexedFrame ι)
    (hdistinct : (df.candles.map Candle.timestamp).Nodup) (fundingRates openInterest : List Reading)
    (hfunding : (fundingRates.map Reading.timestamp).Nodup)
    (hinterest : (openInterest.map Reading.timestamp).Nodup) (liquidations : List Liquidation) :
    (∃ out, df.computeDerivativesFeatures np (some fundingRates) (some openInterest)
        (some liquidations) = .ok out ∧
      AlignedByTime df.candles fundingRates openInterest liquidations out) ↔
      Alignable df fundingRates openInterest liquidations := by
  have hentry : ∀ {out : Frame} {name : String} {xs : Series} (i : ℕ), out.column name = some xs →
      out.entry i name = (xs[i]?).join := fun i hxs => by
    rw [Frame.entry, hxs, Option.bind_some]
  constructor
  · rintro ⟨out, hok, haligned⟩
    obtain ⟨hunambiguous, -, hfundingcol, hinterestcol, long, short, hlong, hshort, hlongcol,
      hshortcol⟩ := posts_of_ok hok
    refine ⟨hunambiguous, (readingColumn_iff _ hfunding).1 fun i c hc => ?_,
      (readingColumn_iff _ hinterest).1 fun i c hc => ?_,
      (bucketSum_counts_iff hdistinct _).1 ⟨long, hlong, ?_⟩,
      (bucketSum_counts_iff hdistinct _).1 ⟨short, hshort, ?_⟩⟩
    · rw [← hentry i hfundingcol]
      exact haligned.funding i c hc
    · rw [← hentry i hinterestcol]
      exact haligned.interest i c hc
    · simp only [← hentry _ hlongcol]
      exact haligned.long
    · simp only [← hentry _ hshortcol]
      exact haligned.short
  · rintro ⟨hunambiguous, hfundingplace, hinterestplace, hlong, hshort⟩
    obtain ⟨long, hlong, hlongcounts⟩ := (bucketSum_counts_iff hdistinct _).2 hlong
    obtain ⟨short, hshort, hshortcounts⟩ := (bucketSum_counts_iff hdistinct _).2 hshort
    obtain ⟨out, hok⟩ := exists_ok np hunambiguous hlong hshort
    obtain ⟨-, hrows, hfundingcol, hinterestcol, long', short', hlong', hshort', hlongcol,
      hshortcol⟩ := posts_of_ok hok
    obtain rfl : long = long' := Except.ok.inj (hlong.symm.trans hlong')
    obtain rfl : short = short' := Except.ok.inj (hshort.symm.trans hshort')
    refine ⟨out, hok, hrows, fun i c hc => ?_, fun i c hc => ?_, ?_, ?_⟩
    · rw [hentry i hfundingcol]
      exact (readingColumn_iff _ hfunding).2 hfundingplace i c hc
    · rw [hentry i hinterestcol]
      exact (readingColumn_iff _ hinterest).2 hinterestplace i c hc
    · simp only [hentry _ hlongcol]
      exact hlongcounts
    · simp only [hentry _ hshortcol]
      exact hshortcounts

/-- **A frame in time order with labels of its own** can be aligned with any tables that are not
empty. -/
theorem alignable_of_sorted (hname : df.indexName = none ∨ df.indexName = some "index")
    (hnodup : df.index.Nodup) (hsome : none ∉ df.index)
    (hsorted : df.candles.Pairwise fun a b => a.timestamp ≤ b.timestamp)
    (hfunding : (fundingRates.map Reading.timestamp).Nodup) (hfundingne : fundingRates ≠ [])
    (hinterest : (openInterest.map Reading.timestamp).Nodup) (hinterestne : openInterest ≠ [])
    (liquidations : List Liquidation) :
    Alignable df fundingRates openInterest liquidations where
  unambiguous := fun h => by
    rcases hname with hnone | hindex
    · rw [hnone] at h
      cases h
    · rw [hindex] at h
      simp at h
  funding := inPlace_of_sorted hfundingne hfunding hsorted
  interest := inPlace_of_sorted hinterestne hinterest hsorted
  long := labelsUsable_of_nodup hname hnodup hsome
  short := labelsUsable_of_nodup hname hnodup hsome

end Result

/-! ## Frames of the feature engine -/

/-- `df.sort_values("timestamp").reset_index(drop=True)`. -/
def IndexedFrame.ofEngine (df : List Candle) : IndexedFrame ℕ where
  candles := sortValues df
  index := (List.range df.length).map some
  labelled := by rw [List.length_map, List.length_range, sortValues, List.length_insertionSort]

/-- **The feature engine's own frames can be aligned.** -/
theorem alignable_ofEngine (df : List Candle) {fundingRates openInterest : List Reading}
    (hfunding : (fundingRates.map Reading.timestamp).Nodup) (hfundingne : fundingRates ≠ [])
    (hinterest : (openInterest.map Reading.timestamp).Nodup) (hinterestne : openInterest ≠ [])
    (liquidations : List Liquidation) :
    Alignable (IndexedFrame.ofEngine df) fundingRates openInterest liquidations :=
  alignable_of_sorted (.inl rfl)
    (List.nodup_range.map (Option.some_injective ℕ)) (by simp [IndexedFrame.ofEngine])
    (byKey_sorted Candle.timestamp df) hfunding hfundingne hinterest hinterestne liquidations

/-- Without liquidations the columns are those that the engine's frames have. -/
theorem computeDerivativesFeatures_ofEngine (np : Numpy) (df : List Candle)
    (fundingRates openInterest : Option (List Reading)) :
    (IndexedFrame.ofEngine df).computeDerivativesFeatures np fundingRates openInterest none =
      .ok (FeatureEngine.computeDerivativesFeatures np { candles := sortValues df } fundingRates
        openInterest) := rfl

section Example

/-- Roots of squares, which are all that the examples take. -/
def squareRoots : Numpy where
  sqrt x := if x < 0 then none else some (Nat.sqrt x.num.toNat / Nat.sqrt x.den)
  log x := if x = 1 then some 0 else none

/-- A candle of an hour. -/
def hourCandle (hour : ℕ) : Candle where
  timestamp := Timedelta.hours hour
  timeframe := "1h"
  open_ := 100
  high := 101
  low := 99
  close := 100
  volume := 1

/-- Two candles, the latest first. -/
def latestFirst : IndexedFrame ℕ where
  candles := [hourCandle 1, hourCandle 0]
  index := [some 0, some 1]
  labelled := rfl

/-- A reading at each of the two hours. -/
def hourlyRates : List Reading := [⟨Timedelta.hours 0, 1 / 1000⟩, ⟨Timedelta.hours 1, 1 / 500⟩]

/-- **The rates change places**: the candle of hour 1 gets the rate of hour 0, and that of hour 0
the rate that is read an hour later. -/
theorem latestFirst_misread :
    (latestFirst.computeDerivativesFeatures squareRoots (some hourlyRates) (some hourlyRates)
      (some [])).toOption.map
        (fun out => [out.entry 0 "funding_rate", out.entry 1 "funding_rate"]) =
        some [some (1 / 1000), some (1 / 500)] ∧
    ¬∀ (df : IndexedFrame ℕ) (np : Numpy), (df.candles.map Candle.timestamp).Nodup →
      ∀ fundingRates openInterest : List Reading, (fundingRates.map Reading.timestamp).Nodup →
      (openInterest.map Reading.timestamp).Nodup → ∀ liquidations : List Liquidation,
      ∃ out, df.computeDerivativesFeatures np (some fundingRates) (some openInterest)
        (some liquidations) = .ok out ∧
        AlignedByTime df.candles fundingRates openInterest liquidations out := by
  have hentry : (latestFirst.computeDerivativesFeatures squareRoots (some hourlyRates)
      (some hourlyRates) (some [])).toOption.map
        (fun out => [out.entry 0 "funding_rate", out.entry 1 "funding_rate"]) =
      some [some (1 / 1000), some (1 / 500)] := by decide +kernel
  refine ⟨hentry, fun h => ?_⟩
  obtain ⟨out, hok, haligned⟩ := h latestFirst squareRoots (by decide +kernel) hourlyRates
    hourlyRates (by decide +kernel) (by decide +kernel) []
  rw [hok] at hentry
  have hzero : out.entry 0 "funding_rate" = some (1 / 1000) :=
    (List.cons.inj (Option.some.inj hentry)).1
  have hlatest := haligned.funding 0 (hourCandle 1) rfl
  rw [hzero] at hlatest
  obtain ⟨r, hr, hvalue, -, hlast⟩ := hlatest
  have hle := hlast ⟨Timedelta.hours 1, 1 / 500⟩ (by simp [hourlyRates]) (by decide)
  revert r
  decide +kernel

/-- In time order, with a liquidation between the two candles, everything is aligned. -/
theorem aligned_ofEngine_hourly :
    ∃ out, (IndexedFrame.ofEngine latestFirst.candles).computeDerivativesFeatures squareRoots
        (some hourlyRates) (some hourlyRates) (some [⟨Timedelta.minutes 20, "long", 3⟩]) = .ok out ∧
      AlignedByTime (IndexedFrame.ofEngine latestFirst.candles).candles hourlyRates hourlyRates
        [⟨Timedelta.minutes 20, "long", 3⟩] out :=
  (aligned_iff squareRoots _ (by decide +kernel) hourlyRates hourlyRates (by decide +kernel)
    (by decide +kernel) _).2
    (alignable_ofEngine _ (by decide +kernel) (by decide +kernel) (by decide +kernel)
      (by decide +kernel) _)

end Example

end AlphaOne.FeatureEngine

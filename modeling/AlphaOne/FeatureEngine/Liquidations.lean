import AlphaOne.FeatureEngine.Derivatives
import AlphaOne.Foundations.Grouping
import AlphaOne.Foundations.Timeline
import Mathlib.Data.Finset.Max

/-!
# Liquidations

`_bucket_sum` of `services/feature_engine/derivatives.py`: the liquidations of a side are summed
under the label of the first candle that is not earlier. The labels are those of the frame's index,
which `reset_index` gives the name `index` only when it has no name of its own.

The liquidations that fall to a candle are its `bucket`, and the buckets hold every liquidation up
to the last candle once (`flatMap_bucket_perm`). `bucketSum_counts_iff` is the exact condition under
which the column has the sums of the buckets.
-/

namespace AlphaOne.FeatureEngine

open Foundations

/-- A liquidation. -/
structure Liquidation where
  timestamp : Datetime
  side : String
  quantity : ℚ
  deriving DecidableEq, Repr

/-- What the alignment raises. -/
inductive AlignmentError
  | keyError
  | valueError
  deriving DecidableEq, Repr

/-- A frame of candles with the label of each row, `none` being a missing one, and the name of its
index. -/
structure IndexedFrame (ι : Type) where
  candles : List Candle
  index : List (Option ι)
  indexName : Option String := none
  labelled : index.length = candles.length

/-- `merge_asof` with `direction="forward"`: the first entry at or after a time, of entries in time
order. -/
def asofForward {α : Type*} (entries : List (Datetime × α)) (time : Datetime) : Option α :=
  ((entries.filter (time ≤ ·.1)).head?).map Prod.snd

/-- The quantity of some liquidations. -/
def totalQuantity (events : List Liquidation) : ℚ := (events.map Liquidation.quantity).sum

namespace IndexedFrame

variable {ι : Type} [DecidableEq ι] (df : IndexedFrame ι)

/-- The frame without its index. -/
def toFrame : Frame := { candles := df.candles }

/-- The times of the rows with their labels. -/
def rows : List (Datetime × Option ι) := (df.candles.map Candle.timestamp).zip df.index

/-- `assigned["index"]` of a liquidation. -/
def assignedLabel (e : Liquidation) : Option ι :=
  (asofForward (byKey Prod.fst df.rows) e.timestamp).join

/-- `_bucket_sum`. `groupby` leaves missing labels out, and a label that several rows have cannot be
set to one sum. -/
def bucketSum (events : List Liquidation) : Except AlignmentError Series :=
  if events = [] then .ok (df.index.map fun _ => some 0)
  else if df.indexName ≠ none ∧ df.indexName ≠ some "index" then .error .keyError
  else if ∃ e ∈ events, ∃ l ∈ df.assignedLabel e, 1 < df.index.count (some l) then
    .error .valueError
  else
    .ok (df.index.map fun label => some (totalQuantity (events.filter fun e =>
      label.isSome ∧ df.assignedLabel e = label)))

end IndexedFrame

/-! ## Buckets -/

/-- A candle is the one before another. -/
def Precedes (candles : List Candle) (p c : Candle) : Prop :=
  p ∈ candles ∧ p.timestamp < c.timestamp ∧
    ∀ q ∈ candles, q.timestamp < c.timestamp → q.timestamp ≤ p.timestamp

/-- A column counts the events up to each candle, each of them once. -/
structure CountsOnce (candles : List Candle) (events : List Liquidation) (column : ℕ → Option ℚ) :
    Prop where
  between : ∀ i c p, candles[i]? = some c → Precedes candles p c →
    column i = some (totalQuantity (events.filter fun e =>
      p.timestamp < e.timestamp ∧ e.timestamp ≤ c.timestamp))
  once : ∃ counted : Candle → List Liquidation,
    (∀ i c, candles[i]? = some c → column i = some (totalQuantity (counted c))) ∧
      (candles.flatMap counted).Perm
        (events.filter fun e => ∃ c ∈ candles, e.timestamp ≤ c.timestamp)

/-- A time is after the candles before this one, and not after it. -/
def Owns (candles : List Candle) (c : Candle) (t : Datetime) : Prop :=
  t ≤ c.timestamp ∧ ∀ p ∈ candles, p.timestamp < c.timestamp → p.timestamp < t

instance (candles : List Candle) (c : Candle) (t : Datetime) : Decidable (Owns candles c t) :=
  inferInstanceAs (Decidable (_ ∧ _))

/-- The liquidations of a candle. -/
def bucket (candles : List Candle) (c : Candle) (events : List Liquidation) : List Liquidation :=
  events.filter fun e => Owns candles c e.timestamp

/-- The index of a frame tells the candles apart that liquidations fall to. -/
structure LabelsUsable {ι : Type} [DecidableEq ι] (df : IndexedFrame ι)
    (events : List Liquidation) : Prop where
  named : events ≠ [] → df.indexName = none ∨ df.indexName = some "index"
  unique : ∀ (i : ℕ) (c : Candle) (l : ι), df.candles[i]? = some c → df.index[i]? = some (some l) →
    bucket df.candles c events ≠ [] → df.index.count (some l) = 1
  missing : ∀ (i : ℕ) (c : Candle), df.candles[i]? = some c → df.index[i]? = some none →
    totalQuantity (bucket df.candles c events) = 0

/-! ## Liquidations -/

section Liquidations

variable {candles : List Candle} {events : List Liquidation}

theorem mem_bucket {c : Candle} {e : Liquidation} :
    e ∈ bucket candles c events ↔ e ∈ events ∧ Owns candles c e.timestamp := by
  rw [bucket, List.mem_filter, decide_eq_true_eq]

/-- After a candle and not after the next one. -/
theorem bucket_of_precedes {p c : Candle} (h : Precedes candles p c) (events : List Liquidation) :
    bucket candles c events =
      events.filter fun e => p.timestamp < e.timestamp ∧ e.timestamp ≤ c.timestamp := by
  obtain ⟨hp, hlt, hlast⟩ := h
  refine List.filter_congr fun e _ => ?_
  rw [decide_eq_decide]
  constructor
  · rintro ⟨hle, hafter⟩
    exact ⟨hafter p hp hlt, hle⟩
  · rintro ⟨hafter, hle⟩
    exact ⟨hle, fun q hq hq' => lt_of_le_of_lt (hlast q hq hq') hafter⟩

theorem totalQuantity_perm {xs ys : List Liquidation} (h : xs.Perm ys) :
    totalQuantity xs = totalQuantity ys := (h.map _).sum_eq

theorem totalQuantity_flatMap (f : Candle → List Liquidation) :
    totalQuantity (candles.flatMap f) = (candles.map fun c => totalQuantity (f c)).sum := by
  rw [totalQuantity, List.map_flatMap, List.flatMap_def, List.sum_flatten, List.map_map]
  rfl

/-- Two ways to count the same events that agree on all candles but one agree on that one. -/
theorem totalQuantity_of_others {counted counted' : Candle → List Liquidation} {c : Candle}
    (hperm : (candles.flatMap counted).Perm (candles.flatMap counted')) (hnodup : candles.Nodup)
    (hc : c ∈ candles) (hothers : ∀ c' ∈ candles, c' ≠ c →
      totalQuantity (counted c') = totalQuantity (counted' c')) :
    totalQuantity (counted c) = totalQuantity (counted' c) := by
  have hsum := totalQuantity_perm hperm
  have hrest : ((candles.erase c).map fun c => totalQuantity (counted c)).sum =
      ((candles.erase c).map fun c => totalQuantity (counted' c)).sum := by
    congr 1
    refine List.map_congr_left fun c' hc' => ?_
    obtain ⟨hne, hmem⟩ := hnodup.mem_erase_iff.1 hc'
    exact hothers c' hmem hne
  rw [totalQuantity_flatMap, totalQuantity_flatMap, ← List.sum_map_erase _ hc,
    ← List.sum_map_erase _ hc, hrest] at hsum
  exact add_right_cancel hsum

/-- Of the candles only the first has none before it. -/
theorem exists_precedes {c c' : Candle} (hc : c ∈ candles) (hlt : c.timestamp < c'.timestamp) :
    ∃ p, Precedes candles p c' := by
  obtain ⟨p, hp, hmax⟩ := Finset.exists_max_image
    (candles.filter (·.timestamp < c'.timestamp)).toFinset Candle.timestamp ⟨c, by simp [hc, hlt]⟩
  simp only [List.mem_toFinset, List.mem_filter, decide_eq_true_eq] at hp hmax
  exact ⟨p, hp.1, hp.2, fun q hq hq' => hmax q ⟨hq, hq'⟩⟩

/-- The first candle that is not earlier than an event. -/
def ownerOf (candles : List Candle) (e : Liquidation) : Option Candle :=
  ((byKey Candle.timestamp candles).filter (e.timestamp ≤ ·.timestamp)).head?

theorem isSome_ownerOf {e : Liquidation} :
    (ownerOf candles e).isSome ↔ ∃ c ∈ candles, e.timestamp ≤ c.timestamp := by
  rw [ownerOf, List.isSome_head?, ne_eq, List.filter_eq_nil_iff]
  simp [mem_byKey]

variable (hdistinct : (candles.map Candle.timestamp).Nodup)

include hdistinct

theorem ownerOf_eq_some_iff {c : Candle} {e : Liquidation} :
    ownerOf candles e = some c ↔ c ∈ candles ∧ Owns candles c e.timestamp := by
  have hstrict := byKey_strict Candle.timestamp (List.pairwise_map.1 hdistinct)
  rw [ownerOf, head?_filter_eq_some_iff Candle.timestamp hstrict]
  simp only [mem_byKey]
  rfl

/-- **The buckets hold every event up to the last candle once.** -/
theorem flatMap_bucket_perm (events : List Liquidation) :
    (candles.flatMap fun c => bucket candles c events).Perm
      (events.filter fun e => ∃ c ∈ candles, e.timestamp ≤ c.timestamp) := by
  have hnodup : candles.Nodup := List.Nodup.of_map _ hdistinct
  have hperm := flatMap_filter_perm (ownerOf candles) hnodup fun e (_ : e ∈ events) c hc =>
    ((ownerOf_eq_some_iff hdistinct).1 hc).1
  have hbucket : ∀ c ∈ candles, events.filter (fun e => decide (ownerOf candles e = some c)) =
      bucket candles c events := fun c hc => List.filter_congr fun e _ => by
    rw [decide_eq_decide, ownerOf_eq_some_iff hdistinct, and_iff_right hc]
  have hsome : (events.filter fun e => (ownerOf candles e).isSome) =
      events.filter fun e => ∃ c ∈ candles, e.timestamp ≤ c.timestamp :=
    List.filter_congr fun e _ => by rw [Bool.eq_iff_iff, isSome_ownerOf, decide_eq_true_eq]
  rw [hsome, List.flatMap_congr hbucket] at hperm
  exact hperm

end Liquidations

section Labels

variable {ι : Type} {df : IndexedFrame ι} {events : List Liquidation}

/-- An entry that stands in two rows is counted twice. -/
theorem two_le_count {α : Type*} [BEq α] [LawfulBEq α] {xs : List α} {a : α} {i j : ℕ} (hlt : i < j)
    (hi : xs[i]? = some a) (hj : xs[j]? = some a) : 2 ≤ xs.count a := by
  have hbefore : a ∈ xs.take j := List.mem_iff_getElem?.2 ⟨i, by rwa [List.getElem?_take_of_lt hlt]⟩
  have hafter : a ∈ xs.drop j := List.mem_iff_getElem?.2 ⟨0, by rwa [List.getElem?_drop]⟩
  have hpos := List.count_pos_iff.2 hbefore
  have hpos' := List.count_pos_iff.2 hafter
  rw [← List.take_append_drop j xs, List.count_append]
  omega

/-- A label that occurs once stands in one row. -/
theorem eq_of_count_eq_one {α : Type*} [BEq α] [LawfulBEq α] {xs : List α} {a : α} {i j : ℕ}
    (hcount : xs.count a = 1) (hi : xs[i]? = some a) (hj : xs[j]? = some a) : i = j := by
  rcases lt_trichotomy i j with hlt | heq | hlt
  · have := two_le_count hlt hi hj
    omega
  · exact heq
  · have := two_le_count hlt hj hi
    omega

/-- A row of a frame: its candle and its label. -/
def IndexedFrame.HasRow (df : IndexedFrame ι) (i : ℕ) (c : Candle) (label : Option ι) : Prop :=
  df.candles[i]? = some c ∧ df.index[i]? = some label

theorem IndexedFrame.exists_hasRow {i : ℕ} {c : Candle} (hc : df.candles[i]? = some c) :
    ∃ label, df.HasRow i c label := by
  obtain ⟨hi, -⟩ := List.getElem?_eq_some_iff.1 hc
  exact ⟨_, hc, List.getElem?_eq_getElem (by rw [df.labelled]; exact hi)⟩

theorem IndexedFrame.mem_rows {t : Datetime} {label : Option ι} :
    (t, label) ∈ df.rows ↔ ∃ i c, df.HasRow i c label ∧ c.timestamp = t := by
  rw [List.mem_iff_getElem?]
  refine exists_congr fun i => ?_
  rw [IndexedFrame.rows, List.getElem?_zip_eq_some, List.getElem?_map, Option.map_eq_some_iff]
  constructor
  · rintro ⟨⟨c, hc, rfl⟩, hlabel⟩
    exact ⟨c, ⟨hc, hlabel⟩, rfl⟩
  · rintro ⟨c, ⟨hc, hlabel⟩, rfl⟩
    exact ⟨⟨c, hc, rfl⟩, hlabel⟩

/-- The sum that `_bucket_sum` sets a row to. -/
def IndexedFrame.labelSum (df : IndexedFrame ι) [DecidableEq ι] (events : List Liquidation)
    (label : Option ι) : ℚ :=
  totalQuantity (events.filter fun e => label.isSome ∧ df.assignedLabel e = label)

/-- **When `_bucket_sum` returns**, and what. -/
theorem bucketSum_eq_ok_iff [DecidableEq ι] {xs : Series} : df.bucketSum events = .ok xs ↔
    (events ≠ [] → df.indexName = none ∨ df.indexName = some "index") ∧
      (∀ e ∈ events, ∀ l ∈ df.assignedLabel e, df.index.count (some l) ≤ 1) ∧
      df.index.map (fun label => some (df.labelSum events label)) = xs := by
  by_cases hempty : events = []
  · subst hempty
    have hzero : (df.index.map fun label => some (df.labelSum [] label)) =
        df.index.map fun _ => some 0 := rfl
    rw [IndexedFrame.bucketSum, if_pos rfl, hzero]
    simp
  · rw [IndexedFrame.bucketSum, if_neg hempty]
    by_cases hname : df.indexName ≠ none ∧ df.indexName ≠ some "index"
    · rw [if_pos hname]
      refine iff_of_false (by simp) fun h => ?_
      exact (h.1 hempty).elim hname.1 hname.2
    · rw [if_neg hname]
      have hname' : df.indexName = none ∨ df.indexName = some "index" := by
        by_contra hcon
        exact hname (not_or.1 hcon)
      split_ifs with hdup
      · refine iff_of_false (by simp) fun h => ?_
        obtain ⟨e, he, l, hl, hlt⟩ := hdup
        exact absurd (h.2.1 e he l hl) (not_le.2 hlt)
      · have hunique : ∀ e ∈ events, ∀ l ∈ df.assignedLabel e, df.index.count (some l) ≤ 1 := by
          intro e he l hl
          by_contra hlt
          exact hdup ⟨e, he, l, hl, not_le.1 hlt⟩
        rw [Except.ok.injEq]
        exact ⟨fun h => ⟨fun _ => hname', hunique, h⟩, fun h => h.2.2⟩

/-- The order of the events does not matter. -/
theorem bucketSum_ok_perm [DecidableEq ι] {events' : List Liquidation} (h : events.Perm events')
    {xs : Series} : df.bucketSum events = .ok xs ↔ df.bucketSum events' = .ok xs := by
  have hsum : ∀ label, df.labelSum events label = df.labelSum events' label := fun label =>
    totalQuantity_perm (h.filter _)
  have hnil : events = [] ↔ events' = [] := ⟨fun heq => (heq ▸ h).nil_eq.symm,
    fun heq => (heq ▸ h).eq_nil⟩
  simp only [bucketSum_eq_ok_iff, ne_eq, hnil, h.mem_iff, hsum]

/-- Labels that are there and different tell all candles apart. -/
theorem labelsUsable_of_nodup [DecidableEq ι]
    (hname : df.indexName = none ∨ df.indexName = some "index") (hnodup : df.index.Nodup)
    (hsome : none ∉ df.index) : LabelsUsable df events where
  named := fun _ => hname
  unique := fun _ _ _ _ hl _ => List.count_eq_one_of_mem hnodup (List.mem_of_getElem? hl)
  missing := fun _ _ _ hl => absurd (List.mem_of_getElem? hl) hsome

variable (hdistinct : (df.candles.map Candle.timestamp).Nodup)

include hdistinct

/-- An event is summed under the label of the candle that it falls to. -/
theorem assignedLabel_eq_some_iff {e : Liquidation} {l : ι} :
    df.assignedLabel e = some l ↔
      ∃ i c, df.HasRow i c (some l) ∧ Owns df.candles c e.timestamp := by
  have hfst : df.rows.map Prod.fst = df.candles.map Candle.timestamp :=
    List.map_fst_zip (by rw [List.length_map, df.labelled])
  have hstrict := byKey_strict Prod.fst (List.pairwise_map.1 (hfst ▸ hdistinct))
  have htimes : ∀ t : Datetime, (∃ row ∈ df.rows, row.1 = t) ↔
      ∃ c ∈ df.candles, c.timestamp = t := fun t => by
    rw [← List.mem_map, ← List.mem_map, hfst]
  rw [IndexedFrame.assignedLabel, Option.join_eq_some_iff, asofForward, Option.map_eq_some_iff]
  constructor
  · rintro ⟨⟨t, label⟩, hhead, rfl⟩
    obtain ⟨hmem, hle, hafter⟩ := (head?_filter_eq_some_iff Prod.fst hstrict).1 hhead
    obtain ⟨i, c, hrow, rfl⟩ := IndexedFrame.mem_rows.1 ((mem_byKey _).1 hmem)
    refine ⟨i, c, hrow, hle, fun p hp hlt => ?_⟩
    obtain ⟨row, hrow', hrowtime⟩ := (htimes p.timestamp).2 ⟨p, hp, rfl⟩
    rw [← hrowtime] at hlt ⊢
    exact hafter row ((mem_byKey _).2 hrow') hlt
  · rintro ⟨i, c, hrow, hle, hafter⟩
    refine ⟨(c.timestamp, some l), (head?_filter_eq_some_iff Prod.fst hstrict).2
      ⟨(mem_byKey _).2 (IndexedFrame.mem_rows.2 ⟨i, c, hrow, rfl⟩), hle, fun row hrow' hlt => ?_⟩,
      rfl⟩
    obtain ⟨p, hp, hptime⟩ := (htimes row.1).1 ⟨row, (mem_byKey _).1 hrow', rfl⟩
    rw [← hptime] at hlt ⊢
    exact hafter p hp hlt

/-- The sum of a label that tells its candle apart is that of the bucket. -/
theorem filter_assignedLabel [DecidableEq ι] {i : ℕ} {c : Candle} {l : ι}
    (hrow : df.HasRow i c (some l))
    (hunique : bucket df.candles c events ≠ [] → df.index.count (some l) = 1)
    (hassigned : ∀ e ∈ events, df.assignedLabel e = some l → df.index.count (some l) = 1) :
    (events.filter fun e => df.assignedLabel e = some l) = bucket df.candles c events := by
  refine List.filter_congr fun e he => ?_
  rw [decide_eq_decide, assignedLabel_eq_some_iff hdistinct]
  constructor
  · rintro ⟨j, c', hrow', howns⟩
    have hlabel := (assignedLabel_eq_some_iff hdistinct).2 ⟨j, c', hrow', howns⟩
    obtain rfl := eq_of_count_eq_one (hassigned e he hlabel) hrow'.2 hrow.2
    obtain rfl : c' = c := Option.some.inj (hrow'.1.symm.trans hrow.1)
    exact howns
  · exact fun howns => ⟨i, c, hrow, howns⟩

/-- What `_bucket_sum` sets a row to is the sum of its bucket, when the labels are usable. -/
theorem labelSum_eq [DecidableEq ι] (h : LabelsUsable df events) {i : ℕ} {c : Candle}
    {label : Option ι} (hrow : df.HasRow i c label) :
    df.labelSum events label = totalQuantity (bucket df.candles c events) := by
  cases label with
  | none =>
    rw [h.missing i c hrow.1 hrow.2, IndexedFrame.labelSum]
    simp [totalQuantity]
  | some l =>
    have hassigned : ∀ e ∈ events, df.assignedLabel e = some l → df.index.count (some l) = 1 := by
      intro e he hl
      obtain ⟨j, c', hrow', howns⟩ := (assignedLabel_eq_some_iff hdistinct).1 hl
      exact h.unique j c' l hrow'.1 hrow'.2 (List.ne_nil_of_mem (mem_bucket.2 ⟨he, howns⟩))
    rw [IndexedFrame.labelSum, ← filter_assignedLabel hdistinct hrow (h.unique i c l hrow.1 hrow.2)
      hassigned]
    simp

/-- An event that falls to a candle is the reason that its label occurs once. -/
theorem count_eq_one [DecidableEq ι] {i : ℕ} {c : Candle} {l : ι} (hrow : df.HasRow i c (some l))
    (hbucket : bucket df.candles c events ≠ [])
    (hunique : ∀ e ∈ events, ∀ l ∈ df.assignedLabel e, df.index.count (some l) ≤ 1) :
    df.index.count (some l) = 1 := by
  obtain ⟨e, he⟩ := List.exists_mem_of_ne_nil _ hbucket
  obtain ⟨hmem, howns⟩ := mem_bucket.1 he
  have hle := hunique e hmem l ((assignedLabel_eq_some_iff hdistinct).2 ⟨i, c, hrow, howns⟩)
  have hpos := List.count_pos_iff.2 (List.mem_of_getElem? hrow.2)
  omega

omit hdistinct in
/-- What `_bucket_sum` puts into a row. -/
theorem entry_labelSums [DecidableEq ι] {i : ℕ} {c : Candle} {label : Option ι}
    (hrow : df.HasRow i c label) :
    ((df.index.map fun label => some (df.labelSum events label))[i]?).join =
      some (df.labelSum events label) := by
  rw [List.getElem?_map, hrow.2]
  rfl

/-- With usable labels every row has the sum of its bucket. -/
theorem countsOnce_of_usable [DecidableEq ι] (h : LabelsUsable df events) :
    CountsOnce df.candles events fun i =>
      ((df.index.map fun label => some (df.labelSum events label))[i]?).join := by
  have hvalue : ∀ (i : ℕ) (c : Candle), df.candles[i]? = some c →
      (((df.index.map fun label => some (df.labelSum events label))[i]?).join) =
        some (totalQuantity (bucket df.candles c events)) := by
    intro i c hc
    obtain ⟨label, hrow⟩ := IndexedFrame.exists_hasRow hc
    rw [entry_labelSums hrow, labelSum_eq hdistinct h hrow]
  refine ⟨fun i c p hc hp => ?_, _, hvalue, flatMap_bucket_perm hdistinct events⟩
  rw [← bucket_of_precedes hp]
  exact hvalue i c hc

/-- A row that counts nothing, in a column that counts everything once, has an empty bucket. -/
theorem bucket_eq_zero_of_countsOnce {column : ℕ → Option ℚ} {i : ℕ} {c : Candle}
    (hcounts : CountsOnce df.candles events column) (hc : df.candles[i]? = some c)
    (hzero : column i = some 0) : totalQuantity (bucket df.candles c events) = 0 := by
  have hnodup : df.candles.Nodup := List.Nodup.of_map _ hdistinct
  obtain ⟨counted, hcounted, hperm⟩ := hcounts.once
  have hc0 : totalQuantity (counted c) = 0 :=
    (Option.some.inj (hzero.symm.trans (hcounted i c hc))).symm
  by_cases hfirst : ∃ p, Precedes df.candles p c
  · obtain ⟨p, hp⟩ := hfirst
    have heq := hzero.symm.trans (hcounts.between i c p hc hp)
    rw [← bucket_of_precedes hp] at heq
    exact (Option.some.inj heq).symm
  · -- the first candle: all others have the sums of their buckets
    rw [← hc0, ← totalQuantity_of_others (hperm.trans (flatMap_bucket_perm hdistinct events).symm)
      hnodup (List.mem_of_getElem? hc) fun c' hc' hne => ?_]
    obtain ⟨j, hj⟩ := List.mem_iff_getElem?.1 hc'
    have hlt : c.timestamp < c'.timestamp := by
      refine lt_of_le_of_ne (not_lt.1 fun hlt => hfirst (exists_precedes hc' hlt)) fun heq => ?_
      exact hne (List.inj_on_of_nodup_map hdistinct hc' (List.mem_of_getElem? hc) heq.symm)
    obtain ⟨p, hp⟩ := exists_precedes (List.mem_of_getElem? hc) hlt
    have heq := (hcounted j c' hj).symm.trans (hcounts.between j c' p hj hp)
    rw [← bucket_of_precedes hp] at heq
    exact Option.some.inj heq

/-- **When the liquidations of a side are counted once**: exactly when the labels are usable. -/
theorem bucketSum_counts_iff [DecidableEq ι] (events : List Liquidation) :
    (∃ xs, df.bucketSum events = .ok xs ∧
      CountsOnce df.candles events fun i => (xs[i]?).join) ↔ LabelsUsable df events := by
  constructor
  · rintro ⟨xs, hok, hcounts⟩
    obtain ⟨hnamed, hunique, rfl⟩ := bucketSum_eq_ok_iff.1 hok
    refine ⟨hnamed, fun i c l hc hl hbucket => count_eq_one hdistinct ⟨hc, hl⟩ hbucket hunique,
      fun i c hc hl => bucket_eq_zero_of_countsOnce hdistinct hcounts hc ?_⟩
    have hzero : df.labelSum events none = 0 := by simp [IndexedFrame.labelSum, totalQuantity]
    exact (entry_labelSums ⟨hc, hl⟩).trans (congrArg some hzero)
  · intro h
    refine ⟨_, bucketSum_eq_ok_iff.2 ⟨h.named, fun e he l hl => ?_, rfl⟩,
      countsOnce_of_usable hdistinct h⟩
    obtain ⟨i, c, hrow, howns⟩ := (assignedLabel_eq_some_iff hdistinct).1 hl
    exact (h.unique i c l hrow.1 hrow.2 (List.ne_nil_of_mem (mem_bucket.2 ⟨he, howns⟩))).le

end Labels

end AlphaOne.FeatureEngine

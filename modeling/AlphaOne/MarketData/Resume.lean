import AlphaOne.MarketData.Completeness

/-!
# Resuming an interrupted backfill

A backfill that an exception ends keeps the pages it committed, and a rerun resumes from the
earliest and the latest stored candle. The rerun goes on with the forward part where it broke off
(`Backfilled.forwardStart_eq`), but it looks for nothing behind the earliest stored candle: what
the historical part left unread after a committed page stays unread.

`backfill_resumes_iff` states exactly when the rerun stores what an uninterrupted backfill would,
without a hole: when the store it starts from is `Resumable`.
-/

namespace AlphaOne.MarketData

open Foundations

variable {symbol timeframe : String}

/-- No closed candle of the range is missing between two stored ones. -/
def HoleFree (m : Market symbol timeframe) (start end_ t : ℤ) (s : Session) : Prop :=
  ∀ c ∈ m.history, c.timestamp + interval timeframe ≤ t →
    ∀ a ∈ s.timestamps symbol timeframe, ∀ b ∈ s.timestamps symbol timeframe,
      start ≤ a → a < c.timestamp → c.timestamp < b → b ≤ end_ →
        c.timestamp ∈ s.timestamps symbol timeframe

/-- The rerun stored the closed candles of the range without a hole, exactly as the uninterrupted
backfill did. -/
structure Resumed (m : Market symbol timeframe) (start end_ t : ℤ)
    (rerun uninterrupted : Session) : Prop where
  hole_free : HoleFree m start end_ t rerun
  same : ∀ c ∈ m.history, start ≤ c.timestamp → c.timestamp ≤ end_ →
    c.timestamp + interval timeframe ≤ t →
    (c.timestamp ∈ rerun.timestamps symbol timeframe ↔
      c.timestamp ∈ uninterrupted.timestamps symbol timeframe)

/-- The store `s'` that a backfill from `s` left is one a rerun can resume from. -/
structure Resumable (m : Market symbol timeframe) (pageLimit : ℕ) (start end_ t : ℤ)
    (s s' : Session) : Prop where
  /-- It has no hole in the range. -/
  hole_free : HoleFree m start end_ t s'
  /-- A candle that is missing although an uninterrupted backfill stores it before the earliest
  candle of `s` is not behind a stored one. -/
  before : ∀ c ∈ m.history, start ≤ c.timestamp → c.timestamp ≤ end_ →
    c.timestamp + interval timeframe ≤ t → c.timestamp ∉ s'.timestamps symbol timeframe →
    FilledBefore m pageLimit start s c.timestamp →
    ∀ a ∈ s'.timestamps symbol timeframe, c.timestamp < a
  /-- The candle before the earliest stored one is not behind a page boundary. -/
  boundary : ∀ c ∈ m.history, start < c.timestamp → c.timestamp + interval timeframe ≤ t →
    ∀ v, s'.minTimestamp symbol timeframe = some v → c.timestamp + interval timeframe = v →
    v ≤ end_ → ¬m.Boundary pageLimit start c.timestamp

variable {m : Market symbol timeframe} {pageLimit : ℕ} {start end_ t hcut fcut : ℤ}
  {s s' : Session} {R Rh : Prop}

variable (symbol timeframe) in
/-- The forward start is `start`, or the point after a stored candle. -/
theorem forwardStart_cases (start : ℤ) (s : Session) :
    forwardStart symbol timeframe start s = start ∨
      ∃ u ∈ s.timestamps symbol timeframe,
        u + interval timeframe = forwardStart symbol timeframe start s := by
  unfold forwardStart
  split
  · rename_i v hv
    split
    · exact Or.inr ⟨v, (maxTimestamp_eq_some hv).1, rfl⟩
    · exact Or.inl rfl
  · exact Or.inl rfl

theorem forwardStart_unique {f : ℤ} (hstart : start ≤ f)
    (hle : ∀ u ∈ s.timestamps symbol timeframe, u + interval timeframe ≤ f)
    (hf : f = start ∨ ∃ u ∈ s.timestamps symbol timeframe, u + interval timeframe = f) :
    forwardStart symbol timeframe start s = f := by
  have h1 := le_forwardStart symbol timeframe start s
  rcases forwardStart_cases symbol timeframe start s with h | ⟨u, hu, h⟩
  · rcases hf with hf | ⟨u, hu, hf⟩
    · exact h.trans hf.symm
    · have := lt_forwardStart start hu
      lia
  · have := hle u hu
    rcases hf with hf | ⟨w, hw, hf⟩
    · lia
    · have := lt_forwardStart start hw
      lia

namespace Backfilled

/-- The candles a backfill stored stand on the grid. -/
theorem aligned (h : Backfilled m pageLimit start end_ t s s' R Rh hcut fcut)
    (hs : ∀ u ∈ s.timestamps symbol timeframe, interval timeframe ∣ u - m.origin) :
    ∀ u ∈ s'.timestamps symbol timeframe, interval timeframe ∣ u - m.origin := by
  intro u hu
  rcases h.mem.1 hu with hu | ⟨c, hc, rfl, -⟩
  · exact hs u hu
  · exact m.aligned c hc

/-- What the historical part stored is before the earliest candle stored before. -/
theorem historical_lt (h : Backfilled m pageLimit start end_ t s s' R Rh hcut fcut) {c : OHLCV}
    (hc : c ∈ m.history) (hle : start ≤ c.timestamp) (hlt : c.timestamp < hcut) :
    ∃ v, s.minTimestamp symbol timeframe = some v ∧ c.timestamp + interval timeframe ≤ v := by
  cases hv : s.minTimestamp symbol timeframe with
  | none =>
    rw [h.empty hv] at hlt
    exact absurd hle (not_le.2 hlt)
  | some v =>
    have := (h.historical v hv).bounded c hc hle hlt
    exact ⟨v, rfl, by lia⟩

/-- **The forward part resumes where it broke off.** -/
theorem forwardStart_eq (h : Backfilled m pageLimit start end_ t s s' R Rh hcut fcut) :
    forwardStart symbol timeframe start s' = fcut := by
  have hI := interval_pos timeframe
  have hstart := le_forwardStart symbol timeframe start s
  have hle := h.forward.le
  refine forwardStart_unique (hstart.trans hle) ?_ ?_
  · intro u hu
    rcases h.mem.1 hu with hu | ⟨c, hc, rfl, ⟨h1, h2⟩ | ⟨h1, h2⟩⟩
    · exact (lt_forwardStart start hu).trans hle
    · obtain ⟨v, hv, hcv⟩ := h.historical_lt hc h1 h2
      have := lt_forwardStart start (minTimestamp_eq_some hv).1
      lia
    · rcases h.forward.cursor with heq | ⟨p, hp, hsp, hpc⟩
      · lia
      · by_contra hlt
        have := grid_succ_le (m.aligned p hp) (m.aligned c hc) (by lia)
        lia
  · rcases h.forward.cursor with heq | ⟨p, hp, hsp, hpc⟩
    · rw [heq]
      rcases forwardStart_cases symbol timeframe start s with h' | h'
      · exact Or.inl h'
      · obtain ⟨u, hu, hu'⟩ := h'
        exact Or.inr ⟨u, h.mem.2 (Or.inl hu), hu'⟩
    · exact Or.inr ⟨p.timestamp, h.mem.2 (Or.inr ⟨p, hp, rfl, Or.inr ⟨hsp, by lia⟩⟩), hpc⟩

section Missing

variable {c : OHLCV}

/-- For a candle that is still missing, the forward part of a rerun is that of the first run. -/
theorem filledAfter_iff (h : Backfilled m pageLimit start end_ t s s' R Rh hcut fcut)
    (hc : c ∈ m.history) (hclosed : c.timestamp + interval timeframe ≤ t)
    (hnot : c.timestamp ∉ s'.timestamps symbol timeframe) :
    FilledAfter m pageLimit start end_ s' c.timestamp ↔
      FilledAfter m pageLimit start end_ s c.timestamp := by
  have hle := h.forward.le
  have hcut : forwardStart symbol timeframe start s ≤ c.timestamp → fcut ≤ c.timestamp := by
    intro hfwd
    by_contra hlt
    exact hnot (h.mem.2 (Or.inr ⟨c, hc, rfl, Or.inr ⟨hfwd, not_le.1 hlt⟩⟩))
  unfold FilledAfter
  rw [h.forwardStart_eq]
  constructor
  · rintro ⟨h1, h2, h3⟩
    refine ⟨hle.trans h1, h2, ?_⟩
    rintro ⟨heq, hb⟩
    refine h3 ⟨heq, ?_⟩
    rw [heq] at hb ⊢
    exact (h.forward.resume c hc heq hclosed h1).2 hb
  · rintro ⟨h1, h2, h3⟩
    refine ⟨hcut h1, h2, ?_⟩
    rintro ⟨heq, hb⟩
    refine h3 ⟨heq, ?_⟩
    rw [heq] at hb ⊢
    exact (h.forward.resume c hc heq hclosed (hcut h1)).1 hb

/-- For a candle that is still missing, the historical part of a rerun is that of the first run
if no stored candle is before it, and nothing otherwise. -/
theorem filledBefore_iff (h : Backfilled m pageLimit start end_ t s s' R Rh hcut fcut)
    (hs : ∀ u ∈ s.timestamps symbol timeframe, interval timeframe ∣ u - m.origin)
    (hc : c ∈ m.history) (hle : start ≤ c.timestamp)
    (hnot : c.timestamp ∉ s'.timestamps symbol timeframe) :
    FilledBefore m pageLimit start s' c.timestamp ↔
      FilledBefore m pageLimit start s c.timestamp ∧
        ∀ a ∈ s'.timestamps symbol timeframe, c.timestamp < a := by
  have hI := interval_pos timeframe
  -- a stored candle after `c` was not stored by the historical part
  have hhist : ∀ {d : OHLCV}, d ∈ m.history → c.timestamp < d.timestamp → ¬d.timestamp < hcut := by
    intro d hd hcd hlt
    exact hnot (h.mem.2 (Or.inr ⟨c, hc, rfl, Or.inl ⟨hle, by lia⟩⟩))
  constructor
  · rintro ⟨v, hv, hcv, hb⟩
    obtain ⟨hvmem, hvmin⟩ := minTimestamp_eq_some hv
    refine ⟨?_, fun a ha => by have := hvmin a ha; lia⟩
    have hvs : v ∈ s.timestamps symbol timeframe := by
      rcases h.mem.1 hvmem with hv' | ⟨d, hd, rfl, ⟨-, h2⟩ | ⟨h1, h2⟩⟩
      · exact hv'
      · exact absurd h2 (hhist hd (by lia))
      · rcases forwardStart_cases symbol timeframe start s with
          heq | ⟨u, hu, heq⟩
        · exact absurd (h.mem.2 (Or.inr ⟨c, hc, rfl, Or.inr ⟨by lia, by lia⟩⟩)) hnot
        · have := hvmin u (h.mem.2 (Or.inl hu))
          lia
    have hmin : s.minTimestamp symbol timeframe = some v := by
      refine List.min?_eq_some_iff.2 ⟨hvs, fun w hw => hvmin w (h.mem.2 (Or.inl hw))⟩
    exact ⟨v, hmin, hcv, hb⟩
  · rintro ⟨⟨v, hv, hcv, hb⟩, hall⟩
    obtain ⟨hvmem, hvmin⟩ := minTimestamp_eq_some hv
    cases hw : s'.minTimestamp symbol timeframe with
    | none =>
      have := timestamps_eq_nil hw
      rw [this] at hall
      have hmem := h.mem.2 (Or.inl hvmem)
      rw [this] at hmem
      exact absurd hmem List.not_mem_nil
    | some w =>
      obtain ⟨hwmem, hwmin⟩ := minTimestamp_eq_some hw
      have hcw := hall w hwmem
      refine ⟨w, hw, grid_succ_le (m.aligned c hc) (h.aligned hs w hwmem) hcw, ?_⟩
      rintro ⟨heq, hb'⟩
      have hwv := hwmin v (h.mem.2 (Or.inl hvmem))
      rcases h.mem.1 hwmem with hw' | ⟨d, hd, rfl, ⟨-, h2⟩ | ⟨h1, -⟩⟩
      · have := hvmin w hw'
        exact hb ⟨by lia, hb'⟩
      · exact hhist hd hcw h2
      · have := lt_forwardStart start hvmem
        lia

/-- What a run stored, interrupted or not, an uninterrupted one stores as well. -/
theorem filled_of_mem (h : Backfilled m pageLimit start end_ t s s' R Rh hcut fcut)
    (hc : c ∈ m.history) (hclosed : c.timestamp + interval timeframe ≤ t)
    (hmem : c.timestamp ∈ s'.timestamps symbol timeframe) :
    c.timestamp ∈ s.timestamps symbol timeframe ∨
      FilledBefore m pageLimit start s c.timestamp ∨
      FilledAfter m pageLimit start end_ s c.timestamp := by
  rcases h.mem.1 hmem with hs | ⟨d, hd, hdc, ⟨h1, h2⟩ | ⟨h1, h2⟩⟩
  · exact Or.inl hs
  · obtain ⟨v, hv, hcv⟩ := h.historical_lt hc h1 h2
    refine Or.inr (Or.inl ⟨v, hv, hcv, ?_⟩)
    rintro ⟨heq, hb⟩
    have hend : c.timestamp = v - interval timeframe := by lia
    exact (h.historical v hv).not_boundary c hc h1 h2 hclosed hend (hend ▸ hb)
  · refine Or.inr (Or.inr ⟨h1, h.forward.bounded c hc h1 h2, ?_⟩)
    rintro ⟨heq, hb⟩
    exact h.forward.not_boundary c hc h1 h2 hclosed heq (heq ▸ hb)

end Missing

/-- A time before the earliest stored candle is not in the forward part. -/
theorem not_filledAfter_of_lt {u v : ℤ} (hv : v ∈ s.timestamps symbol timeframe) (h : u < v) :
    ¬FilledAfter m pageLimit start end_ s u := by
  have hI := interval_pos timeframe
  rintro ⟨hfwd, -⟩
  have := lt_forwardStart start hv
  lia

/-- A time after a stored candle is not in the historical part. -/
theorem not_filledBefore_of_lt {u v : ℤ} (hv : v ∈ s.timestamps symbol timeframe) (h : v < u) :
    ¬FilledBefore m pageLimit start s u := by
  have hI := interval_pos timeframe
  rintro ⟨w, hw, hle, -⟩
  have := (minTimestamp_eq_some hw).2 v hv
  lia

end Backfilled

section Rerun

variable {Q Qh S Sh : Prop} {hcut' fcut' hcut'' fcut'' : ℤ} {rerun uninterrupted : Session}

/-- A rerun stores what an uninterrupted backfill stores, if nothing was left unread behind a
stored candle. -/
theorem Resumable.same (h : Resumable m pageLimit start end_ t s s')
    (hrun : Backfilled m pageLimit start end_ t s s' R Rh hcut fcut)
    (hrerun : Backfilled m pageLimit start end_ t s' rerun Q Qh hcut' fcut') (hq : Q)
    (hun : Backfilled m pageLimit start end_ t s uninterrupted S Sh hcut'' fcut'') (hsu : S)
    (hs : ∀ u ∈ s.timestamps symbol timeframe, interval timeframe ∣ u - m.origin)
    {c : OHLCV} (hc : c ∈ m.history) (hle : start ≤ c.timestamp) (hend : c.timestamp ≤ end_)
    (hclosed : c.timestamp + interval timeframe ≤ t) :
    c.timestamp ∈ rerun.timestamps symbol timeframe ↔
      c.timestamp ∈ uninterrupted.timestamps symbol timeframe := by
  rw [hrerun.mem_iff hq hc hle hclosed, hun.mem_iff hsu hc hle hclosed]
  by_cases hmem : c.timestamp ∈ s'.timestamps symbol timeframe
  · exact ⟨fun _ => hrun.filled_of_mem hc hclosed hmem, fun _ => Or.inl hmem⟩
  · have hold : c.timestamp ∉ s.timestamps symbol timeframe := fun hm =>
      hmem (hrun.mem.2 (Or.inl hm))
    rw [hrun.filledBefore_iff hs hc hle hmem, hrun.filledAfter_iff hc hclosed hmem]
    constructor
    · rintro (hm | ⟨hb, -⟩ | ha)
      · exact absurd hm hmem
      · exact Or.inr (Or.inl hb)
      · exact Or.inr (Or.inr ha)
    · rintro (hm | hb | ha)
      · exact absurd hm hold
      · exact Or.inr (Or.inl ⟨hb, h.before c hc hle hend hclosed hmem hb⟩)
      · exact Or.inr (Or.inr ha)

/-- A rerun makes no hole. -/
theorem Resumable.rerun_hole_free (h : Resumable m pageLimit start end_ t s s')
    (hrerun : Backfilled m pageLimit start end_ t s' rerun Q Qh hcut' fcut') (hq : Q)
    (hs' : ∀ u ∈ s'.timestamps symbol timeframe, interval timeframe ∣ u - m.origin) :
    HoleFree m start end_ t rerun := by
  have hI := interval_pos timeframe
  intro c hc hclosed a ha b hb hsa hac hcb hbe
  by_contra hmiss
  have hle : start ≤ c.timestamp := by lia
  have hiff := hrerun.mem_iff hq hc hle hclosed
  have hnot : c.timestamp ∉ s'.timestamps symbol timeframe := fun hm => hmiss (hiff.2 (Or.inl hm))
  have hnb : ¬FilledBefore m pageLimit start s' c.timestamp := fun hf =>
    hmiss (hiff.2 (Or.inr (Or.inl hf)))
  -- a stored candle before `c` that the rerun found
  have hbefore : ∃ a' ∈ s'.timestamps symbol timeframe, start ≤ a' ∧ a' < c.timestamp := by
    rcases hrerun.mem.1 ha with ha | ⟨d, hd, rfl, ⟨h1, h2⟩ | ⟨h1, h2⟩⟩
    · exact ⟨a, ha, hsa, hac⟩
    · obtain ⟨v, hv, hdv⟩ := hrerun.historical_lt hd h1 h2
      obtain ⟨hvmem, -⟩ := minTimestamp_eq_some hv
      by_cases hvc : v < c.timestamp
      · exact ⟨v, hvmem, by lia, hvc⟩
      · have hcv : c.timestamp ≠ v := fun heq => hnot (heq ▸ hvmem)
        have hstep := grid_succ_le (m.aligned c hc) (hs' v hvmem) (by lia)
        have hb' : c.timestamp + interval timeframe = v ∧ m.Boundary pageLimit start c.timestamp := by
          by_contra hnb'
          exact hnb ⟨v, hv, hstep, hnb'⟩
        have hvb : v ≤ b := by
          rcases hrerun.mem.1 hb with hb | ⟨e, he, rfl, ⟨h3, h4⟩ | ⟨h3, -⟩⟩
          · exact (minTimestamp_eq_some hv).2 b hb
          · exact absurd (hrerun.mem.2 (Or.inr ⟨c, hc, rfl, Or.inl ⟨hle, by lia⟩⟩)) hmiss
          · have := lt_forwardStart start hvmem
            lia
        exact absurd hb'.2 (h.boundary c hc (by lia) hclosed v hv hb'.1 (by lia))
    · rcases hrerun.mem.1 hb with hb | ⟨e, he, rfl, ⟨h3, h4⟩ | ⟨h3, h4⟩⟩
      · have := lt_forwardStart start hb
        lia
      · exact absurd (hrerun.mem.2 (Or.inr ⟨c, hc, rfl, Or.inl ⟨hle, by lia⟩⟩)) hmiss
      · exact absurd (hrerun.mem.2 (Or.inr ⟨c, hc, rfl, Or.inr ⟨by lia, by lia⟩⟩)) hmiss
  obtain ⟨a', ha', hsa', hac'⟩ := hbefore
  -- and one after it
  have hafter : ∃ b' ∈ s'.timestamps symbol timeframe, c.timestamp < b' ∧ b' ≤ b := by
    rcases hrerun.mem.1 hb with hb | ⟨e, he, rfl, ⟨h3, h4⟩ | ⟨h3, h4⟩⟩
    · exact ⟨b, hb, hcb, le_rfl⟩
    · exact absurd (hrerun.mem.2 (Or.inr ⟨c, hc, rfl, Or.inl ⟨hle, by lia⟩⟩)) hmiss
    · rcases forwardStart_cases symbol timeframe start s' with
        heq | ⟨u, hu, heq⟩
      · exact absurd (hrerun.mem.2 (Or.inr ⟨c, hc, rfl, Or.inr ⟨by lia, by lia⟩⟩)) hmiss
      · by_cases hcu : c.timestamp < u
        · exact ⟨u, hu, hcu, by lia⟩
        · have hne : u ≠ c.timestamp := fun heq => hnot (heq ▸ hu)
          have := grid_succ_le (hs' u hu) (m.aligned c hc) (by lia)
          exact absurd (hrerun.mem.2 (Or.inr ⟨c, hc, rfl, Or.inr ⟨by lia, by lia⟩⟩)) hmiss
  obtain ⟨b', hb', hcb', hbb'⟩ := hafter
  exact hnot (h.hole_free c hc hclosed a' ha' b' hb' hsa' hac' hcb' (by lia))

/-- A store that a rerun resumes from without a hole is resumable. -/
theorem Resumed.resumable (h : Resumed m start end_ t rerun uninterrupted)
    (hrun : Backfilled m pageLimit start end_ t s s' R Rh hcut fcut)
    (hrerun : Backfilled m pageLimit start end_ t s' rerun Q Qh hcut' fcut') (hq : Q)
    (hun : Backfilled m pageLimit start end_ t s uninterrupted S Sh hcut'' fcut'') (hsu : S)
    (hs : ∀ u ∈ s.timestamps symbol timeframe, interval timeframe ∣ u - m.origin) :
    Resumable m pageLimit start end_ t s s' := by
  have hI := interval_pos timeframe
  refine ⟨?_, ?_, ?_⟩
  · intro c hc hclosed a ha b hb hsa hac hcb hbe
    have hmem := h.hole_free c hc hclosed a (hrerun.mem.2 (Or.inl ha)) b
      (hrerun.mem.2 (Or.inl hb)) hsa hac hcb hbe
    rcases (hrerun.mem_iff hq hc (by lia) hclosed).1 hmem with hm | hf | hf
    · exact hm
    · exact absurd hf (Backfilled.not_filledBefore_of_lt ha hac)
    · exact absurd hf (Backfilled.not_filledAfter_of_lt hb hcb)
  · intro c hc hle hend hclosed hmiss hb
    have hmem := (h.same c hc hle hend hclosed).2
      ((hun.mem_iff hsu hc hle hclosed).2 (Or.inr (Or.inl hb)))
    rcases (hrerun.mem_iff hq hc hle hclosed).1 hmem with hm | hf | hf
    · exact absurd hm hmiss
    · exact ((hrun.filledBefore_iff hs hc hle hmiss).1 hf).2
    · obtain ⟨v, hv, hcv, -⟩ := hb
      exact absurd ((hrun.filledAfter_iff hc hclosed hmiss).1 hf)
        (Backfilled.not_filledAfter_of_lt (minTimestamp_eq_some hv).1 (by lia))
  · intro c hc hlt hclosed v hv hcv hve hb
    obtain ⟨hvmem, hvmin⟩ := minTimestamp_eq_some hv
    rcases hb with heq | ⟨p, hp, hsp, hpc, hdvd⟩
    · lia
    -- the page ended in `p`, which is stored, and so is `v`; `c` between them is not
    have hpmem : p.timestamp ∈ rerun.timestamps symbol timeframe := by
      refine (hrerun.mem_iff hq hp hsp (by lia)).2 (Or.inr (Or.inl ⟨v, hv, by lia, ?_⟩))
      rintro ⟨heq, -⟩
      lia
    have hmem := h.hole_free c hc hclosed _ hpmem v (hrerun.mem.2 (Or.inl hvmem)) hsp (by lia)
      (by lia) hve
    rcases (hrerun.mem_iff hq hc hlt.le hclosed).1 hmem with hm | ⟨w, hw, -, hnot⟩ | hf
    · have := hvmin _ hm
      lia
    · rw [hv] at hw
      obtain rfl := Option.some.inj hw
      exact hnot ⟨hcv, Or.inr ⟨p, hp, hsp, hpc, hdvd⟩⟩
    · exact absurd hf (Backfilled.not_filledAfter_of_lt hvmem (by lia))

end Rerun

/-- **Crash-resumable backfill.** A backfill against an exchange that may raise, rerun against one
that does not, stores the candles closed when it began without a hole and exactly as one
uninterrupted backfill does, if and only if the store it left is resumable. -/
theorem backfill_resumes_iff {crashing env : Environment} (hcrash : crashing.Truthful m)
    (henv : env.Honest m) (hclock : crashing.utcnow = env.utcnow) (hlimit : 0 < pageLimit)
    (hs : ∀ u ∈ s.timestamps symbol timeframe, interval timeframe ∣ u - m.origin) :
    let left := (backfill crashing symbol timeframe start end_ pageLimit s).2
    Resumed m start end_ (env.utcnow s.turn)
        (backfill env symbol timeframe start end_ pageLimit left).2
        (backfill env symbol timeframe start end_ pageLimit s).2 ↔
      Resumable m pageLimit start end_ (env.utcnow s.turn) s left := by
  intro left
  obtain ⟨_, _, _, hrun⟩ := backfill_spec hcrash hlimit start end_ s
    (show env.utcnow s.turn ≤ crashing.utcnow s.turn from hclock ▸ le_rfl)
  obtain ⟨_, _, _, hrerun⟩ := backfill_spec henv.truthful hlimit start end_ left
    (henv.clock hrun.turn)
  obtain ⟨_, _, _, hun⟩ := backfill_spec henv.truthful hlimit start end_ s le_rfl
  have hq := backfill_returns henv pageLimit start end_ left
  have hsu := backfill_returns henv pageLimit start end_ s
  constructor
  · intro h
    exact h.resumable hrun hrerun hq hun hsu hs
  · intro h
    exact ⟨h.rerun_hole_free hrerun hq (hrun.aligned hs), fun c hc hle hend hclosed =>
      h.same hrun hrerun hq hun hsu hs hc hle hend hclosed⟩

section Example

/-- The first five minutes of a history. -/
def fiveMinutes : Market "BTC/USDT" "1m" where
  history := [minuteCandle 0, minuteCandle 1, minuteCandle 2, minuteCandle 3, minuteCandle 4]
  chronological := by decide +kernel
  origin := 0
  aligned := by decide +kernel
  labelled := by decide +kernel

/-- An exchange that answers the first fetch and raises from the second on. -/
def secondFetchRaises : Environment where
  fetchOhlcv n _ _ since limit :=
    if n = 0 then some (page OHLCV.timestamp since limit fiveMinutes.history) else none
  utcnow _ := Timedelta.hours 1

theorem secondFetchRaises_truthful : secondFetchRaises.Truthful fiveMinutes := by
  refine ⟨fun n since limit => ?_, fun _ _ _ => le_rfl⟩
  simp only [secondFetchRaises]
  split
  · exact Or.inr rfl
  · exact Or.inl rfl

/-- A backfill of the first four minutes with pages of two, over a store that holds the fourth,
is interrupted after its first page: the rerun leaves a hole, which an uninterrupted backfill
does not. -/
theorem backfill_rerun_leaves_hole :
    let s : Session := ⟨[(minuteCandle 4).toRow], 0⟩
    let crashed := backfill secondFetchRaises "BTC/USDT" "1m" 0 (Timedelta.minutes 4) 2 s
    crashed.1 = none ∧
      ¬Resumed fiveMinutes 0 (Timedelta.minutes 4) (Timedelta.hours 1)
        (backfill fiveMinutes.honestEnvironment "BTC/USDT" "1m" 0 (Timedelta.minutes 4) 2
          crashed.2).2
        (backfill fiveMinutes.honestEnvironment "BTC/USDT" "1m" 0 (Timedelta.minutes 4) 2 s).2 := by
  refine ⟨by decide +kernel, fun h => ?_⟩
  have hmem := (h.same (minuteCandle 2) (by decide +kernel) (by decide +kernel)
    (by decide +kernel) (by decide +kernel)).2 (by decide +kernel)
  revert hmem
  decide +kernel

/-- Interrupted after the first page over an empty store, the rerun completes the backfill. -/
theorem backfill_rerun_completes :
    let crashed := backfill secondFetchRaises "BTC/USDT" "1m" 0 (Timedelta.minutes 4) 2 {}
    crashed.1 = none ∧
      Resumed fiveMinutes 0 (Timedelta.minutes 4) (Timedelta.hours 1)
        (backfill fiveMinutes.honestEnvironment "BTC/USDT" "1m" 0 (Timedelta.minutes 4) 2
          crashed.2).2
        (backfill fiveMinutes.honestEnvironment "BTC/USDT" "1m" 0 (Timedelta.minutes 4) 2 {}).2 := by
  refine ⟨by decide +kernel, (backfill_resumes_iff secondFetchRaises_truthful
    fiveMinutes.honestEnvironment_honest rfl (by decide)
    (fun _ h => absurd h List.not_mem_nil)).2 ⟨?_, ?_, ?_⟩⟩
  · unfold HoleFree
    decide +kernel
  · rintro c - - - - - ⟨v, hv, -⟩
    simp [Session.minTimestamp, Session.timestamps] at hv
  · intro c _ hlt _ v hv hcv
    have hmin : (backfill secondFetchRaises "BTC/USDT" "1m" 0 (Timedelta.minutes 4) 2
        {}).2.minTimestamp "BTC/USDT" "1m" = some 0 := by decide +kernel
    rw [hmin] at hv
    obtain rfl := Option.some.inj hv
    have hI := interval_pos "1m"
    lia

end Example

end AlphaOne.MarketData

import AlphaOne.Paper.Agreement
import AlphaOne.Paper.Replay

/-!
# The job against the replay, over runs

`Tracked` is the invariant that carries the comparison through a run: every position that was put
into a book stands where its hits have brought it, and the hits are stored candles of its symbol
later than its entry. A tick on a symbol then agrees with the replay exactly when no candle
that the position was not shown would have touched it where it stood (`Shows.skipped`), and the
shown candle touches no position it has no business with (`Shows.misplaced`).
-/

namespace AlphaOne.Paper

open Foundations Journal Risk Scheduler TelegramSignals

namespace PaperTrader

variable {candle : Candle} {book : List PaperPosition}

/-- The events of one position among those of its book. -/
theorem reactions_filter (hu : UniqueKey PaperPosition.tradeId book) (id : String) :
    (reactions candle book).filter (fun e => e.tradeId = id) =
      ((lookup PaperPosition.tradeId id book).map fun p => (p.react candle).1).getD [] := by
  induction book with
  | nil => rfl
  | cons p rest ih =>
    have hrest : UniqueKey PaperPosition.tradeId rest := List.Nodup.of_cons hu
    have hnew : ∀ q ∈ rest, q.tradeId ≠ p.tradeId := by
      intro q hq he
      exact (List.nodup_cons.1 hu).1 (he ▸ List.mem_map_of_mem hq)
    have hcons : reactions candle (p :: rest) = (p.react candle).1 ++ reactions candle rest := by
      simp [reactions]
    rw [hcons, List.filter_append, ih hrest]
    by_cases hid : p.tradeId = id
    · have hall : (p.react candle).1.filter (fun e => e.tradeId = id) = (p.react candle).1 := by
        refine List.filter_eq_self.2 fun e he => ?_
        simpa using (PaperPosition.eventOf_react he).tradeId.trans hid
      have hnone : lookup PaperPosition.tradeId id rest = none :=
        lookup_eq_none_iff.2 fun q hq => hid ▸ hnew q hq
      rw [hall, hnone]
      simp [lookup, hid]
    · have hnil : (p.react candle).1.filter (fun e => e.tradeId = id) = [] := by
        refine List.filter_eq_nil_iff.2 fun e he => ?_
        have := (PaperPosition.eventOf_react he).tradeId
        simpa [this] using hid
      rw [hnil]
      simp [lookup, hid]

/-- A position after a candle is its reaction. -/
theorem lookup_after (hu : UniqueKey PaperPosition.tradeId book) (id : String) :
    lookup PaperPosition.tradeId id (after candle book) =
      (lookup PaperPosition.tradeId id book).bind fun p => (p.react candle).2 := by
  cases hl : lookup PaperPosition.tradeId id book with
  | none =>
    rw [Option.bind_none, lookup_eq_none_iff]
    intro q hq hid
    obtain ⟨p, hp, hpq⟩ := mem_after.1 hq
    exact lookup_eq_none_iff.1 hl p hp
      ((PaperPosition.samePosition_of_react hpq).tradeId.symm.trans hid)
  | some p =>
    have hp := mem_of_lookup hl
    have hpid := key_of_lookup hl
    rw [Option.bind_some]
    cases hr : (p.react candle).2 with
    | none =>
      rw [lookup_eq_none_iff]
      intro q hq hid
      obtain ⟨p', hp', hpq⟩ := mem_after.1 hq
      have hid' := (PaperPosition.samePosition_of_react hpq).tradeId
      have hsame : p' = p := hu.eq_of_key hp' hp (hid'.symm.trans (hid.trans hpid.symm))
      rw [hsame, hr] at hpq
      cases hpq
    | some q =>
      exact (lookup_eq_some_iff (uniqueKey_after candle hu)).2 ⟨mem_after.2 ⟨p, hp, hr⟩,
        (PaperPosition.samePosition_of_react hr).tradeId.trans hpid⟩

end PaperTrader

/-- One of the two books. -/
def PaperSystem.bookOf (s : PaperSystem) : Book → List PaperPosition
  | .ai => s.paperTrader.positions
  | .multiCoin => s.multiCoinPaperTrader.positions

/-- The candles that a replay of a position is fed: those of its symbol later than its entry, up
to the newest. -/
def fed (candles : List Candle) (timeframe : String) (o : Opening) : List Candle :=
  match newestCandle candles o.symbol timeframe with
  | none => []
  | some latest => candlesAfter candles o.symbol timeframe o.position.entryTime latest.timestamp

namespace Watched

/-- The position of an opening as its book holds it. -/
def held (w : Watched) (o : Opening) : Option PaperPosition :=
  lookup PaperPosition.tradeId o.position.tradeId (w.system.bookOf o.book)

/-- The position has emitted an event on the candle. -/
def TookPart (w : Watched) (o : Opening) (c : Candle) : Prop :=
  ∃ e ∈ w.eventsOf o, e.exitTime = c.timestamp

instance (w : Watched) (o : Opening) (c : Candle) : Decidable (w.TookPart o c) :=
  inferInstanceAs (Decidable (∃ e ∈ w.eventsOf o, e.exitTime = c.timestamp))

/-- The position as it stood when the candle came: after its events on earlier candles. -/
def standing (w : Watched) (timeframe : String) (o : Opening) (c : Candle) :
    Option PaperPosition :=
  (feed PaperPosition.react (some o.position) ((fed w.system.candles timeframe o).filter fun d =>
    d.timestamp < c.timestamp ∧ w.TookPart o d)).2

/-- What a tick is to the positions on its symbol and on others. -/
structure Replayed (timeframe : String) (w : Watched) (t : Tick) : Prop where
  /-- The events so far of a position on the symbol are those of its replay. -/
  own : ∀ o ∈ (w.step (.tick t)).openings, o.symbol = t.symbol →
    (w.step (.tick t)).eventsOf o =
      replay (fed (w.step (.tick t)).system.candles timeframe o) o.position
  /-- A position on another symbol stays as it is. -/
  foreign : ∀ o ∈ w.openings, o.symbol ≠ t.symbol →
    (w.step (.tick t)).eventsOf o = w.eventsOf o ∧ (w.step (.tick t)).held o = w.held o

/-- The property of an operation that the replay asks for: it is about ticks. -/
def FollowsReplay (timeframe : String) (w : Watched) : Op → Prop
  | .tick t => Replayed timeframe w t
  | .store _ _ | .execute _ => True

/-- A tick shows every candle where it is needed, and only there. -/
structure Shows (timeframe : String) (w : Watched) (t : Tick) : Prop where
  /-- A candle of the symbol on which the position has not acted, and which the tick does not show
  to its book, does not touch the position where it stood. -/
  skipped : ∀ o ∈ w.openings, o.symbol = t.symbol → ∀ c ∈ fed w.system.candles timeframe o,
    ¬w.TookPart o c →
      ¬(o.book = .ai ∧ shownCandle w.system.candles t.symbol timeframe = some c) →
        ∀ p ∈ w.standing timeframe o c, ¬p.Touched c
  /-- The shown candle does not touch a position on another symbol, or one that was entered on it
  or later. -/
  misplaced : ∀ c, shownCandle w.system.candles t.symbol timeframe = some c →
    ∀ o ∈ w.openings, o.book = .ai →
      o.symbol ≠ t.symbol ∨ c.timestamp ≤ o.position.entryTime →
        ∀ p ∈ w.held o, ¬p.Touched c

/-- The condition of an operation: it is about ticks. -/
def ShowsWhatTouches (timeframe : String) (w : Watched) : Op → Prop
  | .tick t => Shows timeframe w t
  | .store _ _ | .execute _ => True

/-! ## Hits -/

/-- The candles that have touched a position, and where they have brought it. -/
structure Hits (timeframe : String) (w : Watched) (o : Opening) (hits : List Candle) :
    Prop where
  chronological : Chronological Candle.timestamp hits
  loaded : ∀ c ∈ hits, c ∈ w.system.candles ∧ IsLoaded o.symbol timeframe c ∧
    o.position.entryTime < c.timestamp
  touched : ∀ l₁ c l₂, hits = l₁ ++ c :: l₂ →
    ∃ p, (feed PaperPosition.react (some o.position) l₁).2 = some p ∧ p.Touched c
  events : w.eventsOf o = (feed PaperPosition.react (some o.position) hits).1
  held : o.book = .ai → w.held o = (feed PaperPosition.react (some o.position) hits).2

variable {timeframe : String} {w : Watched} {o : Opening} {hits : List Candle} {c : Candle}
  {t : Tick} {mid : Tables} {call : ExecuteCall}

theorem mem_fed (hc : c ∈ fed w.system.candles timeframe o) : c ∈ w.system.candles ∧
    IsLoaded o.symbol timeframe c ∧ o.position.entryTime < c.timestamp := by
  unfold fed at hc
  split at hc
  · simp at hc
  · obtain ⟨hmem, hloaded, hentry, -⟩ := mem_candlesAfter.1 hc
    exact ⟨hmem, hloaded, hentry⟩

theorem chronological_fed (hu : UniqueKey Candle.key w.system.candles) :
    Chronological Candle.timestamp (fed w.system.candles timeframe o) := by
  unfold fed
  split
  · exact List.Pairwise.nil
  · exact chronological_candlesAfter hu

/-- A replay is fed every hit. -/
theorem Hits.subset_fed (h : Hits timeframe w o hits) (hc : c ∈ hits) :
    c ∈ fed w.system.candles timeframe o := by
  obtain ⟨hmem, hloaded, hentry⟩ := h.loaded c hc
  unfold fed
  split
  · rename_i hnone
    exact absurd hloaded (newestCandle_eq_none hnone c hmem)
  · rename_i latest hlatest
    exact mem_candlesAfter.2 ⟨hmem, hloaded, hentry, (newestCandle_spec hlatest).2.2 c hmem hloaded⟩

/-- The hits are the candles on which the position has emitted events. -/
theorem Hits.tookPart_iff (h : Hits timeframe w o hits)
    (hu : UniqueKey Candle.key w.system.candles) (hc : c ∈ fed w.system.candles timeframe o) :
    w.TookPart o c ↔ c ∈ hits := by
  constructor
  · rintro ⟨e, he, htime⟩
    rw [h.events] at he
    obtain ⟨l₁, d, l₂, p, rfl, -, hreact⟩ := exists_input_of_mem_feed _ he
    obtain ⟨hd, hdl, -⟩ := h.loaded d (by simp)
    obtain ⟨hcm, hcl, -⟩ := mem_fed hc
    have hsame : c.timestamp = d.timestamp :=
      htime.symm.trans (PaperPosition.eventOf_react hreact).exitTime
    rw [eq_of_timestamp hu hcm hd hcl hdl hsame]
    simp
  · intro hmem
    obtain ⟨l₁, l₂, rfl⟩ := List.append_of_mem hmem
    obtain ⟨p, hp, htouched⟩ := h.touched l₁ c l₂ rfl
    obtain ⟨e, he⟩ := List.exists_mem_of_ne_nil _ (PaperPosition.react_ne_nil htouched)
    refine ⟨e, ?_, (PaperPosition.eventOf_react he).exitTime⟩
    rw [h.events, feed_append, hp]
    simp [feed, he]

/-- Where a position stood is where its earlier hits had brought it. -/
theorem Hits.standing_eq (h : Hits timeframe w o hits)
    (hu : UniqueKey Candle.key w.system.candles) (c : Candle) : w.standing timeframe o c =
      (feed PaperPosition.react (some o.position)
        (hits.filter fun d => d.timestamp < c.timestamp)).2 := by
  have hsame : ((fed w.system.candles timeframe o).filter fun d =>
      d.timestamp < c.timestamp ∧ w.TookPart o d) =
        hits.filter fun d => d.timestamp < c.timestamp := by
    have hfed : Chronological Candle.timestamp (fed w.system.candles timeframe o) :=
      chronological_fed hu
    refine (hfed.sublist List.filter_sublist).eq_of_mem_iff
      (h.chronological.sublist List.filter_sublist) fun d => ?_
    simp only [List.mem_filter, decide_eq_true_eq]
    constructor
    · rintro ⟨hd, hlt, htook⟩
      exact ⟨(h.tookPart_iff hu hd).1 htook, hlt⟩
    · rintro ⟨hd, hlt⟩
      exact ⟨h.subset_fed hd, hlt, (h.tookPart_iff hu (h.subset_fed hd)).2 hd⟩
  rw [standing, hsame]

/-- **The events of a position are those of its replay** when no other candle would have touched it
where it stood. -/
theorem Hits.replay_eq (h : Hits timeframe w o hits) (hu : UniqueKey Candle.key w.system.candles)
    (hidle : ∀ c ∈ fed w.system.candles timeframe o, c ∉ hits →
      ∀ p ∈ (feed PaperPosition.react (some o.position)
        (hits.filter fun d => d.timestamp < c.timestamp)).2, ¬p.Touched c) :
    w.eventsOf o = replay (fed w.system.candles timeframe o) o.position := by
  rw [h.events, replay_eq_feed]
  refine congrArg Prod.fst (feed_chronological _ (chronological_fed hu) h.chronological
    (fun c hc => h.subset_fed hc) fun c hc hmem p hp => ?_).symm
  exact PaperPosition.react_of_not_touched (hidle c hc hmem p hp)

/-- What a run keeps about every position that was put into a book. -/
structure Tracked (timeframe : String) (w : Watched) : Prop where
  candles : UniqueKey Candle.key w.system.candles
  numbered : Numbered w.system.paperTrader
  not_paused : w.system.paperTrader.isPaused = false
  process : ∀ o ∈ w.openings, o.process = w.process
  events_le : ∀ x ∈ w.events, x.2.1 = .ai ∧
    ∃ k ≤ w.system.paperTrader.tradeCounter, x.2.2.tradeId = paperTradeId k
  openings_le : ∀ o ∈ w.openings, o.book = .ai →
    ∃ k ≤ w.system.paperTrader.tradeCounter, o.position.tradeId = paperTradeId k
  hits : ∀ o ∈ w.openings, ∃ hits, Hits timeframe w o hits

theorem Fresh.tracked (h : w.Fresh) (timeframe : String) : w.Tracked timeframe where
  candles := h.candles
  numbered := by
    constructor
    · rw [h.paperTrader]
      exact List.nodup_nil
    · simp [h.paperTrader]
  not_paused := h.not_paused
  process := by simp [h.openings]
  events_le := by simp [h.events]
  openings_le := by simp [h.openings]
  hits := by simp [h.openings]

/-- Hits stay what they are while the position stands still and no candle is lost. -/
theorem Hits.transfer {w' : Watched} (h : Hits timeframe w o hits)
    (hcandles : ∀ c ∈ w.system.candles, c ∈ w'.system.candles)
    (hevents : w'.eventsOf o = w.eventsOf o) (hheld : o.book = .ai → w'.held o = w.held o) :
    Hits timeframe w' o hits where
  chronological := h.chronological
  loaded := fun c hc =>
    ⟨hcandles c (h.loaded c hc).1, (h.loaded c hc).2.1, (h.loaded c hc).2.2⟩
  touched := h.touched
  events := hevents.trans h.events
  held := fun hbook => (hheld hbook).trans (h.held hbook)

/-- A position that has just been put into its book has no hits. -/
theorem Hits.of_new (hevents : w.eventsOf o = [])
    (hheld : o.book = .ai → w.held o = some o.position) : Hits timeframe w o [] where
  chronological := List.Pairwise.nil
  loaded := by simp
  touched := by simp
  events := by simp [hevents]
  held := by simpa using hheld

/-! ## A tick that shows a candle -/

/-- What a tick adds to the events of a position. -/
theorem Tracked.eventsOf_tick (h : w.Tracked timeframe) (hs : Shown w.system t c mid)
    (ho : o.process = w.process) : (w.step (.tick t)).eventsOf o = w.eventsOf o ++
      if o.book = .ai then ((w.held o).map fun p => (p.react c).1).getD [] else [] := by
  have hevents : (w.step (.tick t)).events =
      w.events ++ (w.system.ticked t).events.map fun e => (w.process, .ai, e) := by
    simp [step, PaperSystem.emitted]
  rw [eventsOf, hevents, List.filter_append, List.map_append]
  refine congrArg (w.eventsOf o ++ ·) ?_
  rw [List.filter_map, List.map_map]
  split
  · rename_i hbook
    have hheld : w.held o =
        lookup PaperPosition.tradeId o.position.tradeId w.system.paperTrader.positions := by
      rw [held, hbook]
      rfl
    rw [hheld, ← PaperTrader.reactions_filter h.numbered.unique, ← hs.events, List.filter_map]
    refine congrArg _ (List.filter_congr fun e _ => ?_)
    have hid : e.bare.tradeId = e.tradeId := rfl
    simp [ho, hbook, hid]
  · rename_i hbook
    rw [List.map_eq_nil_iff, List.filter_eq_nil_iff]
    intro e _
    have : Book.ai ≠ o.book := fun he => hbook he.symm
    simp [this]

/-- What a tick makes of a position that was in its book before. -/
theorem Tracked.held_tick (h : w.Tracked timeframe) (hs : Shown w.system t c mid)
    (ho : o ∈ w.openings) : (w.step (.tick t)).held o =
      if o.book = .ai then (w.held o).bind fun p => (p.react c).2 else w.held o := by
  cases hbook : o.book with
  | multiCoin => simp [held, hbook, PaperSystem.bookOf, step, PaperSystem.step]
  | ai =>
    have hheld : ∀ v : Watched, v.held o =
        lookup PaperPosition.tradeId o.position.tradeId v.system.paperTrader.positions := by
      intro v
      rw [held, hbook]
      rfl
    have hnew : lookup PaperPosition.tradeId o.position.tradeId (w.system.ticked t).opened =
        none := by
      refine lookup_eq_none_iff.2 fun p hp hid => ?_
      obtain ⟨k, hk, hko⟩ := h.openings_le o ho hbook
      obtain ⟨j, hj, -, hjp⟩ := hs.exists_counter hp
      have := paperTradeId_injective (hko.symm.trans (hid.symm.trans hjp))
      omega
    have hbooks : (w.step (.tick t)).system.paperTrader.positions =
        PaperTrader.after c w.system.paperTrader.positions ++ (w.system.ticked t).opened :=
      hs.positions
    rw [if_pos rfl, hheld, hheld, hbooks, ← PaperTrader.lookup_after h.numbered.unique]
    simp only [lookup, List.find?_append] at hnew ⊢
    rw [hnew, Option.or_none]

/-- A position that the candle does not touch stands still. -/
theorem Tracked.tick_idle (h : w.Tracked timeframe) (hs : Shown w.system t c mid)
    (ho : o ∈ w.openings) (hidle : o.book = .ai → ∀ p ∈ w.held o, ¬p.Touched c) :
    (w.step (.tick t)).eventsOf o = w.eventsOf o ∧ (w.step (.tick t)).held o = w.held o := by
  rw [h.eventsOf_tick hs (h.process o ho), h.held_tick hs ho]
  split
  · rename_i hbook
    cases hp : w.held o with
    | none => simp
    | some p => simp [PaperPosition.react_of_not_touched (hidle hbook p hp)]
  · simp

/-- The shown candle, when it touches a position on the symbol, is its next hit. -/
theorem Hits.concat (h : Hits t.timeframe w o hits) (hw : w.Tracked t.timeframe)
    (hs : Shown w.system t c mid) (ho : o ∈ w.openings) (hbook : o.book = .ai)
    (hc : newestCandle w.system.candles t.symbol t.timeframe = some c)
    (hsymbol : o.symbol = t.symbol) (hentry : o.position.entryTime < c.timestamp)
    {p : PaperPosition} (hp : w.held o = some p) (htouched : p.Touched c) :
    Hits t.timeframe (w.step (.tick t)) o (hits ++ [c]) := by
  obtain ⟨hcm, hcl, hlatest⟩ := newestCandle_spec hc
  rw [← hsymbol] at hcl hlatest
  have hfeed : (feed PaperPosition.react (some o.position) hits).2 = some p :=
    (h.held hbook).symm.trans hp
  have hle : ∀ d ∈ hits, d.timestamp ≤ c.timestamp := fun d hd =>
    hlatest d (h.loaded d hd).1 (h.loaded d hd).2.1
  have hnew : ∀ d ∈ hits, d.timestamp < c.timestamp := by
    -- the last hit would have left the position untouched by itself
    intro d hd
    refine lt_of_le_of_ne (hle d hd) fun heq => ?_
    obtain rfl := eq_of_timestamp hw.candles (h.loaded d hd).1 hcm (h.loaded d hd).2.1 hcl heq
    obtain ⟨l₁, l₂, rfl⟩ := List.append_of_mem hd
    have hl₂ : l₂ = [] := by
      refine List.eq_nil_iff_forall_not_mem.2 fun e he => ?_
      have hlt := (List.pairwise_cons.1 (List.pairwise_append.1 h.chronological).2.1).1 e he
      exact absurd (hle e (by simp [he])) (not_le_of_gt hlt)
    subst hl₂
    obtain ⟨q, hq, -⟩ := h.touched l₁ d [] rfl
    rw [feed_concat_some _ hq] at hfeed
    exact PaperPosition.not_touched_of_react hfeed htouched
  refine ⟨?_, ?_, ?_, ?_, fun _ => ?_⟩
  · refine List.pairwise_append.2 ⟨h.chronological, List.pairwise_singleton _ _, ?_⟩
    simpa using hnew
  · intro d hd
    rcases List.mem_append.1 hd with hd | hd
    · exact h.loaded d hd
    · obtain rfl := List.mem_singleton.1 hd
      exact ⟨hcm, hcl, hentry⟩
  · intro l₁ d l₂ hl
    rcases List.eq_nil_or_concat l₂ with rfl | ⟨l₂, e, rfl⟩
    · obtain ⟨rfl, rfl⟩ : hits = l₁ ∧ c = d := by simpa using List.append_inj' hl rfl
      exact ⟨p, hfeed, htouched⟩
    · have hl' : hits ++ [c] = (l₁ ++ d :: l₂) ++ [e] := by simpa using hl
      exact h.touched l₁ d l₂ (List.append_inj' hl' rfl).1
  · rw [hw.eventsOf_tick hs (hw.process o ho), if_pos hbook, hp, h.events,
      feed_concat_some _ hfeed]
    rfl
  · rw [hw.held_tick hs ho, if_pos hbook, hp, feed_concat_some _ hfeed]
    rfl

/-- **What a tick that shows a candle does to the hits of a position**: nothing, if the candle
does not touch it where it stands; otherwise it is a position of the AI book on the symbol, and
the candle is its next hit. -/
theorem Hits.tick (h : Hits t.timeframe w o hits) (hw : w.Tracked t.timeframe)
    (hs : Shown w.system t c mid) (ho : o ∈ w.openings)
    (hc : shownCandle w.system.candles t.symbol t.timeframe = some c)
    (hcond : w.Shows t.timeframe t) :
    (o.book = .ai → ∀ p ∈ w.held o, ¬p.Touched c) ∧
        Hits t.timeframe (w.step (.tick t)) o hits ∨
      o.book = .ai ∧ o.symbol = t.symbol ∧
        Hits t.timeframe (w.step (.tick t)) o (hits ++ [c]) := by
  by_cases htouched : o.book = .ai ∧ ∃ p, w.held o = some p ∧ p.Touched c
  · obtain ⟨hbook, p, hp, htouched⟩ := htouched
    have hplace : ¬(o.symbol ≠ t.symbol ∨ c.timestamp ≤ o.position.entryTime) := fun hplace =>
      hcond.misplaced c hc o ho hbook hplace p hp htouched
    push Not at hplace
    exact .inr ⟨hbook, hplace.1, h.concat hw hs ho hbook (newestCandle_of_shown hc) hplace.1
      hplace.2 hp htouched⟩
  · have hidle : o.book = .ai → ∀ p ∈ w.held o, ¬p.Touched c := fun hbook p hp ht =>
      htouched ⟨hbook, p, hp, ht⟩
    obtain ⟨hevents, hheld⟩ := hw.tick_idle hs ho hidle
    exact .inl ⟨hidle, h.transfer (fun _ hd => hd) hevents fun _ => hheld⟩

/-- A position that a tick opens has emitted nothing, and is in the book as it was opened. -/
theorem Tracked.hits_of_opened (h : w.Tracked t.timeframe) (hs : Shown w.system t c mid)
    {p : PaperPosition} (hp : p ∈ (w.system.ticked t).opened) (ho : o.position = p)
    (hbook : o.book = .ai) : Hits t.timeframe (w.step (.tick t)) o [] := by
  obtain ⟨k, hk, -, hid⟩ := hs.exists_counter hp
  have hold : ∀ e : PaperEvent, (∃ j ≤ w.system.paperTrader.tradeCounter,
      e.tradeId = paperTradeId j) → e.tradeId ≠ o.position.tradeId := by
    rintro e ⟨j, hj, hej⟩ heq
    have := paperTradeId_injective (hej.symm.trans (heq.trans ((congrArg _ ho).trans hid)))
    omega
  refine Hits.of_new ?_ fun _ => ?_
  · rw [eventsOf, List.map_eq_nil_iff, List.filter_eq_nil_iff]
    rintro ⟨process, book, e⟩ he hsame
    simp only [decide_eq_true_eq] at hsame
    refine hold e ?_ hsame.2.2
    simp only [step, PaperSystem.emitted, List.map_map, List.mem_append, List.mem_map,
      Function.comp_apply, Prod.mk.injEq] at he
    rcases he with he | ⟨e', he', -, -, rfl⟩
    · exact (h.events_le _ he).2
    · obtain ⟨q, hq, -, -, hqe⟩ := hs.position_of_event he'
      rw [hqe]
      exact h.numbered.le_counter q hq
  · have hmem : p ∈ (w.step (.tick t)).system.paperTrader.positions := by
      change p ∈ (w.system.ticked t).paperTrader.positions
      rw [hs.positions]
      exact List.mem_append_right _ hp
    have hu := (hs.numbered h.numbered).unique
    rw [held, hbook, ho]
    exact (lookup_eq_some_iff hu).2 ⟨hmem, rfl⟩

/-- Entered on the newest candle, a position has no candle to be fed. -/
theorem fed_of_newest (hc : newestCandle w.system.candles o.symbol timeframe = some c)
    (ho : o.position.entryTime = c.timestamp) : fed w.system.candles timeframe o = [] := by
  refine List.eq_nil_iff_forall_not_mem.2 fun d hd => ?_
  obtain ⟨hdm, hdl, hentry⟩ := mem_fed hd
  have hle := (newestCandle_spec hc).2.2 d hdm hdl
  rw [ho] at hentry
  exact absurd hle (not_le_of_gt hentry)

/-- The openings after a tick. -/
theorem mem_openings_tick : o ∈ (w.step (.tick t)).openings ↔
    o ∈ w.openings ∨ ∃ p ∈ (w.system.ticked t).opened,
      opening w.process w.system.tables (w.step (.tick t)).system.tables (.ai, t.symbol, p) = o := by
  simp [step, PaperSystem.opened]

/-! ## Steps -/

theorem tick_of_none (hc : shownCandle w.system.candles t.symbol t.timeframe = none) :
    w.step (.tick t) = w := by
  have hticked := ticked_of_none hc
  simp [step, PaperSystem.step, PaperSystem.opened, PaperSystem.emitted, hticked]

theorem Tracked.tick (h : w.Tracked t.timeframe) (hcond : w.Shows t.timeframe t) :
    (w.step (.tick t)).Tracked t.timeframe := by
  cases hc : shownCandle w.system.candles t.symbol t.timeframe with
  | none => rwa [tick_of_none hc]
  | some c =>
    obtain ⟨mid, hs⟩ := ticked_shown h.numbered h.not_paused hc
    have hcounter : w.system.paperTrader.tradeCounter ≤
        (w.step (.tick t)).system.paperTrader.tradeCounter := by
      change _ ≤ (w.system.ticked t).paperTrader.tradeCounter
      rw [hs.tradeCounter]
      omega
    refine ⟨h.candles, hs.numbered h.numbered, hs.isPaused, ?_, ?_, ?_, ?_⟩
    · intro o ho
      rcases mem_openings_tick.1 ho with ho | ⟨p, -, rfl⟩
      · exact h.process o ho
      · rfl
    · intro x hx
      simp only [step, PaperSystem.emitted, List.map_map, List.mem_append, List.mem_map,
        Function.comp_apply] at hx
      rcases hx with hx | ⟨e, he, rfl⟩
      · obtain ⟨hbook, k, hk, hid⟩ := h.events_le x hx
        exact ⟨hbook, k, hk.trans hcounter, hid⟩
      · obtain ⟨p, hp, -, -, hid⟩ := hs.position_of_event he
        obtain ⟨k, hk, hpk⟩ := h.numbered.le_counter p hp
        exact ⟨rfl, k, hk.trans hcounter, hid.trans hpk⟩
    · intro o ho hbook
      rcases mem_openings_tick.1 ho with ho | ⟨p, hp, rfl⟩
      · obtain ⟨k, hk, hid⟩ := h.openings_le o ho hbook
        exact ⟨k, hk.trans hcounter, hid⟩
      · obtain ⟨k, -, hk, hid⟩ := hs.exists_counter hp
        exact ⟨k, hk, hid⟩
    · intro o ho
      rcases mem_openings_tick.1 ho with ho | ⟨p, hp, rfl⟩
      · obtain ⟨hits, hhits⟩ := h.hits o ho
        rcases hhits.tick h hs ho hc hcond with ⟨-, h'⟩ | ⟨-, -, h'⟩ <;> exact ⟨_, h'⟩
      · exact ⟨[], h.hits_of_opened hs hp rfl rfl⟩

theorem Tracked.store (h : w.Tracked timeframe) (candles : List Candle) (signals : List Signal) :
    (w.step (.store candles signals)).Tracked timeframe := by
  have hopenings : (w.step (.store candles signals)).openings = w.openings := by
    simp [step, PaperSystem.opened]
  have hevents : (w.step (.store candles signals)).events = w.events := by
    simp [step, PaperSystem.emitted]
  refine ⟨h.candles.insertAllNew, h.numbered, h.not_paused, ?_, ?_, ?_, ?_⟩
  · rw [hopenings]
    exact h.process
  · rw [hevents]
    exact h.events_le
  · rw [hopenings]
    exact h.openings_le
  · rw [hopenings]
    intro o ho
    obtain ⟨hits, hhits⟩ := h.hits o ho
    refine ⟨hits, hhits.transfer (fun c hc => ?_) ?_ fun _ => rfl⟩
    · exact mem_insertAllNew_of_mem hc
    · rw [eventsOf, eventsOf, hevents]

theorem Tracked.execute (h : w.Tracked timeframe) (call : ExecuteCall) :
    (w.step (.execute call)).Tracked timeframe := by
  have htrader : (w.step (.execute call)).system.paperTrader = w.system.paperTrader := rfl
  have hevents : (w.step (.execute call)).events = w.events := by
    simp [step, PaperSystem.emitted]
  have hevents' : ∀ o, (w.step (.execute call)).eventsOf o = w.eventsOf o := by
    simp [eventsOf, hevents]
  have hnew : ∀ o ∈ (w.step (.execute call)).openings,
      o ∈ w.openings ∨ o.process = w.process ∧ o.book = .multiCoin := by
    intro o ho
    rcases List.mem_append.1 ho with ho | ho
    · exact .inl ho
    · obtain ⟨x, hx, rfl⟩ := List.mem_map.1 ho
      simp only [PaperSystem.opened] at hx
      split at hx
      · obtain rfl := List.mem_singleton.1 hx
        exact .inr ⟨rfl, rfl⟩
      · simp at hx
  refine ⟨h.candles, h.numbered, h.not_paused, ?_, ?_, ?_, ?_⟩
  · intro o ho
    exact (hnew o ho).elim (h.process o) fun hnew => hnew.1
  · rw [hevents]
    exact h.events_le
  · intro o ho hbook
    rcases hnew o ho with ho | ⟨-, hmulti⟩
    · exact h.openings_le o ho hbook
    · rw [hbook] at hmulti
      cases hmulti
  · intro o ho
    rcases hnew o ho with ho | ⟨-, hmulti⟩
    · obtain ⟨hits, hhits⟩ := h.hits o ho
      refine ⟨hits, hhits.transfer (fun _ hc => hc) (hevents' o) fun hbook => ?_⟩
      rw [held, held, hbook]
      rfl
    · refine ⟨[], Hits.of_new ?_ fun hbook => ?_⟩
      · rw [hevents', eventsOf, List.map_eq_nil_iff, List.filter_eq_nil_iff]
        intro x hx
        simp [(h.events_le x hx).1, hmulti]
      · rw [hbook] at hmulti
        cases hmulti

/-- A newest candle that is no hit has come after every hit. -/
theorem Hits.filter_before (h : Hits timeframe w o hits)
    (hu : UniqueKey Candle.key w.system.candles) (hc : c ∈ w.system.candles)
    (hloaded : IsLoaded o.symbol timeframe c)
    (hlatest : ∀ d ∈ w.system.candles, IsLoaded o.symbol timeframe d → d.timestamp ≤ c.timestamp)
    (hnot : c ∉ hits) : (hits.filter fun d => d.timestamp < c.timestamp) = hits := by
  refine List.filter_eq_self.2 fun d hd => decide_eq_true ?_
  obtain ⟨hdm, hdl, -⟩ := h.loaded d hd
  refine lt_of_le_of_ne (hlatest d hdm hdl) fun heq => hnot ?_
  rwa [← eq_of_timestamp hu hdm hc hdl hloaded heq]

/-- A candle that is not shown does not touch what the hits before it have left. -/
theorem Shows.untouched (hcond : w.Shows timeframe t)
    (hu : UniqueKey Candle.key w.system.candles) (ho : o ∈ w.openings)
    (hsymbol : o.symbol = t.symbol) (hhits : Hits timeframe w o hits)
    (hc : c ∈ fed w.system.candles timeframe o) (hnot : c ∉ hits)
    (hshown : ¬(o.book = .ai ∧ shownCandle w.system.candles t.symbol timeframe = some c)) :
    ∀ p ∈ (feed PaperPosition.react (some o.position)
      (hits.filter fun d => d.timestamp < c.timestamp)).2, ¬p.Touched c := by
  rw [← hhits.standing_eq hu]
  exact hcond.skipped o ho hsymbol c hc (fun htook => hnot ((hhits.tookPart_iff hu hc).1 htook))
    hshown

/-- An opening that the tick finds. -/
theorem Tracked.replayed_found (h : w.Tracked t.timeframe) (hcond : w.Shows t.timeframe t)
    (hs : Shown w.system t c mid)
    (hc : shownCandle w.system.candles t.symbol t.timeframe = some c) (ho : o ∈ w.openings)
    (hsymbol : o.symbol = t.symbol) :
    (w.step (.tick t)).eventsOf o = replay (fed w.system.candles t.timeframe o) o.position := by
  obtain ⟨hcm, hcl, hlatest⟩ := newestCandle_spec (newestCandle_of_shown hc)
  rw [← hsymbol] at hcl hlatest
  obtain ⟨hits, hhits⟩ := h.hits o ho
  have huntouched : ∀ d ∈ fed w.system.candles t.timeframe o, d ∉ hits →
      ¬(o.book = .ai ∧ c = d) → ∀ p ∈ (feed PaperPosition.react (some o.position)
        (hits.filter fun e => e.timestamp < d.timestamp)).2, ¬p.Touched d := by
    intro d hd hnot hshown
    exact hcond.untouched h.candles ho hsymbol hhits hd hnot (by rwa [hc, Option.some.injEq])
  rcases hhits.tick h hs ho hc hcond with ⟨hidle, hhits'⟩ | ⟨-, -, hhits'⟩
  · refine hhits'.replay_eq h.candles fun d hd hnot => ?_
    by_cases hshown : o.book = .ai ∧ c = d
    · -- the shown candle came after every hit, and did not touch what they had left
      obtain ⟨hbook, rfl⟩ := hshown
      rw [hhits.filter_before h.candles hcm hcl hlatest hnot, ← hhits.held hbook]
      exact hidle hbook
    · exact huntouched d hd hnot hshown
  · refine hhits'.replay_eq h.candles fun d hd hnot => ?_
    simp only [List.mem_append, List.mem_singleton, not_or] at hnot
    have hlater : ¬c.timestamp < d.timestamp := by
      obtain ⟨hdm, hdl, -⟩ := mem_fed hd
      exact not_lt_of_ge (hlatest d hdm hdl)
    rw [List.filter_append, List.filter_cons_of_neg (by simpa using hlater), List.filter_nil,
      List.append_nil]
    exact huntouched d hd hnot.1 fun hshown => hnot.2 hshown.2.symm

/-- What the tick opens was entered on the newest candle. -/
theorem Tracked.replayed_opened (h : w.Tracked t.timeframe) (hs : Shown w.system t c mid)
    (hc : shownCandle w.system.candles t.symbol t.timeframe = some c) {p : PaperPosition}
    (hp : p ∈ (w.system.ticked t).opened) (hposition : o.position = p) (hbook : o.book = .ai)
    (hsymbol : o.symbol = t.symbol) :
    (w.step (.tick t)).eventsOf o = replay (fed w.system.candles t.timeframe o) o.position := by
  have hentry : o.position.entryTime = c.timestamp := by
    rw [hposition]
    exact hs.entryTime p hp
  have hnewest := newestCandle_of_shown hc
  rw [← hsymbol] at hnewest
  have hsame : fed (w.step (.tick t)).system.candles t.timeframe o =
      fed w.system.candles t.timeframe o := rfl
  rw [← hsame]
  refine (h.hits_of_opened hs hp hposition hbook).replay_eq h.candles fun d hd => ?_
  rw [hsame, fed_of_newest hnewest hentry] at hd
  simp at hd

/-- **A tick that shows what touches follows the replay.** -/
theorem Tracked.replayed (h : w.Tracked t.timeframe) (hcond : w.Shows t.timeframe t) :
    w.Replayed t.timeframe t := by
  cases hc : shownCandle w.system.candles t.symbol t.timeframe with
  | none =>
    refine ⟨fun o ho hsymbol => ?_, fun o ho _ => ?_⟩
    · rw [tick_of_none hc] at ho ⊢
      obtain ⟨hits, hhits⟩ := h.hits o ho
      exact hhits.replay_eq h.candles fun d hd hnot =>
        hcond.untouched h.candles ho hsymbol hhits hd hnot (by simp [hc])
    · rw [tick_of_none hc]
      exact ⟨rfl, rfl⟩
  | some c =>
    obtain ⟨mid, hs⟩ := ticked_shown h.numbered h.not_paused hc
    refine ⟨fun o ho hsymbol => ?_, fun o ho hsymbol => ?_⟩
    · rcases mem_openings_tick.1 ho with ho | ⟨p, hp, ho⟩
      · exact h.replayed_found hcond hs hc ho hsymbol
      · exact h.replayed_opened hs hc hp (by rw [← ho]; rfl) (by rw [← ho]; rfl) hsymbol
    · exact h.tick_idle hs ho fun hbook p hp =>
        hcond.misplaced c hc o ho hbook (.inl hsymbol) p hp

/-- **Position management equals the candle-by-candle replay**, in every run of ticks on one
timeframe each of which shows to the books what touches their positions, and nothing that touches
another. -/
theorem tick_replays (w : Watched) (ops : List Op) (timeframe : String) (hw : w.Fresh)
    (htimeframe : ∀ t, Op.tick t ∈ ops → t.timeframe = timeframe)
    (hcond : Guarded step (ShowsWhatTouches timeframe) w ops) :
    Guarded step (FollowsReplay timeframe) w ops := by
  have hall : ∀ op ∈ ops, ∀ t, op = .tick t → t.timeframe = timeframe := by
    rintro op hop t rfl
    exact htimeframe t hop
  refine Guarded.of_invariant (I := (Tracked timeframe ·)) ?_ ?_ (hw.tracked timeframe)
    (hcond.and_forall hall)
  · rintro w (_ | t | call) h ⟨hcond, htf⟩
    · exact h.store _ _
    · obtain rfl := htf t rfl
      exact h.tick hcond
    · exact h.execute call
  · rintro w (_ | t | call) h ⟨hcond, htf⟩
    · trivial
    · obtain rfl := htf t rfl
      exact h.replayed hcond
    · trivial

/-! ## Sample runs -/

instance (timeframe : String) (w : Watched) (t : Tick) : Decidable (w.Shows timeframe t) :=
  decidable_of_iff
    ((∀ o ∈ w.openings, o.symbol = t.symbol → ∀ c ∈ fed w.system.candles timeframe o,
      ¬w.TookPart o c →
        ¬(o.book = .ai ∧ shownCandle w.system.candles t.symbol timeframe = some c) →
          ∀ p ∈ w.standing timeframe o c, ¬p.Touched c) ∧
    ∀ c ∈ shownCandle w.system.candles t.symbol timeframe, ∀ o ∈ w.openings, o.book = .ai →
      o.symbol ≠ t.symbol ∨ c.timestamp ≤ o.position.entryTime →
        ∀ p ∈ w.held o, ¬p.Touched c)
    ⟨fun h => ⟨h.1, h.2⟩, fun h => ⟨h.skipped, h.misplaced⟩⟩

instance (timeframe : String) (w : Watched) :
    ∀ op, Decidable (w.ShowsWhatTouches timeframe op)
  | .tick t => inferInstanceAs (Decidable (w.Shows timeframe t))
  | .store _ _ | .execute _ => inferInstanceAs (Decidable True)

/-- A trade of the AI book and one of the multi-coin book, and a tick on the symbol of each. -/
def shownRun : List Op :=
  [.store (quietCandles ++ quietCandles "ETH/USDT") [sampleSignal "S1" 59], .tick sampleTick,
    .execute { PaperSystem.sampleCall with utcnow := 59 },
    .store [sampleCandle 60 111 99, sampleCandle 60 101 99 "ETH/USDT"] [], .tick sampleTick,
    .tick (sampleTick "ETH/USDT")]

theorem tick_replays_shownRun : Guarded step (FollowsReplay "4h") sampleStart shownRun ∧
    (run step sampleStart shownRun).openings.map
      (fun o => (o.symbol, ((run step sampleStart shownRun).eventsOf o).length)) =
        [("BTC/USDT", 1), ("ETH/USDT", 0)] := by
  refine ⟨tick_replays sampleStart shownRun "4h" sampleStart_fresh ?_ (by decide +kernel),
    by decide +kernel⟩
  intro t ht
  simp only [shownRun, List.mem_cons, List.not_mem_nil, reduceCtorEq, Op.tick.injEq, false_or,
    or_false] at ht
  rcases ht with rfl | rfl | rfl <;> rfl

/-- A long position on BTC, and a missed candle that reaches its stop. -/
def skippedRun : List Op :=
  [.store quietCandles [sampleSignal "S1" 59], .tick sampleTick,
    .store [sampleCandle 60 101 89, sampleCandle 61 101 99] [], .tick sampleTick]

/-- A long position on BTC, and a candle of ETH below its stop. -/
def foreignRun : List Op :=
  [.store quietCandles [sampleSignal "S1" 59], .tick sampleTick,
    .store (quietCandles "ETH/USDT" ++ [sampleCandle 60 30 20 "ETH/USDT"]) [],
    .tick (sampleTick "ETH/USDT")]

/-- The stop in the missed candle is never executed, and a candle of ETH closes the position on
BTC. -/
theorem ticks_miss_and_misplace : sampleStart.Fresh ∧
    ¬Guarded step (FollowsReplay "4h") sampleStart skippedRun ∧
      ¬Guarded step (FollowsReplay "4h") sampleStart foreignRun := by
  refine ⟨sampleStart_fresh, fun h => ?_, fun h => ?_⟩
  · have hlast : ∀ o ∈ (run step sampleStart skippedRun).openings, _ → _ = _ := h.2.2.2.1.own
    exact absurd hlast (by decide +kernel)
  · have hlast : ∀ o ∈ (run step sampleStart (foreignRun.take 3)).openings, _ → _ ∧ _ :=
      h.2.2.2.1.foreign
    exact absurd hlast (by decide +kernel)

end Watched

end AlphaOne.Paper

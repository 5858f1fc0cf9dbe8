import AlphaOne.Paper.Equity
import AlphaOne.Paper.Ownership
import AlphaOne.Paper.Tracking
import AlphaOne.Risk.History

/-!
# Running the paper-trading job again

The job runs many times on one candle: a tick shows the newest candle to the book and then opens
positions for the signals of that candle. A candle that is shown again finds the position it
has opened, whose levels it may have reached before the entry; the position is closed by its own
entry candle, and its signal is opened anew.

`RerunSafe` says that no signal has opened two positions and that every event comes from a candle
later than the entry. `rerun_safe` is the law that holds: it is so in every run whose ticks
touch only positions entered before the candle they show (`ManagesLater`) and find the positions
of the candle's signals still in the book (`HoldsItsSignals`). On one symbol and timeframe the
second follows from the first, which is then also necessary.
-/

namespace AlphaOne.Paper

open Foundations Journal Risk Scheduler TelegramSignals

/-! ## The one place in the AI book -/

/-- A trader with a cap of one position, whose engine counts the positions of the book. -/
structure Counted (t : PaperTrader) : Prop where
  open_ : t.riskEngine.state.positionsOpen = t.positions.length
  cap : t.riskEngine.config.maxPositions = 1

namespace PaperTrader

variable {candle : Candle} {clock : String → Datetime} {now : Datetime} {t : PaperTrader}
  {pos : PaperPosition} {pre post book : List PaperPosition} {signal : Signal}

/-- Treating a position reports to the engine when the position is closed, and only then. -/
structure Reports (t : PaperTrader) (left : Option PaperPosition) (t' : PaperTrader) : Prop where
  open_ : left ≠ none → t'.riskEngine = t.riskEngine
  closed : left = none → ∃ pnlPct now, t'.riskEngine =
    (t.riskEngine.recordTradeResult pnlPct now).recordPositionClose

theorem takeProfits_reports {targets : List ℚ} :
    Reports t (pos.reactTargets candle targets).2 (t.takeProfits candle now targets pos).2 := by
  induction targets generalizing t pos with
  | nil => exact ⟨fun _ => rfl, fun h => by simp [PaperPosition.reactTargets] at h⟩
  | cons target rest ih =>
    unfold takeProfits PaperPosition.reactTargets
    split
    · exact ⟨fun _ => rfl, fun h => by simp at h⟩
    · split
      · exact ⟨fun h => absurd rfl h, fun _ => ⟨_, _, rfl⟩⟩
      · obtain ⟨hopen, hclosed⟩ := @ih ((t.partialExit pos target candle.timestamp
          pos.nextTargetIdx).2.2.put (pos.afterSlice target)) (pos.afterSlice target)
        exact ⟨hopen, hclosed⟩

variable (candle now) in
theorem processPosition_reports (t : PaperTrader) (pos : PaperPosition) :
    Reports t (pos.react candle).2 (t.processPosition candle now pos).2 := by
  unfold processPosition PaperPosition.react
  split
  · exact ⟨fun h => absurd rfl h, fun _ => ⟨_, _, rfl⟩⟩
  · exact takeProfits_reports

variable (candle now) in
theorem processPosition_counted (h : Counted t)
    (hu : UniqueKey PaperPosition.tradeId t.positions) (hpos : t.positions = pre ++ pos :: post) :
    Counted (t.processPosition candle now pos).2 := by
  have hbook := (processPosition_reacted candle now hu hpos).positions
  have hreports := processPosition_reports candle now t pos
  have hopen := h.open_
  rw [hpos] at hopen
  cases hr : (pos.react candle).2 with
  | some left =>
    have hrisk := hreports.open_ (by simp [hr])
    rw [hr] at hbook
    refine ⟨?_, hrisk ▸ h.cap⟩
    rw [hrisk, hopen, hbook]
    simp
  | none =>
    obtain ⟨pnlPct, time, hrisk⟩ := hreports.closed hr
    rw [hr] at hbook
    constructor
    · rw [hrisk, RiskEngine.recordPositionClose_positionsOpen,
        RiskEngine.recordTradeResult_positionsOpen, hopen, hbook]
      simp only [List.length_append, List.length_cons, Option.toList_none, List.length_nil]
      omega
    · rw [hrisk]
      exact (congrArg RiskConfig.maxPositions
        (RiskEngine.recordTradeResult_config _ _ _)).trans h.cap

theorem processPositions_counted {done : List PaperPosition} (h : Counted t)
    (hu : UniqueKey PaperPosition.tradeId t.positions) (hbook : t.positions = done ++ book) :
    Counted (processPositions candle clock book t).2 := by
  induction book generalizing t done with
  | nil => exact h
  | cons pos rest ih =>
    exact ih (processPosition_counted candle (clock pos.tradeId) h hu hbook)
      (processPosition_uniqueKey candle (clock pos.tradeId) hu hbook)
      (processPosition_reacted candle (clock pos.tradeId) hu hbook).positions

variable (candle clock) in
/-- A candle keeps the count. -/
theorem processCandle_counted (h : Counted t)
    (hu : UniqueKey PaperPosition.tradeId t.positions) :
    Counted (t.processCandle candle clock).2 := by
  unfold processCandle
  split
  · exact h
  · exact processPositions_counted h hu (List.nil_append _).symm

/-- The gate of a trade that is allowed: there is room for a position. -/
theorem canTrade_room {e : RiskEngine} (h : (e.canTrade now).1 = .ok ()) :
    e.state.positionsOpen < e.config.maxPositions := by
  simp only [RiskEngine.canTrade, RiskEngine.resetDaily_positionsOpen,
    RiskEngine.resetDaily_config] at h
  split_ifs at h with hkill hloss htrades hfull
  exact not_le.1 hfull

variable (signal now) in
/-- A position is opened only in an empty book, and counted. -/
theorem openPosition_counted (h : Counted t) :
    Counted (t.openPosition signal now).2 ∧
      ∀ p, (t.openPosition signal now).1 = some p → t.positions = [] ∧
        p.signalId = signal.signalId ∧ p.entryTime = signal.timestamp := by
  have hcan : Counted { t with riskEngine := (t.riskEngine.canTrade now).2 } :=
    ⟨(RiskEngine.canTrade_positionsOpen _ _).trans h.open_,
      (congrArg RiskConfig.maxPositions (RiskEngine.canTrade_config _ _)).trans h.cap⟩
  unfold openPosition
  split
  · exact ⟨h, by simp⟩
  · dsimp only
    split
    · exact ⟨hcan, by simp⟩
    · rename_i hok
      have hroom := canTrade_room hok
      rw [h.open_, h.cap] at hroom
      have hempty : t.positions = [] := List.length_eq_zero_iff.1 (by omega)
      split
      · exact ⟨hcan, by simp⟩
      · refine ⟨⟨?_, hcan.cap⟩, ?_⟩
        · simp [h.open_, hempty, upsert]
        · rintro _ ⟨⟩
          exact ⟨hempty, rfl, rfl⟩

end PaperTrader

section Job

variable {tick : Tick} {signals : List Signal} {db : Tables} {trader : PaperTrader}

/-- **What the loop over the signals opens**: one position at most, for one of the signals, and
only in an empty book. -/
structure OpensOne (signals : List Signal) (trader : PaperTrader) (r : Ticked) : Prop where
  counted : Counted r.paperTrader
  empty : r.opened ≠ [] → trader.positions = []
  one : r.opened.length ≤ 1
  signal : ∀ p ∈ r.opened, ∃ s ∈ signals, p.signalId = s.signalId ∧ p.entryTime = s.timestamp

theorem OpensOne.of_nothing {r : Ticked} (hopened : r.opened = [])
    (hcounted : Counted r.paperTrader) : OpensOne signals trader r :=
  ⟨hcounted, by simp [hopened], by simp [hopened], by simp [hopened]⟩

variable (tick db) in
theorem openPositions_one (h : Counted trader) :
    OpensOne signals trader (openPositions tick signals db trader) := by
  induction signals generalizing db trader with
  | nil => exact .of_nothing rfl h
  | cons signal rest ih =>
    unfold openPositions
    split
    · exact .of_nothing rfl h
    · obtain ⟨hcounted, hsome⟩ := PaperTrader.openPosition_counted (tick.now signal)
        signal h
      cases ho : trader.openPosition signal (tick.now signal) with
      | mk o t' =>
      rw [ho] at hcounted hsome
      cases o with
      | none =>
        have hrest := ih db hcounted
        have hsame := (openPosition_skip ho).1
        refine ⟨hrest.counted, fun hne => hsame ▸ hrest.empty hne, hrest.one, fun p hp => ?_⟩
        obtain ⟨s, hs, hsignal⟩ := hrest.signal p hp
        exact ⟨s, List.mem_cons_of_mem _ hs, hsignal⟩
      | some position =>
        obtain ⟨hempty, hsignal⟩ := hsome position rfl
        dsimp only
        split
        · exact ⟨hcounted, fun _ => hempty, by simp, by simpa using Or.inl hsignal⟩
        · rename_i db' hp
          have hrest := ih db' hcounted
          have hbook : t'.positions ≠ [] := by
            have hopened : PaperTrader.Opened signal trader position
                (trader.openPosition signal (tick.now signal)).2 :=
              PaperTrader.openPosition_some (by rw [ho])
            rw [ho] at hopened
            rw [hopened.positions, hempty]
            simp [upsert]
          have hnone : (openPositions tick rest db' t').opened = [] := by
            by_contra hne
            exact hbook (hrest.empty hne)
          refine ⟨hrest.counted, fun _ => hempty, by simp [hnone], ?_⟩
          intro p hmem
          rw [hnone, List.mem_singleton] at hmem
          exact ⟨signal, by simp, hmem ▸ hsignal⟩

variable (signals db) in
/-- A tick that shows a candle opens one position at most, for a signal of the candle, and only
when the candle leaves the book empty. -/
theorem aiPaperTradingJob_one {candles : List Candle} {c : Candle} (h : Counted trader)
    (hn : Numbered trader)
    (hc : shownCandle candles tick.symbol tick.timeframe = some c) :
    OpensOne (signalsOf signals tick.symbol tick.timeframe c.timestamp)
      (trader.processCandle c tick.clock).2
      (aiPaperTradingJob tick candles signals db trader) := by
  have hshown := PaperTrader.processCandle_counted c tick.clock h hn.unique
  simp only [aiPaperTradingJob, hc]
  cases persistPaperEvents tick.commitsEvent (trader.processCandle c tick.clock).1 db with
  | mk result db' =>
  cases result with
  | error e => exact .of_nothing rfl hshown
  | ok u =>
    dsimp only
    split
    · exact .of_nothing rfl hshown
    · obtain ⟨hcounted, hempty, hone, hsignal⟩ := openPositions_one tick db' hshown
      exact ⟨hcounted, hempty, hone, hsignal⟩

end Job

/-! ## The past of the AI book -/

/-- The signal a position was opened for, by its id and the time of its candle. -/
def Opening.signalKey (o : Opening) : String × Datetime :=
  (o.position.signalId, o.position.entryTime)

namespace Watched

/-- The openings of the AI book. -/
def aiOpenings (w : Watched) : List Opening := w.openings.filter (·.book = .ai)

/-- No signal has opened two positions of the AI book, and every event of a position comes from a
candle later than its entry. -/
structure RerunSafe (w : Watched) : Prop where
  once : UniqueKey Opening.signalKey w.aiOpenings
  later : ∀ o ∈ w.aiOpenings, ∀ e ∈ w.eventsOf o, o.position.entryTime < e.exitTime

instance (w : Watched) : Decidable w.RerunSafe :=
  have : Decidable (UniqueKey Opening.signalKey w.aiOpenings) :=
    inferInstanceAs (Decidable (List.Nodup _))
  decidable_of_iff (UniqueKey Opening.signalKey w.aiOpenings ∧
      ∀ o ∈ w.aiOpenings, ∀ e ∈ w.eventsOf o, o.position.entryTime < e.exitTime)
    ⟨fun h => ⟨h.1, h.2⟩, fun h => ⟨h.once, h.later⟩⟩

/-- The candle of a tick reaches levels of positions only that were entered before it. -/
def ManagesLater (w : Watched) : Op → Prop
  | .tick t => ∀ c ∈ shownCandle w.system.candles t.symbol t.timeframe,
      ∀ p ∈ w.system.paperTrader.positions, p.Touched c → p.entryTime < c.timestamp
  | .store _ _ | .execute _ => True

/-- A tick finds the positions that the signals of its candle have opened in the book. -/
def HoldsItsSignals (w : Watched) : Op → Prop
  | .tick t => ∀ c ∈ shownCandle w.system.candles t.symbol t.timeframe,
      ∀ s ∈ signalsOf w.system.signals t.symbol t.timeframe c.timestamp,
        ∀ o ∈ w.aiOpenings, o.signalKey = (s.signalId, s.timestamp) →
          ∃ p ∈ w.system.paperTrader.positions, p.tradeId = o.position.tradeId
  | .store _ _ | .execute _ => True

instance (w : Watched) : ∀ op, Decidable (w.ManagesLater op)
  | .tick _ => inferInstanceAs (Decidable (∀ c ∈ _, ∀ p ∈ _, _ → _))
  | .store _ _ => inferInstanceAs (Decidable True)
  | .execute _ => inferInstanceAs (Decidable True)

instance (w : Watched) : ∀ op, Decidable (w.HoldsItsSignals op)
  | .tick _ => inferInstanceAs (Decidable (∀ c ∈ _, ∀ s ∈ _, ∀ o ∈ _, _ → ∃ p ∈ _, _))
  | .store _ _ => inferInstanceAs (Decidable True)
  | .execute _ => inferInstanceAs (Decidable True)

/-- The invariant of a run without restarts: besides the safety of what has happened, the book is
the past's, its count is right, and the events are those of the running process. -/
structure Rerunnable (w : Watched) : Prop where
  safe : w.RerunSafe
  owned : w.Owned
  counted : Counted w.system.paperTrader
  process : ∀ o ∈ w.openings, o.process = w.process
  known : ∀ n e, (n, Book.ai, e) ∈ w.events → ∃ o, w.HeldAs e.tradeId o
  entry : ∀ p ∈ w.system.paperTrader.positions, ∀ o, w.HeldAs p.tradeId o →
    o.position.entryTime = p.entryTime

variable {w : Watched} {t : Tick} {c : Candle} {mid : Tables} {o : Opening}

theorem mem_aiOpenings : o ∈ w.aiOpenings ↔ o ∈ w.openings ∧ o.book = .ai := by
  simp [aiOpenings]

/-- An opening of the AI book of the running process holds its own trade id. -/
theorem heldAs_of_mem (h : ∀ o ∈ w.openings, o.process = w.process) (ho : o ∈ w.aiOpenings) :
    w.HeldAs o.position.tradeId o :=
  ⟨(mem_aiOpenings.1 ho).1, h o (mem_aiOpenings.1 ho).1, (mem_aiOpenings.1 ho).2, rfl⟩

/-! ## Ticks -/

theorem aiOpenings_tick : (w.step (.tick t)).aiOpenings =
    w.aiOpenings ++ (w.system.ticked t).opened.map fun p =>
      opening w.process w.system.tables (w.system.ticked t).tables (.ai, t.symbol, p) := by
  unfold aiOpenings
  simp only [step, PaperSystem.opened, List.filter_append, List.map_map]
  refine congrArg _ (List.filter_eq_self.2 ?_)
  intro o ho
  obtain ⟨p, -, rfl⟩ := List.mem_map.1 ho
  simp [opening]

/-- The events of a position after a tick: those before it, and those of the tick under its trade
id. -/
theorem mem_eventsOf_tick {e : PaperEvent} (he : e ∈ (w.step (.tick t)).eventsOf o) :
    e ∈ w.eventsOf o ∨
      ∃ e' ∈ (w.system.ticked t).events, e'.tradeId = o.position.tradeId ∧ e'.bare = e := by
  simp only [eventsOf, step, PaperSystem.emitted, List.filter_append, List.map_append,
    List.mem_append] at he
  rcases he with he | he
  · exact Or.inl he
  · right
    simp only [List.mem_map, List.mem_filter, List.map_map, Function.comp_apply] at he
    obtain ⟨⟨n, b, e'⟩, ⟨⟨e'', he'', heq⟩, hid⟩, rfl⟩ := he
    simp only [Prod.mk.injEq] at heq
    obtain ⟨-, -, rfl⟩ := heq
    simp only [decide_eq_true_eq] at hid
    exact ⟨e'', he'', hid.2.2, rfl⟩

theorem mem_eventsOf_tick_of_mem (hprocess : o.process = w.process) (hai : o.book = .ai)
    {e : PaperEvent} (he : e ∈ (w.system.ticked t).events) (hid : e.tradeId = o.position.tradeId) :
    e.bare ∈ (w.step (.tick t)).eventsOf o := by
  refine List.mem_map.2 ⟨(w.process, .ai, e), List.mem_filter.2 ⟨?_, by simp [hprocess, hai, hid]⟩,
    rfl⟩
  exact List.mem_append_right _ (List.mem_map.2 ⟨(.ai, e), List.mem_map_of_mem he, rfl⟩)

/-- The id of a position that is opened is new to the past. -/
theorem Rerunnable.not_held (h : w.Rerunnable) (hs : Shown w.system t c mid) {p : PaperPosition}
    (hp : p ∈ (w.system.ticked t).opened) : ¬w.HeldAs p.tradeId o := by
  intro hheld
  obtain ⟨k, hk, hid⟩ := h.owned.le_counter _ o hheld
  obtain ⟨j, hj, -, hjd⟩ := hs.exists_counter hp
  have := paperTradeId_injective (hid.symm.trans hjd)
  omega

/-- **The signal of a position that a tick opens has opened none before.** -/
theorem Rerunnable.once_tick (h : w.Rerunnable)
    (hc : shownCandle w.system.candles t.symbol t.timeframe = some c)
    (hlater : w.ManagesLater (.tick t)) (hholds : w.HoldsItsSignals (.tick t)) :
    UniqueKey Opening.signalKey (w.step (.tick t)).aiOpenings := by
  have hone := aiPaperTradingJob_one w.system.signals w.system.tables h.counted h.owned.numbered hc
  rw [aiOpenings_tick]
  cases hopened : (w.system.ticked t).opened with
  | nil => simpa using h.safe.once
  | cons p rest =>
    have hrest : rest = [] := by
      have hlen := hone.one
      rw [show (aiPaperTradingJob t w.system.candles w.system.signals w.system.tables
        w.system.paperTrader).opened = p :: rest from hopened, List.length_cons] at hlen
      exact List.length_eq_zero_iff.1 (by omega)
    obtain ⟨s, hsignal, hsid, hstime⟩ := hone.signal p (by
      change p ∈ (w.system.ticked t).opened
      simp [hopened])
    have hbook : PaperTrader.after c w.system.paperTrader.positions = [] := by
      have hempty := hone.empty (by
        change (w.system.ticked t).opened ≠ []
        simp [hopened])
      have hspec := PaperTrader.processCandle_spec c t.clock h.owned.numbered.unique
        h.owned.not_paused
      simpa [hspec.positions] using hempty
    rw [hrest]
    refine h.safe.once.append_singleton fun o ho heq => ?_
    replace heq : o.signalKey = (s.signalId, s.timestamp) := by
      rw [heq, ← hsid, ← hstime]
      rfl
    obtain ⟨q, hq, hqid⟩ := hholds c hc s hsignal o ho heq
    have hheld : w.HeldAs q.tradeId o := hqid ▸ heldAs_of_mem h.process ho
    have hqtime : q.entryTime = c.timestamp := by
      have hstamp : s.timestamp = c.timestamp := by
        simp only [signalsOf, List.mem_filter, decide_eq_true_eq] at hsignal
        exact hsignal.2.2.2.1
      rw [← h.entry q hq o hheld, ← hstamp]
      exact congrArg Prod.snd heq
    have huntouched : ¬q.Touched c := fun htouched =>
      absurd (hlater c hc q hq htouched) (by rw [hqtime]; exact lt_irrefl _)
    have hleft : q ∈ PaperTrader.after c w.system.paperTrader.positions :=
      PaperTrader.mem_after.2 ⟨q, hq, by rw [PaperPosition.react_of_not_touched huntouched]⟩
    rw [hbook] at hleft
    cases hleft

/-- **The events of a tick come from a candle later than the entries of their positions.** -/
theorem Rerunnable.later_tick (h : w.Rerunnable) (hs : Shown w.system t c mid)
    (hc : shownCandle w.system.candles t.symbol t.timeframe = some c)
    (hlater : w.ManagesLater (.tick t)) :
    ∀ o ∈ (w.step (.tick t)).aiOpenings, ∀ e ∈ (w.step (.tick t)).eventsOf o,
      o.position.entryTime < e.exitTime := by
  intro o ho e he
  rw [aiOpenings_tick] at ho
  rcases List.mem_append.1 ho with ho | ho
  · rcases mem_eventsOf_tick he with he | ⟨e', he', hid, rfl⟩
    · exact h.safe.later o ho e he
    · obtain ⟨q, hq, htouched, hreact, hqid⟩ := hs.position_of_event he'
      have hheld : w.HeldAs q.tradeId o := by
        rw [← hqid, hid]
        exact heldAs_of_mem h.process ho
      rw [h.entry q hq o hheld, (PaperPosition.eventOf_react hreact).exitTime]
      exact hlater c hc q hq htouched
  · -- A position opened by this tick has no events yet.
    obtain ⟨p, hp, rfl⟩ := List.mem_map.1 ho
    rcases mem_eventsOf_tick he with he | ⟨e', he', hid, rfl⟩
    · obtain ⟨⟨n, b, e'⟩, hmem, rfl⟩ := List.mem_map.1 he
      obtain ⟨hmem, hof⟩ := List.mem_filter.1 hmem
      simp only [decide_eq_true_eq] at hof
      obtain ⟨-, rfl, hid⟩ := hof
      obtain ⟨o', hheld⟩ := h.known n e' hmem
      exact absurd (hid ▸ hheld) (h.not_held hs hp)
    · obtain ⟨q, hq, -, -, hqid⟩ := hs.position_of_event he'
      obtain ⟨o', hheld⟩ := h.owned.known q hq
      exact absurd (hid.symm.trans hqid ▸ hheld) (h.not_held hs hp)

theorem Rerunnable.tick (h : w.Rerunnable) (hlater : w.ManagesLater (.tick t))
    (hholds : w.HoldsItsSignals (.tick t)) : (w.step (.tick t)).Rerunnable := by
  cases hc : shownCandle w.system.candles t.symbol t.timeframe with
  | none => rwa [tick_of_none hc]
  | some c =>
  obtain ⟨mid, hs⟩ := ticked_shown h.owned.numbered h.owned.not_paused hc
  refine ⟨⟨h.once_tick hc hlater hholds, h.later_tick hs hc hlater⟩, owned_tick h.owned,
    (aiPaperTradingJob_one w.system.signals w.system.tables h.counted h.owned.numbered hc).counted,
    ?_, ?_, ?_⟩
  · intro o ho
    rcases List.mem_append.1 ho with ho | ho
    · exact h.process o ho
    · obtain ⟨b, -, rfl⟩ := List.mem_map.1 ho
      rfl
  · intro n e he
    rcases List.mem_append.1 he with he | he
    · obtain ⟨o, hheld⟩ := h.known n e he
      exact ⟨o, hheld.tick⟩
    · obtain ⟨⟨b, e'⟩, hmem, heq⟩ := List.mem_map.1 he
      obtain ⟨e'', he'', hpair⟩ := List.mem_map.1 hmem
      simp only [Prod.mk.injEq] at heq hpair
      obtain ⟨-, -, rfl⟩ := heq
      obtain ⟨-, rfl⟩ := hpair
      obtain ⟨q, hq, -, -, hqid⟩ := hs.position_of_event he''
      obtain ⟨o, hheld⟩ := h.owned.known q hq
      exact ⟨o, hqid ▸ hheld.tick⟩
  · intro p hp o hheld
    change p ∈ (w.system.ticked t).paperTrader.positions at hp
    rw [hs.positions] at hp
    rcases List.mem_append.1 hp with hp | hp
    · obtain ⟨q, hq, hqp⟩ := PaperTrader.mem_after.1 hp
      have hsame := PaperPosition.samePosition_of_react hqp
      rw [hsame.tradeId] at hheld
      rw [hsame.entryTime]
      rcases heldAs_tick hheld with hheld | ⟨p', hp', hid, rfl⟩
      · exact h.entry q hq o hheld
      · obtain ⟨o', hheld'⟩ := h.owned.known q hq
        exact absurd (hid ▸ hheld') (h.not_held hs hp')
    · rcases heldAs_tick hheld with hheld | ⟨p', hp', hid, rfl⟩
      · exact absurd hheld (h.not_held hs hp)
      · have hunique := (hs.numbered h.owned.numbered).unique
        rw [hs.positions] at hunique
        rw [hunique.eq_of_key (List.mem_append_right _ hp) (List.mem_append_right _ hp') hid.symm]
        rfl

/-- A tick after which every event comes from a later candle has touched later positions only. -/
theorem Rerunnable.managesLater_of_safe (h : w.Rerunnable)
    (hsafe : (w.step (.tick t)).RerunSafe) : w.ManagesLater (.tick t) := by
  intro c hc p hp htouched
  obtain ⟨mid, hs⟩ := ticked_shown h.owned.numbered h.owned.not_paused hc
  obtain ⟨o, hheld⟩ := h.owned.known p hp
  obtain ⟨e, he⟩ := List.exists_mem_of_ne_nil _ (PaperPosition.react_ne_nil htouched)
  have hevent : e ∈ (w.system.ticked t).events.map PaperEvent.bare := by
    rw [hs.events]
    exact PaperTrader.mem_reactions.2 ⟨p, hp, he⟩
  obtain ⟨e', he', rfl⟩ := List.mem_map.1 hevent
  have hof := PaperPosition.eventOf_react he
  have hid : e'.tradeId = o.position.tradeId := hof.tradeId.trans hheld.tradeId.symm
  have ho : o ∈ (w.step (.tick t)).aiOpenings := by
    rw [aiOpenings_tick]
    exact List.mem_append_left _ (mem_aiOpenings.2 ⟨hheld.mem, hheld.book⟩)
  have hlt := hsafe.later o ho _ (mem_eventsOf_tick_of_mem hheld.process hheld.book he' hid)
  rwa [hof.exitTime, h.entry p hp o hheld] at hlt

/-! ## Other operations -/

/-- An operation that leaves the AI book and its past keeps the invariant. -/
theorem Rerunnable.of_same {w' : Watched} (h : w.Rerunnable) (howned : w'.Owned)
    (htrader : w'.system.paperTrader = w.system.paperTrader) (hprocess : w'.process = w.process)
    (hopenings : w'.aiOpenings = w.aiOpenings) (hall : ∀ o ∈ w'.openings, o.process = w'.process)
    (hevents : w'.events = w.events) : w'.Rerunnable := by
  have hheld : ∀ id o, w'.HeldAs id o ↔ w.HeldAs id o := by
    intro id o
    have hmem : o ∈ w'.aiOpenings ↔ o ∈ w.aiOpenings := by rw [hopenings]
    rw [mem_aiOpenings, mem_aiOpenings] at hmem
    constructor
    · rintro ⟨ho, hp, hb, hid⟩
      exact ⟨(hmem.1 ⟨ho, hb⟩).1, hp.trans hprocess, hb, hid⟩
    · rintro ⟨ho, hp, hb, hid⟩
      exact ⟨(hmem.2 ⟨ho, hb⟩).1, hp.trans hprocess.symm, hb, hid⟩
  refine ⟨⟨hopenings ▸ h.safe.once, fun o ho e he => ?_⟩, howned, htrader ▸ h.counted, hall, ?_, ?_⟩
  · rw [hopenings] at ho
    simp only [eventsOf, hevents] at he
    exact h.safe.later o ho e he
  · intro n e he
    obtain ⟨o, ho⟩ := h.known n e (hevents ▸ he)
    exact ⟨o, (hheld _ _).2 ho⟩
  · intro p hp o ho
    exact h.entry p (htrader ▸ hp) o ((hheld _ _).1 ho)

/-- Only a tick can change what has happened to the AI book. -/
theorem step_other {op : Op} (hop : ∀ t, op ≠ .tick t) :
    (w.step op).system.paperTrader = w.system.paperTrader ∧
      (w.step op).aiOpenings = w.aiOpenings ∧ (w.step op).events = w.events := by
  cases op with
  | store candles signals =>
    exact ⟨rfl, by simp [aiOpenings, step, PaperSystem.opened], by
      simp [step, PaperSystem.emitted]⟩
  | tick t => exact absurd rfl (hop t)
  | execute call =>
    refine ⟨rfl, ?_, by simp [step, PaperSystem.emitted]⟩
    have hnone : ((w.system.opened (.execute call)).map
        (opening w.process w.system.tables (w.system.step (.execute call)).tables)).filter
          (fun o => o.book = .ai) = [] := by
      refine List.filter_eq_nil_iff.2 fun o ho => ?_
      obtain ⟨b, hb, rfl⟩ := List.mem_map.1 ho
      unfold PaperSystem.opened at hb
      dsimp only at hb
      split at hb
      · obtain rfl := List.mem_singleton.1 hb
        simp [opening]
      · simp at hb
    simp only [aiOpenings, step, List.filter_append, hnone, List.append_nil]

theorem process_step (h : ∀ o ∈ w.openings, o.process = w.process) (op : Op) :
    ∀ o ∈ (w.step op).openings, o.process = (w.step op).process := by
  intro o ho
  rcases List.mem_append.1 ho with ho | ho
  · exact h o ho
  · obtain ⟨b, -, rfl⟩ := List.mem_map.1 ho
    rfl

/-- **An operation that meets both conditions keeps the invariant.** -/
theorem Rerunnable.step (h : w.Rerunnable) {op : Op} (hlater : w.ManagesLater op)
    (hholds : w.HoldsItsSignals op) : (w.step op).Rerunnable := by
  by_cases hop : ∃ t, op = .tick t
  · obtain ⟨t, rfl⟩ := hop
    exact h.tick hlater hholds
  · obtain ⟨htrader, hopenings, hevents⟩ := step_other (w := w) fun t heq => hop ⟨t, heq⟩
    have howned : (w.processStep (.op op)).Owned := owned_step h.owned
    exact h.of_same howned htrader rfl hopenings (process_step h.process op) hevents

/-! ## One symbol and timeframe -/

/-- The ticks of the run are for one symbol and timeframe. -/
def OnSeries (symbol timeframe : String) : Op → Prop
  | .tick t => t.symbol = symbol ∧ t.timeframe = timeframe
  | .store _ _ | .execute _ => True

/-- A position that has left the book was entered before a candle that is stored by now. -/
def Placed (symbol timeframe : String) (w : Watched) : Prop :=
  ∀ o ∈ w.aiOpenings, (∃ p ∈ w.system.paperTrader.positions, p.tradeId = o.position.tradeId) ∨
    ∃ c ∈ w.system.candles, IsLoaded symbol timeframe c ∧ o.position.entryTime < c.timestamp

variable {symbol timeframe : String}

/-- On one series the signals of the newest candle still hold what they have opened. -/
theorem Placed.holds (h : Placed symbol timeframe w) {op : Op}
    (hop : OnSeries symbol timeframe op) : w.HoldsItsSignals op := by
  cases op with
  | store candles signals => trivial
  | execute call => trivial
  | tick t =>
    obtain ⟨rfl, rfl⟩ := hop
    intro c hc s hs o ho hkey
    rcases h o ho with hheld | ⟨d, hd, hloaded, hlt⟩
    · exact hheld
    · have hnewest := (newestCandle_spec (newestCandle_of_shown hc)).2.2 d hd hloaded
      have hstamp : s.timestamp = c.timestamp := by
        simp only [signalsOf, List.mem_filter, decide_eq_true_eq] at hs
        exact hs.2.2.2.1
      have hentry : o.position.entryTime = c.timestamp :=
        (congrArg Prod.snd hkey).trans hstamp
      rw [hentry] at hlt
      exact absurd hlt hnewest.not_gt

theorem Placed.step (h : Placed symbol timeframe w) (hr : w.Rerunnable) {op : Op}
    (hop : OnSeries symbol timeframe op) (hlater : w.ManagesLater op) :
    Placed symbol timeframe (w.step op) := by
  by_cases htick : ∃ t, op = .tick t
  · obtain ⟨t, rfl⟩ := htick
    obtain ⟨rfl, rfl⟩ := hop
    cases hc : shownCandle w.system.candles t.symbol t.timeframe with
    | none => rwa [tick_of_none hc]
    | some c =>
    obtain ⟨mid, hs⟩ := ticked_shown hr.owned.numbered hr.owned.not_paused hc
    intro o ho
    rw [aiOpenings_tick] at ho
    change (∃ p ∈ (w.system.ticked t).paperTrader.positions, _) ∨ _
    rw [hs.positions]
    rcases List.mem_append.1 ho with ho | ho
    · rcases h o ho with ⟨q, hq, hqid⟩ | hpast
      · cases hreact : (q.react c).2 with
        | some q' =>
          refine Or.inl ⟨q', List.mem_append_left _ (PaperTrader.mem_after.2 ⟨q, hq, hreact⟩), ?_⟩
          exact (PaperPosition.samePosition_of_react hreact).tradeId.trans hqid
        | none =>
          have htouched : q.Touched c := by
            by_contra hidle
            rw [PaperPosition.react_of_not_touched hidle] at hreact
            cases hreact
          have hspec := newestCandle_spec (newestCandle_of_shown hc)
          refine Or.inr ⟨c, hspec.1, hspec.2.1, ?_⟩
          rw [hr.entry q hq o (hqid ▸ heldAs_of_mem hr.process ho)]
          exact hlater c hc q hq htouched
      · exact Or.inr hpast
    · obtain ⟨p, hp, rfl⟩ := List.mem_map.1 ho
      exact Or.inl ⟨p, List.mem_append_right _ hp, rfl⟩
  · obtain ⟨htrader, hopenings, -⟩ := step_other (w := w) fun t heq => htick ⟨t, heq⟩
    intro o ho
    rw [hopenings] at ho
    rw [htrader]
    refine (h o ho).imp_right ?_
    rintro ⟨c, hmem, hloaded⟩
    refine ⟨c, ?_, hloaded⟩
    cases op with
    | store candles signals => exact mem_insertAllNew_of_mem hmem
    | tick t => exact (htick ⟨t, rfl⟩).elim
    | execute call => exact hmem

/-! ## Runs -/

theorem Fresh.rerunnable {today : ℤ} (h : w.Fresh)
    (htrader : w.system.paperTrader = livePaperTrader today) : w.Rerunnable where
  safe :=
    { once := by
        rw [aiOpenings, h.openings]
        exact List.nodup_nil
      later := by simp [aiOpenings, h.openings] }
  owned := h.owned
  counted := by
    rw [htrader]
    exact ⟨rfl, rfl⟩
  process := by simp [h.openings]
  known := by simp [h.events]
  entry := by simp [h.paperTrader]

/-- **The job can be run again.** In every run whose ticks touch later positions only and find the
positions of their candle's signals in the book, no signal opens two positions and no position
is closed or reduced by a candle that is not later than its entry. When all ticks are for one
symbol and timeframe, this is so exactly when they touch later positions only. -/
theorem rerun_safe (w : Watched) (today : ℤ) (ops : List Op) (hw : w.Fresh)
    (htrader : w.system.paperTrader = livePaperTrader today) :
    (Guarded step (fun w op => w.ManagesLater op ∧ w.HoldsItsSignals op) w ops →
      Always step RerunSafe w ops) ∧
    ∀ symbol timeframe, (∀ op ∈ ops, OnSeries symbol timeframe op) →
      (Always step RerunSafe w ops ↔ Guarded step ManagesLater w ops) := by
  have hstart : w.Rerunnable := hw.rerunnable htrader
  constructor
  · intro hg
    exact (Always.of_guarded (fun w op h hc => h.step hc.1 hc.2) hstart hg).mono
      fun _ h => h.safe
  · intro symbol timeframe hseries
    have hplaced : Placed symbol timeframe w := by
      intro o ho
      simp [aiOpenings, hw.openings] at ho
    refine always_iff_guarded_of_invariant
      (I := fun w => w.Rerunnable ∧ Placed symbol timeframe w)
      (A := fun _ op => OnSeries symbol timeframe op) (fun w h => h.1.safe) ?_ ?_
      ⟨hstart, hplaced⟩ ?_
    · rintro w op ⟨h, hp⟩ hop hlater
      exact ⟨h.step hlater (hp.holds hop), hp.step h hop hlater⟩
    · rintro w op ⟨h, -⟩ - hsafe
      cases op with
      | store candles signals => trivial
      | execute call => trivial
      | tick t => exact h.managesLater_of_safe hsafe
    · clear hstart hplaced hw htrader
      induction ops generalizing w with
      | nil => trivial
      | cons op ops ih =>
        exact ⟨hseries op (by simp), ih _ fun op' h => hseries op' (by simp [h])⟩

section Example

/-- Two ticks on the candle of a signal, then one on a later candle that reaches the target. -/
def patientRun : List Op :=
  [.store (quietCandles ++ [sampleCandle 60 101 99]) [sampleSignal "S-1" 60],
    .tick sampleTick, .tick sampleTick, .store [sampleCandle 61 111 100] [], .tick sampleTick]

theorem rerun_safe_patientRun : Always step RerunSafe sampleStart patientRun :=
  ((rerun_safe sampleStart 0 patientRun sampleStart_fresh rfl).2 "BTC/USDT" "4h"
    (by simp [patientRun, OnSeries, sampleTick])).2 (by decide +kernel)

/-- Two ticks on the candle of a signal which has reached the target before the signal was given. -/
def hastyRun : List Op :=
  [.store (quietCandles ++ [sampleCandle 60 111 99]) [sampleSignal "S-1" 60],
    .tick sampleTick, .tick sampleTick]

/-- **A second tick on one candle opens the signal again**, after closing its position by the candle
it was entered on. -/
theorem second_tick_reopens : sampleStart.Fresh ∧
    sampleStart.system.paperTrader = livePaperTrader 0 ∧
    ¬UniqueKey Opening.signalKey (Foundations.run step sampleStart hastyRun).aiOpenings ∧
    ¬(∀ o ∈ (Foundations.run step sampleStart hastyRun).aiOpenings,
      ∀ e ∈ (Foundations.run step sampleStart hastyRun).eventsOf o,
        o.position.entryTime < e.exitTime) := by
  refine ⟨sampleStart_fresh, rfl, ?_, ?_⟩
  · unfold UniqueKey
    decide +kernel
  · decide +kernel

end Example

end Watched

end AlphaOne.Paper

import AlphaOne.Paper.System

/-!
# Which rows the events of the paper trader modify

A paper position and its row are connected by the trade id alone. The ids are numbered by a
counter that a restart sets back to zero, while the rows stay: a position can be opened under the
id of an older row. Its own insert then fails, but the position is in the book already, and its
events go to the older row, closed or not.

`persistence_faithful` is the law that holds: in every run in which no candle reaches a level of a
position whose id was taken when it was opened, events modify only the row that was created for
their position, and closed rows stay as they are.
-/

namespace AlphaOne.Paper

open Foundations Journal Risk Scheduler TelegramSignals

namespace Watched

/-- `o` put into the AI book of the running process the position with the trade id. -/
structure HeldAs (w : Watched) (tradeId : String) (o : Opening) : Prop where
  mem : o ∈ w.openings
  process : o.process = w.process
  book : o.book = .ai
  tradeId : o.position.tradeId = tradeId

/-- A step changes the row of a trade or records executions of it. -/
def Modifies (before after : Tables) (row : Trade) : Prop :=
  row ∉ after.trades ∨ (after.executions.filter fun x => x.tradeId = row.tradeId) ≠
    before.executions.filter fun x => x.tradeId = row.tradeId

/-- The events an operation of a process makes the AI book emit. -/
def emits (w : Watched) : ProcessOp → List PaperEvent
  | .op op => (w.system.emitted op).map Prod.snd
  | .restart _ => []

/-- What an operation does to the rows that are there before it is faithful. -/
structure Faithful (w : Watched) (op : ProcessOp) : Prop where
  /-- A row that an event refers to was inserted for the one position that the running process
  has held under that trade id. -/
  own : ∀ e ∈ w.emits op, ∀ row ∈ w.system.tables.trades, row.tradeId = e.tradeId →
    ∃ o, w.HeldAs e.tradeId o ∧ o.recorded = true ∧ ∀ o', w.HeldAs e.tradeId o' → o' = o
  /-- Only rows that events refer to are modified. -/
  others : ∀ row ∈ w.system.tables.trades, (∀ e ∈ w.emits op, e.tradeId ≠ row.tradeId) →
    ¬Modifies w.system.tables (w.processStep op).system.tables row
  /-- A closed paper row is not modified. -/
  closed : ∀ row ∈ w.system.tables.trades, row.mode = .paper → row.status = .closed →
    ¬Modifies w.system.tables (w.processStep op).system.tables row

/-- The candle of a tick reaches no level of a position that was opened under a trade id some row
had already. -/
def TouchesOwnPositions (w : Watched) : ProcessOp → Prop
  | .op (.tick t) => ∀ c, shownCandle w.system.candles t.symbol t.timeframe = some c →
      ∀ p ∈ w.system.paperTrader.positions, p.Touched c →
        ∀ o, w.HeldAs p.tradeId o → o.taken = false
  | _ => True

/-- What the rows and the past have to do with the AI book. -/
structure Owned (w : Watched) : Prop where
  unique : UniqueKey Trade.tradeId w.system.tables.trades
  numbered : Numbered w.system.paperTrader
  not_paused : w.system.paperTrader.isPaused = false
  processes : ∀ o ∈ w.openings, o.process ≤ w.process
  /-- Every position in the book was put there. -/
  known : ∀ p ∈ w.system.paperTrader.positions, ∃ o, w.HeldAs p.tradeId o
  le_counter : ∀ id o, w.HeldAs id o →
    ∃ k ≤ w.system.paperTrader.tradeCounter, id = paperTradeId k
  held_unique : ∀ id o o', w.HeldAs id o → w.HeldAs id o' → o = o'
  /-- A row under an id that was not taken was inserted with the opening. -/
  recorded : ∀ id o, w.HeldAs id o → o.taken = false →
    ∀ row ∈ w.system.tables.trades, row.tradeId = id → o.recorded = true
  /-- The row of a position in the book is not closed. -/
  alive : ∀ p ∈ w.system.paperTrader.positions, ∀ o, w.HeldAs p.tradeId o → o.taken = false →
    ∀ row ∈ w.system.tables.trades, row.tradeId = p.tradeId → row.status ≠ .closed

variable {w : Watched} {op : ProcessOp} {t : Tick} {c : Candle} {mid : Tables} {call : ExecuteCall}

theorem Fresh.owned (h : w.Fresh) : w.Owned where
  unique := h.trades
  numbered := by
    constructor
    · rw [h.paperTrader]
      exact List.nodup_nil
    · simp [h.paperTrader]
  not_paused := h.not_paused
  processes := by simp [h.openings]
  known := by simp [h.paperTrader]
  le_counter := fun id o ho => by simpa [h.openings] using ho.mem
  held_unique := fun id o o' ho => by simpa [h.openings] using ho.mem
  recorded := fun id o ho => by simpa [h.openings] using ho.mem
  alive := by simp [h.paperTrader]

/-- What an operation opens is opened by the running process. -/
theorem Owned.processes_step (ho : w.Owned) (op : Op) :
    ∀ o ∈ (w.step op).openings, o.process ≤ (w.step op).process := by
  intro o hmem
  rcases List.mem_append.1 hmem with hmem | hmem
  · exact ho.processes o hmem
  · obtain ⟨b, -, rfl⟩ := List.mem_map.1 hmem
    exact le_rfl

/-! ## Ticks -/

/-- The openings of a tick are those of the positions it opens. -/
theorem heldAs_tick {id : String} {o : Opening} (h : (w.step (.tick t)).HeldAs id o) :
    w.HeldAs id o ∨ ∃ p ∈ (w.system.ticked t).opened, p.tradeId = id ∧
      o = opening w.process w.system.tables (w.system.ticked t).tables (.ai, t.symbol, p) := by
  obtain ⟨hmem, hprocess, hbook, hid⟩ := h
  rcases List.mem_append.1 hmem with hmem | hmem
  · exact Or.inl ⟨hmem, hprocess, hbook, hid⟩
  · obtain ⟨b, hb, rfl⟩ := List.mem_map.1 hmem
    obtain ⟨p, hp, rfl⟩ := List.mem_map.1 hb
    exact Or.inr ⟨p, hp, hid, rfl⟩

theorem heldAs_tick_of_opened {p : PaperPosition} (hp : p ∈ (w.system.ticked t).opened) :
    (w.step (.tick t)).HeldAs p.tradeId
      (opening w.process w.system.tables (w.system.ticked t).tables (.ai, t.symbol, p)) where
  mem := List.mem_append_right _ (List.mem_map_of_mem (List.mem_map_of_mem hp))
  process := rfl
  book := rfl
  tradeId := rfl

theorem HeldAs.tick {id : String} {o : Opening} (h : w.HeldAs id o) :
    (w.step (.tick t)).HeldAs id o :=
  ⟨List.mem_append_left _ h.mem, h.process, h.book, h.tradeId⟩

/-- The rows after a tick are the old ones, closed only by an exit, and the new positions'. -/
theorem row_after_tick (h : Shown w.system t c mid) {row : Trade}
    (hrow : row ∈ (w.system.ticked t).tables.trades) :
    (∃ r ∈ w.system.tables.trades, r.tradeId = row.tradeId ∧ (row.status = .closed →
      r.status = .closed ∨ ∃ e ∈ (w.system.ticked t).events, e.tradeId = r.tradeId ∧ e.IsExit)) ∨
    ∃ p ∈ (w.system.ticked t).opened, row = paperTrade p t.symbol .aiPaper := by
  obtain ⟨inserted, hpre, htables, -⟩ := h.inserted
  rw [htables] at hrow
  rcases List.mem_append.1 hrow with hrow | hrow
  · exact Or.inl (h.recorded.rows row hrow)
  · obtain ⟨p, hp, rfl⟩ := List.mem_map.1 hrow
    exact Or.inr ⟨p, hpre.subset hp, rfl⟩

theorem uniqueKey_after_tick (h : Shown w.system t c mid) (ho : w.Owned) :
    UniqueKey Trade.tradeId (w.system.ticked t).tables.trades := by
  obtain ⟨inserted, hpre, htables, hnew⟩ := h.inserted
  have hmid : UniqueKey Trade.tradeId mid.trades := by
    unfold UniqueKey
    rw [h.recorded.tradeIds]
    exact ho.unique
  have hids : (inserted.map PaperPosition.tradeId).Nodup := by
    have := (h.numbered ho.numbered).unique
    rw [h.positions] at this
    unfold UniqueKey at this
    rw [List.map_append] at this
    exact this.of_append_right.sublist (hpre.sublist.map _)
  unfold UniqueKey at hmid ⊢
  rw [htables, List.map_append, List.nodup_append, List.map_map]
  refine ⟨hmid, hids, ?_⟩
  intro a ha b hb
  obtain ⟨r, hr, rfl⟩ := List.mem_map.1 ha
  obtain ⟨p, hp, rfl⟩ := List.mem_map.1 hb
  exact hnew p hp r hr

theorem eq_of_opened (h : Shown w.system t c mid) (ho : w.Owned) {p q : PaperPosition}
    (hp : p ∈ (w.system.ticked t).opened) (hq : q ∈ (w.system.ticked t).opened)
    (hpq : p.tradeId = q.tradeId) : p = q := by
  refine (h.numbered ho.numbered).unique.eq_of_key ?_ ?_ hpq
  · exact h.positions ▸ List.mem_append_right _ hp
  · exact h.positions ▸ List.mem_append_right _ hq

/-- A position that was held before the tick is not one of those it opens. -/
theorem HeldAs.ne_of_opened (h : Shown w.system t c mid) (ho : w.Owned) {id : String} {o : Opening}
    (hold : w.HeldAs id o) {p : PaperPosition} (hp : p ∈ (w.system.ticked t).opened) :
    p.tradeId ≠ id := by
  rintro rfl
  obtain ⟨k, hk, hid⟩ := ho.le_counter _ o hold
  obtain ⟨j, hj, -, hjd⟩ := h.exists_counter hp
  have := paperTradeId_injective (hid.symm.trans hjd)
  omega

theorem known_after_tick (h : Shown w.system t c mid) (ho : w.Owned) :
    ∀ p ∈ (w.system.ticked t).paperTrader.positions,
      ∃ o, (w.step (.tick t)).HeldAs p.tradeId o := by
  intro p hp
  rw [h.positions] at hp
  rcases List.mem_append.1 hp with hp | hp
  · obtain ⟨q, hq, hqp⟩ := PaperTrader.mem_after.1 hp
    obtain ⟨o, hheld⟩ := ho.known q hq
    rw [(PaperPosition.samePosition_of_react hqp).tradeId]
    exact ⟨o, hheld.tick⟩
  · exact ⟨_, heldAs_tick_of_opened hp⟩

theorem held_unique_after_tick (h : Shown w.system t c mid) (ho : w.Owned) {id : String}
    {o o' : Opening} (hheld : (w.step (.tick t)).HeldAs id o)
    (hheld' : (w.step (.tick t)).HeldAs id o') : o = o' := by
  rcases heldAs_tick hheld with hheld | ⟨p, hp, hid, rfl⟩ <;>
    rcases heldAs_tick hheld' with hheld' | ⟨q, hq, hid', rfl⟩
  · exact ho.held_unique id o o' hheld hheld'
  · exact absurd hid' (hheld.ne_of_opened h ho hq)
  · exact absurd hid (hheld'.ne_of_opened h ho hp)
  · rw [eq_of_opened h ho hp hq (hid.trans hid'.symm)]

theorem recorded_after_tick (h : Shown w.system t c mid) (ho : w.Owned) {id : String}
    {o : Opening} (hheld : (w.step (.tick t)).HeldAs id o) (htaken : o.taken = false) {row : Trade}
    (hrow : row ∈ (w.system.ticked t).tables.trades) (hid : row.tradeId = id) :
    o.recorded = true := by
  rcases heldAs_tick hheld with hheld | ⟨p, hp, rfl, rfl⟩
  · rcases row_after_tick h hrow with ⟨r, hr, hrid, -⟩ | ⟨p, hp, rfl⟩
    · exact ho.recorded id o hheld htaken r hr (hrid.trans hid)
    · exact absurd hid (hheld.ne_of_opened h ho hp)
  · have hsome : ((w.system.ticked t).tables.trade? p.tradeId).isSome := by
      rw [Option.isSome_iff_ne_none, ne_eq, Tables.trade?, lookup_eq_none_iff]
      exact fun hne => hne row hrow hid
    simpa [opening, hsome] using htaken

/-- The row of a position that stays in the book is not closed: what it emits in the tick are
partial exits. -/
theorem alive_of_stays (h : Shown w.system t c mid) (ho : w.Owned) {p q : PaperPosition}
    (hq : q ∈ w.system.paperTrader.positions) (hqp : (q.react c).2 = some p) {o : Opening}
    (hheld : (w.step (.tick t)).HeldAs q.tradeId o) (htaken : o.taken = false) {row : Trade}
    (hrow : row ∈ (w.system.ticked t).tables.trades) (hid : row.tradeId = q.tradeId) :
    row.status ≠ .closed := by
  intro hclosed
  rcases heldAs_tick hheld with hheld | ⟨p', hp', hpid, rfl⟩
  · rcases row_after_tick h hrow with ⟨r, hr, hrid, hrclosed⟩ | ⟨p', hp', rfl⟩
    · rcases hrclosed hclosed with hr' | ⟨e, he, heid, hexit⟩
      · exact ho.alive q hq o hheld htaken r hr (hrid.trans hid) hr'
      · obtain ⟨q', hq', -, hreact, hq'id⟩ := h.position_of_event he
        have hsame : q' = q := ho.numbered.unique.eq_of_key hq' hq
          (hq'id.symm.trans (heid.trans (hrid.trans hid)))
        rw [hsame] at hreact
        exact PaperPosition.not_isExit_of_react (by simp [hqp]) hreact hexit
    · cases hclosed
  · obtain ⟨o', hheld'⟩ := ho.known q hq
    exact hheld'.ne_of_opened h ho hp' hpid

/-- A row under the id of a position the tick opened is the one that was just inserted. -/
theorem alive_of_opened (h : Shown w.system t c mid) (ho : w.Owned) {p : PaperPosition}
    (hp : p ∈ (w.system.ticked t).opened) {o : Opening}
    (hheld : (w.step (.tick t)).HeldAs p.tradeId o) (htaken : o.taken = false) {row : Trade}
    (hrow : row ∈ (w.system.ticked t).tables.trades) (hid : row.tradeId = p.tradeId) :
    row.status ≠ .closed := by
  intro hclosed
  rcases row_after_tick h hrow with ⟨r, hr, hrid, -⟩ | ⟨p', hp', rfl⟩
  · rcases heldAs_tick hheld with hheld | ⟨p', -, hpid, rfl⟩
    · exact hheld.ne_of_opened h ho hp rfl
    · have hnone : w.system.tables.trade? p'.tradeId = none := by
        simpa [opening] using htaken
      exact lookup_eq_none_iff.1 hnone r hr (hrid.trans (hid.trans hpid.symm))
  · cases hclosed

theorem owned_tick (ho : w.Owned) : (w.step (.tick t)).Owned := by
  cases hc : shownCandle w.system.candles t.symbol t.timeframe with
  | none =>
    have htick := ticked_of_none hc
    have hstep : w.step (.tick t) = w := by
      simp [step, PaperSystem.step, PaperSystem.opened, PaperSystem.emitted, htick]
    rw [hstep]
    exact ho
  | some c =>
  obtain ⟨mid, h⟩ := ticked_shown ho.numbered ho.not_paused hc
  exact
    { unique := uniqueKey_after_tick h ho
      numbered := h.numbered ho.numbered
      not_paused := h.isPaused
      processes := ho.processes_step _
      known := known_after_tick h ho
      le_counter := by
        intro id o hheld
        rcases heldAs_tick hheld with hheld | ⟨p, hp, rfl, rfl⟩
        · obtain ⟨k, hk, hid⟩ := ho.le_counter id o hheld
          refine ⟨k, ?_, hid⟩
          change k ≤ (w.system.ticked t).paperTrader.tradeCounter
          rw [h.tradeCounter]
          omega
        · obtain ⟨k, -, hk, hid⟩ := h.exists_counter hp
          exact ⟨k, hk, hid⟩
      held_unique := fun _ _ _ => held_unique_after_tick h ho
      recorded := fun _ _ hheld htaken _ => recorded_after_tick h ho hheld htaken
      alive := by
        intro p hp o hheld htaken row hrow hid
        change p ∈ (w.system.ticked t).paperTrader.positions at hp
        rw [h.positions] at hp
        rcases List.mem_append.1 hp with hp | hp
        · obtain ⟨q, hq, hqp⟩ := PaperTrader.mem_after.1 hp
          rw [(PaperPosition.samePosition_of_react hqp).tradeId] at hheld hid
          exact alive_of_stays h ho hq hqp hheld htaken hrow hid
        · exact alive_of_opened h ho hp hheld htaken hrow hid }

/-! ## Calls and restarts -/

/-- The rows after a call are the old ones and, at most, that of its own position. -/
theorem tables_after_execute (w : Watched) (call : ExecuteCall) :
    (w.step (.execute call)).system.tables = w.system.tables ∨
      ∃ plan position, gates call w.system.tables = .ok (plan, position) ∧
        (∀ row ∈ w.system.tables.trades, row.tradeId ≠ position.tradeId) ∧
        (w.step (.execute call)).system.tables =
          { trades := w.system.tables.trades ++
              [paperTrade position plan.symbol .telegramExternal]
            executions := w.system.tables.executions ++ [entryExecution position] } := by
  simp only [step, PaperSystem.step]
  cases hg : gates call w.system.tables with
  | error reason => exact Or.inl (by rw [executeValidSignal_refused hg])
  | ok planned =>
    obtain ⟨plan, position⟩ := planned
    rw [(executeValidSignal_entered hg).2]
    rcases persistPaperOpen_cases position plan.symbol .telegramExternal call.commits
      w.system.tables with ⟨hfree, -, hp⟩ | ⟨-, e, hp⟩
    · rw [hp]
      exact Or.inr ⟨plan, position, rfl, lookup_eq_none_iff.1 hfree, rfl⟩
    · rw [hp]
      exact Or.inl rfl

/-- The position of a call is named after its signal. -/
theorem tradeId_of_gates {plan : TradePlan} {position : PaperPosition} {db : Tables}
    (h : gates call db = .ok (plan, position)) : position.tradeId = "TG-" ++ call.signal.id := by
  obtain ⟨-, -, sizing, rfl⟩ := gates_ok h
  rfl

theorem heldAs_execute {id : String} {o : Opening} (h : (w.step (.execute call)).HeldAs id o) :
    w.HeldAs id o := by
  obtain ⟨hmem, hprocess, hbook, hid⟩ := h
  rcases List.mem_append.1 hmem with hmem | hmem
  · exact ⟨hmem, hprocess, hbook, hid⟩
  · obtain ⟨b, hb, rfl⟩ := List.mem_map.1 hmem
    unfold PaperSystem.opened at hb
    dsimp only at hb
    split at hb
    · obtain rfl := List.mem_singleton.1 hb
      cases hbook
    · simp at hb

/-- A call leaves the AI book and its past, and a row under an id of that book was there before. -/
theorem owned_execute (ho : w.Owned) : (w.step (.execute call)).Owned := by
  have hrows : ∀ row ∈ (w.step (.execute call)).system.tables.trades, ∀ k,
      row.tradeId = paperTradeId k → row ∈ w.system.tables.trades := by
    intro row hrow k hk
    rcases tables_after_execute w call with htables | ⟨plan, position, hg, -, htables⟩
    · rwa [htables] at hrow
    · rw [htables] at hrow
      rcases List.mem_append.1 hrow with hrow | hrow
      · exact hrow
      · obtain rfl := List.mem_singleton.1 hrow
        exact absurd (hk.symm.trans (tradeId_of_gates hg)) (paperTradeId_ne_telegram k _)
  exact
    { unique := by
        rcases tables_after_execute w call with htables | ⟨plan, position, -, hnew, htables⟩
        · rw [htables]
          exact ho.unique
        · rw [htables]
          exact ho.unique.append_singleton hnew
      numbered := ho.numbered
      not_paused := ho.not_paused
      processes := ho.processes_step _
      known := by
        intro p hp
        obtain ⟨o, hheld⟩ := ho.known p hp
        exact ⟨o, List.mem_append_left _ hheld.mem, hheld.process, hheld.book, hheld.tradeId⟩
      le_counter := fun id o hheld => ho.le_counter id o (heldAs_execute hheld)
      held_unique := fun id o o' hheld hheld' =>
        ho.held_unique id o o' (heldAs_execute hheld) (heldAs_execute hheld')
      recorded := by
        intro id o hheld htaken row hrow hid
        obtain ⟨k, -, hk⟩ := ho.le_counter id o (heldAs_execute hheld)
        exact ho.recorded id o (heldAs_execute hheld) htaken row
          (hrows row hrow k (hid.trans hk)) hid
      alive := by
        intro p hp o hheld htaken row hrow hid
        obtain ⟨k, -, hk⟩ := ho.numbered.le_counter p hp
        exact ho.alive p hp o (heldAs_execute hheld) htaken row
          (hrows row hrow k (hid.trans hk)) hid }

theorem heldAs_restart {today : ℤ} (ho : w.Owned) {id : String} {o : Opening} :
    ¬(w.processStep (.restart today)).HeldAs id o := by
  intro h
  have hprocess : o.process = w.process + 1 := h.process
  have := ho.processes o h.mem
  omega

/-- **Every operation of a process keeps the books and the rows in order, restarts included.** -/
theorem owned_step (ho : w.Owned) : (w.processStep op).Owned := by
  cases op with
  | op op =>
    cases op with
    | store candles signals =>
      have hheld : ∀ {id o}, (w.step (.store candles signals)).HeldAs id o → w.HeldAs id o := by
        rintro id o ⟨hmem, hprocess, hbook, hid⟩
        exact ⟨by simpa [step, PaperSystem.opened] using hmem, hprocess, hbook, hid⟩
      refine ⟨ho.unique, ho.numbered, ho.not_paused, ?_, ?_, ?_, ?_, ?_, ?_⟩
      · simpa [processStep, step, PaperSystem.opened] using ho.processes
      · intro p hp
        obtain ⟨o, hmem, hprocess, hbook, hid⟩ := ho.known p hp
        exact ⟨o, List.mem_append_left _ hmem, hprocess, hbook, hid⟩
      · exact fun id o h => ho.le_counter id o (hheld h)
      · exact fun id o o' h h' => ho.held_unique id o o' (hheld h) (hheld h')
      · exact fun id o h => ho.recorded id o (hheld h)
      · exact fun p hp o h => ho.alive p hp o (hheld h)
    | tick t => exact owned_tick ho
    | execute call => exact owned_execute ho
  | restart today =>
    exact
      { unique := ho.unique
        numbered := ⟨List.nodup_nil, by simp [processStep, PaperSystem.restart, livePaperTrader,
          PaperTrader.new]⟩
        not_paused := rfl
        processes := fun o hmem => (ho.processes o hmem).trans (Nat.le_succ _)
        known := by simp [processStep, PaperSystem.restart, livePaperTrader, PaperTrader.new]
        le_counter := fun id o h => absurd h (heldAs_restart ho)
        held_unique := fun id o o' h => absurd h (heldAs_restart ho)
        recorded := fun id o h => absurd h (heldAs_restart ho)
        alive := by simp [processStep, PaperSystem.restart, livePaperTrader, PaperTrader.new] }

/-! ## What a step does to the rows -/

theorem not_modifies_refl (db : Tables) {row : Trade} (h : row ∈ db.trades) :
    ¬Modifies db db row := by
  simp [Modifies, h]

/-- Executions of other trades do not modify a row that stays. -/
theorem not_modifies_of_new {db db' : Tables} {row : Trade} (new : List TradeExecution)
    (hrow : row ∈ db'.trades) (hexec : db'.executions = db.executions ++ new)
    (hnew : ∀ x ∈ new, x.tradeId ≠ row.tradeId) : ¬Modifies db db' row := by
  have hnil : (new.filter fun x => x.tradeId = row.tradeId) = [] := by
    rw [List.filter_eq_nil_iff]
    intro x hx
    simpa using hnew x hx
  simp [Modifies, hrow, hexec, hnil]

theorem faithful_tick (ho : w.Owned) (hc : w.TouchesOwnPositions (.op (.tick t))) :
    w.Faithful (.op (.tick t)) := by
  cases hshown : shownCandle w.system.candles t.symbol t.timeframe with
  | none =>
    have htick := ticked_of_none hshown
    have htables : (w.processStep (.op (.tick t))).system.tables = w.system.tables := by
      simp [processStep, step, PaperSystem.step, htick]
    refine ⟨?_, ?_, ?_⟩
    · simp [emits, PaperSystem.emitted, htick]
    · intro row hrow _
      rw [htables]
      exact not_modifies_refl _ hrow
    · intro row hrow _ _
      rw [htables]
      exact not_modifies_refl _ hrow
  | some c =>
  obtain ⟨mid, h⟩ := ticked_shown ho.numbered ho.not_paused hshown
  have hemits : w.emits (.op (.tick t)) = (w.system.ticked t).events := by
    simp [emits, PaperSystem.emitted, Function.comp_def]
  have others : ∀ row ∈ w.system.tables.trades,
      (∀ e ∈ (w.system.ticked t).events, e.tradeId ≠ row.tradeId) →
      ¬Modifies w.system.tables (w.system.ticked t).tables row := by
    intro row hrow hne
    have hmid := h.recorded.untouched row hrow hne
    obtain ⟨new, hexec, hnewid⟩ := h.recorded.executions
    obtain ⟨inserted, -, htables, hinserted⟩ := h.inserted
    refine not_modifies_of_new (new ++ inserted.map entryExecution) ?_ ?_ ?_
    · rw [htables]
      exact List.mem_append_left _ hmid
    · rw [htables, hexec, List.append_assoc]
    · intro x hx
      rcases List.mem_append.1 hx with hx | hx
      · obtain ⟨e, he, hid⟩ := hnewid x hx
        rw [hid]
        exact hne e he
      · obtain ⟨p, hp, rfl⟩ := List.mem_map.1 hx
        exact (hinserted p hp row hmid).symm
  -- a touched position was opened under a free id
  have hfree : ∀ e ∈ (w.system.ticked t).events, ∃ p ∈ w.system.paperTrader.positions,
      e.tradeId = p.tradeId ∧ ∃ o, w.HeldAs p.tradeId o ∧ o.taken = false := by
    intro e he
    obtain ⟨p, hp, htouched, -, hid⟩ := h.position_of_event he
    obtain ⟨o, hheld⟩ := ho.known p hp
    exact ⟨p, hp, hid, o, hheld, hc c hshown p hp htouched o hheld⟩
  refine ⟨?_, ?_, ?_⟩
  · rw [hemits]
    intro e he row hrow hid
    obtain ⟨p, -, hpid, o, hheld, htaken⟩ := hfree e he
    rw [hpid]
    exact ⟨o, hheld, ho.recorded _ o hheld htaken row hrow (hid.trans hpid),
      fun o' hheld' => ho.held_unique _ o' o hheld' hheld⟩
  · rw [hemits]
    exact others
  · intro row hrow _ hclosed
    refine others row hrow fun e he hid => ?_
    obtain ⟨p, hp, hpid, o, hheld, htaken⟩ := hfree e he
    exact ho.alive p hp o hheld htaken row hrow (hid.symm.trans hpid) hclosed

theorem faithful_of_unmodified (hemits : w.emits op = [])
    (h : ∀ row ∈ w.system.tables.trades,
      ¬Modifies w.system.tables (w.processStep op).system.tables row) : w.Faithful op where
  own := by simp [hemits]
  others := fun row hrow _ => h row hrow
  closed := fun row hrow _ _ => h row hrow

theorem faithful_step (ho : w.Owned) (hc : w.TouchesOwnPositions op) : w.Faithful op := by
  cases op with
  | op op =>
    cases op with
    | store candles signals =>
      exact faithful_of_unmodified rfl fun row hrow => not_modifies_refl _ hrow
    | tick t => exact faithful_tick ho hc
    | execute call =>
      refine faithful_of_unmodified rfl fun row hrow => ?_
      change ¬Modifies w.system.tables (w.step (.execute call)).system.tables row
      rcases tables_after_execute w call with htables | ⟨plan, position, -, hnew, htables⟩
      · rw [htables]
        exact not_modifies_refl _ hrow
      · rw [htables]
        refine not_modifies_of_new _ (List.mem_append_left _ hrow) rfl ?_
        intro x hx
        rw [List.mem_singleton.1 hx]
        exact (hnew row hrow).symm
  | restart today => exact faithful_of_unmodified rfl fun row hrow => not_modifies_refl _ hrow

/-- **Paper-trade persistence across restarts**: in every run from the start of a process, over
paper opens, ticks and restarts, whose candles reach no level of a position that was opened under
a trade id some row had already, every event refers to the row of its own position, nothing else
is modified, and no closed paper row is. -/
theorem persistence_faithful (w : Watched) (ops : List ProcessOp) (hw : w.Fresh)
    (hc : Guarded processStep TouchesOwnPositions w ops) : Guarded processStep Faithful w ops :=
  hc.of_invariant (fun _ _ ho _ => owned_step ho) (fun _ _ ho hc => faithful_step ho hc) hw.owned

theorem touchesOwnPositions_of_free (h : ∀ o ∈ w.openings, o.taken = false) :
    w.TouchesOwnPositions op := by
  unfold TouchesOwnPositions
  split
  · exact fun _ _ _ _ _ o hheld => h o hheld.mem
  · trivial

/-- A trade from its signal to its target, a restart, and a second trade under the same id. -/
def restartRun : List ProcessOp :=
  [.op (.store quietCandles [sampleSignal "S1" 59]), .op (.tick sampleTick),
    .op (.store [sampleCandle 60 111 99] []), .op (.tick sampleTick), .restart 0,
    .op (.store [sampleCandle 61 101 99] [sampleSignal "S2" 61]), .op (.tick sampleTick),
    .op (.store [sampleCandle 62 101 89] [])]

/-- The law on a run with two trades and a restart between them, until the second trade, whose own
insert failed, is stopped out. -/
theorem persistence_faithful_restartRun :
    Guarded processStep Faithful sampleStart restartRun ∧
      (run processStep sampleStart restartRun).openings.map Opening.recorded = [true, false] := by
  refine ⟨persistence_faithful sampleStart restartRun sampleStart_fresh
    ⟨trivial, ?_, trivial, ?_, trivial, trivial, ?_, trivial, trivial⟩, by decide +kernel⟩
  all_goals exact touchesOwnPositions_of_free (by decide +kernel)

/-- The stop of the second trade rewrites the closed row of the first. -/
theorem restart_modifies_closed_row : sampleStart.Fresh ∧
    ¬Guarded processStep Faithful sampleStart (restartRun ++ [.op (.tick sampleTick)]) := by
  refine ⟨sampleStart_fresh, fun h => ?_⟩
  have hlast := (guarded_append.1 h).2.1
  have hrow : ∃ row ∈ (run processStep sampleStart restartRun).system.tables.trades,
      row.mode = .paper ∧ row.status = .closed ∧
        row ∉ ((run processStep sampleStart restartRun).processStep
          (.op (.tick sampleTick))).system.tables.trades := by
    decide +kernel
  obtain ⟨row, hrow, hmode, hclosed, hgone⟩ := hrow
  exact hlast.closed row hrow hmode hclosed (Or.inl hgone)

end Watched

end AlphaOne.Paper

import AlphaOne.Journal.Journal
import AlphaOne.Paper.Reaction
import Mathlib.Data.List.Sort

/-!
# The durable record of paper trades

`services/paper_trader/persistence.py`: every event of the paper trader is mirrored into the
journal's tables. A function takes the tables and returns its result with the tables it leaves;
`commits` is whether the database accepts the commit when no constraint stands against it, as it
does not after a lost connection or for a value its column type refuses. A commit that fails
raises and changes nothing.
-/

namespace AlphaOne.Paper

open Foundations Journal

/-- How a commit fails. -/
inductive DatabaseError
  /-- The unique index on `trades.trade_id`. -/
  | integrityError
  | operationalError
  deriving DecidableEq, Repr

/-- A paper trade that the program counts as open on a symbol, from the given source or any. -/
def IsOpenPaper (symbol : String) (source : Option TradeSource) (t : Trade) : Prop :=
  t.symbol = symbol ∧ t.mode = .paper ∧ (t.status = .open_ ∨ t.status = .partiallyClosed) ∧
    ∀ s ∈ source, t.source = s

instance (symbol : String) (source : Option TradeSource) (t : Trade) :
    Decidable (IsOpenPaper symbol source t) := by
  unfold IsOpenPaper
  infer_instance

/-- The latest of the open paper trades on the symbol, by entry time. -/
def getOpenPaperTrade (symbol : String) (source : Option TradeSource) (db : Tables) :
    Option Trade :=
  ((db.trades.filter (IsOpenPaper symbol source)).insertionSort
    fun a b => b.entryTime ≤ a.entryTime).head?

/-- The note of an entry: its evidence is the strategy name, or `n/a`. -/
def entryNote (position : PaperPosition) : ExecutionNote :=
  .paperEntry <| match position.strategyName with
    | none | some "" => "n/a"
    | some name => name

/-- The row of a new paper position. -/
def paperTrade (position : PaperPosition) (symbol : String) (source : TradeSource) : Trade :=
  { tradeId := position.tradeId
    signalId := some position.signalId
    symbol
    side := position.side
    status := .open_
    mode := .paper
    entryPrice := position.entryPrice
    stopLoss := some position.stopLoss
    takeProfit1 := position.takeProfit1
    takeProfit2 := position.takeProfit2
    takeProfit3 := position.takeProfit3
    quantity := position.quantity
    leverage := position.leverage
    entryTime := position.entryTime
    marketRegime := position.marketRegime
    isManualEntry := false
    source
    dataSource := .synced }

/-- The entry execution of a new paper position. -/
def entryExecution (position : PaperPosition) : TradeExecution :=
  { tradeId := position.tradeId
    executionType := .entry
    price := position.entryPrice
    quantity := position.quantity
    timestamp := position.entryTime
    note := some (entryNote position) }

def persistPaperOpen (position : PaperPosition) (symbol : String) (source : TradeSource)
    (commits : Bool) (db : Tables) : Except DatabaseError Trade × Tables :=
  if (db.trade? position.tradeId).isSome then (.error .integrityError, db)
  else if !commits then (.error .operationalError, db)
  else
    let trade := paperTrade position symbol source
    (.ok trade,
      { trades := db.trades ++ [trade]
        executions := db.executions ++ [entryExecution position] })

/-- The execution an event is recorded as. -/
def eventExecution (event : PaperEvent) : TradeExecution :=
  { tradeId := event.tradeId
    executionType := match event.detail with
      | .partialExit _ => .partialExit
      | .exit .. => .exit
    price := event.exitPrice
    quantity := event.quantity
    timestamp := event.exitTime
    note := some <| match event.detail with
      | .partialExit targetIndex => .targetExit targetIndex event.pnl
      | .exit _ _ _ _ _ _ _ exitReason _ => .closed exitReason.text }

/-- The row of a trade after one of its events. -/
def withEvent (event : PaperEvent) (trade : Trade) : Trade :=
  match event.detail with
  | .partialExit _ => { trade with status := .partiallyClosed }
  | .exit _ _ _ _ _ pnlPct rMultiple exitReason _ =>
    { trade with
      status := .closed
      exitPrice := some event.exitPrice
      exitTime := some event.exitTime
      pnl := event.pnl
      pnlPct
      fees := event.fees
      rMultiple
      exitReason := some exitReason.text }

def persistPaperEvent (event : PaperEvent) (commits : Bool) (db : Tables) :
    Except DatabaseError Unit × Tables :=
  match db.trade? event.tradeId with
  | none => (.ok (), db)
  | some trade =>
    if commits then
      (.ok (),
        { trades := save Trade.tradeId (withEvent event trade) db.trades
          executions := db.executions ++ [eventExecution event] })
    else (.error .operationalError, db)

/-- The loop over the events of a candle, which the first commit that fails ends. -/
def persistPaperEvents (commits : PaperEvent → Bool) :
    List PaperEvent → Tables → Except DatabaseError Unit × Tables
  | [], db => (.ok (), db)
  | event :: rest, db =>
    match persistPaperEvent event (commits event) db with
    | (.error e, db) => (.error e, db)
    | (.ok (), db) => persistPaperEvents commits rest db

/-! ## What is written -/

variable {db : Tables} {position : PaperPosition} {symbol : String} {source : TradeSource}
  {event : PaperEvent} {commits : Bool} {t : Trade}

@[simp] theorem withEvent_tradeId (event : PaperEvent) (t : Trade) :
    (withEvent event t).tradeId = t.tradeId := by
  unfold withEvent
  split <;> rfl

/-- The columns an event leaves as they are. -/
theorem withEvent_entry (event : PaperEvent) (t : Trade) :
    (withEvent event t).symbol = t.symbol ∧ (withEvent event t).side = t.side ∧
      (withEvent event t).mode = t.mode ∧ (withEvent event t).source = t.source ∧
      (withEvent event t).quantity = t.quantity := by
  unfold withEvent
  split <;> exact ⟨rfl, rfl, rfl, rfl, rfl⟩

theorem withEvent_status (event : PaperEvent) (t : Trade) :
    (withEvent event t).status = if event.IsExit then .closed else .partiallyClosed := by
  cases hd : event.detail with
  | partialExit =>
    have h : ¬event.IsExit := by simp [PaperEvent.IsExit, hd]
    rw [if_neg h]
    simp [withEvent, hd]
  | exit =>
    have h : event.IsExit := by simp [PaperEvent.IsExit, hd]
    rw [if_pos h]
    simp [withEvent, hd]

@[simp] theorem eventExecution_isExit (event : PaperEvent) :
    (eventExecution event).isExit = true := by
  unfold TradeExecution.isExit eventExecution
  cases event.detail <;> rfl

theorem persistPaperEvent_of_row (h : db.trade? event.tradeId = some t) :
    persistPaperEvent event true db = (.ok (),
      { trades := save Trade.tradeId (withEvent event t) db.trades
        executions := db.executions ++ [eventExecution event] }) := by
  simp [persistPaperEvent, h]

/-- An event whose trade has no row, or whose commit fails, leaves the tables as they were. -/
theorem persistPaperEvent_cases (event : PaperEvent) (commits : Bool) (db : Tables) :
    (persistPaperEvent event commits db).2 = db ∨
      ∃ t, db.trade? event.tradeId = some t ∧ commits = true ∧
        (persistPaperEvent event commits db).2 =
          { trades := save Trade.tradeId (withEvent event t) db.trades
            executions := db.executions ++ [eventExecution event] } := by
  unfold persistPaperEvent
  split
  · exact Or.inl rfl
  · rename_i t ht
    split
    · rename_i hc
      exact Or.inr ⟨t, ht, hc, rfl⟩
    · exact Or.inl rfl

/-- What the events of a candle leave of the rows and of the executions, whether or not the last
commit failed. -/
structure Recorded (events : List PaperEvent) (db db' : Tables) : Prop where
  tradeIds : db'.trades.map Trade.tradeId = db.trades.map Trade.tradeId
  rows : ∀ t' ∈ db'.trades, ∃ t ∈ db.trades, t.tradeId = t'.tradeId ∧
    (t'.status = .closed → t.status = .closed ∨ ∃ e ∈ events, e.tradeId = t.tradeId ∧ e.IsExit)
  untouched : ∀ t ∈ db.trades, (∀ e ∈ events, e.tradeId ≠ t.tradeId) → t ∈ db'.trades
  executions : ∃ new, db'.executions = db.executions ++ new ∧
    ∀ x ∈ new, ∃ e ∈ events, x.tradeId = e.tradeId

theorem Recorded.refl (events : List PaperEvent) (db : Tables) : Recorded events db db where
  tradeIds := rfl
  rows := fun t ht => ⟨t, ht, rfl, Or.inl⟩
  untouched := fun _ ht _ => ht
  executions := ⟨[], by simp, by simp⟩

theorem Recorded.cons {db₁ db₂ : Tables} {events : List PaperEvent}
    (h₁ : Recorded [event] db db₁) (h₂ : Recorded events db₁ db₂) :
    Recorded (event :: events) db db₂ where
  tradeIds := h₂.tradeIds.trans h₁.tradeIds
  rows := by
    intro t₂ ht₂
    obtain ⟨t₁, ht₁, hid₁, hclosed₁⟩ := h₂.rows t₂ ht₂
    obtain ⟨t, ht, hid, hclosed⟩ := h₁.rows t₁ ht₁
    refine ⟨t, ht, hid.trans hid₁, fun h => ?_⟩
    rcases hclosed₁ h with h | ⟨e, he, heid, hexit⟩
    · rcases hclosed h with h | ⟨e, he, heid, hexit⟩
      · exact Or.inl h
      · exact Or.inr ⟨e, by simpa using Or.inl (List.mem_singleton.1 he), heid, hexit⟩
    · exact Or.inr ⟨e, List.mem_cons_of_mem _ he, heid.trans hid.symm, hexit⟩
  untouched := fun t ht he => h₂.untouched t
    (h₁.untouched t ht fun e he' => he e (by simpa using Or.inl (List.mem_singleton.1 he')))
    fun e he' => he e (List.mem_cons_of_mem _ he')
  executions := by
    obtain ⟨new₁, hnew₁, hid₁⟩ := h₁.executions
    obtain ⟨new₂, hnew₂, hid₂⟩ := h₂.executions
    refine ⟨new₁ ++ new₂, by rw [hnew₂, hnew₁, List.append_assoc], fun x hx => ?_⟩
    rcases List.mem_append.1 hx with hx | hx
    · obtain ⟨e, he, hid⟩ := hid₁ x hx
      exact ⟨e, by simpa using Or.inl (List.mem_singleton.1 he), hid⟩
    · obtain ⟨e, he, hid⟩ := hid₂ x hx
      exact ⟨e, List.mem_cons_of_mem _ he, hid⟩

theorem persistPaperEvent_recorded (event : PaperEvent) (commits : Bool) (db : Tables) :
    Recorded [event] db (persistPaperEvent event commits db).2 := by
  rcases persistPaperEvent_cases event commits db with h | ⟨t, ht, -, h⟩
  · rw [h]
    exact Recorded.refl _ db
  · have hid : t.tradeId = event.tradeId := key_of_lookup ht
    rw [h]
    refine ⟨map_key_save, fun t' ht' => ?_, fun o ho he => ?_, [eventExecution event], rfl, ?_⟩
    · rcases mem_save.1 ht' with ⟨ht', -⟩ | ⟨rfl, -⟩
      · exact ⟨t', ht', rfl, Or.inl⟩
      · refine ⟨t, mem_of_lookup ht, (withEvent_tradeId event t).symm, fun hclosed => ?_⟩
        rw [withEvent_status] at hclosed
        split at hclosed
        · rename_i hexit
          exact Or.inr ⟨event, by simp, hid.symm, hexit⟩
        · cases hclosed
    · refine mem_save_of_ne ho fun heq => he event (by simp) ?_
      rw [heq, withEvent_tradeId, hid]
    · intro x hx
      exact ⟨event, by simp, by rw [List.mem_singleton.1 hx]; rfl⟩

theorem persistPaperEvents_recorded (commits : PaperEvent → Bool) (events : List PaperEvent)
    (db : Tables) : Recorded events db (persistPaperEvents commits events db).2 := by
  induction events generalizing db with
  | nil => exact Recorded.refl _ db
  | cons event rest ih =>
    have h := persistPaperEvent_recorded event (commits event) db
    unfold persistPaperEvents
    split
    · rename_i e db' hp
      rw [hp] at h
      exact h.cons (Recorded.refl rest db')
    · rename_i db' hp
      rw [hp] at h
      exact h.cons (ih db')

/-- A position is recorded exactly when its trade id is new and the commit is accepted. -/
theorem persistPaperOpen_cases (position : PaperPosition) (symbol : String) (source : TradeSource)
    (commits : Bool) (db : Tables) :
    (db.trade? position.tradeId = none ∧ commits = true ∧
      persistPaperOpen position symbol source commits db =
        (.ok (paperTrade position symbol source),
          { trades := db.trades ++ [paperTrade position symbol source]
            executions := db.executions ++ [entryExecution position] })) ∨
    ((db.trade? position.tradeId ≠ none ∨ commits = false) ∧
      ∃ e, persistPaperOpen position symbol source commits db = (.error e, db)) := by
  unfold persistPaperOpen
  split
  · rename_i h
    exact Or.inr ⟨Or.inl (Option.isSome_iff_ne_none.1 h), _, rfl⟩
  · rename_i h
    split
    · rename_i hc
      exact Or.inr ⟨Or.inr (by simpa using hc), _, rfl⟩
    · rename_i hc
      exact Or.inl ⟨by simpa using h, by simpa using hc, rfl⟩

theorem mem_of_getOpenPaperTrade {source : Option TradeSource}
    (h : getOpenPaperTrade symbol source db = some t) :
    t ∈ db.trades ∧ IsOpenPaper symbol source t := by
  have hmem := List.mem_of_mem_head? h
  simpa [List.mem_insertionSort, List.mem_filter] using hmem

end AlphaOne.Paper

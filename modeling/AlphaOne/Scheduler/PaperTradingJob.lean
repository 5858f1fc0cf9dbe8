import AlphaOne.ModelMonitor.Health
import AlphaOne.Paper.Persistence

/-!
# The paper-trading job

`ai_paper_trading_job` of `services/scheduler/jobs.py`, with the candle loader it shares with the
signal engine. A tick shows the newest stored candle of a symbol to the AI book, records the
events, and opens a position for every signal of that candle, unless the model health refuses
new positions. The AI evidence of a signal decides nothing here; only that computing it may raise
is kept.
-/

namespace AlphaOne.Scheduler

open Foundations Journal ModelMonitor Paper

/-- `DEFAULT_LOOKBACK_BARS`. -/
def defaultLookbackBars : ℕ := 250

/-- `MIN_BARS_REQUIRED`. -/
def minBarsRequired : ℕ := 60

/-- A stored candle the loader selects. -/
def IsLoaded (symbol timeframe : String) (c : Candle) : Prop :=
  c.symbol = symbol ∧ c.timeframe = timeframe ∧ c.qualityStatus = .valid

instance (symbol timeframe : String) : DecidablePred (IsLoaded symbol timeframe) := fun c => by
  unfold IsLoaded
  infer_instance

/-- `_load_recent_candles`: the latest `limit` valid candles of the symbol, in time order. -/
def loadRecentCandles (candles : List Candle) (symbol timeframe : String) (limit : ℕ) :
    List Candle :=
  (((candles.filter (IsLoaded symbol timeframe)).insertionSort
    fun a b => b.timestamp ≤ a.timestamp).take limit).reverse

/-- A tick of the job: its arguments, and what it reads from its environment. Every `await` may
raise; `enriches`, `commitsEvent` and `commitsOpen` are whether those inside the loops return. -/
structure Tick where
  symbol : String := "BTC/USDT"
  timeframe : String := "4h"
  /-- The clock when a trade is closed, by trade id. -/
  clock : String → Datetime
  /-- The clock when a signal is looked at. -/
  now : Signal → Datetime
  /-- The classes of the stored predictions, latest first. -/
  predictions : List SignalType := []
  enriches : Signal → Bool := fun _ => true
  commitsEvent : PaperEvent → Bool := fun _ => true
  commitsOpen : PaperPosition → Bool := fun _ => true

/-- What a tick does: whether it returns, the events the AI book emits, the positions that are
put into the book, and the state it leaves. -/
structure Ticked where
  completed : Bool
  events : List PaperEvent := []
  opened : List PaperPosition := []
  tables : Tables
  paperTrader : PaperTrader

/-- The signals of a candle that the job trades. -/
def signalsOf (signals : List Signal) (symbol timeframe : String) (timestamp : Datetime) :
    List Signal :=
  signals.filter fun s => s.symbol = symbol ∧ s.timeframe = some timeframe ∧
    s.timestamp = timestamp ∧ (s.signalType = .long ∨ s.signalType = .short)

/-- The loop over the signals of a tick. -/
def openPositions (tick : Tick) : List Signal → Tables → PaperTrader → Ticked
  | [], db, trader => { completed := true, tables := db, paperTrader := trader }
  | signal :: rest, db, trader =>
    if !tick.enriches signal then { completed := false, tables := db, paperTrader := trader }
    else
      match trader.openPosition signal (tick.now signal) with
      | (none, trader) => openPositions tick rest db trader
      | (some position, trader) =>
        match persistPaperOpen position tick.symbol .aiPaper (tick.commitsOpen position) db with
        | (.error _, db) =>
          { completed := false, opened := [position], tables := db, paperTrader := trader }
        | (.ok _, db) =>
          let ticked := openPositions tick rest db trader
          { ticked with opened := position :: ticked.opened }

/-- The candle a tick shows to the book: the newest, when enough candles are stored. -/
def shownCandle (candles : List Candle) (symbol timeframe : String) : Option Candle :=
  let df := loadRecentCandles candles symbol timeframe defaultLookbackBars
  if df.length < minBarsRequired then none else df.getLast?

def aiPaperTradingJob (tick : Tick) (candles : List Candle) (signals : List Signal) (db : Tables)
    (trader : PaperTrader) : Ticked :=
  match shownCandle candles tick.symbol tick.timeframe with
  | none => { completed := true, tables := db, paperTrader := trader }
  | some lastCandle =>
    let (events, trader) := trader.processCandle lastCandle tick.clock
    match persistPaperEvents tick.commitsEvent events db with
    | (.error _, db) => { completed := false, events, tables := db, paperTrader := trader }
    | (.ok (), db) =>
      if evaluateModelHealth db.trades tick.predictions = .disabled then
        { completed := true, events, tables := db, paperTrader := trader }
      else
        let ticked := openPositions tick
          (signalsOf signals tick.symbol tick.timeframe lastCandle.timestamp) db trader
        { ticked with events }

/-! ## What a tick does -/

/-- The positions of an AI book are numbered by the counter of its trader. -/
structure Numbered (trader : PaperTrader) : Prop where
  unique : UniqueKey PaperPosition.tradeId trader.positions
  le_counter : ∀ p ∈ trader.positions, ∃ k ≤ trader.tradeCounter, p.tradeId = paperTradeId k

/-- What the loop over the signals of the candle at `timestamp` adds to the book and to the tables
it starts from: the positions it opens, and the rows of the first of them, all but the last if
the insert of that one fails. -/
structure Extends (symbol : String) (timestamp : Datetime) (db : Tables) (trader : PaperTrader)
    (r : Ticked) : Prop where
  positions : r.paperTrader.positions = trader.positions ++ r.opened
  tradeCounter : r.paperTrader.tradeCounter = trader.tradeCounter + r.opened.length
  isPaused : r.paperTrader.isPaused = trader.isPaused
  tradeIds : r.opened.map PaperPosition.tradeId =
    (List.range' (trader.tradeCounter + 1) r.opened.length).map paperTradeId
  entryTime : ∀ p ∈ r.opened, p.entryTime = timestamp
  inserted : ∃ inserted, inserted <+: r.opened ∧
    r.tables =
      { trades := db.trades ++ inserted.map (paperTrade · symbol .aiPaper)
        executions := db.executions ++ inserted.map entryExecution } ∧
    ∀ p ∈ inserted, ∀ t ∈ db.trades, t.tradeId ≠ p.tradeId

variable {symbol : String} {timestamp : Datetime} {db : Tables} {trader : PaperTrader} {r : Ticked}
  {tick : Tick} {signals : List Signal}

/-- A loop that opens nothing. -/
theorem Extends.of_nothing (hopened : r.opened = []) (htables : r.tables = db)
    (hpositions : r.paperTrader.positions = trader.positions)
    (hcounter : r.paperTrader.tradeCounter = trader.tradeCounter)
    (hpaused : r.paperTrader.isPaused = trader.isPaused) :
    Extends symbol timestamp db trader r where
  positions := by simp [hopened, hpositions]
  tradeCounter := by simp [hopened, hcounter]
  isPaused := hpaused
  tradeIds := by simp [hopened]
  entryTime := by simp [hopened]
  inserted := ⟨[], by simp, by simp [htables], by simp⟩

/-- The counter has not been used for the position a signal opens next. -/
theorem Numbered.new {signal : Signal} {now : Datetime} {position : PaperPosition}
    {t' : PaperTrader} (hn : Numbered trader)
    (ho : trader.openPosition signal now = (some position, t')) :
    PaperTrader.Opened signal trader position t' ∧
      t'.positions = trader.positions ++ [position] ∧ Numbered t' := by
  have hopen : PaperTrader.Opened signal trader position t' := by
    have h : (trader.openPosition signal now).1 = some position := by rw [ho]
    have h := PaperTrader.openPosition_some h
    rwa [ho] at h
  have hnew : ∀ p ∈ trader.positions, p.tradeId ≠ position.tradeId := by
    intro p hp he
    obtain ⟨k, hk, hid⟩ := hn.le_counter p hp
    have := paperTradeId_injective (hid.symm.trans (he.trans hopen.tradeId))
    omega
  have hpositions := hopen.positions.trans (upsert_of_new hnew)
  refine ⟨hopen, hpositions, ?_, ?_⟩
  · rw [hpositions]
    exact hn.unique.append_singleton hnew
  · intro p hp
    rw [hopen.tradeCounter]
    rw [hpositions, List.mem_append, List.mem_singleton] at hp
    rcases hp with hp | rfl
    · obtain ⟨k, hk, hid⟩ := hn.le_counter p hp
      exact ⟨k, by omega, hid⟩
    · exact ⟨_, le_rfl, hopen.tradeId⟩

/-- A signal that opens nothing leaves the book and the counter. -/
theorem openPosition_skip {signal : Signal} {now : Datetime} {t' : PaperTrader}
    (ho : trader.openPosition signal now = (none, t')) :
    t'.positions = trader.positions ∧ t'.tradeCounter = trader.tradeCounter ∧
      t'.isPaused = trader.isPaused := by
  have h : (trader.openPosition signal now).1 = none := by rw [ho]
  have h := PaperTrader.openPosition_none h
  rw [ho] at h
  rcases h with h | h <;> simp only at h <;> subst h <;> exact ⟨rfl, rfl, rfl⟩

/-- What follows a signal that opens nothing. -/
theorem Extends.of_skip {t' : PaperTrader} (h : Extends symbol timestamp db t' r)
    (hpositions : t'.positions = trader.positions)
    (hcounter : t'.tradeCounter = trader.tradeCounter) (hpaused : t'.isPaused = trader.isPaused) :
    Extends symbol timestamp db trader r where
  positions := h.positions.trans (by rw [hpositions])
  tradeCounter := h.tradeCounter.trans (by rw [hcounter])
  isPaused := h.isPaused.trans hpaused
  tradeIds := by rw [h.tradeIds, hcounter]
  entryTime := h.entryTime
  inserted := h.inserted

/-- What follows a position that is put into the book and whose row is inserted. -/
theorem Extends.cons {signal : Signal} {position : PaperPosition} {t' : PaperTrader}
    (h : Extends symbol timestamp
      { trades := db.trades ++ [paperTrade position symbol .aiPaper]
        executions := db.executions ++ [entryExecution position] } t' r)
    (hopen : PaperTrader.Opened signal trader position t')
    (hpositions : t'.positions = trader.positions ++ [position])
    (hentry : position.entryTime = timestamp)
    (hfree : ∀ t ∈ db.trades, t.tradeId ≠ position.tradeId) :
    Extends symbol timestamp db trader { r with opened := position :: r.opened } := by
  obtain ⟨h₁, h₂, h₃, h₄, h₅, inserted, hpre, htables, hnew⟩ := h
  refine ⟨?_, ?_, h₃.trans hopen.isPaused, ?_, ?_, position :: inserted, ?_, ?_, ?_⟩
  · rw [h₁, hpositions, List.append_assoc, List.singleton_append]
  · rw [h₂, hopen.tradeCounter, List.length_cons]
    omega
  · rw [List.map_cons, h₄, hopen.tradeCounter, List.length_cons, List.range'_succ, List.map_cons,
      hopen.tradeId]
  · intro p hmem
    rcases List.mem_cons.1 hmem with rfl | hmem
    · exact hentry
    · exact h₅ p hmem
  · exact (List.prefix_cons_inj position).2 hpre
  · rw [htables]
    simp
  · intro p hmem t ht
    rcases List.mem_cons.1 hmem with rfl | hmem
    · exact hfree t ht
    · exact hnew p hmem t (by simp [ht])

variable (tick db) in
theorem openPositions_extends (hn : Numbered trader)
    (htime : ∀ s ∈ signals, s.timestamp = timestamp) :
    Extends tick.symbol timestamp db trader (openPositions tick signals db trader) := by
  induction signals generalizing db trader with
  | nil => exact Extends.of_nothing rfl rfl rfl rfl rfl
  | cons signal rest ih =>
    have hrest : ∀ s ∈ rest, s.timestamp = timestamp := fun s hs => htime s (by simp [hs])
    unfold openPositions
    split
    · exact Extends.of_nothing rfl rfl rfl rfl rfl
    · cases ho : trader.openPosition signal (tick.now signal) with
      | mk o t' =>
      cases o with
      | none =>
        obtain ⟨hpositions, hcounter, hpaused⟩ := openPosition_skip ho
        have hn' : Numbered t' := by
          constructor
          · rw [hpositions]
            exact hn.unique
          · rw [hpositions, hcounter]
            exact hn.le_counter
        exact (ih db hn' hrest).of_skip hpositions hcounter hpaused
      | some position =>
        obtain ⟨hopen, hpositions, hn'⟩ := hn.new ho
        have hentry : position.entryTime = timestamp :=
          hopen.entryTime.trans (htime signal (by simp))
        rcases persistPaperOpen_cases position tick.symbol .aiPaper (tick.commitsOpen position) db
          with ⟨hfree, -, hp⟩ | ⟨-, e, hp⟩
        · simp only [hp]
          exact (ih _ hn' hrest).cons hopen hpositions hentry (lookup_eq_none_iff.1 hfree)
        · simp only [hp]
          exact
            { positions := hpositions
              tradeCounter := hopen.tradeCounter
              isPaused := hopen.isPaused
              tradeIds := by simp [hopen.tradeId]
              entryTime := by simpa using hentry
              inserted := ⟨[], by simp, by simp, by simp⟩ }

/-- A tick that has too few candles does nothing. -/
theorem aiPaperTradingJob_of_none {candles : List Candle}
    (h : shownCandle candles tick.symbol tick.timeframe = none) :
    aiPaperTradingJob tick candles signals db trader =
      { completed := true, tables := db, paperTrader := trader } := by
  simp [aiPaperTradingJob, h]

variable (signals db) in
/-- A tick shows a candle to the book, records the events, and then runs the loop over the signals
of the candle, or does without it. -/
theorem aiPaperTradingJob_of_some {candles : List Candle} {c : Candle}
    (h : shownCandle candles tick.symbol tick.timeframe = some c)
    (hn : Numbered (trader.processCandle c tick.clock).2) :
    (aiPaperTradingJob tick candles signals db trader).events =
        (trader.processCandle c tick.clock).1 ∧
      Extends tick.symbol c.timestamp
        (persistPaperEvents tick.commitsEvent (trader.processCandle c tick.clock).1 db).2
        (trader.processCandle c tick.clock).2
        (aiPaperTradingJob tick candles signals db trader) := by
  simp only [aiPaperTradingJob, h]
  cases hp : persistPaperEvents tick.commitsEvent (trader.processCandle c tick.clock).1 db with
  | mk result db' =>
  cases result with
  | error e => exact ⟨rfl, Extends.of_nothing rfl rfl rfl rfl rfl⟩
  | ok u =>
    dsimp only
    split
    · exact ⟨rfl, Extends.of_nothing rfl rfl rfl rfl rfl⟩
    · refine ⟨rfl, ?_⟩
      have htime : ∀ s ∈ signalsOf signals tick.symbol tick.timeframe c.timestamp,
          s.timestamp = c.timestamp := by
        intro s hs
        simp only [signalsOf, List.mem_filter, decide_eq_true_eq] at hs
        exact hs.2.2.2.1
      obtain ⟨h₁, h₂, h₃, h₄, h₅, h₆⟩ := openPositions_extends db' tick hn htime
      exact ⟨h₁, h₂, h₃, h₄, h₅, h₆⟩

end AlphaOne.Scheduler

import AlphaOne.Foundations.Run
import AlphaOne.Scheduler.PaperTradingJob
import AlphaOne.TelegramSignals.PaperExecution

/-!
# The paper-trading process and its database

Two in-memory books work on one database: the AI book of `services/paper_trader/live_state.py`,
which the paper-trading job manages, and the multi-coin book of
`services/telegram_signals/live_state.py`, into which external signals are executed. Between the
ticks of the job other jobs store candles and signals; a restart builds both books anew and keeps
the database.

`Watched` is the system together with a record of its past that the code does not keep: the
positions that were put into the books and the events they emitted. It is what the properties of
runs are stated about.
-/

namespace AlphaOne.Paper

open Foundations Journal Risk Scheduler TelegramSignals

/-- `paper_trader`, built on the day `today`. -/
def livePaperTrader (today : ℤ) : PaperTrader := PaperTrader.new {} 10000 today

/-- `MAX_CONCURRENT_POSITIONS`. -/
def maxConcurrentPositions : ℤ := 20

/-- `multi_coin_paper_trader`, built on the day `today`. -/
def liveMultiCoinPaperTrader (today : ℤ) : PaperTrader :=
  PaperTrader.new { maxPositions := maxConcurrentPositions } 10000 today

structure PaperSystem where
  candles : List Candle := []
  signals : List Signal := []
  tables : Tables := {}
  paperTrader : PaperTrader
  multiCoinPaperTrader : PaperTrader

/-- An operation of a running process. -/
inductive Op
  /-- Candle ingestion and signal generation store rows. -/
  | store (candles : List Candle) (signals : List Signal)
  | tick (tick : Tick)
  | execute (call : ExecuteCall)

/-- An operation, or a restart of the process. -/
inductive ProcessOp
  | op (op : Op)
  | restart (today : ℤ)

/-- The two books. -/
inductive Book
  | ai
  | multiCoin
  deriving DecidableEq, Repr

namespace PaperSystem

/-- The outcome of a tick. -/
def ticked (s : PaperSystem) (t : Tick) : Ticked :=
  aiPaperTradingJob t s.candles s.signals s.tables s.paperTrader

def step (s : PaperSystem) : Op → PaperSystem
  | .store candles signals =>
    { s with
      candles := insertAllNew Candle.key s.candles candles
      signals := s.signals ++ signals }
  | .tick t => { s with tables := (s.ticked t).tables, paperTrader := (s.ticked t).paperTrader }
  | .execute call =>
    let executed := executeValidSignal call s.tables s.multiCoinPaperTrader
    { s with
      tables := executed.tables
      multiCoinPaperTrader := executed.multiCoinPaperTrader }

def restart (s : PaperSystem) (today : ℤ) : PaperSystem :=
  { s with
    paperTrader := livePaperTrader today
    multiCoinPaperTrader := liveMultiCoinPaperTrader today }

/-- The positions an operation puts into a book, with their symbols. -/
def opened (s : PaperSystem) : Op → List (Book × String × PaperPosition)
  | .store _ _ => []
  | .tick t => (s.ticked t).opened.map fun p => (.ai, t.symbol, p)
  | .execute call =>
    match gates call s.tables with
    | .ok (plan, position) => [(.multiCoin, plan.symbol, position)]
    | .error _ => []

/-- The events an operation makes a book emit. Only the job calls `process_candle`, on the AI
book. -/
def emitted (s : PaperSystem) : Op → List (Book × PaperEvent)
  | .tick t => (s.ticked t).events.map fun e => (.ai, e)
  | .store _ _ | .execute _ => []

end PaperSystem

/-- A position that was put into a book. -/
structure Opening where
  /-- The process, counted from the start of the run. -/
  process : ℕ
  book : Book
  symbol : String
  position : PaperPosition
  /-- A trade row had the position's trade id before. -/
  taken : Bool
  /-- The position's own row was inserted. -/
  recorded : Bool

/-- The opening of a position in an operation that leads from the tables `before` to `after`. -/
def opening (process : ℕ) (before after : Tables) (o : Book × String × PaperPosition) : Opening :=
  { process
    book := o.1
    symbol := o.2.1
    position := o.2.2
    taken := (before.trade? o.2.2.tradeId).isSome
    recorded := (before.trade? o.2.2.tradeId).isNone && (after.trade? o.2.2.tradeId).isSome }

/-- The system and the record of its past. -/
structure Watched where
  system : PaperSystem
  process : ℕ := 0
  openings : List Opening := []
  events : List (ℕ × Book × PaperEvent) := []

namespace Watched

def step (w : Watched) (op : Op) : Watched :=
  { system := w.system.step op
    process := w.process
    openings := w.openings ++ (w.system.opened op).map
      (opening w.process w.system.tables (w.system.step op).tables)
    events := w.events ++ (w.system.emitted op).map fun e => (w.process, e) }

def processStep (w : Watched) : ProcessOp → Watched
  | .op op => w.step op
  | .restart today => { w with system := w.system.restart today, process := w.process + 1 }

/-- The events that the position of an opening has emitted, without the trader's equity. -/
def eventsOf (w : Watched) (o : Opening) : List PaperEvent :=
  (w.events.filter fun (process, book, e) =>
    process = o.process ∧ book = o.book ∧ e.tradeId = o.position.tradeId).map
      fun (_, _, e) => e.bare

/-- The start of a process on its database: the books are empty, and there is no past. -/
structure Fresh (w : Watched) : Prop where
  paperTrader : w.system.paperTrader.positions = []
  multiCoinPaperTrader : w.system.multiCoinPaperTrader.positions = []
  not_paused : w.system.paperTrader.isPaused = false
  openings : w.openings = []
  events : w.events = []
  /-- The unique indexes of the database. -/
  trades : UniqueKey Trade.tradeId w.system.tables.trades
  candles : UniqueKey Candle.key w.system.candles

end Watched

/-! ## The books through an operation -/

variable {s : PaperSystem} {t : Tick} {c : Candle}

/-- The ids of the AI book and of the multi-coin book never meet. -/
theorem paperTradeId_ne_telegram (n : ℕ) (id : String) : paperTradeId n ≠ "TG-" ++ id := by
  intro h
  have hl := congrArg (fun s => s.toList.head?) h
  simp [toList_paperTradeId] at hl

/-- What a tick does that shows a candle: the positions of the AI book react to it, and then the
book and the tables are extended by the positions that are opened. -/
structure Shown (s : PaperSystem) (t : Tick) (c : Candle) (mid : Tables) : Prop where
  events : (s.ticked t).events.map PaperEvent.bare =
    PaperTrader.reactions c s.paperTrader.positions
  recorded : Recorded (s.ticked t).events s.tables mid
  positions : (s.ticked t).paperTrader.positions =
    PaperTrader.after c s.paperTrader.positions ++ (s.ticked t).opened
  tradeCounter : (s.ticked t).paperTrader.tradeCounter =
    s.paperTrader.tradeCounter + (s.ticked t).opened.length
  isPaused : (s.ticked t).paperTrader.isPaused = false
  tradeIds : (s.ticked t).opened.map PaperPosition.tradeId =
    (List.range' (s.paperTrader.tradeCounter + 1) (s.ticked t).opened.length).map paperTradeId
  entryTime : ∀ p ∈ (s.ticked t).opened, p.entryTime = c.timestamp
  inserted : ∃ inserted, inserted <+: (s.ticked t).opened ∧
    (s.ticked t).tables =
      { trades := mid.trades ++ inserted.map (paperTrade · t.symbol .aiPaper)
        executions := mid.executions ++ inserted.map entryExecution } ∧
    ∀ p ∈ inserted, ∀ r ∈ mid.trades, r.tradeId ≠ p.tradeId

theorem numbered_after {trader trader' : PaperTrader} (hn : Numbered trader)
    (hpositions : trader'.positions = PaperTrader.after c trader.positions)
    (hcounter : trader'.tradeCounter = trader.tradeCounter) : Numbered trader' := by
  constructor
  · rw [hpositions]
    exact PaperTrader.uniqueKey_after c hn.unique
  · rw [hpositions, hcounter]
    intro p hp
    obtain ⟨q, hq, hqp⟩ := PaperTrader.mem_after.1 hp
    obtain ⟨k, hk, hid⟩ := hn.le_counter q hq
    exact ⟨k, hk, (PaperPosition.samePosition_of_react hqp).tradeId.trans hid⟩

theorem ticked_shown (hn : Numbered s.paperTrader) (hpaused : s.paperTrader.isPaused = false)
    (hc : shownCandle s.candles t.symbol t.timeframe = some c) : ∃ mid, Shown s t c mid := by
  obtain ⟨hevents, hpositions, hcounter, hpaused'⟩ :=
    PaperTrader.processCandle_spec c t.clock hn.unique hpaused
  rw [List.nil_append] at hpositions
  have hn' := numbered_after hn hpositions hcounter
  obtain ⟨he, hx⟩ := aiPaperTradingJob_of_some s.tables s.signals hc hn'
  refine ⟨_, ?_, ?_, ?_, ?_, ?_, ?_, hx.entryTime, hx.inserted⟩
  · rw [PaperSystem.ticked, he, hevents]
  · rw [PaperSystem.ticked, he]
    exact persistPaperEvents_recorded _ _ _
  · rw [PaperSystem.ticked, hx.positions, hpositions]
  · rw [PaperSystem.ticked, hx.tradeCounter, hcounter]
  · rw [PaperSystem.ticked, hx.isPaused, hpaused', hpaused]
  · rw [PaperSystem.ticked, hx.tradeIds, hcounter]

theorem ticked_of_none (hc : shownCandle s.candles t.symbol t.timeframe = none) :
    s.ticked t = { completed := true, tables := s.tables, paperTrader := s.paperTrader } :=
  aiPaperTradingJob_of_none hc

/-- The numbers of the positions a tick opens are new. -/
theorem Shown.exists_counter {mid : Tables} (h : Shown s t c mid) {p : PaperPosition}
    (hp : p ∈ (s.ticked t).opened) :
    ∃ k, s.paperTrader.tradeCounter < k ∧ k ≤ (s.ticked t).paperTrader.tradeCounter ∧
      p.tradeId = paperTradeId k := by
  have hmem : p.tradeId ∈ (s.ticked t).opened.map PaperPosition.tradeId := List.mem_map_of_mem hp
  rw [h.tradeIds] at hmem
  obtain ⟨k, hk, hid⟩ := List.mem_map.1 hmem
  have hk := List.mem_range'_1.1 hk
  exact ⟨k, by omega, by rw [h.tradeCounter]; omega, hid.symm⟩

/-- An event of a tick is an event of a position of the book that the candle touches. -/
theorem Shown.position_of_event {mid : Tables} (h : Shown s t c mid) {e : PaperEvent}
    (he : e ∈ (s.ticked t).events) :
    ∃ p ∈ s.paperTrader.positions, p.Touched c ∧ e.bare ∈ (p.react c).1 ∧
      e.tradeId = p.tradeId := by
  have hbare : e.bare ∈ PaperTrader.reactions c s.paperTrader.positions :=
    h.events ▸ List.mem_map_of_mem he
  obtain ⟨p, hp, hpe⟩ := PaperTrader.mem_reactions.1 hbare
  refine ⟨p, hp, ?_, hpe, (PaperPosition.eventOf_react hpe).tradeId⟩
  by_contra hidle
  simp [PaperPosition.react_of_not_touched hidle] at hpe

theorem Shown.numbered {mid : Tables} (h : Shown s t c mid) (hn : Numbered s.paperTrader) :
    Numbered (s.ticked t).paperTrader := by
  have hafter := PaperTrader.uniqueKey_after c hn.unique
  have hold : ∀ q ∈ PaperTrader.after c s.paperTrader.positions,
      ∃ k ≤ s.paperTrader.tradeCounter, q.tradeId = paperTradeId k := by
    intro q hq
    obtain ⟨p, hp, hqp⟩ := PaperTrader.mem_after.1 hq
    obtain ⟨k, hk, hid⟩ := hn.le_counter p hp
    exact ⟨k, hk, (PaperPosition.samePosition_of_react hqp).tradeId.trans hid⟩
  constructor
  · rw [h.positions]
    unfold UniqueKey at hafter ⊢
    rw [List.map_append, List.nodup_append]
    refine ⟨hafter, ?_, ?_⟩
    · rw [h.tradeIds]
      exact (List.nodup_range' (n := (s.ticked t).opened.length)).map paperTradeId_injective
    · intro a ha b hb hab
      obtain ⟨q, hq, rfl⟩ := List.mem_map.1 ha
      obtain ⟨p, hp, rfl⟩ := List.mem_map.1 hb
      obtain ⟨k, hk, hid⟩ := hold q hq
      obtain ⟨j, hj, -, hjd⟩ := h.exists_counter hp
      have := paperTradeId_injective (hid.symm.trans (hab.trans hjd))
      omega
  · intro p hp
    rw [h.positions] at hp
    rcases List.mem_append.1 hp with hp | hp
    · obtain ⟨k, hk, hid⟩ := hold p hp
      exact ⟨k, by rw [h.tradeCounter]; omega, hid⟩
    · obtain ⟨k, -, hk, hid⟩ := h.exists_counter hp
      exact ⟨k, hk, hid⟩

/-! ## A sample process -/

/-- A process that starts on an empty database. -/
def sampleStart : Watched :=
  { system :=
      { paperTrader := livePaperTrader 0, multiCoinPaperTrader := liveMultiCoinPaperTrader 0 } }

theorem sampleStart_fresh : sampleStart.Fresh :=
  ⟨rfl, rfl, rfl, rfl, rfl, List.nodup_nil, List.nodup_nil⟩

/-- A candle around the price 100. -/
def sampleCandle (timestamp : ℕ) (high low : ℚ) (symbol : String := "BTC/USDT") : Candle :=
  { timestamp, timeframe := "4h", open_ := 100, high, low, close := 100, volume := 1, symbol }

/-- As many quiet candles as a tick needs, at the times 0, …, 59. -/
def quietCandles (symbol : String := "BTC/USDT") : List Candle :=
  (List.range minBarsRequired).map fun i => sampleCandle i 101 99 symbol

/-- A signal to go long at 100 with the stop at 90 and the target at 110. -/
def sampleSignal (signalId : String) (timestamp : ℕ) : Signal :=
  { signalId, timestamp, signalType := .long, entryPrice := some 100, stopLoss := some 90,
    takeProfit1 := some 110, timeframe := some "4h" }

/-- A tick in which nothing raises. -/
def sampleTick (symbol : String := "BTC/USDT") : Tick :=
  { symbol, clock := fun _ => 0, now := fun _ => 0 }

end AlphaOne.Paper

import AlphaOne.Paper.Ledger
import AlphaOne.Paper.System

/-!
# Opens that are not recorded

On both paths a new position is in the book, and counted by its risk engine, before
`persist_paper_open` inserts its row, and nothing takes it out again when that raises. So a failed
open is never undone (`open_not_atomic`): the book keeps a position without a row of its own, which
takes up one of the positions the risk engine allows and reacts to every later candle
(`failed_open_laterEvents`).
-/

namespace AlphaOne.Paper

open Foundations Journal Scheduler TelegramSignals

/-- The events of a book over the candles to come, each with the clock at which trades close. -/
def laterEvents : List (Candle × (String → Datetime)) → PaperTrader → List PaperEvent
  | [], _ => []
  | (candle, clock) :: rest, trader =>
    (trader.processCandle candle clock).1 ++
      laterEvents rest (trader.processCandle candle clock).2

/-- A book in which an open leaves no trace. -/
structure Unattempted (before after : PaperTrader) : Prop where
  positions : after.positions = before.positions
  positionsOpen :
    after.riskEngine.state.positionsOpen = before.riskEngine.state.positionsOpen
  laterEvents : ∀ candles, laterEvents candles after = laterEvents candles before

/-- What a failed open leaves: the position is in the book and counted, and no row was written. -/
structure LeftBehind (position : PaperPosition) (before after : PaperTrader)
    (db db' : Tables) : Prop where
  held : position ∈ after.positions
  positionsOpen :
    after.riskEngine.state.positionsOpen = before.riskEngine.state.positionsOpen + 1
  tables : db' = db

theorem LeftBehind.not_unattempted {position : PaperPosition} {before after : PaperTrader}
    {db db' : Tables} (h : LeftBehind position before after db db') :
    ¬Unattempted before after := by
  intro hsame
  have hcount := h.positionsOpen.symm.trans hsame.positionsOpen
  omega

/-- In the loop over the signals of a tick, `persist_paper_open` raises for the position that is
opened for `signal`. -/
structure AiOpenRaises (tick : Tick) (signal : Signal) (db : Tables) (trader : PaperTrader)
    (position : PaperPosition) (e : DatabaseError) : Prop where
  enriched : tick.enriches signal = true
  opened : (trader.openPosition signal (tick.now signal)).1 = some position
  raised : (persistPaperOpen position tick.symbol .aiPaper (tick.commitsOpen position) db).1 =
    .error e

/-- In a call of `execute_valid_signal`, `persist_paper_open` raises. -/
structure TelegramOpenRaises (call : ExecuteCall) (db : Tables) (plan : TradePlan)
    (position : PaperPosition) (e : DatabaseError) : Prop where
  passed : gates call db = .ok (plan, position)
  raised : (persistPaperOpen position plan.symbol .telegramExternal call.commits db).1 = .error e

section FailedOpens

variable {tick : Tick} {signal : Signal} {now : Datetime} {call : ExecuteCall} {db : Tables}
  {trader : PaperTrader} {plan : TradePlan} {position : PaperPosition} {e : DatabaseError}

/-- A raise of `persist_paper_open` writes nothing. -/
theorem persistPaperOpen_of_error {symbol : String} {source : TradeSource} {commits : Bool}
    (h : (persistPaperOpen position symbol source commits db).1 = .error e) :
    persistPaperOpen position symbol source commits db = (.error e, db) := by
  rcases persistPaperOpen_cases position symbol source commits db with ⟨-, -, hp⟩ | ⟨-, e', hp⟩
  · rw [hp] at h
    cases h
  · rw [hp] at h ⊢
    obtain rfl : e' = e := by simpa using h
    rfl

theorem mem_upsert_self (position : PaperPosition) (book : List PaperPosition) :
    position ∈ upsert PaperPosition.tradeId position book :=
  mem_upsert.2 (Or.inr rfl)

/-- The loop ends at the raise, with the book the trader has opened the position in. -/
theorem openPositions_of_raise (h : AiOpenRaises tick signal db trader position e)
    (rest : List Signal) :
    openPositions tick (signal :: rest) db trader =
      { completed := false
        opened := [position]
        tables := db
        paperTrader := (trader.openPosition signal (tick.now signal)).2 } := by
  have hopened := h.opened
  have hraised := persistPaperOpen_of_error h.raised
  cases ho : trader.openPosition signal (tick.now signal) with
  | mk opened after =>
    rw [ho] at hopened
    obtain rfl : opened = some position := hopened
    simp [openPositions, h.enriched, ho, hraised]

theorem AiOpenRaises.leftBehind (h : AiOpenRaises tick signal db trader position e)
    (rest : List Signal) :
    LeftBehind position trader (openPositions tick (signal :: rest) db trader).paperTrader db
      (openPositions tick (signal :: rest) db trader).tables := by
  rw [openPositions_of_raise h rest]
  have hopened := PaperTrader.openPosition_some h.opened
  refine ⟨?_, ?_, rfl⟩
  · rw [hopened.positions]
    exact mem_upsert_self position _
  · rw [PaperTrader.openPosition_positionsOpen, h.opened]
    rfl

theorem executeValidSignal_of_raise (h : TelegramOpenRaises call db plan position e)
    (trader : PaperTrader) :
    executeValidSignal call db trader = ⟨.error e, db, enter position trader, call.signal⟩ := by
  have hraised := persistPaperOpen_of_error h.raised
  simp [executeValidSignal, h.passed, hraised]

theorem TelegramOpenRaises.leftBehind (h : TelegramOpenRaises call db plan position e)
    (trader : PaperTrader) :
    LeftBehind position trader (executeValidSignal call db trader).multiCoinPaperTrader db
      (executeValidSignal call db trader).tables := by
  rw [executeValidSignal_of_raise h trader]
  exact ⟨mem_upsert_self position _, rfl, rfl⟩

/-! ## The later candles -/

/-- A candle at the stop of a position and nowhere else. -/
def stopCandle (position : PaperPosition) (timestamp : Datetime) : Candle :=
  { timestamp
    timeframe := "4h"
    open_ := position.stopLoss
    high := position.stopLoss
    low := position.stopLoss
    close := position.stopLoss
    volume := 0 }

theorem stopHit_stopCandle (position : PaperPosition) (timestamp : Datetime) :
    position.StopHit (stopCandle position timestamp) := by
  unfold PaperPosition.StopHit
  split <;> exact le_rfl

theorem PaperTrader.openPosition_not_paused
    (h : (trader.openPosition signal now).1 = some position) : trader.isPaused = false := by
  by_contra hpaused
  rw [Bool.not_eq_false] at hpaused
  rw [PaperTrader.openPosition, if_pos hpaused] at h
  cases h

/-- **The events of a position that was never recorded.** After a failed open of the AI book, a
candle at the position's stop makes the book emit more events than it would without the open. -/
theorem failed_open_laterEvents (hn : Numbered trader)
    (h : AiOpenRaises tick signal db trader position e) (rest : List Signal)
    (timestamp : Datetime) (clock : String → Datetime) :
    (laterEvents [(stopCandle position timestamp, clock)] trader).length <
      (laterEvents [(stopCandle position timestamp, clock)]
        (openPositions tick (signal :: rest) db trader).paperTrader).length := by
  set candle := stopCandle position timestamp with hcandle
  rw [openPositions_of_raise h rest]
  cases ho : trader.openPosition signal (tick.now signal) with
  | mk opened after =>
    have hsome := h.opened
    have hpaused := PaperTrader.openPosition_not_paused hsome
    rw [ho] at hsome
    obtain rfl : opened = some position := hsome
    obtain ⟨hopened, hpositions, hn'⟩ := hn.new ho
    have hbefore := (PaperTrader.processCandle_spec candle clock hn.unique hpaused).events
    have hafter := (PaperTrader.processCandle_spec candle clock hn'.unique
      (hopened.isPaused.trans hpaused)).events
    have hreact : (position.react candle).1 ≠ [] :=
      PaperPosition.react_ne_nil (Or.inl (stopHit_stopCandle position timestamp))
    have hbeforeLength := congrArg List.length hbefore
    have hafterLength := congrArg List.length hafter
    rw [hpositions] at hafterLength
    simp only [List.length_map, PaperTrader.reactions, List.flatMap_append, List.flatMap_cons,
      List.flatMap_nil, List.append_nil, List.length_append] at hbeforeLength hafterLength
    have hpos := List.length_pos_iff.2 hreact
    simp only [laterEvents, List.append_nil]
    omega

end FailedOpens

/-! ## Both paths -/

/-- An open that `persist_paper_open` raises for, on one of the two paths. -/
inductive FailedOpen
  /-- For the next signal of a tick. -/
  | ai (tick : Tick) (signal : Signal) (rest : List Signal) (db : Tables) (trader : PaperTrader)
      (position : PaperPosition) (e : DatabaseError)
      (raises : AiOpenRaises tick signal db trader position e)
  /-- For a Telegram signal. -/
  | telegram (call : ExecuteCall) (db : Tables) (trader : PaperTrader) (plan : TradePlan)
      (position : PaperPosition) (e : DatabaseError)
      (raises : TelegramOpenRaises call db plan position e)

namespace FailedOpen

/-- The position that is opened. -/
def position : FailedOpen → PaperPosition
  | ai _ _ _ _ _ position _ _ | telegram _ _ _ _ position _ _ => position

/-- The book before the open. -/
def before : FailedOpen → PaperTrader
  | ai _ _ _ _ trader _ _ _ | telegram _ _ trader _ _ _ _ => trader

/-- The tables before the open. -/
def db : FailedOpen → Tables
  | ai _ _ _ db _ _ _ _ | telegram _ db _ _ _ _ _ => db

/-- The book as the tick or the call leaves it. -/
def after : FailedOpen → PaperTrader
  | ai tick signal rest db trader _ _ _ =>
    (openPositions tick (signal :: rest) db trader).paperTrader
  | telegram call db trader _ _ _ _ => (executeValidSignal call db trader).multiCoinPaperTrader

/-- The tables as the tick or the call leaves them. -/
def tables : FailedOpen → Tables
  | ai tick signal rest db trader _ _ _ => (openPositions tick (signal :: rest) db trader).tables
  | telegram call db trader _ _ _ _ => (executeValidSignal call db trader).tables

end FailedOpen

/-- **A failed open is never undone.** Whenever `persist_paper_open` raises, on the AI path or on
the Telegram path, the book keeps the position and its count, and differs from a book in which the
open was not attempted. -/
theorem open_not_atomic (o : FailedOpen) :
    ¬Unattempted o.before o.after ∧ LeftBehind o.position o.before o.after o.db o.tables := by
  have hleft : LeftBehind o.position o.before o.after o.db o.tables := by
    cases o with
    | ai tick signal rest db trader position e raises => exact raises.leftBehind rest
    | telegram call db trader plan position e raises => exact raises.leftBehind trader
  exact ⟨hleft.not_unattempted, hleft⟩

/-- A tick whose inserts are refused. -/
def refusedTick : Tick := { sampleTick with commitsOpen := fun _ => false }

/-- The executing of the sample signal, its insert being refused. -/
def refusedCall : ExecuteCall := { PaperSystem.sampleCall with commits := false }

/-- On a lost connection both paths keep the position they were about to record. -/
theorem refused_opens_kept :
    (∃ position, AiOpenRaises refusedTick (sampleSignal "S1" 59) {} (livePaperTrader 0) position
      .operationalError) ∧
    ¬Unattempted (livePaperTrader 0)
      (openPositions refusedTick [sampleSignal "S1" 59] {} (livePaperTrader 0)).paperTrader ∧
    (∃ plan position, TelegramOpenRaises refusedCall {} plan position .operationalError) ∧
    ¬Unattempted (liveMultiCoinPaperTrader 0)
      (executeValidSignal refusedCall {} (liveMultiCoinPaperTrader 0)).multiCoinPaperTrader := by
  refine ⟨?_, fun h => absurd h.positionsOpen (by decide +kernel), ?_,
    fun h => absurd h.positionsOpen (by decide +kernel)⟩
  · have hopened :
        ((livePaperTrader 0).openPosition (sampleSignal "S1" 59) (refusedTick.now
          (sampleSignal "S1" 59))).1.isSome := by
      decide +kernel
    obtain ⟨position, hposition⟩ := Option.isSome_iff_exists.1 hopened
    exact ⟨position, rfl, hposition, rfl⟩
  · have hpassed : (gates refusedCall {}).isOk = true := by decide +kernel
    cases hgates : gates refusedCall {} with
    | error reason =>
      rw [hgates] at hpassed
      cases hpassed
    | ok opened => exact ⟨opened.1, opened.2, hgates, rfl⟩

end AlphaOne.Paper

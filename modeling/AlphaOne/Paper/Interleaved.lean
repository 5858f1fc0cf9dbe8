import AlphaOne.Foundations.Interleaving
import AlphaOne.Paper.System

/-!
# The two ways into the paper books, interleaved

The paper-trading job and the execution of external signals run on one event loop and one database.
Each of them waits at every statement, and the other may run meanwhile. Here both are cut at their
statements: a `TickStage` or an `ExecuteStage` holds the local variables of a tick or of a call
between two of them. What a coroutine does in memory, on the books, happens together with the
statement before it.

`tick_alone` and `execute_alone` are the link to `aiPaperTradingJob` and `executeValidSignal`, which
a tick and a call perform when nothing runs in between.
-/

namespace AlphaOne.Paper

open Foundations Journal ModelMonitor Risk Scheduler TelegramSignals

/-- The system, and the times at which positions were put into its books. -/
structure Desk where
  system : PaperSystem
  openings : List Datetime := []

/-- How far a tick of the job has come. -/
inductive TickStage
  /-- About to load the candles and show the newest to the book. -/
  | start
  /-- About to record the first of the events. -/
  | recordingEvents (candle : Candle) (events : List PaperEvent)
  /-- About to evaluate the model health. -/
  | evaluatingHealth (candle : Candle)
  /-- About to select the signals of the candle. -/
  | selectingSignals (candle : Candle)
  /-- About to enrich the first of the signals, and to open its position. -/
  | enriching (signals : List Signal)
  /-- About to record a position that is in the book already. -/
  | recordingOpen (position : PaperPosition) (signals : List Signal)
  | ended (completed : Bool)
  deriving DecidableEq

/-- How far a call of `execute_valid_signal` has come. -/
inductive ExecuteStage
  /-- About to look for an open position on the symbol. -/
  | start
  /-- About to count the entries of the day. -/
  | checking (plan : TradePlan)
  /-- The entries were counted and the trade is approved; about to enter the book. -/
  | approved (plan : TradePlan) (sizing : FixedMarginSizing) (tradesToday : ℕ)
  /-- About to record a position that is in the book already. -/
  | recordingOpen (plan : TradePlan) (position : PaperPosition)
  /-- About to commit the trade id of the signal. -/
  | naming (position : PaperPosition)
  | ended (result : Except DatabaseError (Except ExecutionRefusal PaperPosition))
  deriving DecidableEq

/-- A tick, a call, or another job that stores candles and signals. `enteredAt` is the clock when a
call enters the book. -/
inductive DeskCall
  | tick (tick : Tick) (stage : TickStage)
  | execute (call : ExecuteCall) (enteredAt : Datetime) (stage : ExecuteStage)
  | store (candles : List Candle) (signals : List Signal) (done : Bool)

/-! ## The statements of a tick -/

/-- What a tick does after it has recorded some of the events. -/
def afterEvents (candle : Candle) : List PaperEvent → TickStage
  | [] => .evaluatingHealth candle
  | event :: rest => .recordingEvents candle (event :: rest)

/-- What a tick does with the signals that are left. -/
def afterSignals : List Signal → TickStage
  | [] => .ended true
  | signal :: rest => .enriching (signal :: rest)

/-- The next statement of a tick. -/
def moveTick (tick : Tick) (stage : TickStage) (desk : Desk) : Desk × TickStage :=
  let s := desk.system
  match stage with
  | .start =>
    match shownCandle s.candles tick.symbol tick.timeframe with
    | none => (desk, .ended true)
    | some candle =>
      let (events, paperTrader) := s.paperTrader.processCandle candle tick.clock
      ({ desk with system := { s with paperTrader } }, afterEvents candle events)
  | .recordingEvents candle events =>
    match events with
    | [] => (desk, .evaluatingHealth candle)
    | event :: rest =>
      match persistPaperEvent event (tick.commitsEvent event) s.tables with
      | (.error _, tables) => ({ desk with system := { s with tables } }, .ended false)
      | (.ok (), tables) => ({ desk with system := { s with tables } }, afterEvents candle rest)
  | .evaluatingHealth candle =>
    if evaluateModelHealth s.tables.trades tick.predictions = .disabled then (desk, .ended true)
    else (desk, .selectingSignals candle)
  | .selectingSignals candle =>
    (desk, afterSignals (signalsOf s.signals tick.symbol tick.timeframe candle.timestamp))
  | .enriching signals =>
    match signals with
    | [] => (desk, .ended true)
    | signal :: rest =>
      if !tick.enriches signal then (desk, .ended false)
      else
        match s.paperTrader.openPosition signal (tick.now signal) with
        | (none, paperTrader) =>
          ({ desk with system := { s with paperTrader } }, afterSignals rest)
        | (some position, paperTrader) =>
          ({ system := { s with paperTrader }, openings := desk.openings ++ [tick.now signal] },
            .recordingOpen position rest)
  | .recordingOpen position rest =>
    match persistPaperOpen position tick.symbol .aiPaper (tick.commitsOpen position) s.tables with
    | (.error _, tables) => ({ desk with system := { s with tables } }, .ended false)
    | (.ok _, tables) => ({ desk with system := { s with tables } }, afterSignals rest)
  | .ended completed => (desk, .ended completed)

/-! ## The statements of a call -/

/-- The next statement of a call. -/
def moveExecute (call : ExecuteCall) (enteredAt : Datetime) (stage : ExecuteStage) (desk : Desk) :
    Desk × ExecuteStage :=
  let s := desk.system
  match stage with
  | .start =>
    match plan? call.signal with
    | none => (desk, .ended (.ok (.error (.notValid call.signal.status))))
    | some plan =>
      match getOpenPaperTrade plan.symbol (some .telegramExternal) s.tables with
      | some existing =>
        (desk, .ended (.ok (.error (.positionExists plan.symbol existing.tradeId))))
      | none => (desk, .checking plan)
  | .checking plan =>
    match checkFixedMarginTrade s.tables.trades (some plan.entryPrice) call.usdtInrRate
        call.utcnow with
    | .error reason => (desk, .ended (.ok (.error (.fixedMargin reason))))
    | .ok sizing =>
      (desk, .approved plan sizing (getDailyTradeBudget s.tables.trades call.utcnow).tradesToday)
  | .approved plan sizing _ =>
    let position := positionOf call plan sizing
    ({ system := { s with multiCoinPaperTrader := enter position s.multiCoinPaperTrader }
       openings := desk.openings ++ [enteredAt] }, .recordingOpen plan position)
  | .recordingOpen plan position =>
    match persistPaperOpen position plan.symbol .telegramExternal call.commits s.tables with
    | (.error e, tables) => ({ desk with system := { s with tables } }, .ended (.error e))
    | (.ok _, tables) => ({ desk with system := { s with tables } }, .naming position)
  | .naming position =>
    if call.commitsTradeId then (desk, .ended (.ok (.ok position)))
    else (desk, .ended (.error .operationalError))
  | .ended result => (desk, .ended result)

/-- The next statement of a tick, a call or a job. -/
def DeskCall.move (p : DeskCall) (desk : Desk) : Desk × DeskCall :=
  match p with
  | .tick t stage =>
    let (desk, stage) := moveTick t stage desk
    (desk, .tick t stage)
  | .execute call enteredAt stage =>
    let (desk, stage) := moveExecute call enteredAt stage desk
    (desk, .execute call enteredAt stage)
  | .store candles signals done =>
    if done then (desk, .store candles signals done)
    else
      ({ desk with system := desk.system.step (.store candles signals) },
        .store candles signals true)

/-! ## A tick alone -/

section TickAlone

variable (t : Tick)

/-- The loop over the events. -/
theorem reaches_recordEvents (candle : Candle) (events : List PaperEvent) (s : PaperSystem)
    (o : List Datetime) :
    Reaches DeskCall.move (.tick t (afterEvents candle events)) ⟨s, o⟩
      (.tick t (match (persistPaperEvents t.commitsEvent events s.tables).1 with
        | .error _ => .ended false
        | .ok () => .evaluatingHealth candle))
      ⟨{ s with tables := (persistPaperEvents t.commitsEvent events s.tables).2 }, o⟩ := by
  induction events generalizing s with
  | nil => exact .refl
  | cons event rest ih =>
    cases hp : persistPaperEvent event (t.commitsEvent event) s.tables with
    | mk result tables =>
    cases result with
    | error e =>
      have hall : persistPaperEvents t.commitsEvent (event :: rest) s.tables =
          (.error e, tables) := by simp [persistPaperEvents, hp]
      rw [hall]
      exact .single (by simp [DeskCall.move, moveTick, afterEvents, hp])
    | ok u =>
      have hall : persistPaperEvents t.commitsEvent (event :: rest) s.tables =
          persistPaperEvents t.commitsEvent rest tables := by simp [persistPaperEvents, hp]
      rw [hall]
      exact .head (by simp [DeskCall.move, moveTick, afterEvents, hp])
        (ih { s with tables := tables })

/-- The loop over the signals. -/
theorem reaches_openPositions (signals : List Signal) (s : PaperSystem) (o : List Datetime) :
    ∃ entered, Reaches DeskCall.move (.tick t (afterSignals signals)) ⟨s, o⟩
        (.tick t (.ended (openPositions t signals s.tables s.paperTrader).completed))
        ⟨{ s with
            tables := (openPositions t signals s.tables s.paperTrader).tables
            paperTrader := (openPositions t signals s.tables s.paperTrader).paperTrader },
          o ++ entered⟩ ∧
      entered.length = (openPositions t signals s.tables s.paperTrader).opened.length := by
  induction signals generalizing s o with
  | nil => exact ⟨[], by simpa [openPositions, afterSignals] using Reaches.refl, rfl⟩
  | cons signal rest ih =>
    cases henrich : t.enriches signal with
    | false =>
      refine ⟨[], .single ?_, ?_⟩
      · simp [DeskCall.move, moveTick, afterSignals, openPositions, henrich]
      · simp [openPositions, henrich]
    | true =>
      cases ho : s.paperTrader.openPosition signal (t.now signal) with
      | mk result trader =>
      cases result with
      | none =>
        obtain ⟨entered, hreach, hlen⟩ := ih { s with paperTrader := trader } o
        have hall : openPositions t (signal :: rest) s.tables s.paperTrader =
            openPositions t rest s.tables trader := by simp [openPositions, henrich, ho]
        rw [hall]
        exact ⟨entered, .head (by simp [DeskCall.move, moveTick, afterSignals, henrich, ho]) hreach,
          hlen⟩
      | some position =>
        have hmove : DeskCall.move (.tick t (afterSignals (signal :: rest))) ⟨s, o⟩ =
            (⟨{ s with paperTrader := trader }, o ++ [t.now signal]⟩,
              .tick t (.recordingOpen position rest)) := by
          simp [DeskCall.move, moveTick, afterSignals, henrich, ho]
        cases hp : persistPaperOpen position t.symbol .aiPaper (t.commitsOpen position) s.tables with
        | mk result tables =>
        cases result with
        | error e =>
          have hall : openPositions t (signal :: rest) s.tables s.paperTrader =
              { completed := false, opened := [position], tables, paperTrader := trader } := by
            simp [openPositions, henrich, ho, hp]
          rw [hall]
          exact ⟨[t.now signal], .head hmove (.single (by simp [DeskCall.move, moveTick, hp])), rfl⟩
        | ok trade =>
          have hall : openPositions t (signal :: rest) s.tables s.paperTrader =
              { openPositions t rest tables trader with
                opened := position :: (openPositions t rest tables trader).opened } := by
            simp [openPositions, henrich, ho, hp]
          obtain ⟨entered, hreach, hlen⟩ :=
            ih { s with tables := tables, paperTrader := trader } (o ++ [t.now signal])
          have hrecord : DeskCall.move (.tick t (.recordingOpen position rest))
              ⟨{ s with paperTrader := trader }, o ++ [t.now signal]⟩ =
              (⟨{ s with tables := tables, paperTrader := trader }, o ++ [t.now signal]⟩,
                .tick t (afterSignals rest)) := by
            simp [DeskCall.move, moveTick, hp]
          rw [hall]
          refine ⟨t.now signal :: entered, .head hmove (.head hrecord ?_), by simpa using hlen⟩
          simpa using hreach

/-- **A tick that nobody interrupts is `aiPaperTradingJob`.** -/
theorem tick_alone (s : PaperSystem) (o : List Datetime) :
    ∃ entered, Reaches DeskCall.move (.tick t .start) ⟨s, o⟩
        (.tick t (.ended (s.ticked t).completed)) ⟨s.step (.tick t), o ++ entered⟩ ∧
      entered.length = (s.ticked t).opened.length := by
  cases hshown : shownCandle s.candles t.symbol t.timeframe with
  | none =>
    have hall : s.ticked t =
        { completed := true, tables := s.tables, paperTrader := s.paperTrader } :=
      aiPaperTradingJob_of_none hshown
    refine ⟨[], .single ?_, by rw [hall]; rfl⟩
    simp [DeskCall.move, moveTick, PaperSystem.step, hshown, hall]
  | some candle =>
    cases hshow : s.paperTrader.processCandle candle t.clock with
    | mk events trader =>
    have hstart : DeskCall.move (.tick t .start) ⟨s, o⟩ =
        (⟨{ s with paperTrader := trader }, o⟩, .tick t (afterEvents candle events)) := by
      simp [DeskCall.move, moveTick, hshown, hshow]
    have hevents := reaches_recordEvents t candle events { s with paperTrader := trader } o
    cases hpersist : persistPaperEvents t.commitsEvent events s.tables with
    | mk result tables =>
    rw [hpersist] at hevents
    cases result with
    | error e =>
      have hall : s.ticked t =
          { completed := false, events, tables, paperTrader := trader } := by
        simp [PaperSystem.ticked, aiPaperTradingJob, hshown, hshow, hpersist]
      refine ⟨[], .head hstart ?_, by rw [hall]; rfl⟩
      simpa [PaperSystem.step, hall] using hevents
    | ok u =>
      by_cases hhealth : evaluateModelHealth tables.trades t.predictions = .disabled
      · have hall : s.ticked t =
            { completed := true, events, tables, paperTrader := trader } := by
          simp [PaperSystem.ticked, aiPaperTradingJob, hshown, hshow, hpersist, hhealth]
        refine ⟨[], .head hstart (hevents.trans (.single ?_)), by rw [hall]; rfl⟩
        simp [DeskCall.move, moveTick, PaperSystem.step, hall, hhealth]
      · have hall : s.ticked t =
            { openPositions t (signalsOf s.signals t.symbol t.timeframe candle.timestamp) tables
                trader with events } := by
          simp [PaperSystem.ticked, aiPaperTradingJob, hshown, hshow, hpersist, hhealth]
        obtain ⟨entered, hreach, hlen⟩ := reaches_openPositions t
          (signalsOf s.signals t.symbol t.timeframe candle.timestamp)
          { s with tables := tables, paperTrader := trader } o
        have hselect : DeskCall.move (.tick t (.evaluatingHealth candle))
            ⟨{ s with tables := tables, paperTrader := trader }, o⟩ =
            (⟨{ s with tables := tables, paperTrader := trader }, o⟩,
              .tick t (.selectingSignals candle)) := by
          simp [DeskCall.move, moveTick, hhealth]
        refine ⟨entered, .head hstart (hevents.trans (.head hselect (.head rfl ?_))), ?_⟩
        · simpa [PaperSystem.step, hall] using hreach
        · rw [hall]
          exact hlen

end TickAlone

/-! ## A call alone -/

section ExecuteAlone

variable (call : ExecuteCall) (enteredAt : Datetime) (s : PaperSystem) (o : List Datetime)

/-- A call that a gate refuses. -/
theorem reaches_refused {reason : ExecutionRefusal} (h : gates call s.tables = .error reason) :
    Reaches DeskCall.move (.execute call enteredAt .start) ⟨s, o⟩
      (.execute call enteredAt (.ended (.ok (.error reason)))) ⟨s, o⟩ := by
  unfold gates at h
  split at h
  · rename_i hplan
    obtain rfl := Except.error.inj h
    exact .single (by simp [DeskCall.move, moveExecute, hplan])
  · rename_i plan hplan
    split at h
    · rename_i existing hopen
      obtain rfl := Except.error.inj h
      exact .single (by simp [DeskCall.move, moveExecute, hplan, hopen])
    · rename_i hopen
      split at h
      · rename_i hcheck
        obtain rfl := Except.error.inj h
        have hstart : DeskCall.move (.execute call enteredAt .start) ⟨s, o⟩ =
            (⟨s, o⟩, .execute call enteredAt (.checking plan)) := by
          simp [DeskCall.move, moveExecute, hplan, hopen]
        exact .head hstart (.single (by simp [DeskCall.move, moveExecute, hcheck]))
      · cases h

/-- A call that passes the gates comes to the point where its position is in the book. -/
theorem reaches_entered {plan : TradePlan} {position : PaperPosition}
    (h : gates call s.tables = .ok (plan, position)) :
    Reaches DeskCall.move (.execute call enteredAt .start) ⟨s, o⟩
      (.execute call enteredAt (.recordingOpen plan position))
      ⟨{ s with multiCoinPaperTrader := enter position s.multiCoinPaperTrader },
        o ++ [enteredAt]⟩ := by
  unfold gates at h
  split at h
  · cases h
  · rename_i plan' hplan
    split at h
    · cases h
    · rename_i hopen
      split at h
      · cases h
      · rename_i sizing hcheck
        simp only [Except.ok.injEq, Prod.mk.injEq] at h
        obtain ⟨rfl, rfl⟩ := h
        have hstart : DeskCall.move (.execute call enteredAt .start) ⟨s, o⟩ =
            (⟨s, o⟩, .execute call enteredAt (.checking plan')) := by
          simp [DeskCall.move, moveExecute, hplan, hopen]
        have hchecked : DeskCall.move (.execute call enteredAt (.checking plan')) ⟨s, o⟩ =
            (⟨s, o⟩, .execute call enteredAt (.approved plan' sizing
              (getDailyTradeBudget s.tables.trades call.utcnow).tradesToday)) := by
          simp [DeskCall.move, moveExecute, hcheck]
        exact .head hstart (.head hchecked (.single rfl))

/-- **A call that nobody interrupts is `executeValidSignal`.** -/
theorem execute_alone :
    ∃ entered, Reaches DeskCall.move (.execute call enteredAt .start) ⟨s, o⟩
        (.execute call enteredAt
          (.ended (executeValidSignal call s.tables s.multiCoinPaperTrader).result))
        ⟨s.step (.execute call), o ++ entered⟩ ∧
      entered.length = (s.opened (.execute call)).length := by
  cases hgates : gates call s.tables with
  | error reason =>
    have hall := @executeValidSignal_refused call s.tables s.multiCoinPaperTrader _ hgates
    refine ⟨[], ?_, by simp [PaperSystem.opened, hgates]⟩
    simpa [PaperSystem.step, hall] using reaches_refused call enteredAt s o hgates
  | ok planned =>
    obtain ⟨plan, position⟩ := planned
    have hentered := reaches_entered call enteredAt s o hgates
    refine ⟨[enteredAt], hentered.trans ?_, by simp [PaperSystem.opened, hgates]⟩
    cases hp : persistPaperOpen position plan.symbol .telegramExternal call.commits s.tables with
    | mk result tables =>
    cases result with
    | error e =>
      exact .single (by
        simp [DeskCall.move, moveExecute, PaperSystem.step, executeValidSignal, hgates, hp])
    | ok trade =>
      have hrecord : DeskCall.move (.execute call enteredAt (.recordingOpen plan position))
          ⟨{ s with multiCoinPaperTrader := enter position s.multiCoinPaperTrader },
            o ++ [enteredAt]⟩ =
          (⟨{ s with tables := tables
                     multiCoinPaperTrader := enter position s.multiCoinPaperTrader },
            o ++ [enteredAt]⟩, .execute call enteredAt (.naming position)) := by
        simp [DeskCall.move, moveExecute, hp]
      refine .head hrecord (.single ?_)
      cases hname : call.commitsTradeId <;>
        simp [DeskCall.move, moveExecute, PaperSystem.step, executeValidSignal, hgates, hp, hname]

end ExecuteAlone

end AlphaOne.Paper

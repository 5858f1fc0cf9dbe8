import AlphaOne.Scheduler.PaperTradingJob

/-!
# Signal generation

The three writers of `signals`: `generate_and_persist_signal` (`live_signal.py`) behind the API
call, `evaluate_live_breakout` (`live_breakout.py`) and `evaluate_all_strategies_for_timeframe`
(`multi_strategy_engine.py`) behind the two scheduled jobs. The strategies and the regime detector
are parameters: what a writer stores, and when, does not depend on how they compute.

A writer is cut at its database statements. Between two of them it is in a `WriterStage`, which
holds its local variables. The texts of a signal, its quality and its risk/reward are left out, and
so is the refresh of a row that the writer has just committed.
-/

namespace AlphaOne.SignalEngine

open Foundations Scheduler

/-! ## Strategies -/

/-- What a strategy says about the last candle of a frame. -/
structure StrategySignal where
  signalType : SignalType
  entryPrice : Option ℚ := none
  stopLoss : Option ℚ := none
  takeProfit1 : Option ℚ := none
  takeProfit2 : Option ℚ := none
  takeProfit3 : Option ℚ := none
  strategyName : String
  deriving DecidableEq, Repr

inductive ProductionStatus
  | productionEligible
  | researchOnly
  | rejected
  deriving DecidableEq, Repr

/-- A strategy of the registry; the multi-timeframe one reads daily candles as well. -/
inductive Strategy
  | single (generate : List Candle → StrategySignal)
  | mtfTrend (generateWithDaily : List Candle → List Candle → StrategySignal)

structure StrategyDefinition where
  strategyId : String
  timeframe : String
  productionStatus : ProductionStatus
  strategy : Strategy

/-- `BaselineStrategy.name`. -/
def baselineName : String := "trend_following_donchian_adx"

/-- The strategies a process runs with, and its regime detector. -/
structure Strategies where
  /-- `BaselineStrategy().generate`. -/
  baseline : List Candle → StrategySignal
  /-- `MULTI_STRATEGY_REGISTRY`. -/
  registry : List StrategyDefinition
  /-- `MarketRegimeDetector().detect`. -/
  detectRegime : List Candle → String

/-! ## The forming candle -/

/-- `TIMEFRAME_SECONDS`. -/
def timeframeSeconds? : String → Option ℤ
  | "1m" => some 60
  | "5m" => some 300
  | "15m" => some 900
  | "1h" => some 3600
  | "4h" => some 14400
  | "1d" => some 86400
  | _ => none

structure FormingCandle where
  openTime : Datetime
  open_ : ℚ
  high : ℚ
  low : ℚ
  close : ℚ
  tickCount : ℕ := 1
  deriving DecidableEq, Repr

structure LiveCandleAggregator where
  intervalSeconds : ℤ
  current : Option FormingCandle := none
  deriving DecidableEq, Repr

/-- `_bucket_start`. -/
def LiveCandleAggregator.bucketStart (a : LiveCandleAggregator) (ts : Datetime) : Datetime :=
  ts / Timedelta.seconds a.intervalSeconds * Timedelta.seconds a.intervalSeconds

/-- A tick opens a new forming candle or moves the current one. -/
def LiveCandleAggregator.onTick (a : LiveCandleAggregator) (price : ℚ) (ts : Datetime) :
    FormingCandle × LiveCandleAggregator :=
  let bucketStart := a.bucketStart ts
  let fresh : FormingCandle :=
    { openTime := bucketStart, open_ := price, high := price, low := price, close := price }
  let forming :=
    match a.current with
    | none => fresh
    | some current =>
      if current.openTime ≠ bucketStart then fresh
      else
        { current with
          high := max current.high price
          low := min current.low price
          close := price
          tickCount := current.tickCount + 1 }
  (forming, { a with current := some forming })

/-- The forming candle as the last row of a frame. -/
def FormingCandle.row (f : FormingCandle) (symbol timeframe : String) : Candle :=
  { timestamp := f.openTime, timeframe, open_ := f.open_, high := f.high, low := f.low,
    close := f.close, volume := 0, symbol }

/-! ## The signals of a candle -/

inductive SignalOutcomeType
  | pending
  | noTrade
  deriving DecidableEq, Repr

/-- A row of `signal_outcomes`, as it is first inserted. -/
structure SignalOutcome where
  signalId : String
  outcome : SignalOutcomeType
  hypotheticalEntryPrice : Option ℚ
  deriving DecidableEq, Repr

/-- What the writers share: the tables, the flag that pauses them, and the aggregator of the live
breakout job, which is kept in memory. -/
structure SignalStore where
  candles : List Candle := []
  signals : List Signal := []
  outcomes : List SignalOutcome := []
  /-- The row of `bot_state` under `signal_generation_paused`. -/
  paused : Option Bool := none
  aggregator : LiveCandleAggregator := { intervalSeconds := 14400 }

/-- `is_signal_generation_paused`. -/
def isSignalGenerationPaused (s : SignalStore) : Bool := s.paused.getD false

/-- What the writers deduplicate on. -/
structure CandleKey where
  symbol : String
  timeframe : Option String
  strategyName : Option String
  timestamp : Datetime
  deriving DecidableEq, Repr

def keyOf (s : Signal) : CandleKey := ⟨s.symbol, s.timeframe, s.strategyName, s.timestamp⟩

/-- A signal that is not `NO_TRADE`. -/
def fires (s : Signal) : Bool := s.signalType ≠ .noTrade

/-- How a writer fails. -/
inductive SignalFailure
  /-- `scalar_one_or_none()` has found more than one row. -/
  | multipleResultsFound
  /-- The unique index on `signals.signal_id`. -/
  | integrityError
  /-- `TIMEFRAME_SECONDS[timeframe]`. -/
  | keyError (timeframe : String)
  deriving DecidableEq, Repr

/-- The rows the duplicate check selects. -/
def selectSignals (key : CandleKey) (signals : List Signal) : List Signal :=
  (signals.filter fires).filter fun s => keyOf s = key

def signalAlreadyExistsForCandle (key : CandleKey) (signals : List Signal) :
    Except SignalFailure Bool :=
  match selectSignals key signals with
  | [] => .ok false
  | [_] => .ok true
  | _ => .error .multipleResultsFound

/-- A signal that is about to be persisted. -/
structure Draft where
  result : StrategySignal
  symbol : String
  timeframe : String
  timestamp : Datetime
  regime : String
  deriving DecidableEq, Repr

/-- The row of a draft, on the twelve hex digits of a fresh UUID. -/
def Draft.row (d : Draft) (uuidHex : String) : Signal :=
  { signalId := "SIG-" ++ uuidHex
    timestamp := d.timestamp
    symbol := d.symbol
    signalType := d.result.signalType
    entryPrice := d.result.entryPrice
    stopLoss := d.result.stopLoss
    takeProfit1 := d.result.takeProfit1
    takeProfit2 := d.result.takeProfit2
    takeProfit3 := d.result.takeProfit3
    marketRegime := some d.regime
    strategyName := some d.result.strategyName
    timeframe := some d.timeframe }

/-- `_persist_new_signal`: the signal and its outcome are committed together. -/
def persistNewSignal (d : Draft) (uuidHex : String) (s : SignalStore) :
    Except SignalFailure Signal × SignalStore :=
  let signal := d.row uuidHex
  if ∃ t ∈ s.signals, t.signalId = signal.signalId then (.error .integrityError, s)
  else
    let outcome : SignalOutcome :=
      { signalId := signal.signalId
        outcome := if d.result.signalType = .noTrade then .noTrade else .pending
        hypotheticalEntryPrice := d.result.entryPrice }
    (.ok signal,
      { s with signals := s.signals ++ [signal], outcomes := s.outcomes ++ [outcome] })

/-! ## The writers -/

/-- What the live breakout job reads from the market data feed. -/
structure MarketFeed where
  /-- `connection_status() == LIVE`. -/
  isLive : Bool
  lastPriceUsdt : Option ℚ
  receivedAt : Option Datetime
  utcnow : Datetime
  deriving DecidableEq, Repr

/-- A call of a writer, or of another job that changes what the writers read. -/
inductive Writer
  | evaluateLiveBreakout (symbol timeframe : String) (feed : MarketFeed)
  | generateAndPersistSignal (symbol timeframe : String) (strategy : List Candle → StrategySignal)
  | evaluateAllStrategies (symbol timeframe : String) (daily : Option (List Candle))
  | storeCandles (candles : List Candle)
  | setSignalGenerationPaused (paused : Bool)

/-- The local variables of the loop over the registry. -/
structure RegistryLoop where
  symbol : String
  timeframe : String
  df : List Candle
  timestamp : Datetime
  regime : String
  daily : Option (List Candle)
  definitions : List StrategyDefinition
  persisted : List Signal

/-- How far a writer has come. -/
inductive WriterStage
  /-- About to select the pause flag. -/
  | start
  /-- About to load the candles. -/
  | unpaused
  /-- About to load the daily candles. -/
  | loadingDaily (loop : RegistryLoop)
  /-- About to select the signals under `key`; with a draft it persists it if there are none. -/
  | checking (key : CandleKey) (draft : Option Draft) (loop : Option RegistryLoop)
  /-- About to commit the draft. -/
  | inserting (draft : Draft) (loop : Option RegistryLoop)
  | ended (result : Except SignalFailure (List Signal))

structure WriterCall where
  writer : Writer
  /-- The hex digits of the UUIDs it draws. -/
  uuidHex : ℕ → String
  stage : WriterStage := .start

def RegistryLoop.draft (loop : RegistryLoop) (result : StrategySignal) : Draft :=
  { result, symbol := loop.symbol, timeframe := loop.timeframe, timestamp := loop.timestamp,
    regime := loop.regime }

def Draft.key (d : Draft) : CandleKey :=
  ⟨d.symbol, some d.timeframe, some d.result.strategyName, d.timestamp⟩

/-- The rest of the loop over the registry, up to its next database statement. -/
def advance (loop : RegistryLoop) : List StrategyDefinition → WriterStage
  | [] => .ended (.ok loop.persisted)
  | d :: rest =>
    let checkOrContinue (result : StrategySignal) : WriterStage :=
      if result.signalType = .noTrade then advance loop rest
      else
        .checking (loop.draft result).key (some (loop.draft result))
          (some { loop with definitions := rest })
    if d.timeframe ≠ loop.timeframe ∨ d.productionStatus ≠ .productionEligible then
      advance loop rest
    else
      match d.strategy with
      | .single generate => checkOrContinue (generate loop.df)
      | .mtfTrend generateWithDaily =>
        match loop.daily with
        | none => .loadingDaily { loop with definitions := d :: rest }
        | some daily =>
          if daily.length < minBarsRequired then advance loop rest
          else checkOrContinue (generateWithDaily loop.df daily)

section

variable (engine : Strategies)

/-- `evaluate_live_breakout` from the loaded candles to its duplicate check. -/
def afterLoadLive (symbol timeframe : String) (feed : MarketFeed) (price : ℚ) (df : List Candle)
    (s : SignalStore) : SignalStore × WriterStage :=
  match df.getLast? with
  | none => (s, .ended (.ok []))
  | some lastClosed =>
    if df.length < minBarsRequired then (s, .ended (.ok []))
    else
      let (forming, aggregator) := s.aggregator.onTick price (feed.receivedAt.getD feed.utcnow)
      let s := { s with aggregator }
      match timeframeSeconds? timeframe with
      | none => (s, .ended (.error (.keyError timeframe)))
      | some seconds =>
        if forming.openTime ≠ lastClosed.timestamp + Timedelta.seconds seconds then
          (s, .ended (.ok []))
        else
          let combined := df ++ [forming.row symbol timeframe]
          let result := engine.baseline combined
          let draft : Draft :=
            { result, symbol, timeframe, timestamp := forming.openTime,
              regime := engine.detectRegime combined }
          (s, .checking ⟨symbol, some timeframe, some baselineName, forming.openTime⟩
            (if result.signalType = .noTrade then none else some draft) none)

/-- `generate_and_persist_signal` from the loaded candles to its duplicate check. -/
def afterLoadGenerate (symbol timeframe : String) (strategy : List Candle → StrategySignal)
    (df : List Candle) : WriterStage :=
  match df.getLast? with
  | none => .ended (.ok [])
  | some lastCandle =>
    if df.length < minBarsRequired then .ended (.ok [])
    else
      let draft : Draft :=
        { result := strategy df, symbol, timeframe, timestamp := lastCandle.timestamp,
          regime := engine.detectRegime df }
      if draft.result.signalType ≠ .noTrade then .checking draft.key (some draft) none
      else .inserting draft none

/-- `evaluate_all_strategies_for_timeframe` from the loaded candles to its next statement. -/
def afterLoadAll (symbol timeframe : String) (daily : Option (List Candle)) (df : List Candle) :
    WriterStage :=
  match df.getLast? with
  | none => .ended (.ok [])
  | some lastCandle =>
    if df.length < minBarsRequired then .ended (.ok [])
    else
      advance
        { symbol, timeframe, df, timestamp := lastCandle.timestamp,
          regime := engine.detectRegime df, daily, definitions := engine.registry, persisted := [] }
        engine.registry

/-- The first statement of a call: the pause flag is selected. The jobs that are no writers are
done with it. -/
def begin (writer : Writer) (s : SignalStore) : SignalStore × WriterStage :=
  match writer with
  | .storeCandles candles =>
    ({ s with candles := insertAllNew Candle.key s.candles candles }, .ended (.ok []))
  | .setSignalGenerationPaused paused => ({ s with paused := some paused }, .ended (.ok []))
  | .evaluateLiveBreakout _ _ feed =>
    if isSignalGenerationPaused s ∨ feed.isLive = false ∨ feed.lastPriceUsdt = none then
      (s, .ended (.ok []))
    else (s, .unpaused)
  | .generateAndPersistSignal _ _ _ | .evaluateAllStrategies _ _ _ =>
    if isSignalGenerationPaused s then (s, .ended (.ok [])) else (s, .unpaused)

/-- The candles are loaded and evaluated. -/
def loadAndEvaluate (writer : Writer) (s : SignalStore) : SignalStore × WriterStage :=
  let load symbol timeframe := loadRecentCandles s.candles symbol timeframe defaultLookbackBars
  match writer with
  | .evaluateLiveBreakout symbol timeframe feed =>
    match feed.lastPriceUsdt with
    | none => (s, .ended (.ok []))
    | some price => afterLoadLive engine symbol timeframe feed price (load symbol timeframe) s
  | .generateAndPersistSignal symbol timeframe strategy =>
    (s, afterLoadGenerate engine symbol timeframe strategy (load symbol timeframe))
  | .evaluateAllStrategies symbol timeframe daily =>
    (s, afterLoadAll engine symbol timeframe daily (load symbol timeframe))
  | .storeCandles _ | .setSignalGenerationPaused _ => (s, .ended (.ok []))

/-- What the duplicate check leads to. -/
def afterCheck (draft : Option Draft) (loop : Option RegistryLoop) :
    Except SignalFailure Bool → WriterStage
  | .error e => .ended (.error e)
  | .ok exists_ =>
    match exists_, draft, loop with
    | false, some draft, loop => .inserting draft loop
    | _, _, some loop => advance loop loop.definitions
    | _, _, none => .ended (.ok [])

/-- What the commit of a signal leads to. -/
def afterInsert (loop : Option RegistryLoop) : Except SignalFailure Signal → WriterStage
  | .error e => .ended (.error e)
  | .ok signal =>
    match loop with
    | none => .ended (.ok [signal])
    | some loop =>
      advance { loop with persisted := loop.persisted ++ [signal] } loop.definitions

/-- The number of signals a call has persisted. -/
def persistedCount : Option RegistryLoop → ℕ
  | none => 0
  | some loop => loop.persisted.length

/-- The next statement of a call. -/
def WriterCall.move (call : WriterCall) (s : SignalStore) : SignalStore × WriterCall :=
  let (s, stage) : SignalStore × WriterStage :=
    match call.stage with
    | .start => begin call.writer s
    | .unpaused => loadAndEvaluate engine call.writer s
    | .loadingDaily loop =>
      let daily := loadRecentCandles s.candles loop.symbol "1d" defaultLookbackBars
      (s, advance { loop with daily := some daily } loop.definitions)
    | .checking key draft loop =>
      (s, afterCheck draft loop (signalAlreadyExistsForCandle key s.signals))
    | .inserting draft loop =>
      let (result, s) := persistNewSignal draft (call.uuidHex (persistedCount loop)) s
      (s, afterInsert loop result)
    | .ended result => (s, .ended result)
  (s, { call with stage })

end

end AlphaOne.SignalEngine

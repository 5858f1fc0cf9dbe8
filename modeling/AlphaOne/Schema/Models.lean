import AlphaOne.Schema.Time

/-!
# The database schema

The enumerations and the rows of `database/schema/models.py`, with the columns that the modelled
functions read or write. A `Float` column is a rational number: the program's arithmetic is
followed exactly, without the rounding of binary floating point. A UUID is a natural number, and
a nullable column is an `Option`. Column defaults are the defaults of the structure fields.
-/

namespace AlphaOne

/-- The direction of a position. -/
inductive Side
  | long
  | short
  deriving DecidableEq, Repr

/-- `1` for a long position and `-1` for a short one. -/
def Side.sign : Side → ℚ
  | .long => 1
  | .short => -1

/-- The side a string names, as `side in ("LONG", "SHORT")` tests it. -/
def Side.ofString? : String → Option Side
  | "LONG" => some .long
  | "SHORT" => some .short
  | _ => none

inductive SignalType
  | long
  | short
  | exit
  | noTrade
  deriving DecidableEq, Repr

inductive TradeStatus
  | open_
  | partiallyClosed
  | closed
  | cancelled
  | unknown
  deriving DecidableEq, Repr

inductive TradeSource
  | manual
  | suncryptoSync
  | coindcxSync
  | aiPaper
  | telegramExternal
  deriving DecidableEq, Repr

inductive DataSourceKind
  | live
  | synced
  | manual
  | stale
  | unavailable
  deriving DecidableEq, Repr

inductive ExecutionType
  | entry
  | partialExit
  | exit
  deriving DecidableEq, Repr

inductive SignalMatchStatus
  | manual
  | autoMatched
  | ambiguous
  | unmatched
  | confirmed
  deriving DecidableEq, Repr

inductive TradingMode
  | paper
  | backtest
  | testnet
  | live
  deriving DecidableEq, Repr

inductive DataQualityStatus
  | valid
  | invalid
  | gap
  | stale
  deriving DecidableEq, Repr

/-- A row of `candles`. -/
structure Candle where
  timestamp : Datetime
  timeframe : String
  open_ : ℚ
  high : ℚ
  low : ℚ
  close : ℚ
  volume : ℚ
  symbol : String := "BTC/USDT"
  qualityStatus : DataQualityStatus := .valid
  deriving DecidableEq, Repr

/-- The columns of the unique index on `candles`. -/
def Candle.key (c : Candle) : String × String × Datetime := (c.symbol, c.timeframe, c.timestamp)

/-- A row of `signals`. -/
structure Signal where
  signalId : String
  timestamp : Datetime
  symbol : String := "BTC/USDT"
  signalType : SignalType
  entryPrice : Option ℚ := none
  stopLoss : Option ℚ := none
  takeProfit1 : Option ℚ := none
  takeProfit2 : Option ℚ := none
  takeProfit3 : Option ℚ := none
  marketRegime : Option String := none
  strategyName : Option String := none
  timeframe : Option String := none
  deriving DecidableEq, Repr

inductive ExternalSignalStatus
  | valid
  | invalid
  | incomplete
  | ambiguous
  | unsupportedSymbol
  | unsupportedMarket
  | entryTooFar
  | entryStale
  | entryInvalid
  | rejectedUnauthorizedSource
  deriving DecidableEq, Repr

/-- A row of `external_telegram_messages`. -/
structure ExternalTelegramMessage where
  id : ℕ
  sourceChannel : String
  sourceChannelId : Option String := none
  telegramMessageId : String
  messageTimestamp : Datetime
  editedTimestamp : Option Datetime := none
  text : String
  editedText : Option String := none
  deriving DecidableEq, Repr

/-- The columns of the unique index on `external_telegram_messages`. -/
def ExternalTelegramMessage.key (m : ExternalTelegramMessage) : String × String :=
  (m.sourceChannel, m.telegramMessageId)

/-- Why an external signal is not valid, with the values its `rejection_reason` is formatted from.
-/
inductive SignalRejection
  /-- `Empty message.` -/
  | emptyMessage
  /-- `No recognizable USDT symbol found in message.` -/
  | noSymbol
  /-- `Multiple conflicting direction keywords found: {keywords}.` -/
  | conflictingDirections (keywords : List String)
  /-- `No LONG/SHORT/BUY/SELL direction keyword found.` -/
  | noDirection
  /-- `{symbol} is not in the verified-eligible CoinDCX futures whitelist.` -/
  | unsupportedSymbol (symbol : String)
  /-- `Missing required field(s): {fields}. Never guessed.` -/
  | missingFields (fields : List String)
  /-- `SL/TP levels are not structurally valid for a {direction} at entry {entry} (SL={sl}, …).` -/
  | invalidStructure (direction : Side) (entry sl : ℚ) (targets : List ℚ)
  /-- `No live CoinDCX price available to validate this entry against.` -/
  | noLivePrice
  /-- `Non-positive price.` -/
  | nonPositivePrice
  /-- `Stated entry {entry} is {deviation_pct:.2f}% away from the current CoinDCX price {current} …`
  -/
  | entryDeviates (entry deviationPct current : ℚ)
  /-- `{source_channel} is not the allowlisted signal source.` -/
  | notAllowlisted (sourceChannel : String)
  deriving DecidableEq, Repr

/-- A row of `external_signals`. Its UUID is kept as the text that trade ids are made from. -/
structure ExternalSignal where
  id : String
  messageId : ℕ
  sourceChannel : String
  status : ExternalSignalStatus
  rejectionReason : Option SignalRejection := none
  rawSymbol : Option String := none
  symbol : Option String := none
  direction : Option Side := none
  entryPrice : Option ℚ := none
  stopLoss : Option ℚ := none
  takeProfit1 : Option ℚ := none
  takeProfit2 : Option ℚ := none
  takeProfit3 : Option ℚ := none
  leverageStated : Option ℕ := none
  timeframeStated : Option String := none
  marketPriceAtValidation : Option ℚ := none
  tradeId : Option String := none
  createdAt : Option Datetime := none
  /-- The parser calls a message valid only with its symbol, its direction and its levels. -/
  complete : status = .valid → symbol.isSome ∧ direction.isSome ∧ entryPrice.isSome ∧
    stopLoss.isSome ∧ takeProfit1.isSome := by simp
  deriving DecidableEq, Repr

/-- A row of `trades`. -/
structure Trade where
  tradeId : String
  signalId : Option String := none
  symbol : String
  side : Side
  status : TradeStatus := .open_
  mode : TradingMode := .paper
  entryPrice : ℚ
  exitPrice : Option ℚ := none
  stopLoss : Option ℚ := none
  takeProfit1 : Option ℚ := none
  takeProfit2 : Option ℚ := none
  takeProfit3 : Option ℚ := none
  quantity : ℚ
  leverage : ℤ := 1
  pnl : ℚ := 0
  pnlPct : ℚ := 0
  fees : ℚ := 0
  funding : ℚ := 0
  rMultiple : ℚ := 0
  entryTime : Datetime
  exitTime : Option Datetime := none
  exitReason : Option String := none
  marketRegime : Option String := none
  isManualEntry : Bool := true
  source : TradeSource := .manual
  matchedSignalConfidence : Option ℚ := none
  accountId : Option ℕ := none
  exchangePositionId : Option String := none
  markPrice : Option ℚ := none
  liquidationPrice : Option ℚ := none
  unrealizedPnl : Option ℚ := none
  margin : Option ℚ := none
  dataSource : DataSourceKind := .manual
  matchStatus : SignalMatchStatus := .manual
  lastSyncedAt : Option Datetime := none
  deriving DecidableEq, Repr

/-- The text in `trade_executions.note`, with the values the source formats into it. -/
inductive ExecutionNote
  /-- A note the caller supplies. -/
  | text (note : String)
  /-- `AI paper entry -- strategy_evidence={evidence}` -/
  | paperEntry (evidence : String)
  /-- `TP{target} partial exit, pnl={pnl}` -/
  | targetExit (target : ℕ) (pnl : ℚ)
  /-- `Closed: {reason}` -/
  | closed (reason : String)
  /-- `raw fill sync, side={side}` -/
  | rawFill (side : Option String)
  deriving DecidableEq, Repr

/-- A row of `trade_executions`. -/
structure TradeExecution where
  tradeId : String
  executionType : ExecutionType
  price : ℚ
  quantity : ℚ
  timestamp : Datetime
  note : Option ExecutionNote := none
  exchangeTransactionId : Option String := none
  deriving DecidableEq, Repr

/-- A row of `notification_logs`. -/
structure NotificationLog where
  signalId : Option String := none
  channel : String
  messageType : String
  status : String
  deriving DecidableEq, Repr

/-- An execution that takes quantity off a trade. -/
def TradeExecution.isExit (e : TradeExecution) : Bool :=
  e.executionType == .partialExit || e.executionType == .exit

end AlphaOne

import AlphaOne.Schema.Models

/-!
# The widths of the text columns

The `String(n)` columns of `database/schema/models.py` are `VARCHAR(n)` on PostgreSQL, which
refuses a longer text. Here are the texts the enumerations are stored as, and for each kind of row
the texts it puts into such columns, with their widths. `Text` columns have no width.
-/

namespace AlphaOne

/-! ## The stored texts -/

def Side.value : Side → String
  | .long => "LONG"
  | .short => "SHORT"

def SignalType.value : SignalType → String
  | .long => "LONG"
  | .short => "SHORT"
  | .exit => "EXIT"
  | .noTrade => "NO_TRADE"

def TradeStatus.value : TradeStatus → String
  | .open_ => "OPEN"
  | .partiallyClosed => "PARTIALLY_CLOSED"
  | .closed => "CLOSED"
  | .cancelled => "CANCELLED"
  | .unknown => "UNKNOWN"

def TradeSource.value : TradeSource → String
  | .manual => "MANUAL"
  | .suncryptoSync => "SUNCRYPTO_SYNC"
  | .coindcxSync => "COINDCX_SYNC"
  | .aiPaper => "AI_PAPER"
  | .telegramExternal => "TELEGRAM_EXTERNAL"

def DataSourceKind.value : DataSourceKind → String
  | .live => "LIVE"
  | .synced => "SYNCED"
  | .manual => "MANUAL"
  | .stale => "STALE"
  | .unavailable => "UNAVAILABLE"

def ExecutionType.value : ExecutionType → String
  | .entry => "ENTRY"
  | .partialExit => "PARTIAL_EXIT"
  | .exit => "EXIT"

def SignalMatchStatus.value : SignalMatchStatus → String
  | .manual => "MANUAL"
  | .autoMatched => "AUTO_MATCHED"
  | .ambiguous => "AMBIGUOUS"
  | .unmatched => "UNMATCHED"
  | .confirmed => "CONFIRMED"

def TradingMode.value : TradingMode → String
  | .paper => "paper"
  | .backtest => "backtest"
  | .testnet => "testnet"
  | .live => "live"

/-! ## The columns -/

/-- A text in a column of the given width. -/
structure Varchar where
  column : String
  width : ℕ
  text : String
  deriving DecidableEq, Repr

def Varchar.Fits (v : Varchar) : Prop := v.text.length ≤ v.width

instance (v : Varchar) : Decidable v.Fits := inferInstanceAs (Decidable (_ ≤ _))

/-- The text of a nullable column. -/
def nullable (column : String) (width : ℕ) (text : Option String) : List Varchar :=
  (text.map fun text => ⟨column, width, text⟩).toList

def Trade.varchars (t : Trade) : List Varchar :=
  [⟨"trade_id", 30, t.tradeId⟩, ⟨"symbol", 20, t.symbol⟩, ⟨"side", 10, t.side.value⟩,
    ⟨"status", 10, t.status.value⟩, ⟨"mode", 10, t.mode.value⟩, ⟨"source", 20, t.source.value⟩,
    ⟨"data_source", 20, t.dataSource.value⟩, ⟨"match_status", 20, t.matchStatus.value⟩] ++
  nullable "signal_id" 30 t.signalId ++ nullable "exit_reason" 50 t.exitReason ++
  nullable "market_regime" 20 t.marketRegime ++
  nullable "exchange_position_id" 64 t.exchangePositionId

def TradeExecution.varchars (e : TradeExecution) : List Varchar :=
  [⟨"trade_id", 30, e.tradeId⟩, ⟨"execution_type", 20, e.executionType.value⟩] ++
  nullable "exchange_transaction_id" 128 e.exchangeTransactionId

def NotificationLog.varchars (l : NotificationLog) : List Varchar :=
  [⟨"channel", 20, l.channel⟩, ⟨"message_type", 20, l.messageType⟩, ⟨"status", 20, l.status⟩] ++
  nullable "signal_id" 30 l.signalId

def Signal.varchars (s : Signal) : List Varchar :=
  [⟨"signal_id", 30, s.signalId⟩, ⟨"symbol", 20, s.symbol⟩,
    ⟨"signal_type", 10, s.signalType.value⟩] ++
  nullable "market_regime" 20 s.marketRegime ++ nullable "strategy_name" 50 s.strategyName ++
  nullable "timeframe" 10 s.timeframe

/-- A row none of whose texts is too long. -/
def AllFit (texts : List Varchar) : Prop := ∀ v ∈ texts, v.Fits

instance (texts : List Varchar) : Decidable (AllFit texts) :=
  inferInstanceAs (Decidable (∀ v ∈ texts, _))

/-! ## Which rows fit -/

theorem allFit_append {v w : List Varchar} : AllFit (v ++ w) ↔ AllFit v ∧ AllFit w := by
  simp [AllFit, or_imp, forall_and]

theorem allFit_nullable {column : String} {width : ℕ} {text : Option String} :
    AllFit (nullable column width text) ↔ ∀ s ∈ text, s.length ≤ width := by
  cases text <;> simp [AllFit, nullable, Varchar.Fits]

/-- `PARTIALLY_CLOSED` is the one status too long for its column. -/
theorem TradeStatus.length_value_le (status : TradeStatus) :
    status.value.length ≤ 10 ↔ status ≠ .partiallyClosed := by
  cases status <;> decide

/-- The texts of a trade that can be too long. -/
structure Trade.Fits (t : Trade) : Prop where
  tradeId : t.tradeId.length ≤ 30
  symbol : t.symbol.length ≤ 20
  status : t.status ≠ .partiallyClosed
  signalId : ∀ s ∈ t.signalId, s.length ≤ 30
  exitReason : ∀ s ∈ t.exitReason, s.length ≤ 50
  marketRegime : ∀ s ∈ t.marketRegime, s.length ≤ 20
  exchangePositionId : ∀ s ∈ t.exchangePositionId, s.length ≤ 64

theorem Trade.allFit_iff (t : Trade) : AllFit t.varchars ↔ t.Fits := by
  have hside : t.side.value.length ≤ 10 := by cases t.side <;> decide
  have hmode : t.mode.value.length ≤ 10 := by cases t.mode <;> decide
  have hsource : t.source.value.length ≤ 20 := by cases t.source <;> decide
  have hdata : t.dataSource.value.length ≤ 20 := by cases t.dataSource <;> decide
  have hmatch : t.matchStatus.value.length ≤ 20 := by cases t.matchStatus <;> decide
  rw [Trade.varchars, allFit_append, allFit_append, allFit_append, allFit_append,
    allFit_nullable, allFit_nullable, allFit_nullable, allFit_nullable]
  have hfixed : AllFit
      [⟨"trade_id", 30, t.tradeId⟩, ⟨"symbol", 20, t.symbol⟩, ⟨"side", 10, t.side.value⟩,
        ⟨"status", 10, t.status.value⟩, ⟨"mode", 10, t.mode.value⟩,
        ⟨"source", 20, t.source.value⟩, ⟨"data_source", 20, t.dataSource.value⟩,
        ⟨"match_status", 20, t.matchStatus.value⟩] ↔
      t.tradeId.length ≤ 30 ∧ t.symbol.length ≤ 20 ∧ t.status ≠ .partiallyClosed := by
    rw [← TradeStatus.length_value_le]
    simp [AllFit, Varchar.Fits, hside, hmode, hsource, hdata, hmatch]
  rw [hfixed]
  constructor
  · rintro ⟨⟨⟨⟨⟨h1, h2, h3⟩, h4⟩, h5⟩, h6⟩, h7⟩
    exact ⟨h1, h2, h3, h4, h5, h6, h7⟩
  · rintro ⟨h1, h2, h3, h4, h5, h6, h7⟩
    exact ⟨⟨⟨⟨⟨h1, h2, h3⟩, h4⟩, h5⟩, h6⟩, h7⟩

theorem TradeExecution.allFit_iff (e : TradeExecution) : AllFit e.varchars ↔
    e.tradeId.length ≤ 30 ∧ ∀ s ∈ e.exchangeTransactionId, s.length ≤ 128 := by
  have htype : e.executionType.value.length ≤ 20 := by cases e.executionType <;> decide
  rw [TradeExecution.varchars, allFit_append, allFit_nullable]
  refine and_congr_left fun _ => ?_
  simp [AllFit, Varchar.Fits, htype]

theorem NotificationLog.allFit_iff (l : NotificationLog) : AllFit l.varchars ↔
    (l.channel.length ≤ 20 ∧ l.messageType.length ≤ 20 ∧ l.status.length ≤ 20) ∧
      ∀ s ∈ l.signalId, s.length ≤ 30 := by
  rw [NotificationLog.varchars, allFit_append, allFit_nullable]
  refine and_congr_left fun _ => ?_
  simp [AllFit, Varchar.Fits]

end AlphaOne

import AlphaOne.LiveExecution.Wiring
import AlphaOne.TelegramSignals.Ingestion

/-!
# The pipeline of incoming channel messages

`services/telegram_signals/pipeline.py`: whichever transport delivers a message of the external
channel, it is stored, parsed and validated; a valid signal is offered to the live executor and then
executed on paper. Every call processes the message anew, whether it was delivered before or not.

A `Delivery` is a call with what it reads from its environment: the answers of the exchange, the
clock, the UUIDs that are drawn, and which of its commits succeed.
-/

namespace AlphaOne.TelegramSignals

open Foundations Journal Paper Scanner Live

structure FeedSettings where
  channel : ChannelSettings := {}
  live : Live.Settings := {}
  deriving DecidableEq, Repr

/-- A call of `process_incoming_channel_message`. -/
structure Delivery where
  message : IncomingMessage
  /-- The UUID of the row of the message, if it is new. -/
  messageRow : ℕ
  commitsMessage : Bool := true
  /-- The answer to the lookup of the price, and when it is read. -/
  ticker : TickerResponse
  tickerAt : Datetime
  stamp : SignalStamp
  commitsSignal : Bool := true
  live : LiveEnvironment
  /-- What `get_usdt_inr_rate` returns, unless it raises. -/
  usdtInrRate : Option (Option ℚ)
  utcnow : Datetime
  commits : Bool := true
  commitsTradeId : Bool := true
  deriving DecidableEq, Repr

/-- The post that is delivered. -/
def Delivery.post (d : Delivery) : Option String × String :=
  (d.message.channelId, d.message.telegramMessageId)

/-- What the pipeline works on. -/
structure TelegramStore where
  messages : List ExternalTelegramMessage := []
  signals : List ExternalSignal := []
  live : LiveStore := {}
  tables : Tables := {}
  multiCoinPaperTrader : PaperTrader

inductive DeliveryResult
  /-- The channel is not authorized. -/
  | ignored
  /-- An exception ends the call. -/
  | raised
  | processed (signal : ExternalSignal)
  deriving DecidableEq, Repr

/-- How a delivery ends, the state it leaves, the rows of `live_executions` it has inserted and the
position it has put into the book. -/
structure Delivered where
  result : DeliveryResult
  store : TelegramStore
  inserted : List LiveExecution := []
  opened : Option PaperPosition := none

/-- `_price_lookup`; nothing when it raises. -/
def priceLookup (ticker : TickerResponse) (tickerAt : Datetime) (symbol : String) :
    Option (Option ℚ) :=
  (checkInstrumentAvailability [symbol] ticker tickerAt).map fun results =>
    results.head?.bind fun a => if a.available then a.lastPrice else none

section

variable (u : UnicodeData) (settings : FeedSettings) (client : OrderClient) (d : Delivery)
  (s : TelegramStore)

/-- The message is stored, validated, and its signal is stored. -/
def storeSignal : Option ExternalSignal × TelegramStore :=
  match ingestMessage d.message d.messageRow d.commitsMessage s.messages with
  | (.error _, messages) => (none, { s with messages })
  | (.ok message, messages) =>
    let (signal, signals) := processMessage u settings.channel message defaultWhitelist
      (some (priceLookup d.ticker d.tickerAt)) d.stamp d.commitsSignal s.signals
    (signal, { s with messages, signals })

/-- The executor works on the database in which the trades are. -/
def offerLive (signal : ExternalSignal) : Bool × TelegramStore :=
  let (returned, live) := maybeAttemptLiveExecution settings.live client signal d.live
    { s.live with trades := s.tables.trades }
  (returned, { s with live })

/-- The call of `execute_valid_signal` with the rate that was found. -/
def executeCall (signal : ExternalSignal) (rate : Option ℚ) : ExecuteCall :=
  { signal
    usdtInrRate := rate
    utcnow := d.utcnow
    commits := d.commits
    commitsTradeId := d.commitsTradeId }

/-- The state after a call of `execute_valid_signal`. -/
def TelegramStore.executed (call : ExecuteCall) : TelegramStore :=
  let executed := executeValidSignal call s.tables s.multiCoinPaperTrader
  { s with
    tables := executed.tables
    multiCoinPaperTrader := executed.multiCoinPaperTrader
    signals := save ExternalSignal.id executed.signal s.signals }

def processIncomingChannelMessage : Delivered :=
  if !isAuthorizedChannel u settings.channel d.message.channel d.message.channelId then
    { result := .ignored, store := s }
  else
    match storeSignal u settings d s with
    | (none, s) => { result := .raised, store := s }
    | (some signal, s) =>
      if signal.status ≠ .valid then { result := .processed signal, store := s }
      else
        let (returned, offered) := offerLive settings client d s signal
        let inserted := offered.live.executions.drop s.live.executions.length
        if !returned then { result := .raised, store := offered, inserted }
        else
          match d.usdtInrRate with
          | none => { result := .raised, store := offered, inserted }
          | some rate =>
            let call := executeCall d signal rate
            let executed := executeValidSignal call offered.tables offered.multiCoinPaperTrader
            { result := match executed.result with
                | .error _ => .raised
                | .ok _ => .processed executed.signal
              store := offered.executed call
              inserted
              opened := (gates call offered.tables).toOption.map Prod.snd }

/-! ## What a delivery does -/

/-- The signal that a delivery stores. -/
def Delivery.signal? : Option ExternalSignal :=
  if isAuthorizedChannel u settings.channel d.message.channel d.message.channelId then
    (storeSignal u settings d s).1
  else none

/-- A delivery stores a valid signal and offers it to the executor with an answer to every request,
while automatic trading is enabled, and the executor comes to its second statement. -/
def Delivery.InsertsRow : Prop :=
  settings.live.automaticTradingEnabled = true ∧ 2 ≤ d.live.statements ∧
    ∃ signal ∈ d.signal? u settings s, signal.status = .valid ∧
      (liveCall signal d.live).isSome = true

/-- A delivery stores a valid signal, neither the executor nor the request for the rate raises, and
no gate refuses to open a position. -/
def Delivery.OpensPosition : Prop :=
  ∃ signal ∈ d.signal? u settings s, signal.status = .valid ∧
    (offerLive settings client d s signal).1 = true ∧
    ∃ rate ∈ d.usdtInrRate, (gates (executeCall d signal rate) s.tables).isOk = true

instance : Decidable (d.InsertsRow u settings s) :=
  inferInstanceAs (Decidable (_ ∧ _ ∧ ∃ signal ∈ d.signal? u settings s, _ ∧ _))

instance : Decidable (d.OpensPosition u settings client s) :=
  inferInstanceAs (Decidable (∃ signal ∈ d.signal? u settings s, _ ∧ _ ∧
    ∃ rate ∈ d.usdtInrRate, (gates (executeCall d signal rate) s.tables).isOk = true))

end

/-! ## The stages of a delivery -/

section

variable {u : UnicodeData} {settings : FeedSettings} {client : OrderClient} {d : Delivery}
  {s s' : TelegramStore} {signal : ExternalSignal}

variable (u settings d s) in
/-- Storing a signal leaves the executor, the trades and the book alone. -/
theorem storeSignal_keeps : (storeSignal u settings d s).2.live = s.live ∧
    (storeSignal u settings d s).2.tables = s.tables ∧
    (storeSignal u settings d s).2.multiCoinPaperTrader = s.multiCoinPaperTrader := by
  unfold storeSignal
  split <;> exact ⟨rfl, rfl, rfl⟩

variable (u settings d s) in
/-- **Every signal is a new row**, with the UUID drawn for it, and a valid one is for a symbol of
the whitelist. -/
theorem storeSignal_signals : (storeSignal u settings d s).2.signals =
      s.signals ++ (storeSignal u settings d s).1.toList ∧
    ∀ signal ∈ (storeSignal u settings d s).1, signal.id = d.stamp.id ∧
      (signal.status = .valid → ∃ symbol ∈ defaultWhitelist, signal.symbol = some symbol) := by
  unfold storeSignal
  split
  · simp
  · rename_i message messages _
    simp only [processMessage]
    cases hvalidate : validate u settings.channel message defaultWhitelist
      (some (priceLookup d.ticker d.tickerAt)) d.stamp with
    | none => simp
    | some signal =>
      cases d.commitsSignal with
      | false => simp
      | true =>
        refine ⟨by simp, ?_⟩
        intro signal' hsignal
        simp only [if_true, Option.mem_def, Option.some.injEq] at hsignal
        exact hsignal ▸ validate_spec hvalidate

/-- What is offered depends on the executor and the trades only. -/
theorem offerLive_fst_congr (hlive : s'.live = s.live) (htables : s'.tables = s.tables) :
    (offerLive settings client d s' signal).1 = (offerLive settings client d s signal).1 := by
  simp only [offerLive, hlive, htables]

end

end AlphaOne.TelegramSignals

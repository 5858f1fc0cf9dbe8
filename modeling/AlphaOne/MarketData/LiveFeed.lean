import AlphaOne.Exchange.CoinDCX

/-!
# The live market feed

`CoinDCXMarketDataWebSocket` of `services/market_data/coindcx_ws.py`. Two channels feed one
`MarketTick`: `price-change` carries the last traded price of the instrument, and
`currentPrices@futures@rt` the mark prices of all instruments. A message is taken as its handler
finds it once the payload has been extracted, with the fields that the handler reads.
-/

namespace AlphaOne.MarketData

open Exchange

/-- A number of a payload, as `float` reads it. -/
inductive NumberField
  | missing
  | malformed
  | number (x : ℚ)
  deriving DecidableEq, Repr

/-- A time of a payload, in epoch milliseconds, as `_ms_to_dt` reads it. -/
inductive TimeField
  | unreadable
  | time (t : Datetime)
  /-- `utcfromtimestamp` raises an `OverflowError`, which `_ms_to_dt` does not catch. -/
  | outOfRange
  deriving DecidableEq, Repr

/-- The payload of a `price-change`. -/
structure PriceChange where
  p : NumberField
  T : TimeField := .unreadable
  deriving DecidableEq, Repr

/-- The payload of a `currentPrices@futures#update`: the field `mp` of the entry of every
instrument; `prices` is `none` when it is no dictionary. -/
structure CurrentPrices where
  prices : Option (List (String × NumberField))
  ts : TimeField := .unreadable
  deriving DecidableEq, Repr

inductive ConnectionState
  | live
  | stale
  | disconnected
  | unavailable
  | notConfigured
  deriving DecidableEq, Repr

structure MarketTick where
  /-- The time the exchange reports. -/
  eventTimestamp : Option Datetime := none
  lastPriceUsdt : Option ℚ := none
  markPriceUsdt : Option ℚ := none
  /-- The local time at which the last message was received. -/
  receivedAt : Option Datetime := none
  deriving DecidableEq, Repr

/-- `DEFAULT_STALE_AFTER`. -/
def defaultStaleAfter : Timedelta := Timedelta.seconds 20

/-! ## The handlers -/

/-- The end of both handlers. When the time of the exchange is out of range it raises, with the
price already written. -/
def MarketTick.stamp (ts : TimeField) (now : Datetime) (s : MarketTick) : MarketTick :=
  match ts with
  | .outOfRange => s
  | .unreadable => { s with receivedAt := some now }
  | .time t => { s with eventTimestamp := some t, receivedAt := some now }

@[simp] theorem MarketTick.lastPriceUsdt_stamp (ts : TimeField) (now : Datetime) (s : MarketTick) :
    (s.stamp ts now).lastPriceUsdt = s.lastPriceUsdt := by
  cases ts <;> rfl

theorem MarketTick.receivedAt_stamp (ts : TimeField) (now : Datetime) (s : MarketTick) :
    (s.stamp ts now).receivedAt = if ts = .outOfRange then s.receivedAt else some now := by
  cases ts <;> rfl

/-- `handle_price_change`. -/
def handlePriceChange (data : PriceChange) (now : Datetime) (s : MarketTick) : MarketTick :=
  match data.p with
  | .missing | .malformed => s
  | .number price => ({ s with lastPriceUsdt := some price } : MarketTick).stamp data.T now

/-- The mark price that `handle_current_prices` finds for an instrument. -/
def CurrentPrices.markPrice? (data : CurrentPrices) (instrument : String) : Option ℚ :=
  match (data.prices.getD []).lookup instrument with
  | some (.number markPrice) => some markPrice
  | _ => none

/-- `handle_current_prices`. -/
def handleCurrentPrices (instrument : String) (data : CurrentPrices) (now : Datetime)
    (s : MarketTick) : MarketTick :=
  match data.markPrice? instrument with
  | none => s
  | some markPrice => ({ s with markPriceUsdt := some markPrice } : MarketTick).stamp data.ts now

/-! ## The client -/

structure CoinDCXMarketDataWebSocket where
  instrument : String := normalizeSymbol "BTC/USDT" "USDT"
  state : MarketTick := {}
  connected : Bool := false
  everConnected : Bool := false
  lastNotifiedStatus : Option ConnectionState := none
  deriving DecidableEq, Repr

namespace CoinDCXMarketDataWebSocket

/-- `_maybe_notify_transition`: the transition it reports, if any. -/
def maybeNotifyTransition (ws : CoinDCXMarketDataWebSocket) :
    Option (ConnectionState × ConnectionState) × CoinDCXMarketDataWebSocket :=
  let newStatus : ConnectionState := if ws.connected then .live else .disconnected
  let transition :=
    match ws.lastNotifiedStatus with
    | none => none
    | some last => if last ≠ newStatus then some (last, newStatus) else none
  (transition, { ws with lastNotifiedStatus := some newStatus })

/-- `_on_connect`. -/
def onConnect (ws : CoinDCXMarketDataWebSocket) :
    Option (ConnectionState × ConnectionState) × CoinDCXMarketDataWebSocket :=
  ({ ws with connected := true, everConnected := true } :
    CoinDCXMarketDataWebSocket).maybeNotifyTransition

/-- `_on_disconnect`. -/
def onDisconnect (ws : CoinDCXMarketDataWebSocket) :
    Option (ConnectionState × ConnectionState) × CoinDCXMarketDataWebSocket :=
  ({ ws with connected := false } : CoinDCXMarketDataWebSocket).maybeNotifyTransition

/-- `connection_status`. -/
def connectionStatus (ws : CoinDCXMarketDataWebSocket) (now : Datetime)
    (staleAfter : Timedelta := defaultStaleAfter) : ConnectionState :=
  if ws.connected = false then
    if ws.everConnected then .disconnected else .unavailable
  else
    match ws.state.receivedAt with
    | none => .unavailable
    | some receivedAt => if now - receivedAt ≤ staleAfter then .live else .stale

/-- What the socket delivers, with the clock at which a message is handled. -/
inductive Event
  | connect
  | disconnect
  | priceChange (data : PriceChange) (now : Datetime)
  | currentPrices (data : CurrentPrices) (now : Datetime)
  deriving DecidableEq, Repr

def handle (ws : CoinDCXMarketDataWebSocket) : Event → CoinDCXMarketDataWebSocket
  | .connect => ws.onConnect.2
  | .disconnect => ws.onDisconnect.2
  | .priceChange data now => { ws with state := handlePriceChange data now ws.state }
  | .currentPrices data now =>
    { ws with state := handleCurrentPrices ws.instrument data now ws.state }

/-- The feed is live when it is connected and the last message of either channel is recent. -/
theorem connectionStatus_eq_live_iff (ws : CoinDCXMarketDataWebSocket) (now : Datetime)
    (staleAfter : Timedelta) : ws.connectionStatus now staleAfter = .live ↔
      ws.connected = true ∧ ∃ r, ws.state.receivedAt = some r ∧ now - r ≤ staleAfter := by
  unfold connectionStatus
  cases hc : ws.connected with
  | false => cases ws.everConnected <;> simp
  | true =>
    cases hr : ws.state.receivedAt with
    | none => simp
    | some r => by_cases hn : now - r ≤ staleAfter <;> simp [hn, -tsub_le_iff_right]

end CoinDCXMarketDataWebSocket

end AlphaOne.MarketData

import AlphaOne.MarketData.LiveFeed
import AlphaOne.SignalEngine.LiveSignal

/-!
# The traded price of a live feed

`connection_status` dates the feed by `received_at`, which the messages of both channels set. Its
readers take it for the age of the traded price: `evaluate_live_breakout` and the forming candle of
`get_candles` go on when the feed is live, and hand the last price with `received_at` to an
aggregator. A `LiveDesk` is the feed with these two readers, which wait for the database and for the
conversion rate between their looks at the feed; beside them it keeps when the price change that set
the last price was received.

`live_means_traded` says under which messages live means that the traded price is live.
-/

namespace AlphaOne.SignalEngine

open Foundations MarketData

/-- What `evaluate_live_breakout` has taken from the live feed before it loads the candles. -/
structure Look where
  price : ℚ
  checkedAt : Datetime
  tradedAt : Option Datetime
  deriving DecidableEq, Repr

/-- A tick handed to an aggregator. -/
structure Tick where
  price : ℚ
  ts : Datetime
  /-- When the reader found the feed live. -/
  checkedAt : Datetime
  /-- When the price change that set `price` was received. -/
  tradedAt : Option Datetime
  deriving DecidableEq, Repr

/-- The feed and its readers. -/
structure LiveDesk where
  ws : CoinDCXMarketDataWebSocket := {}
  /-- When the price change that set `last_price_usdt` was received. -/
  tradedAt : Option Datetime := none
  /-- The call of `evaluate_live_breakout` that loads its candles. -/
  breakout : Option Look := none
  /-- When the requests for candles that wait for the rate found the feed live. -/
  charts : List Datetime := []
  ticks : List Tick := []
  deriving DecidableEq, Repr

namespace LiveDesk

inductive Event
  | socket (e : CoinDCXMarketDataWebSocket.Event)
  /-- `evaluate_live_breakout` reads the status and the price. -/
  | checkBreakout (now : Datetime)
  /-- It has its candles, and reads the time of reception. -/
  | tickBreakout (now : Datetime)
  /-- `get_candles` computes `live_feed_is_live`. -/
  | checkChart (now : Datetime)
  /-- The request at a place has its rate, and reads the price and the time of reception. -/
  | tickChart (i : ℕ) (now : Datetime)
  /-- The request at a place ends without a forming candle. -/
  | leaveChart (i : ℕ)
  deriving DecidableEq, Repr

/-- The price that a reader finds when it checks the feed. -/
def livePrice (ws : CoinDCXMarketDataWebSocket) (now : Datetime) : Option ℚ :=
  if ws.connectionStatus now = .live then ws.state.lastPriceUsdt else none

/-- `on_tick(last_price_usdt, received_at)`. -/
def tickOf (ws : CoinDCXMarketDataWebSocket) (price : ℚ) (checkedAt now : Datetime)
    (tradedAt : Option Datetime) : Tick :=
  { price, ts := ws.state.receivedAt.getD now, checkedAt, tradedAt }

/-- When the last price was set, after a message. -/
def tradedAfter (tradedAt : Option Datetime) :
    CoinDCXMarketDataWebSocket.Event → Option Datetime
  | .priceChange ⟨.number _, _⟩ now => some now
  | _ => tradedAt

def step (d : LiveDesk) : Event → LiveDesk
  | .socket e => { d with ws := d.ws.handle e, tradedAt := tradedAfter d.tradedAt e }
  | .checkBreakout now =>
    let breakout := (livePrice d.ws now).map fun price => ⟨price, now, d.tradedAt⟩
    { d with breakout }
  | .tickBreakout now =>
    match d.breakout with
    | none => d
    | some look =>
      let tick := tickOf d.ws look.price look.checkedAt now look.tradedAt
      { d with breakout := none, ticks := d.ticks ++ [tick] }
  | .checkChart now =>
    match livePrice d.ws now with
    | none => d
    | some _ => { d with charts := d.charts ++ [now] }
  | .tickChart i now =>
    match d.charts[i]?, d.ws.state.lastPriceUsdt with
    | some checkedAt, some price =>
      let tick := tickOf d.ws price checkedAt now d.tradedAt
      { d with charts := d.charts.eraseIdx i, ticks := d.ticks ++ [tick] }
    | _, _ => d
  | .leaveChart i => { d with charts := d.charts.eraseIdx i }

/-- What `evaluate_live_breakout` has read of the feed once it has its candles. -/
def feedOf (ws : CoinDCXMarketDataWebSocket) (look : Look) (now : Datetime) : MarketFeed :=
  { isLive := true, lastPriceUsdt := some look.price, receivedAt := ws.state.receivedAt,
    utcnow := now }

theorem afterLoadLive_aggregator (engine : Strategies) (symbol timeframe : String)
    (feed : MarketFeed) (price : ℚ) (df : List Candle) (s : SignalStore) :
    (afterLoadLive engine symbol timeframe feed price df s).1.aggregator = s.aggregator ∨
      (afterLoadLive engine symbol timeframe feed price df s).1.aggregator =
        (s.aggregator.onTick price (feed.receivedAt.getD feed.utcnow)).2 := by
  unfold afterLoadLive
  split
  · exact Or.inl rfl
  · split
    · exact Or.inl rfl
    · right
      dsimp only
      split
      · rfl
      · split <;> rfl

/-- `evaluate_live_breakout` moves its aggregator by the tick it hands over, or not at all. -/
theorem loadAndEvaluate_aggregator (engine : Strategies) (symbol timeframe : String)
    (ws : CoinDCXMarketDataWebSocket) (look : Look) (now : Datetime) (s : SignalStore) :
    let writer := Writer.evaluateLiveBreakout symbol timeframe (feedOf ws look now)
    let tick := tickOf ws look.price look.checkedAt now look.tradedAt
    (loadAndEvaluate engine writer s).1.aggregator = s.aggregator ∨
      (loadAndEvaluate engine writer s).1.aggregator =
        (s.aggregator.onTick tick.price tick.ts).2 :=
  afterLoadLive_aggregator engine symbol timeframe (feedOf ws look now) look.price _ s

/-! ## What live is to mean -/

/-- When the status is live, the traded price was received within `staleAfter`. -/
def Traded (d : LiveDesk) : Prop :=
  ∀ now staleAfter price, d.ws.connectionStatus now staleAfter = .live →
    d.ws.state.lastPriceUsdt = some price → ∃ t ∈ d.tradedAt, now - t ≤ staleAfter

/-- The price of the tick was live, and is not stamped with a newer time than its own. -/
def HonestTick (tick : Tick) : Prop :=
  ∃ t ∈ tick.tradedAt, tick.checkedAt - t ≤ defaultStaleAfter ∧ tick.ts ≤ t

/-- Nothing has been received after the traded price. -/
def Dated (d : LiveDesk) : Prop :=
  ∀ r ∈ d.ws.state.receivedAt, ∀ t ∈ d.tradedAt, r ≤ t

/-- Somebody may take the feed for live. -/
def Watched (d : LiveDesk) : Prop := d.ws.connected = true ∨ d.charts ≠ []

/-- The condition on an event: no mark price is received after the traded price while the feed is
watched, and nothing at all between the two looks of `evaluate_live_breakout`; a connection starts
with the traded price as the last one received; and the clock is not set back under a price
change. -/
def KeepsDate (d : LiveDesk) : Event → Prop
  | .socket .connect => d.Dated
  | .socket (.priceChange ⟨.number _, T⟩ now) =>
    (∀ c ∈ d.charts, c - now ≤ defaultStaleAfter) ∧
      (T = .outOfRange → d.Watched → ∀ r ∈ d.ws.state.receivedAt, r ≤ now)
  | .socket (.currentPrices data now) =>
    (data.markPrice? d.ws.instrument).isSome → data.ts ≠ .outOfRange → d.Watched →
      ∀ t ∈ d.tradedAt, now ≤ t
  | .tickBreakout _ =>
    ∀ look ∈ d.breakout, ∀ r ∈ d.ws.state.receivedAt, ∀ t ∈ look.tradedAt, r ≤ t
  | _ => True

instance (d : LiveDesk) : Decidable d.Dated := by unfold Dated; infer_instance

instance (d : LiveDesk) : Decidable d.Watched := by unfold Watched; infer_instance

instance (tick : Tick) : Decidable (HonestTick tick) := by unfold HonestTick; infer_instance

instance (d : LiveDesk) : DecidablePred d.KeepsDate := fun e => by
  unfold KeepsDate; split <;> infer_instance

/-! ## One event -/

/-- A message of a socket does one of four things to what the readers look at. -/
theorem handle_cases (ws : CoinDCXMarketDataWebSocket) (tradedAt : Option Datetime)
    (e : CoinDCXMarketDataWebSocket.Event) :
    let ws' := ws.handle e
    let tradedAt' := tradedAfter tradedAt e
    (ws'.connected = ws.connected ∧ ws'.state.lastPriceUsdt = ws.state.lastPriceUsdt ∧
        ws'.state.receivedAt = ws.state.receivedAt ∧ tradedAt' = tradedAt) ∨
      (ws'.state = ws.state ∧ tradedAt' = tradedAt ∧
        (e = .connect ∨ e = .disconnect ∧ ws'.connected = false)) ∨
      (∃ price T now, e = .priceChange ⟨.number price, T⟩ now ∧ ws'.connected = ws.connected ∧
        ws'.state.lastPriceUsdt = some price ∧ tradedAt' = some now ∧
        ws'.state.receivedAt = if T = .outOfRange then ws.state.receivedAt else some now) ∨
      ∃ data now, e = .currentPrices data now ∧ (data.markPrice? ws.instrument).isSome ∧
        data.ts ≠ .outOfRange ∧ ws'.connected = ws.connected ∧
        ws'.state.lastPriceUsdt = ws.state.lastPriceUsdt ∧ tradedAt' = tradedAt ∧
        ws'.state.receivedAt = some now := by
  intro ws' tradedAt'
  cases e with
  | connect => exact Or.inr (Or.inl ⟨rfl, rfl, Or.inl rfl⟩)
  | disconnect => exact Or.inr (Or.inl ⟨rfl, rfl, Or.inr ⟨rfl, rfl⟩⟩)
  | priceChange data now =>
    obtain ⟨p, T⟩ := data
    cases p with
    | missing => exact Or.inl ⟨rfl, rfl, rfl, rfl⟩
    | malformed => exact Or.inl ⟨rfl, rfl, rfl, rfl⟩
    | number price =>
      refine Or.inr (Or.inr (Or.inl ⟨price, T, now, rfl, rfl, ?_, rfl, ?_⟩))
      · exact MarketTick.lastPriceUsdt_stamp ..
      · exact MarketTick.receivedAt_stamp ..
  | currentPrices data now =>
    have hws' : ws'.state = handleCurrentPrices ws.instrument data now ws.state := rfl
    cases hm : data.markPrice? ws.instrument with
    | none =>
      simp only [handleCurrentPrices, hm] at hws'
      exact Or.inl ⟨rfl, by rw [hws'], by rw [hws'], rfl⟩
    | some markPrice =>
      simp only [handleCurrentPrices, hm] at hws'
      have hlast : ws'.state.lastPriceUsdt = ws.state.lastPriceUsdt := by
        rw [hws', MarketTick.lastPriceUsdt_stamp]
      have hreceived := congrArg MarketTick.receivedAt hws'
      rw [MarketTick.receivedAt_stamp] at hreceived
      by_cases hts : data.ts = .outOfRange
      · rw [if_pos hts] at hreceived
        exact Or.inl ⟨rfl, hlast, hreceived, rfl⟩
      · rw [if_neg hts] at hreceived
        refine Or.inr (Or.inr (Or.inr ⟨data, now, rfl, ?_, hts, rfl, hlast, rfl, hreceived⟩))
        rw [hm, Option.isSome_some]

/-! ## The invariant -/

/-- What the conditions keep. -/
structure Inv (d : LiveDesk) : Prop where
  priced : d.ws.state.lastPriceUsdt.isSome → d.tradedAt.isSome
  dated : d.Watched → d.Dated
  look : ∀ look ∈ d.breakout, d.ws.state.receivedAt.isSome ∧
    ∃ t ∈ look.tradedAt, look.checkedAt - t ≤ defaultStaleAfter
  charts : ∀ c ∈ d.charts, d.ws.state.receivedAt.isSome ∧
    ∃ t ∈ d.tradedAt, c - t ≤ defaultStaleAfter
  honest : ∀ tick ∈ d.ticks, HonestTick tick

theorem Inv.init : Inv {} := by
  constructor <;> simp [Watched]

/-- A live feed under the invariant has a recent traded price. -/
theorem Inv.traded {d : LiveDesk} (h : d.Inv) : d.Traded := by
  intro now staleAfter price hlive hprice
  obtain ⟨hconnected, r, hr, hnow⟩ :=
    (d.ws.connectionStatus_eq_live_iff now staleAfter).1 hlive
  obtain ⟨t, ht⟩ := Option.isSome_iff_exists.1 (h.priced (by simp [hprice]))
  have hrt : r ≤ t := h.dated (Or.inl hconnected) r hr t ht
  exact ⟨t, ht, by linarith⟩

/-- A message under its condition keeps the invariant. -/
theorem Inv.socket {d : LiveDesk} (h : d.Inv) {e : CoinDCXMarketDataWebSocket.Event}
    (hd : d.KeepsDate (.socket e)) : (d.step (.socket e)).Inv := by
  rcases handle_cases d.ws d.tradedAt e with ⟨hc, hp, hr, ht⟩ | ⟨hs, ht, he⟩ |
    ⟨price, T, now, rfl, hc, hp, ht, hr⟩ | ⟨data, now, rfl, hm, hts, hc, hp, ht, hr⟩
  · -- nothing the readers look at has changed
    refine ⟨?_, ?_, ?_, ?_, h.honest⟩ <;> simp only [step, Watched, Dated, hc, hp, hr, ht]
    exacts [h.priced, h.dated, h.look, h.charts]
  · refine ⟨?_, ?_, ?_, ?_, h.honest⟩ <;> simp only [step, Watched, Dated, hs, ht]
    · exact h.priced
    · intro hw
      rcases he with rfl | ⟨rfl, hoff⟩
      · exact hd
      · rw [hoff] at hw
        exact h.dated (Or.inr (hw.resolve_left (by decide)))
    · exact h.look
    · exact h.charts
  · obtain ⟨hcharts, hclock⟩ := hd
    refine ⟨?_, ?_, ?_, ?_, h.honest⟩ <;> simp only [step, Watched, Dated, hc, hp, hr, ht]
    · simp
    · intro hw r hr t ht
      obtain rfl := Option.some.inj ht
      split_ifs at hr with hT
      · exact hclock hT hw r hr
      · exact (Option.some.inj hr).ge
    · intro look hlook
      refine ⟨?_, (h.look look hlook).2⟩
      split_ifs
      · exact (h.look look hlook).1
      · rfl
    · intro c hcc
      refine ⟨?_, now, rfl, hcharts c hcc⟩
      split_ifs
      · exact (h.charts c hcc).1
      · rfl
  · refine ⟨?_, ?_, ?_, ?_, h.honest⟩ <;> simp only [step, Watched, Dated, hc, hp, hr, ht]
    · exact h.priced
    · intro hw r hr t ht
      obtain rfl := Option.some.inj hr
      exact hd hm hts hw t ht
    · exact fun look hlook => ⟨rfl, (h.look look hlook).2⟩
    · exact fun c hcc => ⟨rfl, (h.charts c hcc).2⟩

/-- What a reader finds in a live feed is fresh, and has been received. -/
theorem Inv.livePrice {d : LiveDesk} (h : d.Inv) {now : Datetime} {price : ℚ}
    (hlive : livePrice d.ws now = some price) : d.ws.state.receivedAt.isSome ∧
      ∃ t ∈ d.tradedAt, now - t ≤ defaultStaleAfter := by
  unfold LiveDesk.livePrice at hlive
  split_ifs at hlive with hs
  obtain ⟨-, r, hr, -⟩ := (d.ws.connectionStatus_eq_live_iff now defaultStaleAfter).1 hs
  exact ⟨by rw [hr]; rfl, h.traded now defaultStaleAfter price hs hlive⟩

/-- A tick is honest when the time of reception does not exceed that of the price. -/
theorem honest_tickOf {d : LiveDesk} {price : ℚ} {checkedAt now : Datetime}
    {tradedAt : Option Datetime} (hsome : d.ws.state.receivedAt.isSome)
    (hfresh : ∃ t ∈ tradedAt, checkedAt - t ≤ defaultStaleAfter)
    (hdated : ∀ r ∈ d.ws.state.receivedAt, ∀ t ∈ tradedAt, r ≤ t) :
    HonestTick (tickOf d.ws price checkedAt now tradedAt) := by
  obtain ⟨t, ht, hle⟩ := hfresh
  obtain ⟨r, hr⟩ := Option.isSome_iff_exists.1 hsome
  refine ⟨t, ht, hle, ?_⟩
  have hts : (tickOf d.ws price checkedAt now tradedAt).ts = r := by
    rw [tickOf, hr, Option.getD_some]
  rw [hts]
  exact hdated r hr t ht

theorem Inv.ticked {d : LiveDesk} (h : d.Inv) {tick : Tick} (htick : HonestTick tick) :
    ∀ t ∈ d.ticks ++ [tick], HonestTick t := by
  intro t ht
  rcases List.mem_append.1 ht with ht | ht
  · exact h.honest t ht
  · rwa [List.mem_singleton.1 ht]

/-- Requests that go do not make the feed more watched. -/
theorem Inv.eraseChart {d : LiveDesk} (h : d.Inv) (i : ℕ) :
    ({ d with charts := d.charts.eraseIdx i } : LiveDesk).Inv where
  priced := h.priced
  dated hw := h.dated (hw.imp_right fun hne hnil => hne (by simp [hnil]))
  look := h.look
  charts c hc := h.charts c (List.mem_of_mem_eraseIdx hc)
  honest := h.honest

/-- **Every event under its condition keeps the invariant.** -/
theorem Inv.step {d : LiveDesk} (h : d.Inv) (e : Event) (hd : d.KeepsDate e) :
    (d.step e).Inv := by
  cases e with
  | socket e => exact h.socket hd
  | checkBreakout now =>
    refine ⟨h.priced, h.dated, ?_, h.charts, h.honest⟩
    intro look hlook
    obtain ⟨price, hlive, rfl⟩ := Option.map_eq_some_iff.1 hlook
    exact h.livePrice hlive
  | tickBreakout now =>
    simp only [LiveDesk.step]
    cases hb : d.breakout with
    | none => simpa only using h
    | some look =>
      obtain ⟨hsome, hfresh⟩ := h.look look hb
      have htick : HonestTick (tickOf d.ws look.price look.checkedAt now look.tradedAt) :=
        honest_tickOf hsome hfresh (hd look hb)
      exact ⟨h.priced, h.dated, by simp, h.charts, h.ticked htick⟩
  | checkChart now =>
    simp only [LiveDesk.step]
    cases hl : LiveDesk.livePrice d.ws now with
    | none => simpa only using h
    | some price =>
      have hconnected : d.ws.connected = true := by
        unfold LiveDesk.livePrice at hl
        split_ifs at hl with hs
        exact ((d.ws.connectionStatus_eq_live_iff now defaultStaleAfter).1 hs).1
      refine ⟨h.priced, fun _ => h.dated (Or.inl hconnected), h.look, ?_, h.honest⟩
      intro c hc
      rcases List.mem_append.1 hc with hc | hc
      · exact h.charts c hc
      · rw [List.mem_singleton.1 hc]
        exact h.livePrice hl
  | tickChart i now =>
    simp only [LiveDesk.step]
    split
    · next checkedAt price hi hprice =>
      have hmem : checkedAt ∈ d.charts := List.mem_of_getElem? hi
      obtain ⟨hsome, hfresh⟩ := h.charts checkedAt hmem
      have hdated : d.Dated := h.dated (Or.inr (List.ne_nil_of_mem hmem))
      have htick : HonestTick (tickOf d.ws price checkedAt now d.tradedAt) :=
        honest_tickOf hsome hfresh hdated
      exact { h.eraseChart i with honest := h.ticked htick }
    · exact h
  | leaveChart i => exact h.eraseChart i

/-! ## Live means traded -/

/-- **Live means that the traded price is live**, in every run whose messages keep its date: the
status never calls an older price live, and no reader stamps a price with a newer time. -/
theorem live_means_traded (events : List Event)
    (h : Guarded LiveDesk.step LiveDesk.KeepsDate {} events) :
    Always LiveDesk.step (fun d => d.Traded ∧ ∀ tick ∈ d.ticks, HonestTick tick) {} events := by
  have hinv := Always.of_guarded (fun d e hd => hd.step e) Inv.init h
  exact hinv.mono fun d hd => ⟨hd.traded, hd.honest⟩

/-- A price change every few seconds, and no mark prices. -/
theorem live_means_traded_of_trades :
    let events : List Event :=
      [.socket .connect, .socket (.priceChange ⟨.number 60000, .unreadable⟩ (Timedelta.seconds 1)),
        .checkBreakout (Timedelta.seconds 3), .tickBreakout (Timedelta.seconds 4),
        .checkChart (Timedelta.seconds 5),
        .socket (.priceChange ⟨.number 60010, .unreadable⟩ (Timedelta.seconds 6)),
        .tickChart 0 (Timedelta.seconds 7)]
    Guarded LiveDesk.step LiveDesk.KeepsDate {} events ∧
      Always LiveDesk.step (fun d => d.Traded ∧ ∀ tick ∈ d.ticks, HonestTick tick) {} events := by
  refine ⟨by decide, live_means_traded _ (by decide)⟩

/-- **The mark price keeps an old price live.** A trade is received at 0 s and a mark price at 30 s:
at 30 s the feed is live, and the price of 0 s makes the forming candle with the time 30 s. -/
theorem mark_price_keeps_old_price_live :
    let mark : CurrentPrices := { prices := some [("B-BTC_USDT", .number 60500)] }
    let events : List Event :=
      [.socket .connect, .socket (.priceChange ⟨.number 60000, .unreadable⟩ 0),
        .socket (.currentPrices mark (Timedelta.seconds 30)),
        .checkChart (Timedelta.seconds 30), .tickChart 0 (Timedelta.seconds 30)]
    let d := run LiveDesk.step {} events
    d.ws.connectionStatus (Timedelta.seconds 30) = .live ∧
      d.ticks = [⟨60000, Timedelta.seconds 30, Timedelta.seconds 30, some 0⟩] ∧
      ¬Always LiveDesk.step (fun d => d.Traded ∧ ∀ tick ∈ d.ticks, HonestTick tick) {} events := by
  intro mark events d
  have hlive : d.ws.connectionStatus (Timedelta.seconds 30) = .live := by decide
  refine ⟨hlive, by decide, fun h => ?_⟩
  obtain ⟨t, ht, hle⟩ := h.last.1 (Timedelta.seconds 30) defaultStaleAfter 60000 hlive (by decide)
  have htraded : d.tradedAt = some 0 := by decide
  obtain rfl : 0 = t := Option.some.inj (htraded.symm.trans ht)
  exact absurd hle (by decide)

end LiveDesk

end AlphaOne.SignalEngine

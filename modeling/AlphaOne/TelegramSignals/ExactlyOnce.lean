import AlphaOne.Foundations.Run
import AlphaOne.TelegramSignals.Pipeline

/-!
# How often a post is traded

A post of the external channel can be delivered any number of times: again after a reconnect, by the
other transport, as an edit. Its message is stored once, but every delivery stores a signal of its
own, with a UUID of its own. The idempotency key of the executor and the trade id of the position
are made from that UUID, so that neither recognises the post.

`exactly_once_iff` says in which runs a post is nevertheless traded at most once.
-/

namespace AlphaOne.TelegramSignals

open Foundations Journal Paper Scanner Live

/-! ## The identity of a delivery -/

theorem colon_notMem_whitelist : ∀ symbol ∈ defaultWhitelist, ':' ∉ symbol.toList := by
  decide

/-- The UUIDs of the signals that are stored. -/
def TelegramStore.signalIds (s : TelegramStore) : List String := s.signals.map ExternalSignal.id

/-- The rows of the executor were inserted for signals that are stored. -/
def TelegramStore.Keyed (s : TelegramStore) : Prop :=
  ∀ row ∈ s.live.footprint.rows, ∃ symbol, ':' ∉ symbol.toList ∧
    ∃ id ∈ s.signalIds, id ≠ "" ∧ row.2 = signalKey symbol id

/-- The UUID that is drawn for the signal has not been drawn before. -/
def Delivery.Fresh (d : Delivery) (s : TelegramStore) : Prop :=
  d.stamp.id ≠ "" ∧ d.stamp.id ∉ s.signalIds

section

variable {u : UnicodeData} {settings : FeedSettings} {client : OrderClient} {d : Delivery}
  {s : TelegramStore} {signal : ExternalSignal}

/-- **No row stands in the way of a new signal**, whatever was traded for its post before. -/
theorem getExistingExecution_fresh (hs : s.Keyed) (hd : d.Fresh s) (hid : signal.id = d.stamp.id)
    (hsymbol : ∃ symbol ∈ defaultWhitelist, signal.symbol = some symbol) {env : LiveEnvironment}
    {candidate : LiveExecutionCandidate} {inputs : GateInputs}
    (h : liveCall signal env = some (candidate, inputs)) :
    getExistingExecution candidate.key s.live = none := by
  obtain ⟨symbol, hsome, hkey⟩ := key_of_liveCall h
  obtain ⟨symbol', hlisted, hsome'⟩ := hsymbol
  obtain rfl := Option.some.inj (hsome.symm.trans hsome')
  rw [getExistingExecution_none]
  intro hmem
  obtain ⟨row, hrow, heq⟩ := List.mem_map.1 hmem
  obtain ⟨other, hcolon, id, hknown, hne, hother⟩ := hs row hrow
  have hsame : signalKey other id = signalKey symbol d.stamp.id := by
    rw [← hother, heq, hkey, hid]
  have hdrawn : id = d.stamp.id :=
    id_eq_of_signalKey hne hd.1 hcolon (colon_notMem_whitelist symbol hlisted) hsame
  exact hd.2 (hdrawn ▸ hknown)

/-! ## What a delivery does -/

variable (client) in
/-- A delivery that stores no signal. -/
theorem delivered_of_none (h : d.signal? u settings s = none) :
    (processIncomingChannelMessage u settings client d s).inserted = [] ∧
      (processIncomingChannelMessage u settings client d s).opened = none ∧
      (processIncomingChannelMessage u settings client d s).store.live = s.live ∧
      (processIncomingChannelMessage u settings client d s).store.signalIds = s.signalIds := by
  obtain ⟨hlive, -, -⟩ := storeSignal_keeps u settings d s
  obtain ⟨hsignals, -⟩ := storeSignal_signals u settings d s
  unfold Delivery.signal? at h
  unfold processIncomingChannelMessage
  cases hauth : isAuthorizedChannel u settings.channel d.message.channel d.message.channelId with
  | false => exact ⟨rfl, rfl, rfl, rfl⟩
  | true =>
    rw [hauth, if_pos rfl] at h
    cases hstore : storeSignal u settings d s with
    | mk result s' =>
    rw [hstore] at h hlive hsignals
    obtain rfl : result = none := h
    refine ⟨rfl, rfl, hlive, ?_⟩
    have hsame : s'.signals = s.signals := by simpa using hsignals
    exact congrArg (List.map ExternalSignal.id) hsame

/-- A delivery that stores a signal is authorized. -/
theorem storeSignal_of_signal? (h : d.signal? u settings s = some signal) :
    isAuthorizedChannel u settings.channel d.message.channel d.message.channelId = true ∧
      (storeSignal u settings d s).1 = some signal := by
  unfold Delivery.signal? at h
  split at h
  · rename_i hauth
    exact ⟨hauth, h⟩
  · cases h

/-- The UUIDs after a delivery that stores a signal. -/
theorem signalIds_storeSignal (h : d.signal? u settings s = some signal) :
    (storeSignal u settings d s).2.signalIds = s.signalIds ++ [d.stamp.id] ∧
      signal.id = d.stamp.id ∧
      (signal.status = .valid → ∃ symbol ∈ defaultWhitelist, signal.symbol = some symbol) := by
  obtain ⟨-, hstored⟩ := storeSignal_of_signal? h
  obtain ⟨hsignals, hspec⟩ := storeSignal_signals u settings d s
  obtain ⟨hid, hsymbol⟩ := hspec signal hstored
  refine ⟨?_, hid, hsymbol⟩
  rw [TelegramStore.signalIds, hsignals, hstored, Option.toList_some, List.map_append,
    List.map_singleton, hid]
  rfl

variable (client) in
/-- A delivery that stores a signal that is not valid. -/
theorem delivered_of_not_valid (h : d.signal? u settings s = some signal)
    (hvalid : signal.status ≠ .valid) :
    (processIncomingChannelMessage u settings client d s).inserted = [] ∧
      (processIncomingChannelMessage u settings client d s).opened = none ∧
      (processIncomingChannelMessage u settings client d s).store =
        (storeSignal u settings d s).2 := by
  obtain ⟨hauth, hstored⟩ := storeSignal_of_signal? h
  unfold processIncomingChannelMessage
  rw [hauth]
  cases hstore : storeSignal u settings d s with
  | mk result s' =>
  rw [hstore] at hstored
  obtain rfl : result = some signal := hstored
  simp [hvalid]

variable (client) in
/-- **A delivery that stores a valid signal** offers it to the executor, and executes it on paper
unless an exception ends the call before. -/
theorem delivered_of_valid (h : d.signal? u settings s = some signal)
    (hvalid : signal.status = .valid) :
    (processIncomingChannelMessage u settings client d s).inserted =
        (offerLive settings client d (storeSignal u settings d s).2 signal).2.live.executions.drop
          s.live.executions.length ∧
      (processIncomingChannelMessage u settings client d s).store.live =
        (offerLive settings client d (storeSignal u settings d s).2 signal).2.live ∧
      (processIncomingChannelMessage u settings client d s).store.signalIds =
        (storeSignal u settings d s).2.signalIds ∧
      (processIncomingChannelMessage u settings client d s).opened =
        if (offerLive settings client d s signal).1 then
          d.usdtInrRate.bind fun rate =>
            (gates (executeCall d signal rate) s.tables).toOption.map Prod.snd
        else none := by
  obtain ⟨hauth, hstored⟩ := storeSignal_of_signal? h
  obtain ⟨hlive, htables, -⟩ := storeSignal_keeps u settings d s
  rw [← offerLive_fst_congr hlive htables]
  unfold processIncomingChannelMessage
  rw [hauth]
  cases hstore : storeSignal u settings d s with
  | mk result s' =>
  rw [hstore] at hstored hlive htables
  obtain rfl : result = some signal := hstored
  simp only at hlive htables
  have hoffered : (offerLive settings client d s' signal).2.tables = s.tables := htables
  have hsignals : (offerLive settings client d s' signal).2.signals = s'.signals := rfl
  cases hoffer : offerLive settings client d s' signal with
  | mk returned offered =>
  rw [hoffer] at hoffered hsignals
  simp only at hoffered hsignals
  cases returned with
  | false => simp [hvalid, hoffer, hlive, hsignals, TelegramStore.signalIds]
  | true =>
    cases hrate : d.usdtInrRate with
    | none => simp [hvalid, hoffer, hlive, hsignals, TelegramStore.signalIds]
    | some rate =>
      simp [hvalid, hoffer, hlive, hsignals, hoffered, TelegramStore.signalIds,
        TelegramStore.executed]

variable (client) in
/-- The rows of the executor after a valid signal was offered. -/
theorem rows_offerLive (hs : s.Keyed) (hd : d.Fresh s) (h : d.signal? u settings s = some signal)
    (hvalid : signal.status = .valid) :
    (offerLive settings client d (storeSignal u settings d s).2 signal).2.live.footprint.rows =
      s.live.footprint.rows ++
        if settings.live.automaticTradingEnabled = true ∧ 2 ≤ d.live.statements then
          (liveCall signal d.live).toList.map fun c => (s.live.nextId, c.1.key)
        else [] := by
  obtain ⟨hlive, -, -⟩ := storeSignal_keeps u settings d s
  obtain ⟨-, hid, hsymbol⟩ := signalIds_storeSignal h
  simp only [offerLive, hlive]
  exact rows_maybeAttemptLiveExecution settings.live client fun candidate inputs hcall =>
    getExistingExecution_fresh hs hd hid (hsymbol hvalid) hcall

/-- The executor's rows, and the list of what is inserted, have one length. -/
theorem length_rows (l : LiveStore) : l.footprint.rows.length = l.executions.length := by
  simp [LiveStore.footprint]

/-- **A delivery inserts one row or none**, and `InsertsRow` says which; the post it is about, and
what was done for it before, make no difference. -/
theorem length_inserted (hs : s.Keyed) (hd : d.Fresh s) :
    (processIncomingChannelMessage u settings client d s).inserted.length ≤ 1 ∧
      ((processIncomingChannelMessage u settings client d s).inserted ≠ [] ↔
        d.InsertsRow u settings s) := by
  cases h : d.signal? u settings s with
  | none =>
    obtain ⟨hinserted, -⟩ := delivered_of_none client h
    simp [hinserted, Delivery.InsertsRow, h]
  | some signal =>
    by_cases hvalid : signal.status = .valid
    · obtain ⟨hinserted, -⟩ := delivered_of_valid client h hvalid
      have hrows := congrArg List.length (rows_offerLive client hs hd h hvalid)
      rw [length_rows, List.length_append, length_rows] at hrows
      have hlen := congrArg List.length hinserted
      rw [List.length_drop, hrows, Nat.add_sub_cancel_left] at hlen
      rw [← List.length_pos_iff_ne_nil, hlen]
      simp only [Delivery.InsertsRow, h]
      cases hcall : liveCall signal d.live with
      | none =>
        simp [hcall]
      | some c =>
        by_cases hauto : settings.live.automaticTradingEnabled = true ∧ 2 ≤ d.live.statements
        · simp [hcall, hauto, hvalid]
        · simp only [hauto, if_false, List.length_nil, Nat.zero_le, Nat.lt_irrefl, true_and,
            false_iff]
          rintro ⟨ha, hn, -⟩
          exact hauto ⟨ha, hn⟩
    · obtain ⟨hinserted, -⟩ := delivered_of_not_valid client h hvalid
      simp [hinserted, Delivery.InsertsRow, h, hvalid]

/-- **A delivery opens a position exactly if** `OpensPosition` says so. -/
theorem isSome_opened_iff :
    (processIncomingChannelMessage u settings client d s).opened.isSome = true ↔
      d.OpensPosition u settings client s := by
  cases h : d.signal? u settings s with
  | none =>
    obtain ⟨-, hopened, -⟩ := delivered_of_none client h
    simp [hopened, Delivery.OpensPosition, h]
  | some signal =>
    by_cases hvalid : signal.status = .valid
    · obtain ⟨-, -, -, hopened⟩ := delivered_of_valid client h hvalid
      rw [hopened]
      simp only [Delivery.OpensPosition, h]
      cases hreturned : (offerLive settings client d s signal).1 with
      | false => simp [hreturned]
      | true =>
        cases hrate : d.usdtInrRate with
        | none => simp
        | some rate =>
          cases hgates : gates (executeCall d signal rate) s.tables with
          | error reason => simp [hgates, Except.toOption, Except.isOk, Except.toBool]
          | ok planned =>
            simp [hgates, hvalid, hreturned, Except.toOption, Except.isOk, Except.toBool]
    · obtain ⟨-, hopened, -⟩ := delivered_of_not_valid client h hvalid
      simp [hopened, Delivery.OpensPosition, h, hvalid]

/-- The rows of the executor stay keyed by stored signals. -/
theorem keyed_delivered (hs : s.Keyed) (hd : d.Fresh s) :
    (processIncomingChannelMessage u settings client d s).store.Keyed := by
  have hmono : ∀ {t : TelegramStore}, t.live.footprint.rows = s.live.footprint.rows →
      (∀ id ∈ s.signalIds, id ∈ t.signalIds) → t.Keyed := by
    intro t hrows hids row hrow
    rw [hrows] at hrow
    obtain ⟨symbol, hcolon, id, hknown, hrest⟩ := hs row hrow
    exact ⟨symbol, hcolon, id, hids id hknown, hrest⟩
  cases h : d.signal? u settings s with
  | none =>
    obtain ⟨-, -, hlive, hids⟩ := delivered_of_none client h
    exact hmono (by rw [hlive]) fun id hid => by rwa [hids]
  | some signal =>
    obtain ⟨hids, hid, hsymbol⟩ := signalIds_storeSignal h
    by_cases hvalid : signal.status = .valid
    · obtain ⟨-, hlive, hsame, -⟩ := delivered_of_valid client h hvalid
      have hrows := rows_offerLive client hs hd h hvalid
      rw [← hlive] at hrows
      rw [hids] at hsame
      intro row hrow
      rw [hrows, List.mem_append] at hrow
      rw [hsame]
      rcases hrow with hrow | hrow
      · obtain ⟨symbol, hcolon, id, hknown, hrest⟩ := hs row hrow
        exact ⟨symbol, hcolon, id, List.mem_append_left _ hknown, hrest⟩
      · split at hrow
        · obtain ⟨⟨candidate, inputs⟩, hcall, rfl⟩ := List.mem_map.1 hrow
          obtain ⟨symbol, hsome, hkey⟩ := key_of_liveCall (Option.mem_toList.1 hcall)
          obtain ⟨symbol', hlisted, hsome'⟩ := hsymbol hvalid
          obtain rfl := Option.some.inj (hsome.symm.trans hsome')
          exact ⟨symbol, colon_notMem_whitelist symbol hlisted, d.stamp.id, by simp, hd.1,
            hid ▸ hkey⟩
        · cases hrow
    · obtain ⟨-, -, hstore⟩ := delivered_of_not_valid client h hvalid
      rw [hstore]
      refine hmono (by rw [(storeSignal_keeps u settings d s).1]) fun id hknown => ?_
      rw [hids]
      exact List.mem_append_left _ hknown

end

/-! ## Any sequence of deliveries -/

/-- The store, and what was inserted and opened for which post. -/
structure Feed where
  store : TelegramStore
  inserted : List ((Option String × String) × LiveExecution) := []
  opened : List ((Option String × String) × PaperPosition) := []

/-- A delivery, by whichever transport; or something else the process does to the trades and the
book, such as a restart. -/
inductive FeedOp
  | deliver (delivery : Delivery)
  | elsewhere (tables : Tables) (multiCoinPaperTrader : PaperTrader)

/-- **Traded at most once**: for every post there is at most one row of the executor and at most one
position. -/
structure ExactlyOnce (w : Feed) : Prop where
  inserted : (w.inserted.map Prod.fst).Nodup
  opened : (w.opened.map Prod.fst).Nodup

instance (w : Feed) : Decidable (ExactlyOnce w) :=
  decidable_of_iff ((w.inserted.map Prod.fst).Nodup ∧ (w.opened.map Prod.fst).Nodup)
    ⟨fun h => ⟨h.1, h.2⟩, fun h => ⟨h.1, h.2⟩⟩

section

variable (u : UnicodeData) (settings : FeedSettings) (client : OrderClient)

def Feed.step (w : Feed) : FeedOp → Feed
  | .deliver d =>
    let delivered := processIncomingChannelMessage u settings client d w.store
    { store := delivered.store
      inserted := w.inserted ++ delivered.inserted.map fun e => (d.post, e)
      opened := w.opened ++ delivered.opened.toList.map fun p => (d.post, p) }
  | .elsewhere tables multiCoinPaperTrader =>
    { w with store := { w.store with tables, multiCoinPaperTrader } }

/-- The UUIDs of a delivery are new. -/
def Feed.Fresh (w : Feed) : FeedOp → Prop
  | .deliver d => d.Fresh w.store
  | .elsewhere _ _ => True

/-- **What the code does not see to**: a delivery inserts no row for a post that has one, and opens
no position for a post that had one. -/
def Feed.TradesOnce (w : Feed) : FeedOp → Prop
  | .deliver d =>
    (d.post ∈ w.inserted.map Prod.fst → ¬d.InsertsRow u settings w.store) ∧
      (d.post ∈ w.opened.map Prod.fst → ¬d.OpensPosition u settings client w.store)
  | .elsewhere _ _ => True

/-- A process that has not traded any post yet. -/
structure Feed.Initial (w : Feed) : Prop where
  keyed : w.store.Keyed
  inserted : w.inserted = []
  opened : w.opened = []

instance (w : Feed) : DecidablePred w.Fresh
  | .deliver d => inferInstanceAs (Decidable (d.stamp.id ≠ "" ∧ d.stamp.id ∉ w.store.signalIds))
  | .elsewhere _ _ => inferInstanceAs (Decidable True)

instance (w : Feed) : DecidablePred (w.TradesOnce u settings client)
  | .deliver d => inferInstanceAs (Decidable
      ((d.post ∈ w.inserted.map Prod.fst → ¬d.InsertsRow u settings w.store) ∧
        (d.post ∈ w.opened.map Prod.fst → ¬d.OpensPosition u settings client w.store)))
  | .elsewhere _ _ => inferInstanceAs (Decidable True)

variable {u settings client}

/-- A list of pairs with one first component, appended to another, repeats nothing if it has one
element at most, and none if there is one in the other list already. -/
theorem nodup_append_tagged {κ α : Type*} {l : List κ} {k : κ} {as : List α} (hl : l.Nodup)
    (has : as.length ≤ 1) :
    (l ++ (as.map fun a => (k, a)).map Prod.fst).Nodup ↔ (k ∈ l → as = []) := by
  match as with
  | [] => simpa using hl
  | [a] =>
    simp only [List.map_cons, List.map_nil, List.cons_ne_self, imp_false]
    constructor
    · intro h hk
      exact (List.nodup_append.1 h).2.2 k hk k (by simp) rfl
    · intro hk
      exact nodup_append_singleton hl hk
  | a :: b :: as => simp at has

/-- **One step**: a post stays traded at most once exactly if the step does not trade it again. -/
theorem exactlyOnce_step_iff {w : Feed} {op : FeedOp} (h : ExactlyOnce w) (hw : w.store.Keyed)
    (hop : w.Fresh op) : ExactlyOnce (w.step u settings client op) ↔
      w.TradesOnce u settings client op := by
  cases op with
  | elsewhere tables trader => exact ⟨fun _ => trivial, fun _ => ⟨h.inserted, h.opened⟩⟩
  | deliver d =>
    obtain ⟨hone, hinserts⟩ := @length_inserted u settings client d w.store hw hop
    have hopens := @isSome_opened_iff u settings client d w.store
    have hinserted := nodup_append_tagged (k := d.post) h.inserted hone
    have hopened := nodup_append_tagged (k := d.post) h.opened
      (Option.length_toList_le (o := (processIncomingChannelMessage u settings client d
        w.store).opened))
    rw [← List.map_append] at hinserted hopened
    have hiff : ExactlyOnce (w.step u settings client (.deliver d)) ↔ _ ∧ _ :=
      ⟨fun h => ⟨hinserted.1 h.inserted, hopened.1 h.opened⟩,
        fun h => ⟨hinserted.2 h.1, hopened.2 h.2⟩⟩
    rw [hiff, Feed.TradesOnce, ← hinserts, ← hopens]
    simp

/-- **Exactly-once trading**: along a run of deliveries of any posts, again and again, with edits
and by both transports, every post is traded at most once exactly if no delivery of the run trades
its post again. The UUIDs that are drawn are new; nothing else is asked of the run. -/
theorem exactly_once_iff {w : Feed} (h : w.Initial) {ops : List FeedOp}
    (hfresh : Guarded (Feed.step u settings client) Feed.Fresh w ops) :
    Always (Feed.step u settings client) ExactlyOnce w ops ↔
      Guarded (Feed.step u settings client) (Feed.TradesOnce u settings client) w ops := by
  have hstart : ExactlyOnce w := by
    constructor
    · simp [h.inserted]
    · simp [h.opened]
  refine always_iff_guarded_of_invariant (I := fun w => w.store.Keyed ∧ ExactlyOnce w)
    (A := Feed.Fresh) (fun _ hw => hw.2) ?_ ?_ ⟨h.keyed, hstart⟩ hfresh
  · intro w op ⟨hkeyed, hone⟩ hop htrades
    refine ⟨?_, (exactlyOnce_step_iff hone hkeyed hop).2 htrades⟩
    cases op with
    | deliver d => exact keyed_delivered hkeyed hop
    | elsewhere tables trader => exact hkeyed
  · intro w op ⟨hkeyed, hone⟩ hop hnext
    exact (exactlyOnce_step_iff hone hkeyed hop).1 hnext

end

/-! ## Two deliveries of a post -/

/-- A process on an empty database. -/
def sampleFeed : Feed := { store := { multiCoinPaperTrader := PaperTrader.new {} 10000 0 } }

theorem sampleFeed_initial : sampleFeed.Initial := by
  refine ⟨?_, rfl, rfl⟩
  intro row hrow
  cases hrow

/-- The exchange trades both coins at 100. -/
def sampleTicker : TickerResponse :=
  .prices [("B-BTC_USDT", { ls := some 100, ctRT := some 0 }),
    ("B-ETH_USDT", { ls := some 100, ctRT := some 0 })]

/-- A delivery of the post `1` with a text, and the UUID that is drawn for its signal. -/
def sampleDelivery (text id : String) (editedTimestamp : Option Datetime := none)
    (ticker : TickerResponse := sampleTicker) : Delivery :=
  { message :=
      { channel := "@suncrypto_trading_alerts", telegramMessageId := "1", messageTimestamp := 0, text
        editedTimestamp, channelId := some "7" }
    messageRow := 1
    ticker
    tickerAt := 0
    stamp := { id, createdAt := 0 }
    live :=
      { answers := some
          { accountHealthy := true, ticker := sampleTicker, tickerAt := 0
            instrumentMetadata := none, conversionRate := some 80, dailyLossApproved := true
            dailyLossReason := "OK", reconciliationOk := true, reconciliationReason := "OK"
            now := 0 } }
    usdtInrRate := some (some 80)
    utcnow := 0 }

def btcText : String := "BTC/USDT LONG Entry 100 SL 95 TP1 110"

def ethText : String := "ETH/USDT LONG Entry 100 SL 95 TP1 110"

/-- Automatic trading is enabled. -/
def automatic : FeedSettings := { live := { automaticTradingEnabled := true } }

/-- The law on a run in which a post is delivered again when the exchange does not answer. -/
theorem exactly_once_quiet_redelivery :
    Always (Feed.step asciiData automatic orderClient) ExactlyOnce sampleFeed
        [.deliver (sampleDelivery btcText "a"),
          .deliver (sampleDelivery btcText "b" none .httpError)] ∧
      (run (Feed.step asciiData automatic orderClient) sampleFeed
        [.deliver (sampleDelivery btcText "a")]).opened.length = 1 :=
  ⟨(exactly_once_iff sampleFeed_initial (by decide +kernel)).2 (by decide +kernel),
    by decide +kernel⟩

/-- An edit that names another coin opens a second position of its post; while automatic trading is
enabled, a mere redelivery inserts a second row of the executor. -/
theorem post_traded_twice :
    ¬Always (Feed.step asciiData {} orderClient) ExactlyOnce sampleFeed
        [.deliver (sampleDelivery btcText "a"),
          .deliver (sampleDelivery ethText "b" (some 1))] ∧
      ¬Always (Feed.step asciiData automatic orderClient) ExactlyOnce sampleFeed
        [.deliver (sampleDelivery btcText "a"), .deliver (sampleDelivery btcText "b")] := by
  constructor <;> decide +kernel

end AlphaOne.TelegramSignals

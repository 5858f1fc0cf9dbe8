import AlphaOne.Foundations.ExpiringCache
import AlphaOne.Foundations.Separator
import AlphaOne.LiveExecution.Sizing

/-!
# The instrument metadata and its cache

`services/exchange/coindcx_instruments.py`. What the exchange reports of an instrument is kept for
five minutes in a dictionary, under the pair and the margin currency joined by a colon. The
callers share it, and may insist on a new request. Times are seconds since the epoch.

`metadata_is_genuine` says what the callers are given in any interleaving, and when no request is
sent.
-/

namespace AlphaOne.Exchange

open Foundations

/-- `CACHE_TTL_SECONDS`. -/
def instrumentCacheTtlSeconds : ℚ := 300

/-- `InstrumentMetadata`, with all its fields. -/
structure InstrumentRecord extends Live.InstrumentMetadata where
  kind : String
  settleCurrencyShortName : String
  quoteCurrencyShortName : String
  positionCurrencyShortName : String
  underlyingCurrencyShortName : String
  marginCurrencyShortName : String
  priceIncrement : ℚ
  minTradeSize : ℚ
  minPrice : ℚ
  maxPrice : ℚ
  maxNotional : ℚ
  orderTypes : List String
  timeInForceOptions : List String
  fetchedAt : ℚ
  deriving DecidableEq, Repr

/-- `supports_leverage`. -/
def InstrumentRecord.supportsLeverage (m : InstrumentRecord) (leverage : ℤ) : Bool :=
  leverage ≤ m.maxLeverageLong && leverage ≤ m.maxLeverageShort

/-- `is_stale`. -/
def InstrumentRecord.isStale (m : InstrumentRecord) (now : ℚ) : Bool :=
  instrumentCacheTtlSeconds < now - m.fetchedAt

/-- The `instrument` object of a response: its names, flags and lists under their keys, and what
`float` makes of its numbers. A key that is not there has nothing, and so has one `float` refuses;
only `max_notional` tells the two apart. -/
structure RawInstrument where
  text : String → Option String
  number : String → Option ℚ
  exitOnly : Option Bool
  maxNotional : Option (Option ℚ)
  orderTypes : Option (List String)
  timeInForceOptions : Option (List String)

/-- `_parse_instrument`; nothing is one of the exceptions `get_instrument_metadata` catches. -/
def parseInstrument (raw : RawInstrument) (now : ℚ) : Option InstrumentRecord := do
  return {
    pair := ← raw.text "pair"
    status := ← raw.text "status"
    kind := ← raw.text "kind"
    settleCurrencyShortName := ← raw.text "settle_currency_short_name"
    quoteCurrencyShortName := ← raw.text "quote_currency_short_name"
    positionCurrencyShortName := ← raw.text "position_currency_short_name"
    underlyingCurrencyShortName := ← raw.text "underlying_currency_short_name"
    marginCurrencyShortName := ← raw.text "margin_currency_short_name"
    maxLeverageLong := ← raw.number "max_leverage_long"
    maxLeverageShort := ← raw.number "max_leverage_short"
    priceIncrement := ← raw.number "price_increment"
    quantityIncrement := ← raw.number "quantity_increment"
    minTradeSize := ← raw.number "min_trade_size"
    minPrice := ← raw.number "min_price"
    maxPrice := ← raw.number "max_price"
    minQuantity := ← raw.number "min_quantity"
    maxQuantity := ← raw.number "max_quantity"
    minNotional := ← raw.number "min_notional"
    maxNotional := ← raw.maxNotional.getD (some 0)
    exitOnly := ← raw.exitOnly
    orderTypes := raw.orderTypes.getD []
    timeInForceOptions := raw.timeInForceOptions.getD []
    fetchedAt := now }

/-- How a request for an instrument ends. -/
inductive InstrumentResponse
  | body (instrument : Option RawInstrument)
  /-- One of the exceptions that are caught. -/
  | failed

/-- The arguments that choose an instrument. -/
structure InstrumentKey where
  pair : String
  marginCurrency : String := "USDT"
  deriving DecidableEq, Repr

/-- `cache_key`. -/
def InstrumentKey.cacheKey (k : InstrumentKey) : String := k.pair ++ ":" ++ k.marginCurrency

/-- What is made of a response that comes at `now`. -/
def metadataOfResponse (now : ℚ) : InstrumentResponse → Option InstrumentRecord
  | .failed => none
  | .body instrument => instrument.bind (parseInstrument · now)

/-- The cache of the metadata. -/
def instrumentCache : CachePolicy InstrumentKey String InstrumentResponse InstrumentRecord ℚ where
  slot := InstrumentKey.cacheKey
  fresh now m := !m.isStale now
  accept _ _ answeredAt response := metadataOfResponse answeredAt response

/-- `get_instrument_metadata` of a caller that nobody interrupts, with `_cache` before and after
it. -/
def getInstrumentMetadata (cache : String → Option InstrumentRecord) (key : InstrumentKey)
    (forceRefresh : Bool) (askedAt answeredAt : ℚ) (response : InstrumentResponse) :
    Option InstrumentRecord × (String → Option InstrumentRecord) :=
  instrumentCache.get cache key forceRefresh askedAt answeredAt response

/-- The margin currency has no colon. -/
def InstrumentKey.ColonFree (k : InstrumentKey) : Prop := ':' ∉ k.marginCurrency.toList

instance (k : InstrumentKey) : Decidable k.ColonFree := by
  unfold InstrumentKey.ColonFree; infer_instance

/-! ## What the callers are given -/

/-- Every field of the metadata is the one under its key in the response. -/
structure Reports (raw : RawInstrument) (m : InstrumentRecord) : Prop where
  names : [raw.text "pair", raw.text "status", raw.text "kind",
      raw.text "settle_currency_short_name", raw.text "quote_currency_short_name",
      raw.text "position_currency_short_name", raw.text "underlying_currency_short_name",
      raw.text "margin_currency_short_name"] =
    [m.pair, m.status, m.kind, m.settleCurrencyShortName, m.quoteCurrencyShortName,
      m.positionCurrencyShortName, m.underlyingCurrencyShortName,
      m.marginCurrencyShortName].map some
  numbers : [raw.number "max_leverage_long", raw.number "max_leverage_short",
      raw.number "price_increment", raw.number "quantity_increment", raw.number "min_trade_size",
      raw.number "min_price", raw.number "max_price", raw.number "min_quantity",
      raw.number "max_quantity", raw.number "min_notional"] =
    [m.maxLeverageLong, m.maxLeverageShort, m.priceIncrement, m.quantityIncrement, m.minTradeSize,
      m.minPrice, m.maxPrice, m.minQuantity, m.maxQuantity, m.minNotional].map some
  maxNotional : raw.maxNotional.getD (some 0) = some m.maxNotional
  exitOnly : raw.exitOnly = some m.exitOnly
  lists : raw.orderTypes.getD [] = m.orderTypes ∧
    raw.timeInForceOptions.getD [] = m.timeInForceOptions

/-- **Nothing is defaulted**: metadata is made of a response that has every required key. -/
theorem reports_of_parseInstrument {raw : RawInstrument} {now : ℚ} {m : InstrumentRecord}
    (h : parseInstrument raw now = some m) : m.fetchedAt = now ∧ Reports raw m := by
  unfold parseInstrument at h
  obtain ⟨pair, hpair, h⟩ := Option.bind_eq_some_iff.1 h
  obtain ⟨status, hstatus, h⟩ := Option.bind_eq_some_iff.1 h
  obtain ⟨kind, hkind, h⟩ := Option.bind_eq_some_iff.1 h
  obtain ⟨settle, hsettle, h⟩ := Option.bind_eq_some_iff.1 h
  obtain ⟨quote, hquote, h⟩ := Option.bind_eq_some_iff.1 h
  obtain ⟨position, hposition, h⟩ := Option.bind_eq_some_iff.1 h
  obtain ⟨underlying, hunderlying, h⟩ := Option.bind_eq_some_iff.1 h
  obtain ⟨margin, hmargin, h⟩ := Option.bind_eq_some_iff.1 h
  obtain ⟨long, hlong, h⟩ := Option.bind_eq_some_iff.1 h
  obtain ⟨short, hshort, h⟩ := Option.bind_eq_some_iff.1 h
  obtain ⟨price, hprice, h⟩ := Option.bind_eq_some_iff.1 h
  obtain ⟨quantity, hquantity, h⟩ := Option.bind_eq_some_iff.1 h
  obtain ⟨size, hsize, h⟩ := Option.bind_eq_some_iff.1 h
  obtain ⟨low, hlow, h⟩ := Option.bind_eq_some_iff.1 h
  obtain ⟨high, hhigh, h⟩ := Option.bind_eq_some_iff.1 h
  obtain ⟨least, hleast, h⟩ := Option.bind_eq_some_iff.1 h
  obtain ⟨most, hmost, h⟩ := Option.bind_eq_some_iff.1 h
  obtain ⟨notional, hnotional, h⟩ := Option.bind_eq_some_iff.1 h
  obtain ⟨cap, hcap, h⟩ := Option.bind_eq_some_iff.1 h
  obtain ⟨exit, hexit, h⟩ := Option.bind_eq_some_iff.1 h
  obtain rfl := Option.some.inj h
  exact ⟨rfl,
    { names := by
        rw [hpair, hstatus, hkind, hsettle, hquote, hposition, hunderlying, hmargin]
        rfl
      numbers := by
        rw [hlong, hshort, hprice, hquantity, hsize, hlow, hhigh, hleast, hmost, hnotional]
        rfl
      maxNotional := hcap
      exitOnly := hexit
      lists := ⟨rfl, rfl⟩ }⟩

theorem reports_of_accept {r : CacheResponse InstrumentKey InstrumentResponse ℚ}
    {m : InstrumentRecord} (h : instrumentCache.acceptResponse r = some m) :
    m.fetchedAt = r.answeredAt ∧ ∃ raw, r.response = .body (some raw) ∧ Reports raw m := by
  change metadataOfResponse r.answeredAt r.response = some m at h
  cases hresponse : r.response with
  | failed =>
    rw [hresponse] at h
    cases h
  | body instrument =>
    rw [hresponse] at h
    obtain ⟨raw, rfl, hparse⟩ := Option.bind_eq_some_iff.1 h
    obtain ⟨hstamp, hreports⟩ := reports_of_parseInstrument hparse
    exact ⟨hstamp, raw, rfl, hreports⟩

/-- What holds of an answer: metadata that the exchange has reported for the key, at most five
minutes old; or, where none is given, the caller's own request has failed. -/
structure MetadataGenuine (responses : List (CacheResponse InstrumentKey InstrumentResponse ℚ))
    (a : CacheAnswer InstrumentKey InstrumentRecord ℚ) : Prop where
  reported : ∀ m, a.value = some m → ∃ r ∈ responses,
    r.request.key = a.request.key ∧ r.answeredAt = m.fetchedAt ∧
      ∃ raw, r.response = .body (some raw) ∧ Reports raw m
  age : ∀ m, a.value = some m →
    m.fetchedAt ≤ a.servedAt ∧ a.servedAt ≤ m.fetchedAt + instrumentCacheTtlSeconds
  refused : a.value = none → ∃ r ∈ responses, r.request = a.request ∧
    metadataOfResponse r.answeredAt r.response = none

/-- Keys whose margin currencies have no colon share a slot only if they are the same. -/
theorem InstrumentKey.eq_of_cacheKey {k k' : InstrumentKey} (hk : k.ColonFree) (hk' : k'.ColonFree)
    (h : k.cacheKey = k'.cacheKey) : k = k' := by
  have hlists := congrArg (fun s : String => s.toList.reverse) h
  simp only [InstrumentKey.cacheKey, toList_join, List.reverse_append, List.reverse_cons,
    List.append_assoc, List.singleton_append] at hlists
  obtain ⟨hmargin, hpair⟩ :=
    (append_cons_eq_iff_of_notMem (by simpa [ColonFree] using hk)
      (by simpa [ColonFree] using hk')).1 hlists
  obtain ⟨pair, margin⟩ := k
  obtain ⟨pair', margin'⟩ := k'
  obtain rfl : margin = margin' := String.toList_inj.1 (List.reverse_injective hmargin)
  obtain rfl : pair = pair' := String.toList_inj.1 (List.reverse_injective hpair)
  rfl

theorem MetadataGenuine.of_sound
    {s : CacheSystem InstrumentKey String InstrumentResponse InstrumentRecord ℚ}
    (hs : s.Sound instrumentCache)
    (hkeys : s.Keyed InstrumentKey.ColonFree) {a : CacheAnswer InstrumentKey InstrumentRecord ℚ}
    (ha : a ∈ s.answers) :
    MetadataGenuine s.responses a := by
  rcases hs.answers a ha with ⟨-, -, w, hw, hfresh, r, hr, hkey, haccept, hby⟩ |
    ⟨-, r, hr, hown, hat, haccept⟩
  · obtain ⟨hstamp, hraw⟩ := reports_of_accept haccept
    have hage : ¬instrumentCacheTtlSeconds < a.servedAt - w.fetchedAt := by
      simpa [instrumentCache, InstrumentRecord.isStale] using hfresh
    refine ⟨fun m hm => ?_, fun m hm => ?_, fun hnone => ?_⟩
    · obtain rfl : m = w := Option.some.inj (hm.symm.trans hw)
      exact ⟨r, hr, InstrumentKey.eq_of_cacheKey (hkeys.responses r hr) (hkeys.answers a ha) hkey,
        hstamp.symm, hraw⟩
    · obtain rfl : m = w := Option.some.inj (hm.symm.trans hw)
      exact ⟨hstamp.le.trans hby, by linarith⟩
    · rw [hnone] at hw
      cases hw
  · refine ⟨fun m hm => ?_, fun m hm => ?_, fun hnone => ⟨r, hr, hown, haccept.trans hnone⟩⟩
    · obtain ⟨hstamp, hraw⟩ := reports_of_accept (haccept.trans hm)
      exact ⟨r, hr, by rw [hown], hstamp.symm, hraw⟩
    · obtain ⟨hstamp, -⟩ := reports_of_accept (haccept.trans hm)
      rw [hstamp, hat, instrumentCacheTtlSeconds]
      exact ⟨le_rfl, by linarith⟩

theorem stamped_instrumentCache : instrumentCache.Stamped InstrumentRecord.fetchedAt where
  stamp_accept r v h := (reports_of_accept h).1
  fresh_of_le now v w hle h := by
    simp only [instrumentCache, InstrumentRecord.isStale, Bool.not_eq_true',
      decide_eq_false_iff_not, not_lt] at h ⊢
    linarith

/-- No request is sent for what the exchange has reported in the last five minutes, unless the
caller insists. -/
def SparesRequest (s : CacheSystem InstrumentKey String InstrumentResponse InstrumentRecord ℚ)
    (move : CacheMove InstrumentKey InstrumentResponse ℚ) : Prop :=
  ∀ key now, move = .ask key false now → ∀ r ∈ s.responses, r.request.key = key →
    (metadataOfResponse r.answeredAt r.response).isSome = true →
      now ≤ r.answeredAt + instrumentCacheTtlSeconds →
        (s.step instrumentCache move).pending = s.pending

theorem SparesRequest.of_spares
    {s : CacheSystem InstrumentKey String InstrumentResponse InstrumentRecord ℚ}
    {move : CacheMove InstrumentKey InstrumentResponse ℚ}
    (h : s.Spares instrumentCache move) : SparesRequest s move := by
  intro key now hask r hr hkey haccept hage
  obtain ⟨m, hm⟩ := Option.isSome_iff_exists.1 haccept
  refine h key now hask r hr (by rw [hkey]) m hm ?_
  have hstamp := (reports_of_accept hm).1
  simp only [instrumentCache, InstrumentRecord.isStale, Bool.not_eq_true',
    decide_eq_false_iff_not, not_lt, hstamp]
  linarith

/-- The function is the moves of a caller that nobody interrupts. -/
theorem getInstrumentMetadata_alone
    {s : CacheSystem InstrumentKey String InstrumentResponse InstrumentRecord ℚ}
    (h : s.pending = []) (key : InstrumentKey) (force : Bool) (askedAt answeredAt : ℚ)
    (response : InstrumentResponse) :
    let after := run (CacheSystem.step instrumentCache) s
      [.ask key force askedAt, .respond 0 answeredAt response]
    let call := getInstrumentMetadata s.slots key force askedAt answeredAt response
    after.slots = call.2 ∧ after.pending = [] ∧
      after.answers.map CacheAnswer.value = s.answers.map CacheAnswer.value ++ [call.1] :=
  CacheSystem.run_get instrumentCache h key force askedAt answeredAt response

/-- **No caller is given metadata that is made up, old or another instrument's, and none asks for
what is still fresh**, however the calls interleave; margin currencies have no colon. -/
theorem metadata_is_genuine {moves : List (CacheMove InstrumentKey InstrumentResponse ℚ)}
    (hsorted : (moves.map CacheMove.time).Pairwise (· ≤ ·))
    (hmargins : ∀ m ∈ moves, CacheSystem.AsksIn InstrumentKey.ColonFree m) :
    Always (CacheSystem.step instrumentCache)
        (fun s => ∀ a ∈ s.answers, MetadataGenuine s.responses a) CacheSystem.empty moves ∧
      Guarded (CacheSystem.step instrumentCache) SparesRequest CacheSystem.empty moves :=
  ⟨(CacheSystem.Sound.always_keyed hsorted hmargins).mono fun _ hs _ ha => .of_sound hs.1 hs.2 ha,
    (CacheSystem.spares_of_stamped stamped_instrumentCache hsorted).mono fun _ _ h => .of_spares h⟩

/-- An instrument as the exchange reports it. -/
def reportedInstrument : RawInstrument where
  text _ := some "active"
  number _ := some 1
  exitOnly := some false
  maxNotional := none
  orderTypes := none
  timeInForceOptions := none

/-- Two calls for one pair under two margin currencies, and a third that finds the first one's
metadata. -/
def instrumentCalls : List (CacheMove InstrumentKey InstrumentResponse ℚ) :=
  [.ask ⟨"B-BTC_USDT", "USDT"⟩ false 0, .ask ⟨"B-BTC_USDT", "INR"⟩ true 1,
    .respond 1 2 .failed, .respond 0 3 (.body (some reportedInstrument)),
    .ask ⟨"B-BTC_USDT", "USDT"⟩ false 303]

theorem metadata_is_genuine_calls :
    Always (CacheSystem.step instrumentCache)
        (fun s => ∀ a ∈ s.answers, MetadataGenuine s.responses a) CacheSystem.empty
          instrumentCalls ∧
      Guarded (CacheSystem.step instrumentCache) SparesRequest CacheSystem.empty
        instrumentCalls := by
  refine metadata_is_genuine ?_ fun m hm key force now hask => ?_
  · have htimes : instrumentCalls.map CacheMove.time = [0, 1, 2, 3, 303] := rfl
    rw [htimes]
    decide +kernel
  · simp only [instrumentCalls, List.mem_cons, List.not_mem_nil, or_false] at hm
    rcases hm with rfl | rfl | rfl | rfl | rfl <;> cases hask <;> decide

end AlphaOne.Exchange

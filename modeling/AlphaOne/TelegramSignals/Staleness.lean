import AlphaOne.TelegramSignals.Pipeline

/-!
# Signals that are validated against a stale price

The pipeline looks up the price of a symbol in the ticker of the exchange. The availability that it
gets says how old the tick is, and the scanner and the live executor ask whether that is fresh; the
lookup of the pipeline asks whether there is an entry at all. So a price that has not moved for
hours, or that comes without a time, validates a signal as well as a fresh one.

* `validate_of_price`: what makes a message a valid signal, besides `price_of_valid`.
* `isFresh_iff`: the verdict that the lookup leaves out.
* `stale_iff`: the exact condition under which no stale price is taken.
-/

namespace AlphaOne.TelegramSignals

open Foundations Scanner

/-- The entry of a symbol in the ticker, when the exchange answers. -/
def quoteOf (ticker : TickerResponse) (symbol : String) : Option Ticker :=
  match ticker with
  | .prices prices => prices.lookup (toCoindcxInstrument symbol)
  | .httpError => none
  | .raised => none

/-- The last tick has a time, and is at most `MAX_TICK_AGE_SECONDS` old. -/
def FreshAt (quote : Ticker) (now : Datetime) : Prop :=
  ∃ tickMs ∈ quote.ctRT, ((now : ℚ) / 1000 - tickMs) / 1000 ≤ maxTickAgeSeconds

/-- The instrument of a signal has a fresh quote, within the tolerance of the stated entry. -/
def FreshAndClose (ticker : TickerResponse) (now : Datetime) (signal : ExternalSignal) : Prop :=
  ∃ symbol ∈ signal.symbol, ∃ entry ∈ signal.entryPrice, ∃ quote ∈ quoteOf ticker symbol,
    FreshAt quote now ∧ ∃ price ∈ quote.ls, |entry - price| / price * 100 ≤ maxEntryDeviationPct

/-- A message meets a stale quote: it comes from the allowlisted channel and parses as valid, and
its entry is not refused at the price of its instrument, whose tick is old or has no time. -/
structure MeetsStaleQuote (u : UnicodeData) (settings : ChannelSettings)
    (message : ExternalTelegramMessage) (ticker : TickerResponse) (now : Datetime) : Prop where
  authorized : isAuthorizedChannel u settings message.sourceChannel message.sourceChannelId = true
  parsed : (parseExternalSignal u (currentText message) defaultWhitelist).status = .valid
  stale : ∃ symbol ∈ (parseExternalSignal u (currentText message) defaultWhitelist).symbol,
    ∃ entry ∈ (parseExternalSignal u (currentText message) defaultWhitelist).entryPrice,
    ∃ quote ∈ quoteOf ticker symbol, ¬FreshAt quote now ∧
      ∃ price ∈ quote.ls, classifyEntryDeviation entry (some price) = none

/-! ## The lookup -/

/-- The verdict that the lookup does not ask for. -/
theorem isFresh_iff {prices : List (String × Ticker)} {now : Datetime} {symbol : String} :
    (availabilityOf prices now symbol).isFresh = true ↔
      ∃ quote ∈ quoteOf (.prices prices) symbol, FreshAt quote now := by
  simp only [availabilityOf, quoteOf, InstrumentAvailability.isFresh]
  cases prices.lookup (toCoindcxInstrument symbol) with
  | none => simp
  | some quote => simp [FreshAt, Option.any_eq_true]

theorem priceLookup_eq_some_iff {ticker : TickerResponse} {now : Datetime} {symbol : String}
    {price : ℚ} : priceLookup ticker now symbol = some (some price) ↔
      ∃ quote ∈ quoteOf ticker symbol, quote.ls = some price := by
  cases ticker with
  | raised => simp [priceLookup, checkInstrumentAvailability, quoteOf]
  | httpError => simp [priceLookup, checkInstrumentAvailability, quoteOf]
  | prices prices =>
    simp only [priceLookup, checkInstrumentAvailability, List.map_cons, List.map_nil,
      Option.map_some, List.head?_cons, Option.bind_some, quoteOf]
    rw [availabilityOf]
    cases prices.lookup (toCoindcxInstrument symbol) with
    | none => simp
    | some quote => simp

/-! ## Valid signals -/

section

variable {u : UnicodeData} {settings : ChannelSettings} {message : ExternalTelegramMessage}
  {supportedSymbols : List String} {lookup : String → Option (Option ℚ)} {stamp : SignalStamp}

/-- A price that does not refuse the entry changes nothing. -/
theorem checked_of_not_refused {parsed : ParsedExternalSignal} (hvalid : parsed.status = .valid)
    {price : Option ℚ} (h : (parsed.entryPrice.bind fun entry =>
      classifyEntryDeviation entry price) = none) : parsed.checked hvalid price = parsed := by
  unfold ParsedExternalSignal.checked
  split
  · rfl
  · rename_i hsome
    rw [h] at hsome
    cases hsome

/-- A message of the channel that parses as valid is a valid signal at a price that does not refuse
its entry. -/
theorem validate_of_price
    (hauthorized : isAuthorizedChannel u settings message.sourceChannel
      message.sourceChannelId = true)
    (hparsed : (parseExternalSignal u (currentText message) supportedSymbols).status = .valid)
    {symbol : String} {entry price : ℚ}
    (hsymbol : (parseExternalSignal u (currentText message) supportedSymbols).symbol = some symbol)
    (hentry : (parseExternalSignal u (currentText message) supportedSymbols).entryPrice =
      some entry)
    (hlookup : lookup symbol = some (some price))
    (hprice : classifyEntryDeviation entry (some price) = none) :
    ∃ signal, validate u settings message supportedSymbols (some lookup) stamp = some signal ∧
      signal.status = .valid ∧ signal.symbol = some symbol ∧ signal.entryPrice = some entry := by
  have hchecked : (parseExternalSignal u (currentText message) supportedSymbols).checked hparsed
      (some price) = parseExternalSignal u (currentText message) supportedSymbols := by
    refine checked_of_not_refused hparsed ?_
    rw [hentry, Option.bind_some, hprice]
  refine ⟨signalOf message stamp (parseExternalSignal u (currentText message) supportedSymbols)
    (some price), ?_, hparsed, hsymbol, hentry⟩
  rw [validate, hauthorized, if_neg (by simp)]
  dsimp only
  rw [dif_pos hparsed, hsymbol]
  dsimp only
  rw [hlookup, Option.map_some, hchecked]

end

/-! ## What the pipeline stores -/

variable {u : UnicodeData} {settings : ChannelSettings} {message : ExternalTelegramMessage}
  {ticker : TickerResponse} {now : Datetime} {stamp : SignalStamp} {commits : Bool}
  {signals : List ExternalSignal} {signal : ExternalSignal}

/-- A signal that is stored is the one that was validated. -/
theorem processMessage_eq_iff {lookup : String → Option (Option ℚ)} :
    processMessage u settings message defaultWhitelist (some lookup) stamp commits signals =
        (some signal, signals ++ [signal]) ↔
      commits = true ∧
        validate u settings message defaultWhitelist (some lookup) stamp = some signal := by
  rw [processMessage]
  cases validate u settings message defaultWhitelist (some lookup) stamp with
  | none => simp
  | some other =>
    cases commits with
    | false => simp
    | true =>
      simp only [if_true, true_and, Prod.mk.injEq, Option.some.injEq]
      exact ⟨And.left, fun h => ⟨h, by rw [h]⟩⟩

/-- Where no stale quote is met, a valid signal is validated against a fresh price. -/
theorem freshAndClose_of_not_stale
    (hvalidate : validate u settings message defaultWhitelist (some (priceLookup ticker now)) stamp =
      some signal) (hvalid : signal.status = .valid)
    (h : ¬MeetsStaleQuote u settings message ticker now) : FreshAndClose ticker now signal := by
  obtain ⟨hauthorized, hparsed, symbol, entry, price, hsymbol, hentry, hsymbol', hentry', hlookup,
    -, hprice⟩ := price_of_valid hvalidate hvalid
  obtain ⟨quote, hquote, hls⟩ := priceLookup_eq_some_iff.1 hlookup
  obtain ⟨price', hsame, -, hclose⟩ := classifyEntryDeviation_none hprice
  obtain rfl : price = price' := Option.some.inj hsame
  refine ⟨symbol, hsymbol, entry, hentry, quote, hquote, ?_, price, hls, hclose⟩
  by_contra hstale
  exact h ⟨hauthorized, hparsed, symbol, hsymbol', entry, hentry', quote, hquote, hstale, price, hls,
    hprice⟩

/-- A message that meets a stale quote is a valid signal at a price that is not fresh. -/
theorem MeetsStaleQuote.exists_signal (h : MeetsStaleQuote u settings message ticker now)
    (stamp : SignalStamp) : ∃ signal,
      validate u settings message defaultWhitelist (some (priceLookup ticker now)) stamp =
        some signal ∧
      signal.status = .valid ∧ ¬FreshAndClose ticker now signal := by
  obtain ⟨symbol, hsymbol, entry, hentry, quote, hquote, hstale, price, hls, hprice⟩ := h.stale
  obtain ⟨signal, hvalidate, hvalid, hsymbol', -⟩ := validate_of_price h.authorized h.parsed hsymbol
    hentry (priceLookup_eq_some_iff.2 ⟨quote, hquote, hls⟩) hprice
  refine ⟨signal, hvalidate, hvalid, ?_⟩
  rintro ⟨other, hother, -, -, quote', hquote', hfresh, -⟩
  obtain rfl : symbol = other := Option.some.inj (hsymbol'.symm.trans hother)
  obtain rfl : quote = quote' := Option.some.inj ((Option.mem_def.1 hquote).symm.trans hquote')
  exact hstale hfresh

/-- **When no stale price validates a signal.** For every message, answer of the exchange and time,
a row is stored as `VALID` only on a fresh price within the tolerance of the entry, exactly when
the message does not meet a stale quote or the row is not committed. -/
theorem stale_iff (u : UnicodeData) (settings : ChannelSettings) (message : ExternalTelegramMessage)
    (ticker : TickerResponse) (now : Datetime) (stamp : SignalStamp) (commits : Bool)
    (signals : List ExternalSignal) :
    (∀ signal, processMessage u settings message defaultWhitelist (some (priceLookup ticker now))
        stamp commits signals = (some signal, signals ++ [signal]) →
      signal.status = .valid → FreshAndClose ticker now signal) ↔
    ¬(commits = true ∧ MeetsStaleQuote u settings message ticker now) := by
  constructor
  · rintro h ⟨hcommits, hmeets⟩
    obtain ⟨signal, hvalidate, hvalid, hstale⟩ := hmeets.exists_signal stamp
    exact hstale (h signal (processMessage_eq_iff.2 ⟨hcommits, hvalidate⟩) hvalid)
  · intro h signal hstored hvalid
    obtain ⟨hcommits, hvalidate⟩ := processMessage_eq_iff.1 hstored
    exact freshAndClose_of_not_stale hvalidate hvalid fun hmeets => h ⟨hcommits, hmeets⟩

/-! ## A quote that is a day old -/

/-- A message of the channel. -/
def btcMessage : ExternalTelegramMessage where
  id := 1
  sourceChannel := "@suncrypto_trading_alerts"
  telegramMessageId := "1"
  messageTimestamp := 0
  text := "BTC/USDT LONG Entry 100 SL 95 TP1 110"

/-- The exchange quoted bitcoin at 100 at the beginning of the epoch, and not since. -/
def dayOldTicker : TickerResponse := .prices [("B-BTC_USDT", { ls := some 100, ctRT := some 0 })]

/-- A day after the epoch, in microseconds. -/
def dayLater : Datetime := 86400000000

/-- **A signal is validated against a day-old price**, on which the availability itself says that it
is not fresh. -/
theorem validated_against_day_old_price :
    (processMessage asciiData {} btcMessage defaultWhitelist
        (some (priceLookup dayOldTicker dayLater)) ⟨"a", 0⟩ true []).2.map ExternalSignal.status =
      [.valid] ∧
    (checkInstrumentAvailability ["BTC/USDT"] dayOldTicker dayLater).map
      (·.map InstrumentAvailability.isFresh) = some [false] ∧
    ¬∀ (u : UnicodeData) (settings : ChannelSettings) (message : ExternalTelegramMessage)
      (ticker : TickerResponse) (now : Datetime) (stamp : SignalStamp) (commits : Bool)
      (signals : List ExternalSignal) (signal : ExternalSignal),
      processMessage u settings message defaultWhitelist (some (priceLookup ticker now)) stamp
        commits signals = (some signal, signals ++ [signal]) →
      signal.status = .valid → FreshAndClose ticker now signal := by
  have hparsed : (parseExternalSignal asciiData (currentText btcMessage)
      defaultWhitelist).status = .valid := by decide +kernel
  have hmeets : MeetsStaleQuote asciiData {} btcMessage dayOldTicker dayLater := by
    refine ⟨by decide +kernel, hparsed, "BTC/USDT", by decide +kernel, 100, by decide +kernel,
      { ls := some 100, ctRT := some 0 }, by decide +kernel, ?_, 100, rfl, by decide +kernel⟩
    rintro ⟨tickMs, htick, hage⟩
    obtain rfl : 0 = tickMs := Option.some.inj htick
    revert hage
    decide +kernel
  refine ⟨by decide +kernel, by decide +kernel, fun h => ?_⟩
  obtain ⟨signal, hvalidate, hvalid, hstale⟩ := hmeets.exists_signal ⟨"a", 0⟩
  exact hstale (h asciiData {} btcMessage dayOldTicker dayLater ⟨"a", 0⟩ true [] signal
    (processMessage_eq_iff.2 ⟨rfl, hvalidate⟩) hvalid)

end AlphaOne.TelegramSignals

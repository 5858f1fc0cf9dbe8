import AlphaOne.Foundations.Table
import AlphaOne.Paper.Persistence
import AlphaOne.TelegramSignals.Parser

/-!
# Ingesting and validating a message

`services/telegram_signals/ingestion.py`: a message of the allowlisted channel is stored once, with
its newest edit beside its original text; every time it is processed, what it says now is parsed,
its entry is compared with the market, and a new row of `external_signals` is stored.
-/

namespace AlphaOne.TelegramSignals

open Foundations Paper

/-- The settings of the external channel. -/
structure ChannelSettings where
  telegramExternalSignalChannel : String := "@suncrypto_trading_alerts"
  telegramExternalSignalChannelId : String := ""
  deriving DecidableEq, Repr

/-- `{name}.lstrip("@").lower()` -/
def channelName (u : UnicodeData) (name : String) : List Char :=
  u.lower (name.toList.dropWhile (· = '@'))

def isAuthorizedChannel (u : UnicodeData) (settings : ChannelSettings) (sourceChannel : String)
    (sourceChannelId : Option String) : Bool :=
  let configuredId := strip settings.telegramExternalSignalChannelId.toList
  match sourceChannelId with
  | some id =>
    if configuredId ≠ [] then strip id.toList = configuredId
    else channelName u sourceChannel = channelName u settings.telegramExternalSignalChannel
  | none => channelName u sourceChannel = channelName u settings.telegramExternalSignalChannel

/-- A message as a transport hands it over. -/
structure IncomingMessage where
  channel : String
  telegramMessageId : String
  messageTimestamp : Datetime
  text : String
  editedTimestamp : Option Datetime := none
  channelId : Option String := none
  deriving DecidableEq, Repr

/-- The row of a message that is delivered for the first time. -/
def newMessage (d : IncomingMessage) (id : ℕ) : ExternalTelegramMessage :=
  { id
    sourceChannel := d.channel
    sourceChannelId := d.channelId
    telegramMessageId := d.telegramMessageId
    messageTimestamp := d.messageTimestamp
    text := d.text }

/-- A delivery is an edit that is newer than what is stored of the message. -/
def isNewerEdit (d : IncomingMessage) (existing : ExternalTelegramMessage) : Bool :=
  d.editedTimestamp.any fun t => existing.editedTimestamp.all (· < t)

/-- `ingest_message`: the row of the message, when the commit succeeds if there is one. -/
def ingestMessage (d : IncomingMessage) (id : ℕ) (commits : Bool)
    (messages : List ExternalTelegramMessage) :
    Except DatabaseError ExternalTelegramMessage × List ExternalTelegramMessage :=
  match lookup ExternalTelegramMessage.key (d.channel, d.telegramMessageId) messages with
  | some existing =>
    if isNewerEdit d existing then
      let edited := { existing with editedText := some d.text, editedTimestamp := d.editedTimestamp }
      if commits then (.ok edited, save ExternalTelegramMessage.key edited messages)
      else (.error .operationalError, messages)
    else (.ok existing, messages)
  | none =>
    if commits then (.ok (newMessage d id), messages ++ [newMessage d id])
    else (.error .operationalError, messages)

/-- `MAX_ENTRY_DEVIATION_PCT`. -/
def maxEntryDeviationPct : ℚ := 1

/-- `classify_entry_deviation`: nothing for `ENTRY_VALID`, or the status and the reason. -/
def classifyEntryDeviation (entryPrice : ℚ) (currentPrice : Option ℚ) :
    Option (ExternalSignalStatus × SignalRejection) :=
  match currentPrice with
  | none => some (.entryStale, .noLivePrice)
  | some current =>
    if current ≤ 0 ∨ entryPrice ≤ 0 then some (.entryInvalid, .nonPositivePrice)
    else
      let deviationPct := |entryPrice - current| / current * 100
      if deviationPct > maxEntryDeviationPct then
        some (.entryTooFar, .entryDeviates entryPrice deviationPct current)
      else none

/-- An entry that is not valid has another status than `VALID`. -/
theorem status_ne_valid_of_classify {entry : ℚ} {current : Option ℚ}
    {r : ExternalSignalStatus × SignalRejection}
    (h : classifyEntryDeviation entry current = some r) : r.1 ≠ .valid := by
  unfold classifyEntryDeviation at h
  split at h
  · obtain rfl := Option.some.inj h
    simp
  · split at h
    · obtain rfl := Option.some.inj h
      simp
    · dsimp only at h
      split at h
      · obtain rfl := Option.some.inj h
        simp
      · cases h

/-- What a message says now. -/
def currentText (message : ExternalTelegramMessage) : String :=
  match message.editedText.filter (· ≠ "") with
  | some text => text
  | none => message.text

/-- The part of a row of `external_signals` that is its own: its UUID and when it is created. -/
structure SignalStamp where
  id : String
  createdAt : Datetime
  deriving DecidableEq, Repr

/-- The row of a message from a channel that is not allowlisted. -/
def unauthorizedSignal (message : ExternalTelegramMessage) (stamp : SignalStamp) : ExternalSignal :=
  { id := stamp.id
    messageId := message.id
    sourceChannel := message.sourceChannel
    status := .rejectedUnauthorizedSource
    rejectionReason := some (.notAllowlisted message.sourceChannel)
    createdAt := some stamp.createdAt }

/-- The row of a parsed message. -/
def signalOf (message : ExternalTelegramMessage) (stamp : SignalStamp)
    (parsed : ParsedExternalSignal) (marketPrice : Option ℚ) : ExternalSignal :=
  { id := stamp.id
    messageId := message.id
    sourceChannel := message.sourceChannel
    status := parsed.status
    rejectionReason := parsed.rejectionReason
    rawSymbol := parsed.rawSymbol
    symbol := parsed.symbol
    direction := parsed.direction
    entryPrice := parsed.entryPrice
    stopLoss := parsed.stopLoss
    takeProfit1 := parsed.takeProfit1
    takeProfit2 := parsed.takeProfit2
    takeProfit3 := parsed.takeProfit3
    leverageStated := parsed.leverageStated
    timeframeStated := parsed.timeframeStated
    marketPriceAtValidation := marketPrice
    createdAt := some stamp.createdAt
    complete := parsed.complete }

/-- A parsed message that the parser calls valid, after its entry was compared with the market. -/
def ParsedExternalSignal.checked (parsed : ParsedExternalSignal) (hvalid : parsed.status = .valid)
    (marketPrice : Option ℚ) : ParsedExternalSignal :=
  match parsed.entryPrice.bind fun entry => classifyEntryDeviation entry marketPrice with
  | none => parsed
  | some (status, reason) =>
    { parsed with status, rejectionReason := some reason, complete := fun _ => parsed.complete hvalid }

/-- The row that `process_message` stores of a message; nothing, when the lookup of the price
raises. -/
def validate (u : UnicodeData) (settings : ChannelSettings) (message : ExternalTelegramMessage)
    (supportedSymbols : List String) (currentPriceLookup : Option (String → Option (Option ℚ)))
    (stamp : SignalStamp) : Option ExternalSignal :=
  if !isAuthorizedChannel u settings message.sourceChannel message.sourceChannelId then
    some (unauthorizedSignal message stamp)
  else
    let parsed := parseExternalSignal u (currentText message) supportedSymbols
    if hvalid : parsed.status = .valid then
      match currentPriceLookup, parsed.symbol with
      | some lookup, some symbol =>
        (lookup symbol).map fun price => signalOf message stamp (parsed.checked hvalid price) price
      | _, _ => some (signalOf message stamp parsed none)
    else some (signalOf message stamp parsed none)

/-- `process_message`; nothing is returned when the lookup or the commit raises. -/
def processMessage (u : UnicodeData) (settings : ChannelSettings)
    (message : ExternalTelegramMessage) (supportedSymbols : List String)
    (currentPriceLookup : Option (String → Option (Option ℚ))) (stamp : SignalStamp)
    (commits : Bool) (signals : List ExternalSignal) :
    Option ExternalSignal × List ExternalSignal :=
  match validate u settings message supportedSymbols currentPriceLookup stamp with
  | none => (none, signals)
  | some signal => if commits then (some signal, signals ++ [signal]) else (none, signals)

/-! ## What is stored -/

section

variable {u : UnicodeData} {settings : ChannelSettings} {message : ExternalTelegramMessage}
  {supportedSymbols : List String} {currentPriceLookup : Option (String → Option (Option ℚ))}
  {stamp : SignalStamp} {signal : ExternalSignal}

/-- **A channel message is stored once**, however often it is delivered. -/
theorem ingestMessage_unique (d : IncomingMessage) (id : ℕ) (commits : Bool)
    {messages : List ExternalTelegramMessage}
    (h : UniqueKey ExternalTelegramMessage.key messages) :
    UniqueKey ExternalTelegramMessage.key (ingestMessage d id commits messages).2 := by
  unfold ingestMessage
  split
  · dsimp only
    split
    · split
      · exact h.save
      · exact h
    · exact h
  · rename_i hnone
    split
    · exact h.append_singleton (lookup_eq_none_iff.1 hnone)
    · exact h

/-- Comparing the entry with the market changes nothing but the status and its reason. -/
theorem checked_symbol {parsed : ParsedExternalSignal} (hvalid : parsed.status = .valid)
    (price : Option ℚ) : (parsed.checked hvalid price).symbol = parsed.symbol := by
  unfold ParsedExternalSignal.checked
  split <;> rfl

/-- Every signal has the UUID that was drawn for it, and a valid one is for a supported symbol. -/
theorem validate_spec
    (h : validate u settings message supportedSymbols currentPriceLookup stamp = some signal) :
    signal.id = stamp.id ∧
      (signal.status = .valid → ∃ symbol ∈ supportedSymbols, signal.symbol = some symbol) := by
  unfold validate at h
  split at h
  · obtain rfl := Option.some.inj h
    exact ⟨rfl, by simp [unauthorizedSignal]⟩
  · dsimp only at h
    split at h
    · rename_i hvalid
      obtain ⟨m, -, -, hsymbol, hsupported⟩ := (parse_valid hvalid).symbol
      split at h
      · obtain ⟨price, -, rfl⟩ := Option.map_eq_some_iff.1 h
        exact ⟨rfl, fun _ => ⟨_, hsupported, (checked_symbol hvalid price).trans hsymbol⟩⟩
      · obtain rfl := Option.some.inj h
        exact ⟨rfl, fun _ => ⟨_, hsupported, hsymbol⟩⟩
    · rename_i hvalid
      obtain rfl := Option.some.inj h
      exact ⟨rfl, fun hv => absurd hv hvalid⟩

/-- An entry that is not refused is within the tolerance of a positive price. -/
theorem classifyEntryDeviation_none {entry : ℚ} {current : Option ℚ}
    (h : classifyEntryDeviation entry current = none) :
    ∃ price, current = some price ∧ 0 < price ∧
      |entry - price| / price * 100 ≤ maxEntryDeviationPct := by
  unfold classifyEntryDeviation at h
  split at h
  · cases h
  · rename_i price
    split at h
    · cases h
    · rename_i hpositive
      dsimp only at h
      split at h
      · cases h
      · rename_i hclose
        exact ⟨price, rfl, lt_of_not_ge fun hle => hpositive (Or.inl hle), not_lt.1 hclose⟩

/-- A signal that is valid comes from the channel and was valid as parsed, and its entry is not
refused at the price that was looked up. -/
theorem price_of_valid {lookup : String → Option (Option ℚ)}
    (h : validate u settings message supportedSymbols (some lookup) stamp = some signal)
    (hvalid : signal.status = .valid) :
    isAuthorizedChannel u settings message.sourceChannel message.sourceChannelId = true ∧
      (parseExternalSignal u (currentText message) supportedSymbols).status = .valid ∧
      ∃ symbol entry price, signal.symbol = some symbol ∧ signal.entryPrice = some entry ∧
        (parseExternalSignal u (currentText message) supportedSymbols).symbol = some symbol ∧
        (parseExternalSignal u (currentText message) supportedSymbols).entryPrice = some entry ∧
        lookup symbol = some (some price) ∧ signal.marketPriceAtValidation = some price ∧
        classifyEntryDeviation entry (some price) = none := by
  unfold validate at h
  split at h
  · obtain rfl := Option.some.inj h
    cases hvalid
  · rename_i hauthorized
    dsimp only at h
    split at h
    · rename_i hparsed
      obtain ⟨m, -, -, hsymbol, -⟩ := (parse_valid hparsed).symbol
      obtain ⟨-, -, entry, hentry, -⟩ := (parse_valid hparsed).sides
      rw [hsymbol] at h
      obtain ⟨price?, hlookup, rfl⟩ := Option.map_eq_some_iff.1 h
      refine ⟨by simpa using hauthorized, hparsed, normalizeSymbolString m.text, entry, ?_⟩
      simp only [signalOf, ParsedExternalSignal.checked, Option.mem_def.1 hentry,
        Option.bind_some] at hvalid ⊢
      cases hclassify : classifyEntryDeviation entry price? with
      | some r =>
        simp only [hclassify] at hvalid
        exact absurd hvalid (status_ne_valid_of_classify hclassify)
      | none =>
        obtain ⟨price, rfl, -⟩ := classifyEntryDeviation_none hclassify
        exact ⟨price, hsymbol, hentry, hsymbol, trivial, hlookup, rfl, hclassify⟩
    · rename_i hparsed
      obtain rfl := Option.some.inj h
      exact absurd hvalid hparsed

end

end AlphaOne.TelegramSignals

import Mathlib.Algebra.Order.Field.Rat
import AlphaOne.Schema.Time

/-!
# Availability of an instrument

The part of `services/scanner/multi_coin.py` that the processing of external signals uses: the
whitelist, and the look at the ticker of the exchange. The answer of the exchange is a parameter.
-/

namespace AlphaOne.Scanner

/-- `MIN_24H_VOLUME_USDT`. -/
def min24hVolumeUsdt : ℚ := 10000000

/-- `MAX_TICK_AGE_SECONDS`. -/
def maxTickAgeSeconds : ℚ := 120

/-- `DEFAULT_WHITELIST`. -/
def defaultWhitelist : List String := ["BTC/USDT", "ETH/USDT", "SOL/USDT", "XRP/USDT"]

/-- `RESEARCHED_SYMBOLS`. -/
def researchedSymbols : List String := ["BTC/USDT"]

/-- `_to_coindcx_instrument` -/
def toCoindcxInstrument (symbol : String) : String :=
  "B-" ++ String.ofList ((symbol.toList.takeWhile (· ≠ '/')).map Char.toUpper) ++ "_USDT"

/-- The entry of an instrument in the ticker. -/
structure Ticker where
  ls : Option ℚ := none
  fr : Option ℚ := none
  mp : Option ℚ := none
  v : Option ℚ := none
  /-- In milliseconds since the epoch. -/
  ctRT : Option ℚ := none
  deriving DecidableEq, Repr

/-- How a request for the ticker ends. -/
inductive TickerResponse
  | prices (prices : List (String × Ticker))
  /-- An `httpx.HTTPError`, which is caught. -/
  | httpError
  /-- Any other exception. -/
  | raised
  deriving DecidableEq, Repr

structure InstrumentAvailability where
  symbol : String
  instrument : String
  available : Bool
  lastPrice : Option ℚ := none
  fundingRate : Option ℚ := none
  markPrice : Option ℚ := none
  volume24h : Option ℚ := none
  tickAgeSeconds : Option ℚ := none
  deriving DecidableEq, Repr

def InstrumentAvailability.isLiquid (a : InstrumentAvailability) : Bool :=
  a.volume24h.any (min24hVolumeUsdt ≤ ·)

def InstrumentAvailability.isFresh (a : InstrumentAvailability) : Bool :=
  a.tickAgeSeconds.any (· ≤ maxTickAgeSeconds)

/-- The availability of one symbol at the time `now`. -/
def availabilityOf (prices : List (String × Ticker)) (now : Datetime) (symbol : String) :
    InstrumentAvailability :=
  let instrument := toCoindcxInstrument symbol
  match prices.lookup instrument with
  | none => { symbol, instrument, available := false }
  | some data =>
    { symbol
      instrument
      available := true
      lastPrice := data.ls
      fundingRate := data.fr
      markPrice := data.mp
      volume24h := data.v
      tickAgeSeconds := data.ctRT.map fun tickMs => ((now : ℚ) / 1000 - tickMs) / 1000 }

/-- `check_instrument_availability`; it returns nothing when it raises. -/
def checkInstrumentAvailability (symbols : List String) (response : TickerResponse)
    (now : Datetime) : Option (List InstrumentAvailability) :=
  match response with
  | .raised => none
  | .httpError => some <| symbols.map fun symbol =>
      { symbol, instrument := toCoindcxInstrument symbol, available := false }
  | .prices prices => some (symbols.map (availabilityOf prices now))

/-- Every symbol that was asked for has an entry in the answer, in the order of the request. -/
theorem checkInstrumentAvailability_symbols {symbols : List String} {response : TickerResponse}
    {now : Datetime} {results : List InstrumentAvailability}
    (h : checkInstrumentAvailability symbols response now = some results) :
    results.map InstrumentAvailability.symbol = symbols := by
  unfold checkInstrumentAvailability at h
  split at h
  · cases h
  · obtain rfl := Option.some.inj h
    simp [Function.comp_def]
  · obtain rfl := Option.some.inj h
    have hsymbol : ∀ prices symbol,
        (availabilityOf prices now symbol).symbol = symbol := by
      intro prices symbol
      unfold availabilityOf
      dsimp only
      split <;> rfl
    simp [Function.comp_def, hsymbol]

end AlphaOne.Scanner

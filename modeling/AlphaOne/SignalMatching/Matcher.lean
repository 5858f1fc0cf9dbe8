import AlphaOne.Foundations.Rounding
import AlphaOne.Schema.Models
import Mathlib.Data.List.Sort

/-!
# Matching a trade to the signal that prompted it

`services/signal_matching/matcher.py`: the signals of the symbol and the direction that lie near a
trade in time and in price, best first, and the one that is taken without asking.
-/

namespace AlphaOne.SignalMatching

open Foundations

/-- `DEFAULT_TIME_WINDOW_HOURS`. -/
def defaultTimeWindowHours : ℤ := 4

/-- `DEFAULT_PRICE_TOLERANCE_PCT`. -/
def defaultPriceTolerancePct : ℚ := 2

/-- `AMBIGUITY_MARGIN`. -/
def ambiguityMargin : ℚ := 15 / 100

structure SignalMatchCandidate where
  signalId : String
  confidence : ℚ
  timeDiffMinutes : ℚ
  priceDiffPct : ℚ
  deriving DecidableEq, Repr

/-- The signal type that a direction is compared with. -/
def signalTypeOf : Side → SignalType
  | .long => .long
  | .short => .short

/-- The candidate that a signal of the window is, if its entry price is near enough. -/
def candidateOf (entryPrice : ℚ) (timestamp : Datetime) (s : Signal) :
    Option SignalMatchCandidate :=
  match s.entryPrice with
  | none => none
  | some price =>
    if price = 0 then none
    else
      let priceDiffPct := |entryPrice - price| / price * 100
      if priceDiffPct > defaultPriceTolerancePct then none
      else
        let timeDiffMinutes := |Timedelta.totalSeconds (s.timestamp - timestamp)| / 60
        let timeScore := 1 - min (timeDiffMinutes / (defaultTimeWindowHours * 60)) 1
        let priceScore := 1 - min (priceDiffPct / defaultPriceTolerancePct) 1
        let confidence := 1 / 2 * timeScore + 1 / 2 * priceScore
        some
          { signalId := s.signalId
            confidence := roundTo confidence 4
            timeDiffMinutes := roundTo timeDiffMinutes 2
            priceDiffPct := roundTo priceDiffPct 4 }

def findCandidateSignals (signals : List Signal) (symbol : String) (side : Side)
    (entryPrice : ℚ) (timestamp : Datetime) : List SignalMatchCandidate :=
  let window := Timedelta.hours defaultTimeWindowHours
  let rows := signals.filter fun s => s.symbol = symbol ∧ s.signalType = signalTypeOf side ∧
    s.timestamp ≥ timestamp - window ∧ s.timestamp ≤ timestamp + window
  (rows.filterMap (candidateOf entryPrice timestamp)).insertionSort
    fun a b => b.confidence ≤ a.confidence

/-- The single confident match, if there is one. -/
def pickConfidentMatch : List SignalMatchCandidate → Option SignalMatchCandidate
  | [] => none
  | [c] => some c
  | first :: second :: _ =>
    if first.confidence - second.confidence ≥ ambiguityMargin then some first else none

end AlphaOne.SignalMatching

import AlphaOne.Foundations.Grid
import AlphaOne.Foundations.Rounding
import AlphaOne.Foundations.Timeline
import AlphaOne.Schema.Models

/-!
# The validator of candles

`services/data_quality/validator.py`: `validate_candles` looks over a frame of candles of one
timeframe and reports what it finds, without a change to the data. The frame is sorted by its
timestamps before anything is looked at.
-/

namespace AlphaOne.DataQuality

open Foundations

/-- `TIMEFRAME_TO_TIMEDELTA`. -/
def timeframeToTimedelta : String → Option Timedelta
  | "1m" => some (Timedelta.minutes 1)
  | "5m" => some (Timedelta.minutes 5)
  | "15m" => some (Timedelta.minutes 15)
  | "1h" => some (Timedelta.hours 1)
  | "4h" => some (Timedelta.hours 4)
  | "1d" => some (Timedelta.days 1)
  | "1w" => some (Timedelta.days 7)
  | _ => none

structure Gap where
  start : Datetime
  end_ : Datetime
  missingCandles : ℤ
  deriving DecidableEq, Repr

/-- What a row fails. -/
inductive InvalidReason
  /-- `high_below_max(open,close,low)` -/
  | highBelowMax
  /-- `low_above_min(open,close,high)` -/
  | lowAboveMin
  | highLessThanLow
  | nonPositivePrice
  | negativeVolume
  deriving DecidableEq, Repr

/-- Why a frame is stale. -/
inductive StaleReason
  /-- `no data` -/
  | noData
  /-- `last candle is {age} old, more than {stale_multiple}x the {timeframe} interval` -/
  | lastCandleOld (age : Timedelta) (staleMultiple : ℚ) (timeframe : String)
  deriving DecidableEq, Repr

structure DataQualityReport where
  symbol : String
  timeframe : String
  periodStart : Option Datetime
  periodEnd : Option Datetime
  rowCount : ℕ
  expectedRowCount : ℤ
  missingCount : ℤ
  duplicateCount : ℕ
  invalidCount : ℕ
  outOfOrderCount : ℕ
  stale : Bool
  staleReason : Option StaleReason
  gaps : List Gap := []
  invalidReasons : List (InvalidReason × ℕ) := []
  duplicateTimestamps : List Datetime := []
  liquidationCoverage : String := "not_assessed"
  deriving DecidableEq, Repr

def DataQualityReport.coveragePct (r : DataQualityReport) : ℚ :=
  if r.expectedRowCount ≤ 0 then 0
  else roundTo ((min (r.rowCount : ℤ) r.expectedRowCount : ℤ) / r.expectedRowCount * 100) 4

/-- `df["timestamp"]`. -/
def timestamps (df : List Candle) : List Datetime := df.map Candle.timestamp

/-- `df.sort_values("timestamp")`. -/
def sortValues (df : List Candle) : List Candle := byKey Candle.timestamp df

/-- How many rows repeat the timestamp of an earlier one, and the timestamps that are repeated. -/
def checkDuplicates (df : List Candle) : ℕ × List Datetime :=
  let ts := timestamps df
  (repeats [] ts, ((ts.filter fun t => 1 < ts.count t).dedup).insertionSort (· ≤ ·))

/-- How many rows have an earlier timestamp than the row before. -/
def checkOrdering (df : List Candle) : ℕ := descents (timestamps df)

def InvalidReason.applies (row : Candle) : InvalidReason → Bool
  | .highBelowMax => row.high < max (max row.open_ row.close) row.low
  | .lowAboveMin => row.low > min (min row.open_ row.close) row.high
  | .highLessThanLow => row.high < row.low
  | .nonPositivePrice => row.open_ ≤ 0 ∨ row.high ≤ 0 ∨ row.low ≤ 0 ∨ row.close ≤ 0
  | .negativeVolume => row.volume < 0

def invalidReasons : List InvalidReason :=
  [.highBelowMax, .lowAboveMin, .highLessThanLow, .nonPositivePrice, .negativeVolume]

/-- `check_invalid_ohlc`, for one row. -/
def checkInvalidOhlc (row : Candle) : Bool := invalidReasons.any (InvalidReason.applies row)

/-- `invalid_reason_breakdown`: the reasons that some row fails, with the number of those rows. -/
def invalidReasonBreakdown (df : List Candle) : List (InvalidReason × ℕ) :=
  (invalidReasons.map fun reason => (reason, df.countP fun row => reason.applies row)).filter
    fun entry => 0 < entry.2

/-- The gap between two neighbours, if they are more than one and a half intervals apart. -/
def gapBetween (interval : Timedelta) (p : Datetime × Datetime) : Option Gap :=
  let gapDelta := p.2 - p.1
  if (gapDelta : ℚ) > interval * (3 / 2) then
    let missing := roundHalfEven ((gapDelta : ℚ) / interval) - 1
    if missing > 0 then some { start := p.1, end_ := p.2, missingCandles := missing } else none
  else none

def checkGaps (df : List Candle) (timeframe : String) : List Gap :=
  match timeframeToTimedelta timeframe with
  | none => []
  | some interval =>
    if df.length < 2 then []
    else (neighbours ((timestamps df).insertionSort (· ≤ ·))).filterMap (gapBetween interval)

/-- `df["timestamp"].min()` and `df["timestamp"].max()`, of a frame with rows. -/
def minTimestamp (df : List Candle) : Datetime := (timestamps df).min?.getD 0

def maxTimestamp (df : List Candle) : Datetime := (timestamps df).max?.getD 0

/-- `stale_multiple`. -/
def staleMultiple : ℚ := 3

def checkStaleness (df : List Candle) (timeframe : String) (asOf : Option Datetime) :
    Bool × Option StaleReason :=
  match timeframeToTimedelta timeframe with
  | none => (true, some .noData)
  | some interval =>
    if df = [] then (true, some .noData)
    else
      let age := asOf.getD (maxTimestamp df) - maxTimestamp df
      if (age : ℚ) > interval * staleMultiple then
        (true, some (.lastCandleOld age staleMultiple timeframe))
      else (false, none)

def computeExpectedRowCount (periodStart periodEnd : Datetime) (timeframe : String) : ℤ :=
  match timeframeToTimedelta timeframe with
  | none => 0
  | some interval =>
    if periodEnd ≤ periodStart then 0 else (periodEnd - periodStart) / interval + 1

def validateCandles (df : List Candle) (symbol timeframe : String)
    (periodStart periodEnd asOf : Option Datetime := none) : DataQualityReport :=
  if df = [] then
    { symbol, timeframe, periodStart, periodEnd, rowCount := 0, expectedRowCount := 0
      missingCount := 0, duplicateCount := 0, invalidCount := 0, outOfOrderCount := 0
      stale := true, staleReason := some .noData }
  else
    let df := sortValues df
    let actualStart := periodStart.getD (minTimestamp df)
    let actualEnd := periodEnd.getD (maxTimestamp df)
    let (duplicateCount, duplicateTimestamps) := checkDuplicates df
    let gaps := checkGaps df timeframe
    let (stale, staleReason) := checkStaleness df timeframe asOf
    { symbol
      timeframe
      periodStart := some actualStart
      periodEnd := some actualEnd
      rowCount := df.length
      expectedRowCount := computeExpectedRowCount actualStart actualEnd timeframe
      missingCount := (gaps.map Gap.missingCandles).sum
      duplicateCount
      invalidCount := df.countP checkInvalidOhlc
      outOfOrderCount := checkOrdering df
      stale
      staleReason
      gaps
      invalidReasons := invalidReasonBreakdown df
      duplicateTimestamps }

/-! ## The frame in order -/

theorem timestamps_sortValues_sorted (df : List Candle) :
    (timestamps (sortValues df)).Pairwise (· ≤ ·) :=
  List.pairwise_map.2 (byKey_sorted Candle.timestamp df)

theorem timestamps_sortValues_perm (df : List Candle) :
    (timestamps (sortValues df)).Perm (timestamps df) :=
  (byKey_perm Candle.timestamp df).map Candle.timestamp

theorem mem_timestamps_sortValues {df : List Candle} {t : Datetime} :
    t ∈ timestamps (sortValues df) ↔ t ∈ timestamps df :=
  (timestamps_sortValues_perm df).mem_iff

theorem length_sortValues (df : List Candle) : (sortValues df).length = df.length :=
  (byKey_perm Candle.timestamp df).length_eq

theorem sortValues_ne_nil {df : List Candle} (h : df ≠ []) : sortValues df ≠ [] := by
  rw [← List.length_pos_iff, length_sortValues]
  exact List.length_pos_iff.2 h

/-- **The order is looked at too late**: a frame that has just been sorted has no row out of
order. -/
theorem checkOrdering_sortValues (df : List Candle) : checkOrdering (sortValues df) = 0 :=
  descents_eq_zero_iff.2 (timestamps_sortValues_sorted df)

/-- A frame has an invalid row exactly when a reason is given. -/
theorem invalidReasonBreakdown_eq_nil_iff (df : List Candle) :
    invalidReasonBreakdown df = [] ↔ df.countP checkInvalidOhlc = 0 := by
  simp only [invalidReasonBreakdown, List.filter_eq_nil_iff, List.mem_map, List.countP_eq_zero,
    checkInvalidOhlc, List.any_eq_true, not_exists, not_and]
  constructor
  · intro h row hrow reason hreason happlies
    refine h _ ⟨reason, hreason, rfl⟩ ?_
    simpa using List.countP_pos_iff.2 ⟨row, hrow, happlies⟩
  · rintro h _ ⟨reason, hreason, rfl⟩ hpos
    obtain ⟨row, hrow, happlies⟩ := List.countP_pos_iff.1 (of_decide_eq_true hpos)
    exact h row hrow reason hreason happlies

end AlphaOne.DataQuality

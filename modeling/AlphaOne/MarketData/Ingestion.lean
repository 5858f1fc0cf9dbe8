import AlphaOne.Foundations.Table
import AlphaOne.Schema.Models
import Mathlib.Data.List.MinMax
import Mathlib.Data.Int.ConditionallyCompleteOrder
import Mathlib.Tactic.Linarith

/-!
# Candle ingestion

`services/market_data/ingestion.py`: the paging loop `_backfill_range`, the resumable `backfill`
around it, and `candle_ingestion_job` of `services/scheduler/jobs.py`.

What happens outside is an `Environment`: at its `n`-th turn the exchange answers a fetch, or
raises, and the clock shows a time. The session's `turn` counts the turns. A call returns the
number of rows it stored, or `none` when an exception of the exchange ends it, together with the
session, whose committed rows stay in either case.
-/

namespace AlphaOne.MarketData

open Foundations

/-- A candle as the exchange returns it. -/
structure OHLCV where
  timestamp : Datetime
  open_ : ℚ
  high : ℚ
  low : ℚ
  close : ℚ
  volume : ℚ
  timeframe : String
  symbol : String
  deriving DecidableEq, Repr

/-- `TIMEFRAME_TO_TIMEDELTA`. -/
def timeframeToTimedelta : String → Option Timedelta
  | "1m" => some (Timedelta.minutes 1)
  | "5m" => some (Timedelta.minutes 5)
  | "15m" => some (Timedelta.minutes 15)
  | "1h" => some (Timedelta.hours 1)
  | "4h" => some (Timedelta.hours 4)
  | "1d" => some (Timedelta.days 1)
  | "1w" => some (Timedelta.days 7)
  | _ => none

/-- `TIMEFRAME_TO_TIMEDELTA.get(timeframe, timedelta(minutes=1))`. -/
def interval (timeframe : String) : Timedelta :=
  (timeframeToTimedelta timeframe).getD (Timedelta.minutes 1)

theorem interval_pos (timeframe : String) : 0 < interval timeframe := by
  unfold interval timeframeToTimedelta
  split <;> decide

/-- What the exchange answers and the clock shows at each turn. -/
structure Environment where
  /-- `exchange.fetch_ohlcv(symbol, timeframe, since, limit)`, `none` when it raises. -/
  fetchOhlcv : ℕ → String → String → Datetime → ℕ → Option (List OHLCV)
  /-- `datetime.utcnow()`. -/
  utcnow : ℕ → Datetime

/-- The `candles` table and the number of turns taken. -/
structure Session where
  candles : List Candle := []
  turn : ℕ := 0
  deriving DecidableEq, Repr

/-- The timestamps stored for a symbol and a timeframe. -/
def Session.timestamps (s : Session) (symbol timeframe : String) : List Datetime :=
  (s.candles.filter fun c => c.symbol = symbol ∧ c.timeframe = timeframe).map Candle.timestamp

/-- `_get_min_candle_timestamp`. -/
def Session.minTimestamp (s : Session) (symbol timeframe : String) : Option Datetime :=
  (s.timestamps symbol timeframe).min?

/-- `_get_max_candle_timestamp`. -/
def Session.maxTimestamp (s : Session) (symbol timeframe : String) : Option Datetime :=
  (s.timestamps symbol timeframe).max?

/-- `forward_start`: an interval after the latest stored candle, but not before `start`. -/
def forwardStart (symbol timeframe : String) (start : Datetime) (s : Session) : Datetime :=
  match s.maxTimestamp symbol timeframe with
  | some max => if max + interval timeframe > start then max + interval timeframe else start
  | none => start

/-- The row a candle is stored as. -/
def OHLCV.toRow (c : OHLCV) : Candle :=
  { timestamp := c.timestamp
    timeframe := c.timeframe
    open_ := c.open_
    high := c.high
    low := c.low
    close := c.close
    volume := c.volume
    symbol := c.symbol
    qualityStatus := .valid }

/-- `_bulk_insert_candles`: the number of rows stored, and the table after the commit. -/
def bulkInsertCandles (candles : List OHLCV) (s : Session) : ℕ × Session :=
  let rows := insertAllNew Candle.key s.candles (candles.map OHLCV.toRow)
  (rows.length - s.candles.length, { s with candles := rows })

/-- The candles of a page that lie in the requested range. -/
def inRange (rangeStart rangeEnd : Datetime) (candles : List OHLCV) : List OHLCV :=
  candles.filter fun c => rangeStart ≤ c.timestamp ∧ c.timestamp ≤ rangeEnd

/-- The candles that have closed by `now`. -/
def completeBy (timeframe : String) (now : Datetime) (candles : List OHLCV) : List OHLCV :=
  candles.filter fun c => c.timestamp + interval timeframe ≤ now

section Backfill

variable (env : Environment) (symbol timeframe : String)

/-- The loop of `_backfill_range`, from its variables `since`, `consecutive_empty_pages` and
`total_stored` on. -/
def backfillLoop (rangeStart rangeEnd : Datetime) (pageLimit : ℕ) (since : Datetime)
    (consecutiveEmptyPages totalStored : ℕ) (s : Session) : Option ℕ × Session :=
  if _hsince : since < rangeEnd then
    let turn := s.turn
    let s := { s with turn := turn + 1 }
    match env.fetchOhlcv turn symbol timeframe since pageLimit with
    | none => (none, s)
    | some fetched =>
      let candles := inRange rangeStart rangeEnd fetched
      if candles = [] then
        if _hempty : consecutiveEmptyPages + 1 ≥ 2 then (some totalStored, s)
        else
          backfillLoop rangeStart rangeEnd pageLimit (since + interval timeframe * pageLimit)
            (consecutiveEmptyPages + 1) totalStored s
      else
        let complete := completeBy timeframe (env.utcnow turn) candles
        match complete.getLast? with
        | none => (some totalStored, s)
        | some last =>
          let (stored, s) := bulkInsertCandles complete s
          if _hlast : last.timestamp < since then (some (totalStored + stored), s)
          else
            backfillLoop rangeStart rangeEnd pageLimit (last.timestamp + interval timeframe) 0
              (totalStored + stored) s
  else (some totalStored, s)
termination_by 3 * (rangeEnd - since).toNat + (2 - consecutiveEmptyPages)
decreasing_by
  · have hI := interval_pos timeframe
    have hskip : 0 ≤ interval timeframe * pageLimit :=
      mul_nonneg hI.le (Int.natCast_nonneg pageLimit)
    lia
  · have hI := interval_pos timeframe
    lia

/-- `_backfill_range`. -/
def backfillRange (rangeStart rangeEnd : Datetime) (pageLimit : ℕ) (s : Session) :
    Option ℕ × Session :=
  backfillLoop env symbol timeframe rangeStart rangeEnd pageLimit rangeStart 0 0 s

/-- The historical part of `backfill`: the gap before the earliest stored candle. -/
def backfillHistorical (start : Datetime) (pageLimit : ℕ) (s : Session) : Option ℕ × Session :=
  match s.minTimestamp symbol timeframe with
  | some min =>
    if start < min then
      backfillRange env symbol timeframe start (min - interval timeframe) pageLimit s
    else (some 0, s)
  | none => (some 0, s)

/-- `backfill`, up to the reading of the clock that stands in for a missing `end`. Both queries
are made before anything is stored. -/
def backfill (start end_ : Datetime) (pageLimit : ℕ) (s : Session) : Option ℕ × Session :=
  let forward := forwardStart symbol timeframe start s
  match backfillHistorical env symbol timeframe start pageLimit s with
  | (none, s) => (none, s)
  | (some totalStored, s) =>
    if forward < end_ then
      match backfillRange env symbol timeframe forward end_ pageLimit s with
      | (none, s) => (none, s)
      | (some stored, s) => (some (totalStored + stored), s)
    else (some totalStored, s)

/-- `backfill` with `end or datetime.utcnow()`. -/
def backfillUntilNow (start : Datetime) (pageLimit : ℕ) (s : Session) : Option ℕ × Session :=
  backfill env symbol timeframe start (env.utcnow s.turn) pageLimit { s with turn := s.turn + 1 }

/-- `candle_ingestion_job`: a backfill of the last `lookbackHours`. -/
def candleIngestionJob (lookbackHours : ℕ) (s : Session) : Option ℕ × Session :=
  let end_ := env.utcnow s.turn
  let start := end_ - Timedelta.hours lookbackHours
  backfill env symbol timeframe start end_ 1000 { s with turn := s.turn + 1 }

end Backfill

end AlphaOne.MarketData

import AlphaOne.Foundations.Rounding
import AlphaOne.Schema.Models

/-!
# Fixed-margin sizing and the daily trade budget

`services/risk_engine/fixed_margin.py`: every Telegram paper trade is sized from a margin of
₹200 at ten times leverage, and at most fifteen paper entries are made in one UTC day.
-/

namespace AlphaOne.Risk

open Foundations

def fixedMarginInr : ℚ := 200

def fixedLeverage : ℤ := 10

def dailyTradeTarget : ℕ := 10

def dailyTradeMax : ℕ := 15

/-- `FIXED_MARGIN_SOURCES`, the sources that share the daily budget. -/
def fixedMarginSources : List TradeSource := [.aiPaper, .telegramExternal]

/-- Why a fixed-margin trade is refused. -/
inductive FixedMarginRefusal
  /-- `No live USDT/INR conversion rate available …` -/
  | noRate
  /-- `Invalid entry price.` -/
  | invalidEntryPrice
  /-- `Daily trade maximum reached ({trades_today}/{DAILY_TRADE_MAX}).` -/
  | dailyMaximum (tradesToday : ℕ)
  deriving DecidableEq, Repr

/-- The size of an approved `FixedMarginSizing`. -/
structure FixedMarginSizing where
  marginInr : ℚ := fixedMarginInr
  leverage : ℤ := fixedLeverage
  notionalUsdt : ℚ
  quantity : ℚ
  deriving DecidableEq, Repr

def sizeFixedMarginTrade (entryPriceUsdt usdtInrRate : Option ℚ) :
    Except FixedMarginRefusal FixedMarginSizing :=
  match usdtInrRate with
  | none => .error .noRate
  | some rate =>
    if rate ≤ 0 then .error .noRate
    else
      match entryPriceUsdt with
      | none => .error .invalidEntryPrice
      | some entry =>
        if entry ≤ 0 then .error .invalidEntryPrice
        else
          let marginUsdt := fixedMarginInr / rate
          let notionalUsdt := marginUsdt * fixedLeverage
          .ok { notionalUsdt := roundTo notionalUsdt 2, quantity := notionalUsdt / entry }

structure DailyTradeBudget where
  tradesToday : ℕ
  target : ℕ := dailyTradeTarget
  maxAllowed : ℕ := dailyTradeMax
  deriving DecidableEq, Repr

def DailyTradeBudget.canOpenNewEntry (b : DailyTradeBudget) : Bool := b.tradesToday < b.maxAllowed

def DailyTradeBudget.targetReached (b : DailyTradeBudget) : Bool := b.tradesToday ≥ b.target

/-- A paper trade of the shared pool with its entry in the UTC day of `now`. -/
def countsToday (now : Datetime) (t : Trade) : Bool :=
  let dayStart := now.dayStart
  let dayEnd := dayStart + Timedelta.days 1
  t.mode = .paper ∧ t.source ∈ fixedMarginSources ∧ dayStart ≤ t.entryTime ∧ t.entryTime < dayEnd

def getDailyTradeBudget (trades : List Trade) (now : Datetime) : DailyTradeBudget :=
  { tradesToday := trades.countP (countsToday now) }

/-- `check_fixed_margin_trade`: the sizing, when the budget and the sizing approve the trade. -/
def checkFixedMarginTrade (trades : List Trade) (entryPriceUsdt usdtInrRate : Option ℚ)
    (now : Datetime) : Except FixedMarginRefusal FixedMarginSizing :=
  let budget := getDailyTradeBudget trades now
  if budget.canOpenNewEntry then sizeFixedMarginTrade entryPriceUsdt usdtInrRate
  else .error (.dailyMaximum budget.tradesToday)

end AlphaOne.Risk

import AlphaOne.Foundations.Slices
import AlphaOne.Schema.Models

/-!
# The CoinDCX account

What `services/exchange/coindcx.py` reads from the exchange: the open positions, normalized from
the rows of the positions endpoint, and the fills of an instrument in a window of days. A response
of the exchange is `none` when the account is not configured or the request fails; both readers
then report an empty list.
-/

namespace AlphaOne.Exchange

open Foundations

/-- `DEFAULT_MARGIN_CURRENCY`. -/
def defaultMarginCurrency : String := "INR"

/-- `normalize_symbol`: "BTC/USDT" is the instrument "B-BTC_INR" of an INR account. -/
def normalizeSymbol (symbol : String) (marginCurrency : String := defaultMarginCurrency) :
    String :=
  let base := (symbol.toList.takeWhile (· ≠ '/')).map Char.toUpper
  String.ofList ('B' :: '-' :: base ++ '_' :: marginCurrency.toList.map Char.toUpper)

/-- `denormalize_symbol`: the instrument "B-BTC_USDT" is "BTC/USDT". -/
def denormalizeSymbol (instrument : String) : String :=
  let body := match instrument.toList with
    | 'B' :: '-' :: rest => rest
    | cs => cs
  let base := body.takeWhile (· ≠ '_')
  let margin := (body.dropWhile (· ≠ '_')).drop 1
  if margin = [] then String.ofList body else String.ofList (base ++ '/' :: margin)

/-- A row of the positions endpoint. A number that is missing is read as zero. -/
structure PositionRow where
  id : String
  pair : String
  activePos : ℚ := 0
  avgPrice : ℚ := 0
  markPrice : ℚ := 0
  liquidationPrice : ℚ := 0
  leverage : Option ℚ := none
  lockedMargin : ℚ := 0
  deriving DecidableEq, Repr

/-- A normalized open position. -/
structure Position where
  exchangePositionId : String
  symbol : String
  side : Side
  quantity : ℚ
  entryPrice : ℚ
  markPrice : Option ℚ
  liquidationPrice : Option ℚ
  leverage : Option ℚ
  margin : ℚ
  unrealizedPnl : Option ℚ
  quantity_pos : 0 < quantity
  deriving DecidableEq, Repr

/-- `x or None`. -/
def orNone (x : ℚ) : Option ℚ := if x = 0 then none else some x

/-- The open position of a row, if it is open. -/
def positionOf (p : PositionRow) : Option Position :=
  if h : p.activePos = 0 then none
  else some
    { exchangePositionId := p.id
      symbol := p.pair
      side := if p.activePos > 0 then .long else .short
      quantity := |p.activePos|
      entryPrice := p.avgPrice
      markPrice := orNone p.markPrice
      liquidationPrice := orNone p.liquidationPrice
      leverage := p.leverage
      margin := p.lockedMargin
      unrealizedPnl :=
        if p.markPrice = 0 then none else some ((p.markPrice - p.avgPrice) * p.activePos)
      quantity_pos := abs_pos.2 h }

/-- `get_open_positions`. -/
def getOpenPositions (response : Option (List PositionRow)) : List Position :=
  (response.getD []).filterMap positionOf

/-- The side of an order. -/
inductive OrderSide
  | buy
  | sell
  deriving DecidableEq, Repr

/-- A trade fill, with the fields the exchange documents. -/
structure Fill where
  orderId : String
  timestamp : Datetime
  price : ℚ
  quantity : ℚ
  side : OrderSide
  deriving DecidableEq, Repr

/-- What was filled, as a slice of a quantity. -/
def Fill.slice (f : Fill) : Slice ℚ := ⟨f.price, f.quantity⟩

/-- A fill that was executed: some quantity at some price. -/
def Fill.IsReal (f : Fill) : Prop := 0 < f.price ∧ 0 < f.quantity

instance : DecidablePred Fill.IsReal := fun f =>
  inferInstanceAs (Decidable (0 < f.price ∧ 0 < f.quantity))

/-- The trades endpoint: the fills of an instrument in a window of days. -/
abbrev TradesEndpoint := String → ℤ → ℤ → Option (List Fill)

/-- `get_trade_history`. -/
def getTradeHistory (endpoint : TradesEndpoint) (symbol : String) (fromDate toDate : ℤ) :
    List Fill :=
  (endpoint (normalizeSymbol symbol) fromDate toDate).getD []

end AlphaOne.Exchange

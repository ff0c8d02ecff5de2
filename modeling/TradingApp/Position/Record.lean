import Mathlib.Data.Rat.Defs
import TradingApp.Lots.SplitSweep

/-!
# Position records

One record of a position table: a lot bought or sold at one price, and, once
it is closed, how.  Prices and profits are exact rationals.
-/

namespace TradingApp.Position

/-- A lot of a position table. -/
structure PositionRecord where
  openOrderId : ℕ
  openSize : ℕ
  openPrice : ℚ
  averageAtOpen : ℚ
  closeOrderId : ℕ
  closeSize : ℕ
  closePrice : ℚ
  averageAtClose : ℚ
  isComplete : Bool
  pnl : ℚ
  sign : ℤ
deriving DecidableEq, Repr

namespace PositionRecord

/-- The record of an open fill. -/
def ofFill (id size : ℕ) (price average : ℚ) (sign : ℤ) : PositionRecord where
  openOrderId := id
  openSize := size
  openPrice := price
  averageAtOpen := average
  closeOrderId := 0
  closeSize := 0
  closePrice := 0
  averageAtClose := 0
  isComplete := false
  pnl := 0
  sign := sign

/-- The unclosed remainder of a record of which `closedSize` is closed. -/
def unclosed (previous : PositionRecord) (closedSize : ℕ) : PositionRecord :=
  ofFill previous.openOrderId (previous.openSize - closedSize) previous.openPrice
    previous.averageAtOpen previous.sign

/-- The whole record is closed. -/
def setCloseInfo (record : PositionRecord) (id size : ℕ) (price average : ℚ) : PositionRecord :=
  { record with
    closeOrderId := id
    closeSize := size
    closePrice := price
    averageAtClose := average
    isComplete := true
    pnl := (price - record.openPrice) * size * record.sign }

/-- The record keeps the part that is closed. -/
def setPartialCloseInfo (record : PositionRecord) (id size : ℕ) (price average : ℚ) :
    PositionRecord :=
  { record with
    closeOrderId := id
    closeSize := size
    openSize := size
    closePrice := price
    averageAtClose := average
    isComplete := true
    pnl := (price - record.openPrice) * size * record.sign }

/-- What closing one unit of the record at `price` earns. -/
def unitProfit (price : ℚ) (record : PositionRecord) : ℚ :=
  (price - record.openPrice) * record.sign

/-- How a close fill closes records: whole, or split into the closed part and
the unclosed remainder. -/
def closing (id : ℕ) (price average : ℚ) : Lots.Closing PositionRecord where
  size := openSize
  done := isComplete
  whole record := record.setCloseInfo id record.openSize price average
  part record n := record.setPartialCloseInfo id n price average
  rest := unclosed
  size_whole _ := rfl
  done_whole _ := rfl
  size_part _ _ := rfl
  done_part _ _ := rfl
  size_rest _ _ := rfl
  done_rest _ _ := rfl

variable (id : ℕ) (price average : ℚ)

@[simp]
theorem closing_size : (closing id price average).size = openSize :=
  rfl

@[simp]
theorem closing_done : (closing id price average).done = isComplete :=
  rfl

/-- A value that is read off a record's open price and sign is not changed by
closing or splitting it. -/
theorem closing_stable {β : Type*} (f : ℚ → ℤ → β) :
    (closing id price average).Stable fun record => f record.openPrice record.sign where
  whole _ := rfl
  part _ _ := rfl
  rest _ _ := rfl

end PositionRecord

end TradingApp.Position

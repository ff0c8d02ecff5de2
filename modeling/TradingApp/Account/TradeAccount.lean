import TradingApp.Position.Table
import TradingApp.Text.Decimal

/-!
# Trade accounts

The two accounts of a trade instance, one for long and one for short
positions, as fills see them: the position counted in lots, its average, the
table of lots, and the figures kept beside them.  The position and the other
signed 64-bit counters are integers.

A fill on one account may also change the other one, since both keep the
spread between their averages.
-/

namespace TradingApp.Account

open TradingApp.Machine TradingApp.Position

/-- The type of an order account, and with it the side of a trade account. -/
inductive OrderAccountType where
  | long
  | short
deriving DecidableEq, Repr

namespace OrderAccountType

/-- The other side. -/
def opposite : OrderAccountType → OrderAccountType
  | long => short
  | short => long

@[simp]
theorem opposite_opposite (side : OrderAccountType) : side.opposite.opposite = side := by
  cases side <;> rfl

end OrderAccountType

/-- What a queued request asks for. -/
inductive RequestType where
  | open
  | close
deriving DecidableEq, Repr

/-- A request queued until the trading thread sends it. -/
structure PositionRequest where
  type : RequestType
  price : ℚ
  size : ℕ
deriving DecidableEq, Repr

/-- The largest order, in lots, that a trade account lets pass. -/
def maximumOrderLimit : ℕ :=
  5000

/-- The largest order, in lots, that an order account lets pass. -/
def orderAccountMaximumLimit : ℕ :=
  30

/-- `AbstractTradeAccount`: its position, the figures kept beside it, the counters
of live orders, and the requests to be sent. -/
structure TradeAccount where
  accountType : OrderAccountType
  accountName : Text
  symbol : Text
  divisor : ℕ
  total : ℤ
  average : ℚ
  spread : ℚ
  lastOpenPrice : ℚ
  lastClosePrice : ℚ
  pif : ℚ
  rif : ℕ
  totalOpen : ℤ
  totalClose : ℤ
  totalExecuted : ℤ
  maxPos : ℕ
  tranchValue : ℕ
  tranchCounter : ℕ
  pendingOrders : List PositionRequest
  positionTable : PositionRecordTable
deriving DecidableEq, Repr

namespace TradeAccount

/-- A new account.  The source leaves the last open price uninitialized. -/
def init (accountType : OrderAccountType) (accountName symbol : Text) (divisor : ℕ)
    (lastOpenPrice : ℚ) : TradeAccount where
  accountType := accountType
  accountName := accountName
  symbol := symbol
  divisor := divisor
  total := 0
  average := 0
  spread := 0
  lastOpenPrice := lastOpenPrice
  lastClosePrice := 0
  pif := 0
  rif := 0
  totalOpen := 0
  totalClose := 0
  totalExecuted := 0
  maxPos := 0
  tranchValue := 0
  tranchCounter := 0
  pendingOrders := []
  positionTable := .empty (accountType = .long)

/-- The position in shares. -/
def getPosition (account : TradeAccount) : ℤ :=
  account.total * account.divisor

/-- The average of the account's lots, not the account's own. -/
def getAverage (account : TradeAccount) : ℚ :=
  account.positionTable.average

/-- The lots of all live orders. -/
def getTotalLiveOrderCount (account : TradeAccount) : ℤ :=
  account.totalOpen + account.totalClose

/-- The counter is unsigned. -/
def incTranch (account : TradeAccount) : TradeAccount :=
  { account with tranchCounter := word32 (account.tranchCounter + 1) }

/-- The counter is unsigned. -/
def decTranch (account : TradeAccount) : TradeAccount :=
  { account with tranchCounter := word32 (account.tranchCounter - 1) }

/-- Queue a close. -/
def closePending (account : TradeAccount) (price : ℚ) (size : ℕ) : TradeAccount :=
  { account with pendingOrders := account.pendingOrders ++ [{ type := .close, price, size }] }

/-- Queue an open, which the source queues as a close. -/
def openPending (account : TradeAccount) (price : ℚ) (size : ℕ) : TradeAccount :=
  { account with pendingOrders := account.pendingOrders ++ [{ type := .close, price, size }] }

/-! ## Fills -/

/-- Both accounts keep a new spread when a fill on this one meets or crosses
the position of the other. -/
def calculateSpread (account other : TradeAccount) (fillPrice : ℚ) (fillSize : ℕ)
    (openClose : Bool) : TradeAccount × TradeAccount :=
  let disparity : ℚ := |account.total - other.total|
  let equality := other.total
  if account.total < equality ∧ account.total + fillSize ≥ equality ∧ openClose then
    let averageSp := account.average + (fillPrice - account.average) * disparity / equality
    let spread := |averageSp - other.getAverage|
    ({ account with spread }, { other with spread })
  else if account.total > equality ∧ account.total - fillSize ≤ equality ∧ !openClose then
    let averageSp := account.average - (fillPrice - account.average) * disparity / equality
    let spread := |averageSp - other.getAverage|
    ({ account with spread }, { other with spread })
  else (account, other)

/-- The table's part of an open fill. -/
def recordOpenFill (account : TradeAccount) (orderId : ℕ) (price : ℚ) (size : ℕ) : TradeAccount :=
  { account with
    positionTable := account.positionTable.recordOpenPosition orderId size price
    lastOpenPrice := price }

/-- The table's part of a close fill. -/
def recordCloseFill (account : TradeAccount) (orderId : ℕ) (price : ℚ) (size : ℕ) : TradeAccount :=
  { account with
    positionTable := account.positionTable.recordClosePosition orderId size price
    lastClosePrice := price }

/-- The average after an open fill that made the total `total`. -/
def openAverage (account : TradeAccount) (price : ℚ) (size : ℕ) : ℚ :=
  if account.total ≠ 0 then
    account.average + (price - account.average) * size / account.total
  else 0

/-- The average after a close fill that made the total `total`. -/
def closeAverage (account : TradeAccount) (price : ℚ) (size : ℕ) : ℚ :=
  if account.total ≠ 0 then
    account.average + (account.average - price) * size / account.total
  else 0

/-- `LongTradeAccount::onOpenFill`. -/
def onOpenFillLong (account other : TradeAccount) (orderId : ℕ) (price : ℚ) (size : ℕ) :
    TradeAccount × TradeAccount :=
  let (account, other) := account.calculateSpread other price size true
  let account := { account with total := account.total + size, lastOpenPrice := price }
  let account := { account with average := account.openAverage price size }
  (account.recordOpenFill orderId price size, other)

/-- `ShortTradeAccount::onOpenFill`, which also notes the price in force. -/
def onOpenFillShort (account other : TradeAccount) (orderId : ℕ) (price : ℚ) (size : ℕ) :
    TradeAccount × TradeAccount :=
  let (account, other) := account.calculateSpread other price size true
  let account := { account with total := account.total + size, lastOpenPrice := price }
  let account :=
    if account.getPosition ≥ other.getPosition then { account with pif := price } else account
  let account := { account with average := account.openAverage price size }
  (account.recordOpenFill orderId price size, other)

/-- `onCloseFill` of both accounts. -/
def onCloseFill (account : TradeAccount) (orderId : ℕ) (price : ℚ) (size : ℕ) : TradeAccount :=
  let beforeClose := account.total.tdiv account.maxPos
  let account := { account with total := account.total - size }
  let afterClose := account.total.tdiv account.maxPos
  let account := if beforeClose > afterClose then account.decTranch else account
  let account := { account with average := account.closeAverage price size }
  account.recordCloseFill orderId price size

/-- `onOpenFill` of the account's own class. -/
def onOpenFill (account other : TradeAccount) (orderId : ℕ) (price : ℚ) (size : ℕ) :
    TradeAccount × TradeAccount :=
  match account.accountType with
  | .long => account.onOpenFillLong other orderId price size
  | .short => account.onOpenFillShort other orderId price size

end TradeAccount

/-! ## A pair of accounts -/

/-- The accounts of a trade instance, each the other's opposite. -/
structure TradeAccounts where
  longAcc : TradeAccount
  shortAcc : TradeAccount
deriving DecidableEq, Repr

namespace TradeAccounts

/-- The account of a side. -/
def get (accounts : TradeAccounts) : OrderAccountType → TradeAccount
  | .long => accounts.longAcc
  | .short => accounts.shortAcc

/-- Replace the account of a side. -/
def set (accounts : TradeAccounts) (side : OrderAccountType) (account : TradeAccount) :
    TradeAccounts :=
  match side with
  | .long => { accounts with longAcc := account }
  | .short => { accounts with shortAcc := account }

/-- Replace the account of a side and its opposite. -/
def setBoth (side : OrderAccountType) (account other : TradeAccount) : TradeAccounts :=
  match side with
  | .long => { longAcc := account, shortAcc := other }
  | .short => { longAcc := other, shortAcc := account }

/-- A fill delivered to one of the accounts. -/
structure Fill where
  side : OrderAccountType
  isOpen : Bool
  orderId : ℕ
  price : ℚ
  size : ℕ
deriving DecidableEq, Repr

/-- Deliver a fill. -/
def onFill (accounts : TradeAccounts) (fill : Fill) : TradeAccounts :=
  let account := accounts.get fill.side
  let other := accounts.get fill.side.opposite
  if fill.isOpen then
    let after := account.onOpenFill other fill.orderId fill.price fill.size
    setBoth fill.side after.1 after.2
  else setBoth fill.side (account.onCloseFill fill.orderId fill.price fill.size) other

end TradeAccounts

end TradingApp.Account

import TradingApp.Account.TradeAccount

/-!
# Orders and their messages

An order as the gateway's thread and the trading threads share it: how far it
has come, whether a cancellation of it was answered, the last message about
it, and which functions of which trade account its messages are passed to.

The trade accounts are the elements of a type, so that a pointer to a function
of an account is that account, or nothing where no function was set.
-/

namespace TradingApp.Orders

open TradingApp.Account

/-- The side of an order. -/
inductive BuySell where
  | buy
  | sell
  | sellShort
deriving DecidableEq, Repr

/-- `OrderInfo::Stage`. -/
inductive Stage where
  | sent
  | acknowledged
  | filled
  | cancelled
  | changed
  | done
  | failed
deriving DecidableEq, Repr

/-- `OrderInfo::CancelStage`, what has become of a request to cancel. -/
inductive CancelStage where
  | none
  | init
  | fail
  | done
deriving DecidableEq, Repr

/-- The condition an order's message reports. -/
inductive OrderCondition where
  | pendingNew
  | new
  | partiallyFilled
  | done
  | canceled
  | cancelRejected
  | tooLateToCancel
  | pendingChange
  | changed
  | changeRejected
  | gatewayThrottle
  | denied
  | rejected
  | orderUnknown
  | other (code : ℕ)
deriving DecidableEq, Repr

/-- The gateway's message about an order. -/
structure OrderMessage where
  condition : OrderCondition
  openSize : ℕ
deriving DecidableEq, Repr

/-- `OrderInfo`: the order, the last message about it, and whom messages are
passed to. -/
structure OrderInfo (α : Type) where
  stage : Stage
  acknowledged : Bool
  cancelStage : CancelStage
  /-- not known until the order is sent -/
  type : Option BuySell
  accountType : OrderAccountType
  size : ℕ
  price : ℚ
  fillSize : ℕ
  order : OrderMessage
  onAcknowledgementFunction : Option α
  /-- the account's function for open fills or for close fills -/
  onFillFunction : Option (α × RequestType)
  onOrderCancelFunction : Option α
  onOrderChangeFunction : Option α
  onOrderDoneFunction : Option α
deriving DecidableEq

/-- `OrderAccount::open` and `close` choose between `limitBuy` and `limitSell`
by the type of the account. -/
def limitType : OrderAccountType → RequestType → BuySell
  | .long, .open => .buy
  | .long, .close => .sell
  | .short, .open => .sellShort
  | .short, .close => .buy

namespace OrderInfo

variable {α : Type}

/-- The constructor. -/
def new (price : ℚ) (size : ℕ) : OrderInfo α where
  stage := .sent
  acknowledged := false
  cancelStage := .none
  type := none
  accountType := .long
  size := size
  price := price
  fillSize := 0
  order := { condition := .pendingNew, openSize := 0 }
  onAcknowledgementFunction := none
  onFillFunction := none
  onOrderCancelFunction := none
  onOrderChangeFunction := none
  onOrderDoneFunction := none

/-- The order that is to replace another one: a copy with a new price, and a new
size if there is one. -/
def replacement (original : OrderInfo α) (newPrice : ℚ) (newSize : ℕ) : OrderInfo α :=
  { original with
    size := if newSize = 0 then original.size else newSize
    price := newPrice
    stage := .sent
    cancelStage := .none
    acknowledged := false
    fillSize := 0 }

/-- An order that has left its first stage counts as acknowledged. -/
def isAcknowledged (info : OrderInfo α) : Bool :=
  info.stage ≠ .sent || info.acknowledged

/-- The order is not over. -/
def canCancel (info : OrderInfo α) : Bool :=
  match info.stage with
  | .cancelled | .done | .filled | .failed => false
  | _ => true

/-- Which of the live counters of its account the order belongs to. -/
def counter (info : OrderInfo α) : Option RequestType :=
  match info.accountType, info.type with
  | .long, some .buy => some .open
  | .long, some .sell | .long, some .sellShort => some .close
  | .short, some .sell | .short, some .sellShort => some .open
  | .short, some .buy => some .close
  | _, none => none

/-- An order that `OrderAccount::cancel` and `change` refuse to touch. -/
def isOver (info : OrderInfo α) : Bool :=
  info.order.condition = .done || info.order.condition = .canceled || info.stage = .filled

end OrderInfo

end TradingApp.Orders

namespace TradingApp.Account.TradeAccount

open TradingApp.Orders

/-- Change a live counter. -/
def addLive (account : TradeAccount) (request : RequestType) (lots : ℤ) : TradeAccount :=
  match request with
  | .open => { account with totalOpen := account.totalOpen + lots }
  | .close => { account with totalClose := account.totalClose + lots }

/-- Take lots off the live counter of an order. -/
def subtractLive {α : Type} (account : TradeAccount) (info : OrderInfo α) (lots : ℕ) :
    TradeAccount :=
  match info.counter with
  | some request => account.addLive request (-lots)
  | none => account

/-- What a change of an order's size does to the live counters.  The orders of
a change are of one type, but the source goes through all pairs of types. -/
def countChange {α : Type} (account : TradeAccount) (original changed : OrderInfo α) :
    TradeAccount :=
  let sold : RequestType :=
    match changed.accountType with
    | .long => .close
    | .short => .open
  let bought : RequestType :=
    match changed.accountType with
    | .long => .open
    | .short => .close
  if changed.type = some .sellShort ∨ changed.type = some .sell ∧ original.type = some .sell then
    (account.addLive sold (-original.size)).addLive sold changed.size
  else if changed.type = some .buy ∧ original.type = some .sell then
    (account.addLive sold (-original.size)).addLive bought changed.size
  else if
    changed.type = some .sellShort ∨ changed.type = some .sell ∧ original.type = some .buy then
    (account.addLive bought (-original.size)).addLive sold changed.size
  else if changed.type = some .buy ∧ original.type = some .buy then
    (account.addLive bought (-original.size)).addLive bought changed.size
  else account

/-- The counters after an order was done. -/
def countDone {α : Type} (account : TradeAccount) (info : OrderInfo α) : TradeAccount :=
  { account.subtractLive info info.size with totalExecuted := account.totalExecuted + info.size }

end TradingApp.Account.TradeAccount

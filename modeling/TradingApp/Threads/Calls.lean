import TradingApp.Threads.Mutexes

/-!
# What the threads call

The thread of an instance makes passes; threads of the gateway, of the market data
and of the estimates' timers call back; the console and the main thread stop the
instances, and the main thread constructs them.
-/

namespace TradingApp.Threads

open Computability
open TradingApp.Account TradingApp.Instance TradingApp.Market TradingApp.Orders
open TradingApp.Transition.Locks

variable {ι κ : Type} (owner : ι → κ)

/-! ## Cases

A case of an instance has a current account; the other one is its opposite. -/

namespace PanicClose

variable (inst : ι) (current : OrderAccountType)

/-- The larger account is closed, unless the positions are equal. -/
def init : Calls (Mutex ι κ) :=
  1 + AbstractTradeAccount.close owner (inst, current.opposite)

/-- The close is replaced at the new price, or nothing is to be done. -/
def reprice : Calls (Mutex ι κ) :=
  1 + AbstractTradeAccount.change owner (inst, current.opposite)

end PanicClose

namespace SoftClose

variable (inst : ι) (current : OrderAccountType)

/-- The opposite account is closed, unless its profit is negative. -/
def init : Calls (Mutex ι κ) :=
  1 + AbstractTradeAccount.close owner (inst, current.opposite)

/-- The close is replaced, if its price has changed and its profit allows it. -/
def reprice : Calls (Mutex ι κ) :=
  1 + AbstractTradeAccount.change owner (inst, current.opposite)

end SoftClose

namespace TradeCase

variable (inst : ι) (current : OrderAccountType)

/-- One order after another. -/
def sendRequoteOrders : Calls (Mutex ι κ) :=
  (AbstractTradeAccount.open owner (inst, current))∗

/-- New orders are sent after a look at the old ones, which takes no mutex, or
the old ones are changed. -/
def updateRequoteOrders : Calls (Mutex ι κ) :=
  1 + AbstractTradeAccount.cancelAll (inst, current) * sendRequoteOrders owner inst current +
    (AbstractTradeAccount.change owner (inst, current))∗

/-- The base class's: the requote orders first, then the pending ones. -/
def reprice : Calls (Mutex ι κ) :=
  (1 + updateRequoteOrders owner inst current) *
    AbstractTradeAccount.sendPendingOrders owner (inst, current)

end TradeCase

namespace TradeCase4

variable (inst : ι) (current : OrderAccountType)

/-- The main order, and then the requote orders. -/
def init : Calls (Mutex ι κ) :=
  AbstractTradeAccount.open owner (inst, current) *
    (AbstractTradeAccount.open owner (inst, current))∗

/-- After the base class's, the main order may be replaced. -/
def reprice : Calls (Mutex ι κ) :=
  TradeCase.reprice owner inst current * (1 + AbstractTradeAccount.change owner (inst, current))

end TradeCase4

namespace HedgeCurrent

variable (inst : ι) (current : OrderAccountType)

/-- The current account is opened, or nothing is to be hedged. -/
def init : Calls (Mutex ι κ) :=
  1 + AbstractTradeAccount.open owner (inst, current)

/-- The order is replaced at the new price, or nothing is to be done. -/
def reprice : Calls (Mutex ι κ) :=
  1 + AbstractTradeAccount.change owner (inst, current)

end HedgeCurrent

namespace TradeCase9

variable (inst : ι) (current : OrderAccountType)

/-- The table says how much closes with a profit; that is closed, if it is any. -/
def init : Calls (Mutex ι κ) :=
  1 + PositionRecordTable.sizeofOrderWithPnl (inst, current) *
    (1 + AbstractTradeAccount.close owner (inst, current))

/-- The table is asked again before the order is replaced. -/
def reprice : Calls (Mutex ι κ) :=
  1 + PositionRecordTable.sizeofOrderWithPnl (inst, current) *
    (1 + AbstractTradeAccount.change owner (inst, current))

end TradeCase9

namespace TradeCase10

variable (inst : ι)

/-- The account to close is either. -/
def init : Calls (Mutex ι κ) :=
  ⨆ side, AbstractTradeAccount.close owner (inst, side)

/-- The order is replaced in the account that is being closed. -/
def reprice : Calls (Mutex ι κ) :=
  1 + ⨆ side, AbstractTradeAccount.change owner (inst, side)

/-- A case that waited may start again. -/
def wait : Calls (Mutex ι κ) :=
  1 + init owner inst

end TradeCase10

namespace TradeCase

variable (inst : ι) (current : OrderAccountType)

/-- Done and failed cases do nothing, and waiting ones look at the positions. -/
def run : CaseType → CaseState → Calls (Mutex ι κ)
  | .panicClose, .init => PanicClose.init owner inst current
  | .panicClose, .priceChange => PanicClose.reprice owner inst current
  | .softClose, .init => SoftClose.init owner inst current
  | .softClose, .priceChange => SoftClose.reprice owner inst current
  | .case4, .init => TradeCase4.init owner inst current
  | .case4, .priceChange => TradeCase4.reprice owner inst current
  | .hedgeCurrent, .init => HedgeCurrent.init owner inst current
  | .hedgeCurrent, .priceChange => HedgeCurrent.reprice owner inst current
  | .case9, .init => TradeCase9.init owner inst current
  | .case9, .priceChange => TradeCase9.reprice owner inst current
  | .case10, .init => TradeCase10.init owner inst
  | .case10, .priceChange => TradeCase10.reprice owner inst
  | .case10, .wait => TradeCase10.wait owner inst
  | _, _ => 1

/-- The destructor of a case's own class. -/
def destroyOwn : CaseType → Calls (Mutex ι κ)
  | .hedgeCurrent => 1 + PositionRecordTable.repackaging (inst, current)
  | .case9 => PositionRecordTable.print (inst, current)
  | _ => 1

/-- The destructor of a case. -/
def destroy (type : CaseType) : Calls (Mutex ι κ) :=
  destroyOwn inst current type *
    ((1 + AbstractTradeAccount.cancelAll (inst, .long) *
        AbstractTradeAccount.cancelAll (inst, .short)) *
      (PositionRecordTable.deleteCompletePosition (inst, current) *
        PositionRecordTable.deleteCompletePosition (inst, current.opposite)))

end TradeCase

/-! ## Passes -/

namespace TradeInstance

variable (inst : ι)

/-- The held case is replaced; the one that replaces it is constructed without a
mutex. -/
def replaceCase : Calls (Mutex ι κ) :=
  1 + ⨆ (type : CaseType) (current : OrderAccountType), TradeCase.destroy inst current type

/-- A case is selected when a trigger changes, or when none is held. -/
def caseSelection : Calls (Mutex ι κ) :=
  replaceCase inst

/-- A trigger that changes selects a case. -/
def triggerSelection : Calls (Mutex ι κ) :=
  1 + caseSelection inst

/-- Without the mutexes of a self-destruction, which are none. -/
def specialCases : Calls (Mutex ι κ) :=
  1 + replaceCase inst + caseSelection inst

/-- The held case is run, and dropped if it is done. -/
def runCase : Calls (Mutex ι κ) :=
  1 + (⨆ (type : CaseType) (state : CaseState) (current : OrderAccountType),
    TradeCase.run owner inst current type state) * (1 + replaceCase inst)

/-- The end of a pass: both positions, the held case and both tables. -/
def writeBack : Calls (Mutex ι κ) :=
  AbstractTradeAccount.getPriceInForce (inst, .long) * RedisWriter.writeToRedis inst *
    (AbstractTradeAccount.getPriceInForce (inst, .short) * RedisWriter.writeToRedis inst) *
    ((1 + RedisWriter.writeTradeCaseToRedis inst) *
      (RedisWriter.writePositionRecordTableToRedis inst *
        RedisWriter.writePositionRecordTableToRedis inst))

/-- A pass of the loop; it ends at once on an estimate that is not positive. -/
def triggerProcessing : Calls (Mutex ι κ) :=
  Symbol.pop inst *
    (1 + specialCases inst * (1 + triggerSelection inst) * (runCase owner inst * writeBack inst))

/-- What the constructor does with a position that is stored. -/
def restore (side : OrderAccountType) : Calls (Mutex ι κ) :=
  RedisWriter.readKeyFromRedis inst *
    (1 + AbstractTradeAccount.setAverage (inst, side) *
      (1 + AbstractTradeAccount.setPriceInForce (inst, side)) *
      (1 + AbstractTradeAccount.setRoundInForce (inst, side)) *
      RedisWriter.writeLiveSharesInfo inst)

/-- The constructor. -/
def construct : Calls (Mutex ι κ) :=
  restore inst .long * restore inst .short

/-- The orders of both accounts are cancelled. -/
def stopAction : Calls (Mutex ι κ) :=
  AbstractTradeAccount.cancelAll (inst, .short) * AbstractTradeAccount.cancelAll (inst, .long)

end TradeInstance

/-! ## Threads -/

/-- What a thread is there for.  There may be several threads of a role. -/
inductive Role (ι κ : Type) where
  /-- the thread that an instance starts -/
  | trading (inst : ι)
  /-- a thread of the gateway that calls an order account back -/
  | gateway (orderAccount : κ × OrderAccountType)
  /-- a thread that brings trades and quotes -/
  | market
  /-- a timer of a trade account's estimates -/
  | timeout (account : κ) (estimator : Estimator)
  /-- a thread that dispatches commands -/
  | console
  | main

namespace Role

variable (endless : ι → Estimator → Prop)

/-- The calls that a thread makes again and again. -/
def calls : Role ι κ → Calls (Mutex ι κ)
  | trading inst => TradeInstance.triggerProcessing owner inst
  | gateway orderAccount =>
      OrderAccount.onOrder owner orderAccount + OrderAccount.onOrderCancel orderAccount +
        OrderAccount.onOrderChange orderAccount + OrderAccount.onFill owner orderAccount
  | market => (⨆ inst, Symbol.updatePrice inst)∗ + (⨆ inst, Symbol.updateQuoteData inst)∗
  | timeout account estimator =>
      (⨆ inst : { inst // owner inst = account },
        Symbol.resetIntervalCallback endless inst estimator)∗
  | console => (⨆ inst, TradeInstance.stopAction inst)∗
  | main => (⨆ inst, TradeInstance.construct inst)∗ + (⨆ inst, TradeInstance.stopAction inst)∗

/-- The threads that others call back on. -/
def CallsBack : Role ι κ → Prop
  | gateway _ | market | timeout _ _ => True
  | trading _ | console | main => False

/-- The role's own warm-ups end. -/
def WarmUpsEnd : Role ι κ → Prop
  | timeout account estimator => ∀ inst, owner inst = account → ¬ endless inst estimator
  | _ => True

end Role

end TradingApp.Threads

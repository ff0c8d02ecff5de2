import TradingApp.Instance.State
import TradingApp.Market.Symbol
import TradingApp.Orders.OrderInfo
import TradingApp.Transition.Locks

/-!
# What the functions do to the mutexes

The scopes of the lock guards, the waits on condition variables and the calls of
every function that takes a mutex or calls one that does, in the order of the
source.  A branch may go either way and a loop may end at any time, so that the
ways in which a call may go include all those that the data allows.  One loop may
also never end: the warm-up of an estimator, in the scope of its symbol.
-/

namespace TradingApp.Threads

open Computability
open TradingApp.Account TradingApp.Instance TradingApp.Market TradingApp.Orders
open TradingApp.Transition.Locks

/-- The mutexes of the instances and of their trade accounts' order accounts. -/
inductive Mutex (ι κ : Type) where
  /-- `AbstractTradeAccount::mt` -/
  | account (account : ι × OrderAccountType)
  /-- `AbstractTradeAccount::rw_mutex` -/
  | accountValues (account : ι × OrderAccountType)
  /-- `PositionRecordTable::mt` -/
  | table (account : ι × OrderAccountType)
  /-- `RedisWriter::redis_mutex` -/
  | redis (inst : ι)
  /-- `rw_mutex` of an `order_hash` -/
  | orderHash (orderAccount : κ × OrderAccountType)
  /-- `Symbol::rw_mutex` -/
  | symbol (inst : ι)
  /-- `Symbol::stack_mutex` -/
  | symbolStack (inst : ι)
deriving DecidableEq

variable {ι κ : Type}

/-! ## Maps, tables and the writer -/

namespace AsynchronousUnorderedMap

/-- The methods of an `order_hash` lock it and call nothing. -/
def method (orderAccount : κ × OrderAccountType) : Calls (Mutex ι κ) :=
  guarded (.orderHash orderAccount) 1

/-- Put an order into the hash. -/
def emplace : κ × OrderAccountType → Calls (Mutex ι κ) :=
  method

/-- Take an order out of the hash. -/
def erase : κ × OrderAccountType → Calls (Mutex ι κ) :=
  method

/-- Look an order up. -/
def find : κ × OrderAccountType → Calls (Mutex ι κ) :=
  method

/-- `operator[]`. -/
def index : κ × OrderAccountType → Calls (Mutex ι κ) :=
  method

end AsynchronousUnorderedMap

namespace PositionRecordTable

/-- The methods of a table lock it and call nothing. -/
def method (account : ι × OrderAccountType) : Calls (Mutex ι κ) :=
  guarded (.table account) 1

/-- It walks the records under the lock. -/
def print : ι × OrderAccountType → Calls (Mutex ι κ) :=
  method

/-- It walks the records under the lock. -/
def sizeofOrderWithPnl : ι × OrderAccountType → Calls (Mutex ι κ) :=
  method

/-- It inserts a record under the lock. -/
def recordOpenPosition : ι × OrderAccountType → Calls (Mutex ι κ) :=
  method

/-- It closes and splits records under the lock. -/
def recordClosePosition : ι × OrderAccountType → Calls (Mutex ι κ) :=
  method

/-- It removes records under the lock. -/
def deleteCompletePosition : ι × OrderAccountType → Calls (Mutex ι κ) :=
  method

/-- It makes the records anew under the lock. -/
def repackaging : ι × OrderAccountType → Calls (Mutex ι κ) :=
  method

end PositionRecordTable

namespace RedisWriter

/-- Unless Redis is disabled, a command locks the writer. -/
def command (inst : ι) : Calls (Mutex ι κ) :=
  1 + guarded (.redis inst) 1

/-- A `SET` of a position. -/
def writeToRedis : ι → Calls (Mutex ι κ) :=
  command

/-- A `GET`. -/
def readKeyFromRedis : ι → Calls (Mutex ι κ) :=
  command

/-- A `SET` of an order. -/
def writeOrderInfoToRedis : ι → Calls (Mutex ι κ) :=
  command

/-- A command that stores the held case. -/
def writeTradeCaseToRedis : ι → Calls (Mutex ι κ) :=
  command

/-- The commands that store a table, in one scope. -/
def writePositionRecordTableToRedis : ι → Calls (Mutex ι κ) :=
  command

/-- Read a value and write it back changed; a log line may read it again. -/
def rewrite (write : ι → Calls (Mutex ι κ)) (inst : ι) : Calls (Mutex ι κ) :=
  1 + readKeyFromRedis inst * (1 + write inst * (1 + readKeyFromRedis inst))

/-- The round in force of a stored position. -/
def writeRIFToRedis : ι → Calls (Mutex ι κ) :=
  rewrite writeToRedis

/-- The price in force of a stored position. -/
def writePIFToRedis : ι → Calls (Mutex ι κ) :=
  rewrite writeToRedis

/-- The live shares of a stored position. -/
def writeLiveSharesInfo : ι → Calls (Mutex ι κ) :=
  rewrite writeToRedis

/-- The time of execution of a stored order. -/
def updateOrderExecTime : ι → Calls (Mutex ι κ) :=
  rewrite writeOrderInfoToRedis

/-- The time of change of a stored order. -/
def updateOrderChangeTime : ι → Calls (Mutex ι κ) :=
  rewrite writeOrderInfoToRedis

/-- The time of cancellation of a stored order. -/
def updateOrderCancleTime : ι → Calls (Mutex ι κ) :=
  rewrite writeOrderInfoToRedis

end RedisWriter

/-! ## Symbols -/

namespace Symbol

/-- A stamp is put on the stack, and the trading thread is notified. -/
def push (inst : ι) : Calls (Mutex ι κ) :=
  guarded (.symbolStack inst) 1

/-- Wait until the stack holds a stamp. -/
def pop (inst : ι) : Calls (Mutex ι κ) :=
  guarded (.symbolStack inst) (awaiting (.symbolStack inst) * 1)

/-- A price goes to the bar under the lock of the symbol. -/
def updatePrice (inst : ι) : Calls (Mutex ι κ) :=
  guarded (.symbol inst) 1

/-- Both of the name. -/
def updateQuoteData (inst : ι) : Calls (Mutex ι κ) :=
  guarded (.symbol inst) (1 + push inst)

variable (endless : ι → Estimator → Prop)

/-- The loop of an estimator's first prices takes no mutex; it ends, or it may be
endless. -/
def warmUp (inst : ι) (estimator : Estimator) : Calls (Mutex ι κ) :=
  1 + ⨆ _ : endless inst estimator, ({[.forever]} : Calls (Mutex ι κ))

/-- The estimate is calculated in the scope, after the warm-up. -/
def resetIntervalCallback (inst : ι) (estimator : Estimator) : Calls (Mutex ι κ) :=
  guarded (.symbol inst) (warmUp endless inst estimator * (1 + push inst))

end Symbol

/-! ## Orders -/

namespace OrderAccount

/-- The order is refused, or it is put into the hash and posted. -/
def limitOrder (orderAccount : κ × OrderAccountType) : Calls (Mutex ι κ) :=
  1 + AsynchronousUnorderedMap.emplace orderAccount

/-- A limit order to buy. -/
def limitBuy : κ × OrderAccountType → Calls (Mutex ι κ) :=
  limitOrder

/-- A limit order to sell. -/
def limitSell : κ × OrderAccountType → Calls (Mutex ι κ) :=
  limitOrder

/-- A long account buys to open, and a short one sells. -/
def «open» (orderAccount : κ × OrderAccountType) : Calls (Mutex ι κ) :=
  match orderAccount.2 with
  | .long => limitBuy orderAccount
  | .short => limitSell orderAccount

/-- A long account sells to close, and a short one buys. -/
def close (orderAccount : κ × OrderAccountType) : Calls (Mutex ι κ) :=
  match orderAccount.2 with
  | .long => limitSell orderAccount
  | .short => limitBuy orderAccount

/-- A replacement that is not sent is taken out of the hash. -/
def change (orderAccount : κ × OrderAccountType) : Calls (Mutex ι κ) :=
  1 + AsynchronousUnorderedMap.emplace orderAccount *
    (1 + AsynchronousUnorderedMap.erase orderAccount)

end OrderAccount

namespace AbstractTradeAccount

/-- The average is written under the lock of the values. -/
def setAverage (account : ι × OrderAccountType) : Calls (Mutex ι κ) :=
  guarded (.accountValues account) 1

/-- The price in force is written to the store in the scope. -/
def setPriceInForce (account : ι × OrderAccountType) : Calls (Mutex ι κ) :=
  guarded (.accountValues account) (RedisWriter.writePIFToRedis account.1)

/-- The price in force is read under the lock of the values. -/
def getPriceInForce (account : ι × OrderAccountType) : Calls (Mutex ι κ) :=
  guarded (.accountValues account) 1

/-- The round in force is written to the store without a lock of the account. -/
def setRoundInForce (account : ι × OrderAccountType) : Calls (Mutex ι κ) :=
  RedisWriter.writeRIFToRedis account.1

/-- The waiting thread is notified. -/
def onNewOrderAcknowledgement (account : ι × OrderAccountType) : Calls (Mutex ι κ) :=
  guarded (.account account) 1

/-- What is done when the trade is done takes no mutex: it queues a request or
sets a flag. -/
def onOrderDone (account : ι × OrderAccountType) : Calls (Mutex ι κ) :=
  guarded (.account account) (RedisWriter.updateOrderExecTime account.1)

/-- The waiting thread is notified. -/
def onOrderCancel (account : ι × OrderAccountType) : Calls (Mutex ι κ) :=
  guarded (.account account) 1

/-- The long and the short account's, with the base class's. -/
def onOpenFill (account : ι × OrderAccountType) : Calls (Mutex ι κ) :=
  guarded (.account account)
    (PositionRecordTable.recordOpenPosition account * PositionRecordTable.print account)

/-- As `onOpenFill`, with the table's closing. -/
def onCloseFill (account : ι × OrderAccountType) : Calls (Mutex ι κ) :=
  guarded (.account account)
    (PositionRecordTable.recordClosePosition account * PositionRecordTable.print account)

/-- Wait until a callback has set what is waited for. -/
def wait (account : ι × OrderAccountType) : Calls (Mutex ι κ) :=
  guarded (.account account) (awaiting (.account account) * 1)

/-- The wait of `open` and `close`. -/
def waitAcknowledgement : ι × OrderAccountType → Calls (Mutex ι κ) :=
  wait

/-- The wait of `change`. -/
def waitChangeAcknowledgement : ι × OrderAccountType → Calls (Mutex ι κ) :=
  wait

/-- The wait of `cancel`. -/
def waitCancelAcknowledgement : ι × OrderAccountType → Calls (Mutex ι κ) :=
  wait

variable (owner : ι → κ)

/-- All overloads: the order is refused, not sent, rejected or recorded. -/
def «open» (account : ι × OrderAccountType) : Calls (Mutex ι κ) :=
  1 + OrderAccount.open (owner account.1, account.2) *
    (1 + waitAcknowledgement account * (1 + RedisWriter.writeOrderInfoToRedis account.1))

/-- As `open`, with the order on the other side. -/
def close (account : ι × OrderAccountType) : Calls (Mutex ι κ) :=
  1 + OrderAccount.close (owner account.1, account.2) *
    (1 + waitAcknowledgement account * (1 + RedisWriter.writeOrderInfoToRedis account.1))

/-- The change is refused, not sent, rejected or recorded. -/
def change (account : ι × OrderAccountType) : Calls (Mutex ι κ) :=
  1 + OrderAccount.change (owner account.1, account.2) *
    (1 + waitChangeAcknowledgement account * (1 + RedisWriter.updateOrderChangeTime account.1))

/-- The order account's `cancel` takes no mutex. -/
def cancel (account : ι × OrderAccountType) : Calls (Mutex ι κ) :=
  1 + waitCancelAcknowledgement account * (1 + RedisWriter.updateOrderCancleTime account.1)

/-- Each live order is cancelled in turn. -/
def cancelAll (account : ι × OrderAccountType) : Calls (Mutex ι κ) :=
  (cancel account)∗

/-- At most one pending order is sent. -/
def sendPendingOrders (account : ι × OrderAccountType) : Calls (Mutex ι κ) :=
  1 + «open» owner account + close owner account

end AbstractTradeAccount

namespace OrderAccount

variable (owner : ι → κ)

/-- A callback of an order goes to the account of the instance that posted it. -/
def notify (callback : ι × OrderAccountType → Calls (Mutex ι κ))
    (orderAccount : κ × OrderAccountType) : Calls (Mutex ι κ) :=
  ⨆ inst : { inst // owner inst = orderAccount.1 }, callback (inst, orderAccount.2)

/-- What `OnOrder` does with an order that it finds; a callback that is not
defined is left out. -/
def onCondition (orderAccount : κ × OrderAccountType) : OrderCondition → Calls (Mutex ι κ)
  | .pendingNew | .partiallyFilled | .pendingChange => 1
  | .new => 1 + notify owner AbstractTradeAccount.onNewOrderAcknowledgement orderAccount
  | .done =>
      (1 + notify owner AbstractTradeAccount.onOrderDone orderAccount) *
        AsynchronousUnorderedMap.erase orderAccount
  | .canceled =>
      (1 + notify owner AbstractTradeAccount.onOrderCancel orderAccount) *
        AsynchronousUnorderedMap.erase orderAccount
  | .cancelRejected | .tooLateToCancel =>
      1 + notify owner AbstractTradeAccount.onOrderCancel orderAccount
  -- `onOrderChange` takes no mutex
  | .changed => AsynchronousUnorderedMap.erase orderAccount
  | .changeRejected => 1
  -- the order is posted again after a while
  | .gatewayThrottle => 1
  | .denied | .rejected | .orderUnknown | .other _ =>
      (1 + notify owner AbstractTradeAccount.onNewOrderAcknowledgement orderAccount) *
        AsynchronousUnorderedMap.erase orderAccount

/-- A message about an order that the hash may know. -/
def onOrder (orderAccount : κ × OrderAccountType) : Calls (Mutex ι κ) :=
  AsynchronousUnorderedMap.find orderAccount *
    (1 + ⨆ condition, onCondition owner orderAccount condition)

/-- The gateway's report of a cancellation. -/
def onOrderCancel (orderAccount : κ × OrderAccountType) : Calls (Mutex ι κ) :=
  AsynchronousUnorderedMap.find orderAccount *
    (1 + AsynchronousUnorderedMap.index orderAccount)

/-- The gateway's report of a change. -/
def onOrderChange (orderAccount : κ × OrderAccountType) : Calls (Mutex ι κ) :=
  AsynchronousUnorderedMap.find orderAccount *
    (1 + AsynchronousUnorderedMap.index orderAccount)

/-- A fill goes to the account, which opens or closes with it. -/
def onFill (orderAccount : κ × OrderAccountType) : Calls (Mutex ι κ) :=
  AsynchronousUnorderedMap.find orderAccount *
    (1 + (notify owner AbstractTradeAccount.onOpenFill orderAccount +
      notify owner AbstractTradeAccount.onCloseFill orderAccount))

end OrderAccount

end TradingApp.Threads

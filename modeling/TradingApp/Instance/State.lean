import Mathlib.Algebra.Order.Ring.Abs
import Mathlib.Control.Monad.Basic
import TradingApp.Instance.Restore
import TradingApp.Transition.Keeps

/-!
# The state of a trade instance

A trade instance, the trade case it holds, and the calls a case makes to the
two accounts.  Such a call sends something to the gateway and waits; the
gateway's reply is part of the environment, together with whatever the
account's callbacks did before the reply came.  What was asked and answered is
kept in a log, newest first.

Before an instance has chosen a trigger its account pointers are null.  A soft
close that finds the positions equal and the entry of a case in the store use
them all the same, which ends the program; the instance is then `crashed`, and
nothing happens to it any more.  No other call goes through a null pointer in
a run of an instance, so that what the functions below do with one, nothing,
and return, zero, is never seen.
-/

namespace TradingApp.Instance

open TradingApp.Account TradingApp.Machine TradingApp.Redis TradingApp.Transition

/-- `TriggerState`, the direction in which the estimate moves. -/
inductive TriggerState where
  | init
  | positive
  | negative
deriving DecidableEq, Repr

/-- The values of the instance's state that are ever assigned. -/
inductive TradeInstanceState where
  | none
  | init
  | softClose
  | panicClose
deriving DecidableEq, Repr

/-- The types of the cases that are ever selected. -/
inductive CaseType where
  | none
  | case4
  | hedgeCurrent
  | case9
  | case10
  | panicClose
  | softClose
deriving DecidableEq, Repr

/-- `TradeCase::State`, without the states of orders that no selected case sends. -/
inductive CaseState where
  | init
  | priceChange
  | wait
  | failed
  | done
  | notSelected
deriving DecidableEq, Repr

/-- What the cases read of a bar. -/
structure Bar where
  openPrice : ℚ
  closePrice : ℚ
deriving DecidableEq, Repr

/-- A trade case; each class uses the fields it declares. -/
structure TradeCase where
  type : CaseType
  state : CaseState
  currentAcc : Option OrderAccountType
  oppositeAcc : Option OrderAccountType
  sign : ℤ
  sendPrice : ℚ
  requotePrice : ℚ
  mainOrderId : ℕ
  requoteOrderFlag : Bool
  requoteOrders : List ℕ
  closeSize : ℕ
  hoSize : ℕ
  threshold : ℚ
  thresholdLimit : ℚ
  firstOrder : ℕ
  firstOrderPrice : ℚ
  firstOrderSize : ℕ
  accountToClose : Option OrderAccountType
  originalSize : ℕ
  error : ℚ
deriving DecidableEq, Repr

/-- `TradeInstance`: its settings and accounts, the held case, the last market
data and the flags that the commands set. -/
structure TradeInstance where
  config : Config
  accounts : TradeAccounts
  redisWriter : RedisWriter
  currentAcc : Option OrderAccountType
  oppositeAcc : Option OrderAccountType
  tradeCase : Option TradeCase
  previousCase : CaseType
  lastState : CaseState
  triggerState : TriggerState
  avicennaTriggerState : TriggerState
  prevTriggerState : TriggerState
  askSize : ℕ
  askPrice : ℚ
  bidSize : ℕ
  bidPrice : ℚ
  priceEstimate : ℚ
  priceEstimatePrev : ℚ
  avicennaToggle : Bool
  tradePrice : ℚ
  priceEstimateOnTrigger : ℚ
  referencePrice : ℚ
  state : TradeInstanceState
  isEnable : Bool
  isPanicClose : Bool
  panicCloseInit : Bool
  isSoftClose : Bool
  softCloseInit : Bool
  waitForNextTimeWindow : Bool
  waitForNextTimeWindowAvicenna : ℚ
  bar0 : Bar
  bar1 : Bar
  /-- set, under a misleading name, when the trading thread is to exit -/
  isNotDone : Bool
  /-- no member of the source: a null account pointer was used -/
  crashed : Bool

/-! ## The environment -/

/-- What a callback of the gateway's thread does to the instance. -/
inductive Callback where
  | fill (fill : TradeAccounts.Fill)
  /-- an account's live and executed counters change -/
  | counters (side : OrderAccountType) (openBy closeBy executedBy : ℤ)
  | requoteOrderDone
  | tradeSendClose (price : ℚ) (size : ℕ)
deriving DecidableEq, Repr

/-- The gateway's answer to a call: the callbacks before it, the request id
or status returned, and for a cancellation the orders confirmed cancelled. -/
structure Reply where
  callbacks : List Callback
  id : ℕ
  cancelled : List ℕ
deriving DecidableEq, Repr

/-- A call that is never answered favourably. -/
def Reply.refused : Reply where
  callbacks := []
  id := 0
  cancelled := []

/-- A call answered with an id. -/
def acknowledged (id : ℕ) : Reply where
  callbacks := []
  id := id
  cancelled := []

/-- What the log records; sizes are in lots. -/
inductive Event where
  | opened (side : OrderAccountType) (id size : ℕ) (price : ℚ)
  | closed (side : OrderAccountType) (id size : ℕ) (price : ℚ)
  | changed (side : OrderAccountType) (id newId newSize : ℕ) (newPrice : ℚ)
  | cancelled (side : OrderAccountType) (ids : List ℕ)
  | filled (fill : TradeAccounts.Fill)
deriving DecidableEq, Repr

/-- The instance, the replies still to come and the log. -/
structure Context where
  inst : TradeInstance
  replies : List Reply
  log : List Event

/-- Computations of the trading thread. -/
abbrev CaseM := StateM Context

/-! ## The instance -/

namespace TradeInstance

/-- Change one of the accounts. -/
def modifyAccount (inst : TradeInstance) (side : OrderAccountType)
    (f : TradeAccount → TradeAccount) : TradeInstance :=
  { inst with accounts := inst.accounts.set side (f (inst.accounts.get side)) }

/-- `getPosition` through an account pointer. -/
def position (inst : TradeInstance) : Option OrderAccountType → ℤ
  | some side => (inst.accounts.get side).getPosition
  | none => 0

/-- `getAverage` through an account pointer. -/
def average (inst : TradeInstance) : Option OrderAccountType → ℚ
  | some side => (inst.accounts.get side).getAverage
  | none => 0

/-- The error of the current estimate. -/
def estimationError (inst : TradeInstance) : ℚ :=
  max |inst.bar0.openPrice - inst.priceEstimate| inst.config.mpvValue * inst.config.mpvMultiplier

/-- The callback for a requote order that is done. -/
def onRequoteOrderDone (inst : TradeInstance) : TradeInstance :=
  { inst with
    tradeCase := inst.tradeCase.map fun case =>
      if inst.position case.currentAcc = inst.position case.oppositeAcc then
        { case with requoteOrderFlag := true }
      else case }

/-- The callback for an opening order that is done queues a close. -/
def onTradeSendClose (inst : TradeInstance) (price : ℚ) (size : ℕ) : TradeInstance :=
  match inst.tradeCase with
  | none => inst
  | some case =>
      if inst.position case.currentAcc > inst.position case.oppositeAcc then
        let closePrice := price + inst.estimationError * case.sign
        let closeSize := word32 (size * inst.config.divisor)
        match case.currentAcc with
        | none => inst
        | some side =>
            inst.modifyAccount side fun account => account.closePending closePrice closeSize
      else inst

/-- What a callback does to the instance. -/
def onCallback (inst : TradeInstance) : Callback → TradeInstance
  | .fill fill => { inst with accounts := inst.accounts.onFill fill }
  | .counters side openBy closeBy executedBy =>
      inst.modifyAccount side fun account =>
        { account with
          totalOpen := account.totalOpen + openBy
          totalClose := account.totalClose + closeBy
          totalExecuted := account.totalExecuted + executedBy }
  | .requoteOrderDone => inst.onRequoteOrderDone
  | .tradeSendClose price size => inst.onTradeSendClose price size

end TradeInstance

namespace Context

/-- Change the instance. -/
def mapInst (context : Context) (f : TradeInstance → TradeInstance) : Context :=
  { context with inst := f context.inst }

/-- A callback, with its fill in the log. -/
def onCallback (context : Context) (callback : Callback) : Context :=
  { context with
    inst := context.inst.onCallback callback
    log :=
      match callback with
      | .fill fill => .filled fill :: context.log
      | _ => context.log }

end Context

/-! ## Calls to the accounts -/

/-- Read the instance. -/
def getInst : CaseM TradeInstance := do
  return (← get).inst

/-- Change the instance. -/
def modifyInst (f : TradeInstance → TradeInstance) : CaseM Unit :=
  modify fun context => context.mapInst f

section Run

variable {α : Type} (context : Context) (f : TradeInstance → TradeInstance)

@[simp]
theorem run_getInst_bind (m : TradeInstance → CaseM α) :
    (getInst >>= m).run context = (m context.inst).run context :=
  rfl

@[simp]
theorem run_modifyInst : (modifyInst f).run context = ((), context.mapInst f) :=
  rfl

@[simp]
theorem run_modifyInst_bind (m : Unit → CaseM α) :
    (modifyInst f >>= m).run context = (m ()).run (context.mapInst f) :=
  rfl

end Run

theorem run_bind {α β : Type} (m : CaseM α) (f : α → CaseM β) (context : Context) :
    (m >>= f).run context = (f (m.run context).1).run (m.run context).2 :=
  rfl

/-- The program ends at the use of a null pointer. -/
def crash : CaseM Unit :=
  modifyInst fun inst => { inst with crashed := true }

/-- What follows a call that may have ended the program. -/
def unlessCrashed (m : CaseM Unit) : CaseM Unit := do
  if (← getInst).crashed then return else m

theorem run_unlessCrashed (m : CaseM Unit) (context : Context) :
    (unlessCrashed m).run context =
      if context.inst.crashed then ((), context) else m.run context := by
  unfold unlessCrashed
  rw [run_getInst_bind]
  split <;> rfl

/-- Change the held case, if there is one. -/
def modifyCase (f : TradeCase → TradeCase) : CaseM Unit :=
  modifyInst fun inst => { inst with tradeCase := inst.tradeCase.map f }

/-- Change one of the accounts. -/
def modifyAccount (side : OrderAccountType) (f : TradeAccount → TradeAccount) : CaseM Unit :=
  modifyInst fun inst => inst.modifyAccount side f

/-- Note an event, the newest first. -/
def record (event : Event) : CaseM Unit :=
  modify fun context => { context with log := event :: context.log }

/-- The next reply is taken off the list. -/
def Context.takeReply (context : Context) : Reply × Context :=
  match context.replies with
  | [] => (.refused, context)
  | reply :: rest => (reply, { context with replies := rest })

/-- Deliver callbacks in order. -/
def deliver (callbacks : List Callback) : CaseM Unit :=
  modify fun context => callbacks.foldl Context.onCallback context

/-- Wait for the gateway. -/
def nextReply : CaseM Reply := do
  let reply ← modifyGet Context.takeReply
  deliver reply.callbacks
  return reply

/-- Sending an order of `size` shares fails if the price is not positive, the
order is too large for the trade account or its order account, or the gateway
does not acknowledge it; else the sent lots are counted. -/
def sendOrder (account : Option OrderAccountType) (price : ℚ) (size : ℕ)
    (event : OrderAccountType → ℕ → ℕ → ℚ → Event)
    (count : ℕ → TradeAccount → TradeAccount) : CaseM ℕ := do
  match account with
  | none => return 0
  | some side =>
      let size := size / ((← getInst).accounts.get side).divisor
      if price ≤ 0 ∨ size > maximumOrderLimit ∨ size > orderAccountMaximumLimit then return 0
      else
        let reply ← nextReply
        if reply.id = 0 then return 0
        else
          modifyAccount side (count size)
          record (event side reply.id size price)
          return reply.id

/-- `open`: an acknowledged order is counted in `totalopen`. -/
def openOrder (account : Option OrderAccountType) (price : ℚ) (size : ℕ) : CaseM ℕ :=
  sendOrder account price size .opened fun size account =>
    { account with totalOpen := account.totalOpen + size }

/-- `close`: an acknowledged order is counted in `totalclose`. -/
def closeOrder (account : Option OrderAccountType) (price : ℚ) (size : ℕ) : CaseM ℕ :=
  sendOrder account price size .closed fun size account =>
    { account with totalClose := account.totalClose + size }

/-- The reply is zero if the order is gone, the order's own id if it could not
be changed, and the id of its replacement otherwise.  A new size that is too
large for the order account is refused, and one of zero shares leaves the size
as it is. -/
def changeOrder (account : Option OrderAccountType) (requestId : ℕ) (newPrice : ℚ)
    (newSize : ℕ) : CaseM ℕ := do
  match account with
  | none => return 0
  | some side =>
      let size := newSize / ((← getInst).accounts.get side).divisor
      let reply ← nextReply
      if reply.id = 0 ∨ reply.id = requestId then return reply.id
      else if size > orderAccountMaximumLimit then return requestId
      else
        record (.changed side requestId reply.id size newPrice)
        return reply.id

/-- Queued requests are dropped, and every live order is asked to cancel. -/
def cancelAll (account : Option OrderAccountType) : CaseM Unit := do
  match account with
  | none => return
  | some side =>
      modifyAccount side fun account => { account with pendingOrders := [] }
      let reply ← nextReply
      record (.cancelled side reply.cancelled)

/-- An order that is gone has no status; of another one the gateway tells it. -/
def checkOrderStatus (account : Option OrderAccountType) : CaseM Bool := do
  match account with
  | none => return false
  | some _ => return (← nextReply).id ≠ 0

/-- A queued request is sent as what it asks for. -/
def sendRequest (account : Option OrderAccountType) (request : PositionRequest) : CaseM ℕ :=
  match request.type with
  | .open => openOrder account request.price request.size
  | .close => closeOrder account request.price request.size

/-- The first queued request is sent, and removed if that succeeds. -/
def sendPendingOrders (account : Option OrderAccountType) : CaseM Unit := do
  match account with
  | none => return
  | some side =>
      match ((← getInst).accounts.get side).pendingOrders with
      | [] => return
      | request :: _ =>
          let id ← sendRequest account request
          whenever (id ≠ 0) <|
            modifyAccount side fun account =>
              { account with pendingOrders := account.pendingOrders.tail }

/-! ## Other calls -/

/-- The size, in shares, of the incomplete lots that `sendPrice` would close
with profit, but no more than the position. -/
def sizeofCloseOrderWithPNL (account : TradeAccount) (sendPrice : ℚ) : ℕ :=
  let table := account.positionTable
  let sum :=
    ((table.records.filter fun record =>
      !record.isComplete && decide ((sendPrice - record.openPrice) * table.sign > 0)).map
      (·.openSize)).sum
  min (word32 (word32 sum * account.divisor)) (word32 account.getPosition)

/-- The table's records that are complete are removed. -/
def deleteCompletePositions (account : TradeAccount) : TradeAccount :=
  { account with positionTable := account.positionTable.deleteCompletePosition }

/-- The table is packed anew. -/
def repackagePositionTable (account : TradeAccount) (baseQty : ℕ) (mpv adjustment : ℚ) :
    TradeAccount :=
  { account with positionTable := account.positionTable.repackaging baseQty mpv adjustment }

/-- Apply a function to the account behind a pointer. -/
def modifyPointed (account : Option OrderAccountType) (f : TradeAccount → TradeAccount) :
    CaseM Unit :=
  match account with
  | none => pure ()
  | some side => modifyAccount side f

end TradingApp.Instance

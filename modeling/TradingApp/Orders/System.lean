import Mathlib.Data.Finset.Basic
import Mathlib.Tactic.Simps.Basic
import TradingApp.Account.Fills
import TradingApp.Orders.OrderInfo

/-!
# An order account and its trade accounts

Trade accounts share one connection to the gateway.  Each has a trading thread
that opens, closes, changes and cancels orders, and waits for the answer under
the account's lock; the gateway's thread delivers messages, whose callbacks
count fills, wake a waiting thread and take orders out of the maps again.

A step is a call up to its wait, what a thread does when it is awake up to its
next wait or its return, or one message.  A thread may also look at what it
waits for without being woken.  Request ids do not wrap, so that an order is
its request id; there is nothing under an id that was not generated yet.

What an order's `trade_done` function does is a trade case's business and is
left out.
-/

namespace TradingApp.Orders

open TradingApp.Account

/-- What a trading thread waits for. -/
inductive Wait where
  | acknowledgement (request : RequestType) (id : ℕ)
  | change (original id newSize : ℕ)
  /-- with the orders that `cancelAll` has still to cancel -/
  | cancel (id : ℕ) (rest : Option (List ℕ))
deriving DecidableEq, Repr

namespace Wait

/-- The order whose acknowledgement is waited for. -/
def posted : Wait → Option ℕ
  | acknowledgement _ id => some id
  | change _ id _ => some id
  | cancel _ _ => none

end Wait

/-- Where the thread of a trade account is in its calls. -/
inductive Thread where
  /-- in no call, with what the last one returned -/
  | idle (returned : ℕ)
  | waiting (wait : Wait) (asleep : Bool)
  /-- past the wait for an acknowledgement, and about to return -/
  | acknowledged (wait : Wait)
  /-- in `cancelAll`, between two orders -/
  | cancelling (rest : List ℕ)
deriving DecidableEq, Repr

namespace Thread

/-- The thread is in no call. -/
def isIdle : Thread → Bool
  | idle _ => true
  | _ => false

/-- What a thread waits for, or has waited for in a call that has not returned. -/
def wait : Thread → Option Wait
  | waiting wait _ => some wait
  | acknowledged wait => some wait
  | _ => none

/-- A sleeping thread is woken. -/
def wake : Thread → Thread
  | waiting wait _ => waiting wait false
  | thread => thread

/-- After a cancellation `cancel` returns, or `cancelAll` goes on. -/
def afterCancel (rest : Option (List ℕ)) (cancelled : Bool) : Thread :=
  match rest with
  | none => idle cancelled.toNat
  | some rest => cancelling rest

end Thread

/-- How the connection takes a new order: whether its price and size can be
set, and whether it is sent. -/
structure Posting where
  limitSet : Bool
  sent : Bool
deriving DecidableEq, Repr

/-- An order account with its trade accounts: the orders that were sent, the
accounts with their maps of acknowledged orders, and where the thread of each is. -/
structure OrderSystem (α : Type) where
  accountType : OrderAccountType
  requestIdGenerator : ℕ
  info : ℕ → OrderInfo α
  orderHash : Finset ℕ
  account : α → TradeAccount
  /-- the keys of each account's map, in ascending order -/
  orders : α → List ℕ
  thread : α → Thread

namespace OrderSystem

variable {α : Type}

/-- No order has been sent. -/
def start (accountType : OrderAccountType) (account : α → TradeAccount) : OrderSystem α where
  accountType := accountType
  requestIdGenerator := 0
  info _ := OrderInfo.new 0 0
  orderHash := ∅
  account := account
  orders _ := []
  thread _ := .idle 0

/-- An order goes into the hash under the next id. -/
@[simps]
def emplace (system : OrderSystem α) (info : OrderInfo α) : OrderSystem α :=
  { system with
    requestIdGenerator := system.requestIdGenerator + 1
    info := Function.update system.info (system.requestIdGenerator + 1) info
    orderHash := insert (system.requestIdGenerator + 1) system.orderHash }

/-- The orders before it stay. -/
theorem emplace_info_of_le (system : OrderSystem α) {id : ℕ} (le : id ≤ system.requestIdGenerator)
    (info : OrderInfo α) : (system.emplace info).info id = system.info id :=
  Function.update_of_ne (Nat.ne_of_lt (Nat.lt_succ_of_le le)) _ _

/-- Change what is known of an order. -/
@[simps]
def modify (system : OrderSystem α) (id : ℕ) (f : OrderInfo α → OrderInfo α) : OrderSystem α :=
  { system with info := Function.update system.info id (f (system.info id)) }

/-- An order is taken out of the hash, so that messages no longer find it. -/
@[simps]
def eraseHash (system : OrderSystem α) (id : ℕ) : OrderSystem α :=
  { system with orderHash := system.orderHash.erase id }

variable [DecidableEq α]

/-- The thread of an account goes on. -/
@[simps]
def setThread (system : OrderSystem α) (a : α) (thread : Thread) : OrderSystem α :=
  { system with thread := Function.update system.thread a thread }

/-- `cv.notify_all()` of an account. -/
@[simps]
def notify (system : OrderSystem α) (a : α) : OrderSystem α :=
  { system with thread := Function.update system.thread a (system.thread a).wake }

/-- Change a trade account. -/
@[simps]
def setAccount (system : OrderSystem α) (a : α) (account : TradeAccount) : OrderSystem α :=
  { system with account := Function.update system.account a account }

/-- An acknowledged order is put into the map of its account. -/
@[simps]
def addOrder (system : OrderSystem α) (a : α) (id : ℕ) : OrderSystem α :=
  { system with
    orders := Function.update system.orders a
      (if id ∈ system.orders a then system.orders a else system.orders a ++ [id]) }

/-- An order is taken out of the map of its account. -/
@[simps]
def eraseOrder (system : OrderSystem α) (a : α) (id : ℕ) : OrderSystem α :=
  { system with
    orders := Function.update system.orders a ((system.orders a).filter (· ≠ id)) }

/-! ## Calls -/

/-- The order of `open` or `close` as it goes into the hash. -/
def newInfo (system : OrderSystem α) (request : RequestType) (a : α) (price : ℚ) (lots : ℕ) :
    OrderInfo α :=
  { OrderInfo.new price lots with
    type := some (limitType system.accountType request)
    accountType := system.accountType
    onAcknowledgementFunction := some a
    onFillFunction := some (a, request)
    onOrderDoneFunction := some a }

/-- `open` and `close` up to the wait.  The size is given in shares. -/
def post (system : OrderSystem α) (request : RequestType) (a : α) (price : ℚ) (size : ℕ)
    (posting : Posting) : OrderSystem α :=
  let lots := size / (system.account a).divisor
  if price ≤ 0 ∨ lots > maximumOrderLimit then system.setThread a (.idle 0)
  else if lots > orderAccountMaximumLimit ∨ !posting.limitSet then system.setThread a (.idle 0)
  else
    (system.emplace (system.newInfo request a price lots)).setThread a
      (if posting.sent then
        .waiting (.acknowledgement request (system.requestIdGenerator + 1)) false
      else .idle 0)

/-- The order of `change` as it goes into the hash. -/
def changedInfo (system : OrderSystem α) (a : α) (id : ℕ) (newPrice : ℚ) (newSize : ℕ) :
    OrderInfo α :=
  (system.info id).replacement newPrice (newSize / (system.account a).divisor)

/-- The order to be changed gets the account's function. -/
@[simps]
def askChange (system : OrderSystem α) (a : α) (id : ℕ) : OrderSystem α :=
  { system with
    info := Function.update system.info id
      { system.info id with onOrderChangeFunction := some a } }

omit [DecidableEq α] in
theorem askChange_emplace_info {system : OrderSystem α} {id : ℕ}
    (le : id ≤ system.requestIdGenerator) (a : α) (key : ℕ) (info : OrderInfo α) :
    ((system.askChange a key).emplace info).info id = (system.askChange a key).info id :=
  emplace_info_of_le (system.askChange a key) le info

/-- `change` up to the wait. -/
def change (system : OrderSystem α) (a : α) (id : ℕ) (newPrice : ℚ) (newSize : ℕ)
    (posting : Posting) : OrderSystem α :=
  if id ∈ system.orders a then
    let changed := system.changedInfo a id newPrice newSize
    let asked := system.askChange a id
    if changed.size > orderAccountMaximumLimit ∨ !posting.limitSet ∨ (system.info id).isOver then
      asked.setThread a (.idle id)
    else
      let newId := system.requestIdGenerator + 1
      let posted := asked.emplace changed
      if posting.sent then posted.setThread a (.waiting (.change id newId newSize) false)
      else (posted.eraseHash newId).setThread a (.idle id)
  else system.setThread a (.idle 0)

/-- The order to be cancelled gets the account's function. -/
@[simps]
def askCancel (system : OrderSystem α) (a : α) (id : ℕ) : OrderSystem α :=
  { system with
    info := Function.update system.info id
      { system.info id with onOrderCancelFunction := some a, cancelStage := .init } }

/-- `cancel` up to the wait, called by itself or from `cancelAll`. -/
def cancel (system : OrderSystem α) (a : α) (id : ℕ) (rest : Option (List ℕ)) (sent : Bool) :
    OrderSystem α :=
  if id ∉ system.orders a then system.setThread a (.afterCancel rest false)
  else if !(system.info id).canCancel then
    (system.eraseOrder a id).setThread a (.afterCancel rest false)
  else
    (system.askCancel a id).setThread a
      (if (system.info id).isOver || !sent then .afterCancel rest false
      else .waiting (.cancel id rest) false)

/-- `cancelAll` forgets the pending requests and goes through the orders. -/
def cancelAll (system : OrderSystem α) (a : α) : OrderSystem α :=
  (system.setAccount a { system.account a with pendingOrders := [] }).setThread a
    (.cancelling (system.orders a))

/-! ## Waits -/

/-- The predicate of a wait. -/
def ends (system : OrderSystem α) (wait : Wait) : Bool :=
  match wait with
  | .acknowledgement _ id => (system.info id).isAcknowledged
  | .change _ id _ => (system.info id).isAcknowledged
  | .cancel id _ => (system.info id).cancelStage = .done || (system.info id).cancelStage = .fail

/-- What is done under the lock after a wait. -/
def leave (system : OrderSystem α) (a : α) (wait : Wait) : OrderSystem α :=
  match wait with
  | .acknowledgement _ id =>
      if (system.info id).acknowledged then (system.addOrder a id).setThread a (.acknowledged wait)
      else system.setThread a (.idle 0)
  | .change original id _ =>
      if (system.info id).acknowledged then (system.addOrder a id).setThread a (.acknowledged wait)
      else system.setThread a (.idle original)
  | .cancel id rest =>
      if (system.info id).cancelStage = .fail then
        (system.modify id fun info => { info with cancelStage := .none }).setThread a
          (.afterCancel rest false)
      else
        (system.setAccount a
          ((system.account a).subtractLive (system.info id) (system.info id).order.openSize)).setThread
          a (.afterCancel rest true)

/-- The live counters, and the return from `open`, `close` and `change`. -/
def finish (system : OrderSystem α) (a : α) (wait : Wait) : OrderSystem α :=
  match wait with
  | .acknowledgement request id =>
      (system.setAccount a ((system.account a).addLive request (system.info id).size)).setThread a
        (.idle id)
  | .change original id newSize =>
      (if newSize > 0 then
        system.setAccount a
          ((system.account a).countChange (system.info original) (system.info id))
      else system).setThread a (.idle id)
  | .cancel _ _ => system

/-- The next order of `cancelAll`; after the last one, the cancelled orders are
taken out of the map. -/
def cancelNext (system : OrderSystem α) (a : α) (rest : List ℕ) (sent : Bool) : OrderSystem α :=
  match rest with
  | [] =>
      { system.setThread a (.idle 1) with
        orders := Function.update system.orders a
          ((system.orders a).filter fun id => (system.info id).cancelStage ≠ .done) }
  | id :: rest =>
      if id ∈ system.orders a ∧ (system.info id).canCancel then system.cancel a id (some rest) sent
      else system.setThread a (.cancelling rest)

/-- What a thread does when it runs. -/
def advance (system : OrderSystem α) (a : α) (sent : Bool) : OrderSystem α :=
  match system.thread a with
  | .idle _ => system
  | .waiting wait _ =>
      if system.ends wait then system.leave a wait else system.setThread a (.waiting wait true)
  | .acknowledged wait => system.finish a wait
  | .cancelling rest => system.cancelNext a rest sent

/-! ## Callbacks -/

/-- The thread that waits for the order wakes up. -/
def onNewOrderAcknowledgement (system : OrderSystem α) (a : α) : OrderSystem α :=
  system.notify a

/-- The whole order is taken off the live counter. -/
def onOrderDone (system : OrderSystem α) (a : α) (id : ℕ) : OrderSystem α :=
  (system.setAccount a ((system.account a).countDone (system.info id))).eraseOrder a id

/-- The order is cancelled or not, and the thread that waits wakes up. -/
def onOrderCancel (system : OrderSystem α) (a : α) (id : ℕ) (isCancel : Bool) : OrderSystem α :=
  (system.modify id fun info =>
    { info with cancelStage := if isCancel then .done else .fail }).notify a

/-- An order that is replaced is taken out of the map. -/
def onOrderChange (system : OrderSystem α) (a : α) (id : ℕ) (isChanged : Bool) : OrderSystem α :=
  if isChanged then system.eraseOrder a id else system

/-- `onOpenFill` and `onCloseFill`; the other account of the symbol belongs to
another order account. -/
def onFillReceived (system : OrderSystem α) (a : α) (request : RequestType) (other : TradeAccount)
    (id : ℕ) (price : ℚ) (size : ℕ) : OrderSystem α :=
  (system.modify id fun info => { info with fillSize := info.fillSize + size }).setAccount a
    (match request with
    | .open => ((system.account a).onOpenFill other id price size).1
    | .close => (system.account a).onCloseFill id price size)

/-- `OnOrder` for an order in the hash. -/
def onOrderFound (system : OrderSystem α) (id : ℕ) (order : OrderMessage) : OrderSystem α :=
  let info := system.info id
  let system := system.modify id fun info => { info with order := order }
  match order.condition with
  | .pendingNew | .partiallyFilled | .pendingChange => system
  | .new =>
      match info.onAcknowledgementFunction with
      | some a =>
          (system.modify id fun info =>
            { info with stage := .acknowledged, acknowledged := true }).onNewOrderAcknowledgement a
      | none => system
  | .done =>
      match info.onOrderDoneFunction with
      | some a =>
          ((system.modify id fun info => { info with stage := .done }).onOrderDone a id).eraseHash id
      | none => system.eraseHash id
  | .canceled =>
      match info.onOrderCancelFunction with
      | some a =>
          ((system.modify id fun info =>
            { info with stage := .cancelled, cancelStage := .done }).onOrderCancel a id
            true).eraseHash id
      | none => system.eraseHash id
  | .cancelRejected | .tooLateToCancel =>
      match info.onOrderCancelFunction with
      | some a =>
          (system.modify id fun info => { info with cancelStage := .fail }).onOrderCancel a id false
      | none => system
  | .changed =>
      match info.onOrderChangeFunction with
      | some a => (system.onOrderChange a id true).eraseHash id
      | none => system.eraseHash id
  | .changeRejected =>
      match info.onOrderChangeFunction with
      | some a => system.onOrderChange a id false
      | none => system
  -- the order is sent once more, and whether that succeeds is only logged
  | .gatewayThrottle => system
  | .denied | .rejected | .orderUnknown | .other _ =>
      match info.onAcknowledgementFunction with
      | some a =>
          ((system.modify id fun info =>
            { info with stage := .failed, acknowledged := false }).onNewOrderAcknowledgement
            a).eraseHash id
      | none => system.eraseHash id

/-- `OnOrder`; an order that the hash does not hold is not looked at. -/
def onOrder (system : OrderSystem α) (id : ℕ) (order : OrderMessage) : OrderSystem α :=
  if id ∈ system.orderHash then system.onOrderFound id order else system

/-- `OnOrderCancel`; none of the reasons makes a difference. -/
def onOrderCancelled (system : OrderSystem α) (id : ℕ) : OrderSystem α :=
  if id ∈ system.orderHash then system.modify id fun info => { info with stage := .cancelled }
  else system

/-- `OnOrderChange`. -/
def onOrderChanged (system : OrderSystem α) (id : ℕ) (condition : OrderCondition) :
    OrderSystem α :=
  if id ∈ system.orderHash ∧ condition = .orderUnknown then
    system.modify id fun info => { info with stage := .failed }
  else system

/-- `OnFill`: the account is told, and an order without a rest is filled. -/
def onFill (system : OrderSystem α) (id : ℕ) (price : ℚ) (size openSize : ℕ)
    (other : TradeAccount) : OrderSystem α :=
  if id ∈ system.orderHash then
    let info := system.info id
    let system := system.modify id fun info =>
      { info with stage := if openSize = 0 then .filled else info.stage }
    match info.onFillFunction with
    | some (a, request) => system.onFillReceived a request other id price size
    | none => system
  else system

/-! ## Steps -/

/-- The calls of the trading threads, and the gateway's messages. -/
inductive Label (α : Type) where
  | post (request : RequestType) (a : α) (price : ℚ) (size : ℕ) (posting : Posting)
  | change (a : α) (id : ℕ) (newPrice : ℚ) (newSize : ℕ) (posting : Posting)
  | cancel (a : α) (id : ℕ) (sent : Bool)
  | cancelAll (a : α)
  /-- a thread in a call runs on; `sent` is for the cancellations of `cancelAll` -/
  | advance (a : α) (sent : Bool)
  | onOrder (id : ℕ) (order : OrderMessage)
  | onOrderCancel (id : ℕ)
  | onOrderChange (id : ℕ) (condition : OrderCondition)
  | onFill (id : ℕ) (price : ℚ) (size openSize : ℕ) (other : TradeAccount)

/-- A thread makes a call only when it is in none. -/
def step (system : OrderSystem α) : Label α → OrderSystem α
  | .post request a price size posting =>
      if (system.thread a).isIdle then system.post request a price size posting else system
  | .change a id newPrice newSize posting =>
      if (system.thread a).isIdle then system.change a id newPrice newSize posting else system
  | .cancel a id sent =>
      if (system.thread a).isIdle then system.cancel a id none sent else system
  | .cancelAll a => if (system.thread a).isIdle then system.cancelAll a else system
  | .advance a sent => system.advance a sent
  | .onOrder id order => system.onOrder id order
  | .onOrderCancel id => system.onOrderCancelled id
  | .onOrderChange id condition => system.onOrderChanged id condition
  | .onFill id price size openSize other => system.onFill id price size openSize other

/-- The long account of a single symbol, traded in lots of one share. -/
def singleSymbol : OrderSystem Unit :=
  start .long fun _ => .init .long ['L'] ['X'] 1 0

end OrderSystem

end TradingApp.Orders

import TradingApp.Instance.State
import TradingApp.Utils.Rounding

/-!
# The trade cases

The prices the cases send, the requote orders they share, and each case's
`init`, `reprice` and `wait`.  A case's methods work on the case the instance
holds; they get its fields as they are when the method is called.
-/

namespace TradingApp.Instance

open TradingApp.Account TradingApp.Machine TradingApp.Transition

/-! ## Prices -/

/-- Conversion of a floating point number to an integer. -/
def toInt (x : ℚ) : ℤ :=
  x.num.tdiv x.den

/-- `truncate`, for the numbers that its integer can hold. -/
def truncate (number : ℚ) (digits : ℕ) : ℚ :=
  (toInt (number * 10 ^ digits) : ℚ) / 10 ^ digits

theorem toInt_eq_towardZero (x : ℚ) : toInt x = towardZero x := by
  unfold toInt towardZero
  split
  · rename_i nonneg
    rw [Int.tdiv_eq_ediv_of_nonneg (Rat.num_nonneg.mpr nonneg), Rat.floor_def']
  · rename_i negative
    have nonneg : 0 ≤ -x.num := neg_nonneg.mpr (Rat.num_neg.mpr (not_le.mp negative)).le
    rw [Rat.ceil_def', ← Int.tdiv_eq_ediv_of_nonneg nonneg, Int.neg_tdiv, neg_neg]

/-- Nothing is lost of a price that an integer can hold. -/
theorem truncate_eq_utils (conversion : Conversion) {number : ℚ} {digits : ℕ}
    (above : -2 ^ 31 - 1 < number * 10 ^ digits) (below : number * 10 ^ digits < 2 ^ 31) :
    Utils.truncate conversion number digits = truncate number digits := by
  unfold Utils.truncate truncate
  rw [conversion.toInt32_toInt _ above below, toInt_eq_towardZero]

namespace TradeInstance

/-- What the ask side leaves of an order of `qto` shares. -/
def askOverflow (inst : TradeInstance) (qto : ℕ) : ℤ :=
  toInt (inst.askSize - qto * inst.config.multiplier)

/-- What the bid side leaves of an order of `qto` shares. -/
def bidOverflow (inst : TradeInstance) (qto : ℕ) : ℤ :=
  toInt (inst.bidSize - qto * inst.config.multiplier)

/-- The price for an order of `qto` shares: on the far side of the market, unless
that side quotes more than these. -/
def sendPrice (inst : TradeInstance) (qto : ℕ) : ℚ :=
  match inst.triggerState with
  | .positive => if inst.askOverflow qto ≤ 0 then inst.askPrice else inst.bidPrice
  | .negative => if inst.bidOverflow qto ≤ 0 then inst.bidPrice else inst.askPrice
  | .init => 0

/-- The price of a buy, unless the current price is above the bid. -/
def buyAt (inst : TradeInstance) (qto : ℕ) (currentPrice : ℚ) : ℚ :=
  if currentPrice > 0 ∧ currentPrice > inst.bidPrice then currentPrice
  else if inst.askOverflow qto < 0 then inst.askPrice
  else inst.bidPrice

/-- The price of a sale, unless the current price is below the ask. -/
def sellAt (inst : TradeInstance) (qto : ℕ) (currentPrice : ℚ) : ℚ :=
  if currentPrice > 0 ∧ currentPrice < inst.askPrice then currentPrice
  else if inst.bidOverflow qto < 0 then inst.bidPrice
  else inst.askPrice

/-- The price to open at under the trigger. -/
def openPrice (inst : TradeInstance) (qto : ℕ) (currentPrice : ℚ) : ℚ :=
  match inst.triggerState with
  | .positive => inst.buyAt qto currentPrice
  | .negative => inst.sellAt qto currentPrice
  | .init => 0

/-- The price to close at under the trigger: the sides of `openPrice` are
exchanged. -/
def closePrice (inst : TradeInstance) (qto : ℕ) (currentPrice : ℚ) : ℚ :=
  match inst.triggerState with
  | .negative => inst.buyAt qto currentPrice
  | .positive => inst.sellAt qto currentPrice
  | .init => 0

/-- What closing the opposite account at a price earns. -/
def oppositePnl (inst : TradeInstance) (oppositeAcc : Option OrderAccountType) (price : ℚ) : ℚ :=
  match inst.triggerState with
  | .positive => price - inst.average oppositeAcc
  | .negative => inst.average oppositeAcc - price
  | .init => 0

end TradeInstance

/-! ## Construction -/

/-- The constructor of a case: it keeps the instance's roles and trigger. -/
def TradeCase.create (inst : TradeInstance) (type : CaseType) : TradeCase where
  type := type
  state := .init
  currentAcc := inst.currentAcc
  oppositeAcc := inst.oppositeAcc
  sign := if inst.triggerState = .positive then 1 else -1
  sendPrice := 0
  requotePrice := 0
  mainOrderId := 0
  requoteOrderFlag := false
  requoteOrders := []
  closeSize := 0
  hoSize := 0
  threshold := 0
  thresholdLimit := 0
  firstOrder := 0
  firstOrderPrice := 0
  firstOrderSize := 0
  accountToClose := inst.oppositeAcc
  originalSize := 0
  error := 0

/-- `TradeCaseFactory::create`. -/
def TradeCaseFactory.create (inst : TradeInstance) : CaseType → Option TradeCase
  | .none => none
  | type => some (TradeCase.create inst type)

/-- The state of the held case. -/
def setState (state : CaseState) : CaseM Unit :=
  modifyCase fun case => { case with state }

/-! ## Requote orders -/

/-- The loop that sends orders of `baseQty` shares until nothing remains; it
returns the ids of those acknowledged.  With a `baseQty` of zero the source
does not leave the loop. -/
def sendRequoteLoop (account : Option OrderAccountType) (baseQty : ℕ) (price : ℕ → ℚ) :
    ℕ → ℤ → ℕ → CaseM (List ℕ)
  | 0, _, _ => pure []
  | fuel + 1, remainder, i => do
      if remainder > 0 then
        let orderSize : ℤ := if remainder > baseQty then baseQty else remainder
        let id ← openOrder account (price i) (word32 orderSize)
        let ids ← sendRequoteLoop account baseQty price fuel (remainder - orderSize) (i + 1)
        return if id = 0 then ids else id :: ids
      else return []

/-- The signed 32-bit integer congruent to an integer. -/
def int32 (n : ℤ) : ℤ :=
  (n + 2 ^ 31) % 2 ^ 32 - 2 ^ 31

/-- Orders that fill the account up to its target for the next tranch. -/
def sendRequoteOrders (case : TradeCase) : CaseM Unit := do
  let inst ← getInst
  match case.currentAcc with
  | none => return
  | some side =>
      let account := inst.accounts.get side
      if account.tranchCounter = inst.config.tranchValue then return
      else
        let targetPos : ℕ := inst.config.maxPos * word32 (account.tranchCounter + 1)
        let residual := int32 (targetPos - account.getPosition)
        let requotePrice := if case.sign = 1 then inst.bidPrice else inst.askPrice
        modifyCase fun case => { case with requotePrice }
        let rightSide :=
          inst.bar1.closePrice + inst.config.mpvValue * inst.config.mpvMultiplier * case.sign
        if if case.sign > 0 then requotePrice ≤ rightSide else requotePrice ≥ rightSide then
          let ids ← sendRequoteLoop case.currentAcc inst.config.baseQty
            (fun i => requotePrice - case.sign * inst.config.mpvValue * i)
            residual.toNat residual 0
          modifyCase fun case => { case with requoteOrders := case.requoteOrders ++ ids }
        else return

/-- Keep the requote orders that are still live. -/
def liveRequoteOrders (account : Option OrderAccountType) : List ℕ → CaseM (List ℕ)
  | [] => pure []
  | order :: rest => do
      if order = 0 then liveRequoteOrders account rest
      else
        let live ← checkOrderStatus account
        let orders ← liveRequoteOrders account rest
        return if live then order :: orders else orders

/-- Change the price of the requote orders one after the other. -/
def changeRequoteOrders (account : Option OrderAccountType) (price : ℕ → ℚ) :
    List ℕ → ℕ → CaseM (List ℕ)
  | [], _ => pure []
  | order :: rest, i => do
      let newOrder ← changeOrder account order (price i) 0
      if newOrder ≠ 0 ∨ newOrder ≠ order then
        let orders ← changeRequoteOrders account price rest (i + 1)
        return newOrder :: orders
      else
        let orders ← changeRequoteOrders account price rest i
        return 0 :: orders

/-- The new requote price, if the quote moved the trigger's way. -/
def movedRequotePrice (inst : TradeInstance) (case : TradeCase) : Option ℚ :=
  if inst.triggerState = .positive ∧ inst.bidPrice > case.requotePrice ∧
      inst.config.instrumentSkew > 0 then some inst.bidPrice
  else if inst.triggerState = .negative ∧ inst.askPrice < case.requotePrice ∧
      inst.config.instrumentSkew < 0 then some inst.askPrice
  else none

/-- When the account is hedged, the requote orders are sent, sent anew once none
is live, or moved with the market. -/
def updateRequoteOrders (case : TradeCase) : CaseM Unit := do
  let inst ← getInst
  if inst.position case.currentAcc ≠ inst.position case.oppositeAcc then return
  else if case.requoteOrders = [] then
    cancelAll case.currentAcc
    sendRequoteOrders case
  else
    let live ← liveRequoteOrders case.currentAcc case.requoteOrders
    modifyCase fun case => { case with requoteOrders := live }
    if live = [] then
      cancelAll case.currentAcc
      sendRequoteOrders case
    else
      match movedRequotePrice (← getInst) case with
      | none => return
      | some requotePrice =>
          modifyCase fun case => { case with requotePrice }
          let orders ← changeRequoteOrders case.currentAcc
            (fun i => requotePrice + i * inst.config.mpvValue * case.sign) live 0
          modifyCase fun case => { case with requoteOrders := orders }

/-- `TradeCase::reprice`. -/
def repriceRequote (case : TradeCase) : CaseM Unit := do
  let inst ← getInst
  whenever
    (inst.position case.currentAcc = inst.position case.oppositeAcc ∧ case.requoteOrderFlag)
    (updateRequoteOrders case)
  sendPendingOrders case.currentAcc

/-! ## Panic close and soft close -/

/-- The trigger of closing the larger account. -/
def selectTrigger (inst : TradeInstance) : TriggerState :=
  let short := inst.position (some .short)
  let long := inst.position (some .long)
  if short > long then .positive else if short < long then .negative else inst.triggerState

/-- The current and the opposite account of closing the larger one, which is
the opposite. -/
def selectRoles (inst : TradeInstance) (case : TradeCase) :
    Option OrderAccountType × Option OrderAccountType :=
  let short := inst.position (some .short)
  let long := inst.position (some .long)
  if short > long then (some .long, some .short)
  else if short < long then (some .short, some .long)
  else (case.currentAcc, case.oppositeAcc)

/-- The trigger that the positions ask for. -/
def setTrigger : CaseM Unit :=
  modifyInst fun inst => { inst with triggerState := selectTrigger inst }

/-- The market price that closes the larger account. -/
def marketPrice (inst : TradeInstance) : TriggerState → ℚ
  | .positive => inst.askPrice
  | .negative => inst.bidPrice
  | .init => 0

namespace PanicClose

/-- The imbalance is closed at the market, unless there is none. -/
def init (case : TradeCase) : CaseM Unit := do
  let inst ← getInst
  if inst.position (some .short) = inst.position (some .long) then setState .done
  else
    setTrigger
    let roles := selectRoles inst case
    let sendPrice := marketPrice inst (selectTrigger inst)
    let closeSize := word32 (inst.position roles.2 - inst.position roles.1)
    modifyCase fun case =>
      { case with currentAcc := roles.1, oppositeAcc := roles.2, sendPrice, closeSize }
    let mainOrderId ← closeOrder roles.2 sendPrice closeSize
    modifyCase fun case => { case with mainOrderId }
    setState (if mainOrderId = 0 then .failed else .priceChange)

/-- The close follows the market, until the positions are equal. -/
def reprice (case : TradeCase) : CaseM Unit := do
  let inst ← getInst
  if inst.position case.oppositeAcc = inst.position case.currentAcc then setState .done
  else
    let newPrice := marketPrice inst inst.triggerState
    if newPrice = case.sendPrice then return
    else
      let newOrderId ← changeOrder case.oppositeAcc case.mainOrderId newPrice 0
      if newOrderId = 0 ∨ newOrderId = case.mainOrderId then setState .wait
      else modifyCase fun case => { case with mainOrderId := newOrderId, sendPrice := newPrice }

end PanicClose

/-- `wait` of the panic close, soft close and hedge cases. -/
def waitEqual (case : TradeCase) : CaseM Unit := do
  let inst ← getInst
  whenever (inst.position case.currentAcc = inst.position case.oppositeAcc) (setState .done)

namespace SoftClose

/-- Unlike a panic close this does not return when the positions are equal,
and a failed order is waited for like any other.  The account pointers, null
before the first trigger when the positions are equal, are tested only after
they have been used. -/
def init (case : TradeCase) : CaseM Unit := do
  let inst ← getInst
  whenever (inst.position (some .short) = inst.position (some .long)) (setState .done)
  setTrigger
  let roles := selectRoles inst case
  if roles.1 = none ∨ roles.2 = none then crash
  else
    let closeSize := word32 (inst.position roles.2 - inst.position roles.1)
    modifyCase fun case => { case with currentAcc := roles.1, oppositeAcc := roles.2, closeSize }
    let inst ← getInst
    let sendPrice := inst.closePrice closeSize 0
    modifyCase fun case => { case with sendPrice }
    if inst.oppositePnl roles.2 sendPrice < 0 then return
    else
      let mainOrderId ← closeOrder roles.2 sendPrice closeSize
      modifyCase fun case => { case with mainOrderId }
      setState .priceChange

/-- The close follows its price while that shows no loss, until the positions are
equal. -/
def reprice (case : TradeCase) : CaseM Unit := do
  let inst ← getInst
  if inst.position case.oppositeAcc = inst.position case.currentAcc then setState .done
  else
    let newPrice := inst.closePrice case.closeSize 0
    if case.sendPrice = newPrice ∨ inst.oppositePnl case.oppositeAcc newPrice < 0 then return
    else
      let newOrderId ← changeOrder case.oppositeAcc case.mainOrderId newPrice 0
      whenever (newOrderId = 0 ∨ newOrderId = case.mainOrderId) (setState .wait)
      modifyCase fun case => { case with mainOrderId := newOrderId, sendPrice := newPrice }

end SoftClose

/-! ## Case 4 -/

namespace TradeCase4

/-- Half of the price range of a full position, in the steps of the source. -/
def threshold (config : Config) : ℚ :=
  let threshold : ℚ := config.maxPos * config.mpvValue / config.baseQty / 2
  if threshold < 1 / 100 then 0
  else if threshold > 25 / 1000 then 3 / 100
  else if threshold > 15 / 1000 then 2 / 100
  else threshold

/-- The orders for the rounds after the first. -/
def openRounds (account : Option OrderAccountType) (price : ℕ → ℚ) :
    List ShareRound → ℕ → CaseM Unit
  | [], _ => pure ()
  | round :: rest, counter => do
      let _ ← openOrder account (price counter) (word32 round.position)
      openRounds account price rest (counter + 1)

/-- The first round is opened at the market, and the others at prices away from
it. -/
def init (case : TradeCase) : CaseM Unit := do
  let inst ← getInst
  let threshold := threshold inst.config
  let positive := inst.triggerState = .positive
  let thresholdLimit := if positive then inst.bidPrice - threshold else inst.askPrice + threshold
  let factor := if positive then -inst.config.mpvValue else inst.config.mpvValue
  match inst.config.shareRounds with
  | [] => setState .failed
  | first :: rest =>
      let firstOrderSize := word32 first.position
      let firstOrderPrice := inst.openPrice firstOrderSize 0
      modifyCase fun case =>
        { case with threshold, thresholdLimit, firstOrderSize, firstOrderPrice }
      let firstOrder ← openOrder case.currentAcc firstOrderPrice firstOrderSize
      modifyCase fun case => { case with firstOrder }
      openRounds case.currentAcc (fun counter => thresholdLimit + factor * counter) rest 0
      setState .priceChange

/-- The id is kept even when the order is found to be done. -/
def reprice (case : TradeCase) : CaseM Unit := do
  repriceRequote case
  if case.firstOrder = 0 then return
  else
    let newPrice := (← getInst).openPrice case.firstOrderSize 0
    if case.firstOrderPrice = newPrice then return
    else
      let newOrder ← changeOrder case.currentAcc case.firstOrder newPrice 0
      modifyCase fun case => { case with firstOrder := newOrder, firstOrderPrice := newPrice }

/-- The case is done when the position is full. -/
def wait (case : TradeCase) : CaseM Unit := do
  let inst ← getInst
  whenever (inst.position case.currentAcc ≥ inst.config.maxPos) (setState .done)

end TradeCase4

/-! ## Hedging the current account -/

namespace HedgeCurrent

/-- The current account is opened up to the opposite one. -/
def init (case : TradeCase) : CaseM Unit := do
  let inst ← getInst
  let hoSize := word32 (inst.position case.oppositeAcc - inst.position case.currentAcc)
  let sendPrice := inst.sendPrice hoSize
  modifyCase fun case => { case with hoSize, sendPrice }
  if hoSize > 0 ∧ sendPrice > 0 then
    let mainOrderId ← openOrder case.currentAcc sendPrice hoSize
    modifyCase fun case => { case with mainOrderId }
    setState .priceChange
  else setState .failed

/-- An equal position does not end the method, so it may still change the
order. -/
def reprice (case : TradeCase) : CaseM Unit := do
  waitEqual case
  let newPrice := (← getInst).openPrice case.hoSize case.sendPrice
  if newPrice = case.sendPrice then return
  else
    let newOrder ← changeOrder case.currentAcc case.mainOrderId newPrice 0
    if newOrder = 0 ∨ newOrder = case.mainOrderId then setState .wait
    else modifyCase fun case => { case with mainOrderId := newOrder, sendPrice := newPrice }

end HedgeCurrent

/-! ## Case 9 -/

namespace TradeCase9

/-- The size to close with profit, in shares. -/
def closeSize (inst : TradeInstance) (case : TradeCase) (price : ℚ) : ℕ :=
  match case.currentAcc with
  | none => 0
  | some side => sizeofCloseOrderWithPNL (inst.accounts.get side) price

/-- What closes with a profit is closed. -/
def init (case : TradeCase) : CaseM Unit := do
  let inst ← getInst
  let sendPrice := inst.closePrice (word32 (inst.position case.currentAcc)) 0
  modifyCase fun case => { case with sendPrice }
  if sendPrice ≤ 0 then setState .failed
  else
    let closeSize := closeSize inst case sendPrice
    modifyCase fun case => { case with closeSize }
    if closeSize = 0 then setState .failed
    else
      let mainOrderId ← closeOrder case.currentAcc sendPrice closeSize
      modifyCase fun case => { case with mainOrderId }
      setState (if mainOrderId = 0 then .failed else .priceChange)

/-- The close follows its price, with the size that has a profit there. -/
def reprice (case : TradeCase) : CaseM Unit := do
  let inst ← getInst
  if inst.position case.currentAcc = 0 then setState .done
  else
    let newPrice := inst.closePrice (word32 (inst.position case.currentAcc)) 0
    if newPrice ≤ 0 ∨ newPrice = case.sendPrice then return
    else
      let newSize := closeSize inst case newPrice
      if newSize = 0 then return
      else
        let newOrder ← changeOrder case.currentAcc case.mainOrderId newPrice newSize
        if newOrder = 0 ∨ newOrder = case.mainOrderId then setState .wait
        else
          modifyCase fun case =>
            { case with mainOrderId := newOrder, sendPrice := newPrice, closeSize := newSize }

/-- The case is done when the current account is empty. -/
def wait (case : TradeCase) : CaseM Unit := do
  let inst ← getInst
  whenever (inst.position case.currentAcc = 0) (setState .done)

end TradeCase9

/-! ## Case 10 -/

namespace TradeCase10

/-- The price to close at, to two decimals. -/
def closeAt (inst : TradeInstance) (account : Option OrderAccountType) : ℚ :=
  if account = some .long then truncate (inst.bar0.openPrice + inst.estimationError) 2
  else truncate (inst.bar0.openPrice - inst.estimationError) 2

/-- The account to close: the instance's current one if it is the larger, unless
the opposite one is empty already. -/
def selectAccount (inst : TradeInstance) (case : TradeCase) : Option OrderAccountType :=
  let current := inst.position case.currentAcc
  let opposite := inst.position case.oppositeAcc
  if current > 0 ∧ opposite = 0 then case.accountToClose
  else if current > opposite then inst.currentAcc
  else case.accountToClose

/-- Whatever the state was set to before, the order decides it. -/
def init (case : TradeCase) : CaseM Unit := do
  let inst ← getInst
  let accountToClose := selectAccount inst case
  let originalSize := word32 (inst.position accountToClose)
  let closeSize := min inst.config.baseQty originalSize
  let error := inst.estimationError
  let sendPrice := closeAt inst accountToClose
  modifyCase fun case => { case with accountToClose, originalSize, closeSize, error, sendPrice }
  let mainOrderId ← closeOrder accountToClose sendPrice closeSize
  modifyCase fun case => { case with mainOrderId }
  setState (if mainOrderId = 0 then .failed else .priceChange)

/-- The close follows its price. -/
def reprice (case : TradeCase) : CaseM Unit := do
  let inst ← getInst
  modifyCase fun case => { case with error := inst.estimationError }
  let newPrice := closeAt inst case.accountToClose
  if newPrice = case.sendPrice then return
  else
    let newOrderId ← changeOrder case.accountToClose case.mainOrderId newPrice 0
    if newOrderId = case.mainOrderId ∨ newOrderId = 0 then setState .wait
    else modifyCase fun case => { case with sendPrice := newPrice, mainOrderId := newOrderId }

/-- The case is done when only the current account is open; it starts again when
the close is filled. -/
def wait (case : TradeCase) : CaseM Unit := do
  let inst ← getInst
  if inst.position case.currentAcc > 0 ∧ inst.position case.oppositeAcc = 0 then setState .done
  else
    whenever (inst.position case.accountToClose ≤ word32 (case.originalSize - case.closeSize))
      (init case)

end TradeCase10

/-! ## Running a case -/

/-- The `init` of the case's class. -/
def TradeCase.init (case : TradeCase) : CaseM Unit :=
  match case.type with
  | .none => pure ()
  | .case4 => TradeCase4.init case
  | .hedgeCurrent => HedgeCurrent.init case
  | .case9 => TradeCase9.init case
  | .case10 => TradeCase10.init case
  | .panicClose => PanicClose.init case
  | .softClose => SoftClose.init case

/-- The `reprice` of the case's class. -/
def TradeCase.reprice (case : TradeCase) : CaseM Unit :=
  match case.type with
  | .none => pure ()
  | .case4 => TradeCase4.reprice case
  | .hedgeCurrent => HedgeCurrent.reprice case
  | .case9 => TradeCase9.reprice case
  | .case10 => TradeCase10.reprice case
  | .panicClose => PanicClose.reprice case
  | .softClose => SoftClose.reprice case

/-- The `wait` of the case's class. -/
def TradeCase.wait (case : TradeCase) : CaseM Unit :=
  match case.type with
  | .none => pure ()
  | .case4 => TradeCase4.wait case
  | .hedgeCurrent => waitEqual case
  | .case9 => TradeCase9.wait case
  | .case10 => TradeCase10.wait case
  | .panicClose => waitEqual case
  | .softClose => waitEqual case

/-- `TradeCase::run`; the `done` and `failed` methods do nothing. -/
def TradeCase.run (case : TradeCase) : CaseM Unit :=
  match case.state with
  | .init => case.init
  | .priceChange => case.reprice
  | .wait => case.wait
  | .done | .failed | .notSelected => pure ()

end TradingApp.Instance

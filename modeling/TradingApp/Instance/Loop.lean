import TradingApp.Instance.Cases
import TradingApp.Transition.Run

/-!
# The main loop of a trade instance

Construction of an instance, the selection of a case, and the pass of
`triggerProcessing` that runs it and writes both positions back to the store.
A system of one instance and its environment takes one step for each pass,
each command and each callback that arrives between passes.

The entries a pass writes for the case and for the lots have keys of their own
and are read by nobody; they are left out, but for the null pointer that the
entry of the case may use.
-/

namespace TradingApp.Instance

open TradingApp.Account TradingApp.Decimal TradingApp.Machine TradingApp.Redis
  TradingApp.Transition

/-- The members that the source leaves uninitialized. -/
structure Uninitialized where
  lastOpenPrice : OrderAccountType → ℚ
  waitForNextTimeWindowAvicenna : ℚ
  bar0 : Bar
  bar1 : Bar

/-- The constructor. -/
def TradeInstance.construct (config : Config) (uninitialized : Uninitialized)
    (writer : RedisWriter) : Option TradeInstance :=
  (restoreAccounts config uninitialized.lastOpenPrice writer).map fun (accounts, redisWriter) =>
    { config, accounts, redisWriter
      currentAcc := none
      oppositeAcc := none
      tradeCase := none
      previousCase := .none
      lastState := .notSelected
      triggerState := .init
      avicennaTriggerState := .init
      prevTriggerState := .init
      askSize := 0
      askPrice := 0
      bidSize := 0
      bidPrice := 0
      priceEstimate := 0
      priceEstimatePrev := 0
      avicennaToggle := true
      tradePrice := 0
      priceEstimateOnTrigger := 0
      referencePrice := 0
      state := .none
      isEnable := true
      isPanicClose := false
      panicCloseInit := false
      isSoftClose := false
      softCloseInit := false
      waitForNextTimeWindow := false
      waitForNextTimeWindowAvicenna := uninitialized.waitForNextTimeWindowAvicenna
      bar0 := uninitialized.bar0
      bar1 := uninitialized.bar1
      isNotDone := false
      crashed := false }

/-- A new instance has its settings, and what was restored of each account. -/
theorem construct_books {config : Config} {uninitialized : Uninitialized} {writer : RedisWriter}
    {inst : TradeInstance}
    (constructs : TradeInstance.construct config uninitialized writer = some inst) :
    inst.config = config ∧ ∀ side,
      SameBook (newAccount config (uninitialized.lastOpenPrice side) side)
        (inst.accounts.get side) := by
  obtain ⟨⟨accounts, after⟩, restores, rfl⟩ := Option.map_eq_some_iff.mp constructs
  exact ⟨rfl, restoreAccounts_get restores⟩

/-- Zeros for what is left uninitialized. -/
def Uninitialized.zero : Uninitialized where
  lastOpenPrice _ := 0
  waitForNextTimeWindowAvicenna := 0
  bar0 := { openPrice := 0, closePrice := 0 }
  bar1 := { openPrice := 0, closePrice := 0 }

/-! ## Replacing the case -/

/-- The destructor of a case, that of its class before that of the base. -/
def TradeCase.destroy (case : TradeCase) : CaseM Unit := do
  let inst ← getInst
  whenever
    (case.type = .hedgeCurrent ∧ inst.position case.currentAcc = inst.position case.oppositeAcc) <|
    modifyPointed case.currentAcc fun account =>
      repackagePositionTable account inst.config.baseQty inst.config.mpvValue 0
  whenever (inst.config.cancelOnTrigger = true) do
    cancelAll (some .long)
    cancelAll (some .short)
  modifyPointed case.currentAcc deleteCompletePositions
  modifyPointed case.oppositeAcc deleteCompletePositions
  modifyInst fun inst =>
    if inst.position case.currentAcc = inst.position case.oppositeAcc then
      { inst with
        waitForNextTimeWindow := true
        waitForNextTimeWindowAvicenna := inst.priceEstimate }
    else inst

/-- The pointer is set before the old case is destroyed. -/
def replaceCase (tradeCase : Option TradeCase) : CaseM Unit := do
  let inst ← getInst
  modifyInst fun inst => { inst with tradeCase }
  match inst.tradeCase with
  | none => return
  | some old => old.destroy

/-! ## Selection -/

/-- What the market shows at the start of a pass. -/
structure Quote where
  askSize : ℕ
  askPrice : ℚ
  bidSize : ℕ
  bidPrice : ℚ
  priceEstimate1 : ℚ
  priceEstimate2 : ℚ
  bar0 : Bar
  bar1 : Bar
deriving DecidableEq, Repr

/-- A quote one cent wide around an estimate, with 1000 shares on each side. -/
def Quote.around (estimate : ℚ) : Quote where
  askSize := 1000
  askPrice := estimate + 1 / 200
  bidSize := 1000
  bidPrice := estimate - 1 / 200
  priceEstimate1 := estimate
  priceEstimate2 := estimate
  bar0 := { openPrice := estimate, closePrice := estimate }
  bar1 := { openPrice := estimate, closePrice := estimate }

namespace TradeInstance

/-- The quote, the bars and one of the two estimates are taken over. -/
def readSymbolData (inst : TradeInstance) (quote : Quote) : TradeInstance :=
  { inst with
    askSize := quote.askSize
    askPrice := quote.askPrice
    bidSize := quote.bidSize
    bidPrice := quote.bidPrice
    bar0 := quote.bar0
    bar1 := quote.bar1
    priceEstimate := if inst.avicennaToggle then quote.priceEstimate1 else quote.priceEstimate2 }

/-- A panic close is to be started, also if one is held. -/
def enablePanicClose (inst : TradeInstance) : TradeInstance :=
  { inst with isPanicClose := true, panicCloseInit := true, state := .panicClose }

/-- Panic mode is left; a panic close that is held stays. -/
def disablePanicClose (inst : TradeInstance) : TradeInstance :=
  { inst with isPanicClose := false, panicCloseInit := false }

/-- A soft close is to be started, also if one is held. -/
def enableSoftClose (inst : TradeInstance) : TradeInstance :=
  { inst with isSoftClose := true, softCloseInit := true, state := .softClose }

/-- Soft close mode is left; a soft close that is held stays. -/
def disableSoftClose (inst : TradeInstance) : TradeInstance :=
  { inst with isSoftClose := false, softCloseInit := false }

/-- More live orders than allowed on one of the accounts, compared unsigned. -/
def LiveLimitExceeded (inst : TradeInstance) : Prop :=
  word32 (inst.accounts.get .short).getTotalLiveOrderCount > inst.config.maximumLive ∨
    word32 (inst.accounts.get .long).getTotalLiveOrderCount > inst.config.maximumLive

instance (inst : TradeInstance) : Decidable inst.LiveLimitExceeded :=
  inferInstanceAs (Decidable (_ ∨ _))

/-- Too many live orders enable a panic close, in every pass that finds them. -/
def selfDestruct (inst : TradeInstance) : TradeInstance :=
  if inst.LiveLimitExceeded then inst.enablePanicClose else inst

/-- The case for the positions, and whether it ends a wait for the next time
window. -/
def selectCase (inst : TradeInstance) : CaseType × Bool :=
  let currPos := inst.position inst.currentAcc
  let oppoPos := inst.position inst.oppositeAcc
  if 0 = oppoPos ∧ 0 = currPos then (.case4, false)
  else if currPos > 0 ∧ oppoPos = 0 then (.case9, false)
  else if currPos = oppoPos ∧ inst.waitForNextTimeWindow ∧
      inst.waitForNextTimeWindowAvicenna ≠ inst.priceEstimate then (.case10, true)
  else if currPos < oppoPos then (.hedgeCurrent, false)
  else (.none, false)

/-- The trigger of the avicenna estimate against the quote. -/
def nextAvicennaTrigger (inst : TradeInstance) : TriggerState :=
  match inst.avicennaTriggerState with
  | .init =>
      if inst.bidPrice > inst.priceEstimate then .positive
      else if inst.askPrice < inst.priceEstimate then .negative
      else .init
  | .positive => if inst.askPrice ≤ inst.priceEstimate then .negative else .positive
  | .negative => if inst.bidPrice ≥ inst.priceEstimate then .positive else .negative

/-- The trigger of the estimate's direction. -/
def nextTrigger (inst : TradeInstance) : TriggerState :=
  if inst.priceEstimate > inst.priceEstimatePrev then .positive
  else if inst.priceEstimate < inst.priceEstimatePrev then .negative
  else inst.triggerState

/-- The part of trigger selection before it looks for a change. -/
def updateTrigger (inst : TradeInstance) : TradeInstance :=
  { inst with
    avicennaTriggerState := inst.nextAvicennaTrigger
    triggerState := inst.nextTrigger
    priceEstimatePrev := inst.priceEstimate
    tradePrice :=
      match inst.nextTrigger with
      | .positive => inst.askPrice
      | .negative => inst.bidPrice
      | .init => 0 }

/-- The accounts take the roles of a changed trigger. -/
def changeTrigger (inst : TradeInstance) : TradeInstance :=
  let positive := inst.triggerState = .positive
  { inst with
    prevTriggerState := inst.triggerState
    state := .init
    priceEstimateOnTrigger := inst.priceEstimate
    previousCase := .none
    currentAcc := if positive then some .long else some .short
    oppositeAcc := if positive then some .short else some .long
    referencePrice := if positive then inst.bidPrice else inst.askPrice }

end TradeInstance

/-- With both accounts chosen, the held case is replaced by the one that is
selected. -/
def caseSelection : CaseM Unit := do
  let inst ← getInst
  if inst.currentAcc = none ∨ inst.oppositeAcc = none then return
  else
    modifyInst fun inst =>
      { inst with waitForNextTimeWindow := inst.waitForNextTimeWindow && !inst.selectCase.2 }
    replaceCase (TradeCaseFactory.create inst inst.selectCase.1)

/-- A trigger that changes chooses the accounts and selects a case. -/
def triggerSelection : CaseM Unit := do
  modifyInst TradeInstance.updateTrigger
  let inst ← getInst
  whenever (inst.prevTriggerState ≠ inst.triggerState ∧ inst.triggerState ≠ .init) do
    modifyInst TradeInstance.changeTrigger
    caseSelection

/-- Whether a panic or soft close is to run, irrespective of the trigger. -/
def specialCases : CaseM Bool := do
  modifyInst TradeInstance.selfDestruct
  let inst ← getInst
  if inst.isPanicClose then
    whenever (inst.panicCloseInit = true) do
      modifyInst fun inst => { inst with panicCloseInit := false }
      replaceCase (TradeCaseFactory.create inst .panicClose)
    return true
  else if inst.isSoftClose then
    whenever (inst.softCloseInit = true) do
      modifyInst fun inst => { inst with softCloseInit := false }
      replaceCase (TradeCaseFactory.create inst .softClose)
    return true
  else
    whenever (inst.currentAcc ≠ none ∧ inst.oppositeAcc ≠ none ∧ inst.tradeCase = none)
      caseSelection
    return false

/-- Everything up to the point where the held case is run. -/
def selection : CaseM Bool := do
  modifyInst fun inst => { inst with tradePrice := inst.priceEstimate }
  let special ← specialCases
  if special then return true
  else
    triggerSelection
    return false

/-! ## A pass -/

/-- A finished panic or soft close ends the thread, any other finished or
failed case is dropped. -/
def finishCase : CaseM Unit := do
  let inst ← getInst
  match inst.tradeCase with
  | none => return
  | some case =>
      if case.type = .panicClose ∨ case.type = .softClose then
        whenever (case.state = .done) (modifyInst fun inst => { inst with isNotDone := true })
      else
        whenever (case.state = .done ∨ inst.lastState = .failed) do
          modifyInst fun inst => { inst with previousCase := case.type }
          replaceCase none

/-- The held case is run, and what follows depends on its state. -/
def runCase : CaseM Unit := do
  match (← getInst).tradeCase with
  | none => return
  | some case =>
      case.run
      unlessCrashed do
        modifyInst fun inst =>
          { inst with lastState := (inst.tradeCase.map TradeCase.state).getD inst.lastState }
        finishCase

/-- The quantity an account's position is written with. -/
def writtenQuantity (account : TradeAccount) : ℤ :=
  signedQuantity account.accountType account.total

/-- The write-back of one account; the short one swaps the live counts. -/
def writePosition (account : TradeAccount) (writer : RedisWriter) : RedisWriter :=
  let live :=
    match account.accountType with
    | .long => (account.totalOpen, account.totalClose)
    | .short => (account.totalClose, account.totalOpen)
  writer.writeToRedis account.accountName account.symbol
    (intText (writtenQuantity account))
    (doubleText account.getAverage)
    (natText account.rif)
    (doubleText account.pif)
    (intText live.1)
    (intText live.2)
    (intText account.totalExecuted)

/-- The long position is written first. -/
def writePositions (inst : TradeInstance) : TradeInstance :=
  { inst with
    redisWriter :=
      writePosition inst.accounts.shortAcc
        (writePosition inst.accounts.longAcc inst.redisWriter) }

/-- The entry of the held case is written under the symbol of the current account,
which is a null pointer until a trigger is chosen. -/
def writeHeldCase (inst : TradeInstance) : TradeInstance :=
  { inst with crashed := decide (inst.tradeCase ≠ none ∧ inst.currentAcc = none) }

/-- The end of a pass, unless the program has ended in it. -/
def writeBack (inst : TradeInstance) : TradeInstance :=
  if inst.crashed then inst else writeHeldCase (writePositions inst)

/-- Apart from the store, only the crash is noted. -/
theorem writeBack_eq (inst : TradeInstance) :
    ∃ redisWriter crashed, writeBack inst = { inst with redisWriter, crashed } := by
  unfold writeBack
  split
  · exact ⟨inst.redisWriter, inst.crashed, rfl⟩
  · exact ⟨_, _, rfl⟩

@[simp]
theorem writeBack_accounts (inst : TradeInstance) : (writeBack inst).accounts = inst.accounts := by
  obtain ⟨_, _, same⟩ := writeBack_eq inst
  rw [same]

@[simp]
theorem writeBack_tradeCase (inst : TradeInstance) :
    (writeBack inst).tradeCase = inst.tradeCase := by
  obtain ⟨_, _, same⟩ := writeBack_eq inst
  rw [same]

/-- One pass of `triggerProcessing`. -/
def pass (quote : Quote) : CaseM Unit := do
  modifyInst fun inst => inst.readSymbolData quote
  if (← getInst).priceEstimate ≤ 0 then return
  else
    let _ ← selection
    runCase
    modifyInst writeBack

/-! ## Steps -/

/-- What can happen to an instance. -/
inductive Label where
  | pass (quote : Quote) (replies : List Reply)
  | callback (callback : Callback)
  | enablePanicClose
  | disablePanicClose
  | enableSoftClose
  | disableSoftClose
  | resume
  | pause
  | avicennaToggle
  | stopAction (replies : List Reply)
deriving DecidableEq, Repr

namespace Context

/-- Run a computation with fresh replies. -/
def exec (context : Context) (replies : List Reply) (m : CaseM Unit) : Context :=
  (m.run { context with replies }).2

/-- The context at the start of a pass, after the quote is read. -/
def quoted (context : Context) (quote : Quote) (replies : List Reply) : Context :=
  { context with inst := context.inst.readSymbolData quote, replies }

/-- The trading thread makes passes. -/
def Running (context : Context) : Prop :=
  context.inst.isEnable = true ∧ context.inst.isNotDone = false ∧ context.inst.crashed = false

instance (context : Context) : Decidable context.Running :=
  inferInstanceAs (Decidable (_ ∧ _))

/-- What happens while the program runs. -/
def act (context : Context) : Label → Context
  | .pass quote replies =>
      if context.Running then context.exec replies (pass quote) else context
  | .callback callback => context.onCallback callback
  | .enablePanicClose => context.mapInst .enablePanicClose
  | .disablePanicClose => context.mapInst .disablePanicClose
  | .enableSoftClose => context.mapInst .enableSoftClose
  | .disableSoftClose => context.mapInst .disableSoftClose
  | .resume => context.mapInst fun inst => { inst with isEnable := true }
  | .pause => context.mapInst fun inst => { inst with isEnable := false }
  | .avicennaToggle =>
      context.mapInst fun inst => { inst with avicennaToggle := !inst.avicennaToggle }
  | .stopAction replies =>
      context.exec replies do
        cancelAll (some .short)
        cancelAll (some .long)
        modifyInst fun inst => { inst with isEnable := false }

/-- What the cancellations and the switch keep, a stop keeps. -/
theorem act_stopAction {R : Context → Context → Prop} [IsTrans Context R]
    (cancels : ∀ account, Keeps R (cancelAll account))
    (disables : Keeps R (modifyInst fun inst => { inst with isEnable := false }))
    (context : Context) (replies : List Reply) :
    R { context with replies } (context.act (.stopAction replies)) :=
  ((cancels _).bind fun _ => (cancels _).bind fun _ => disables) _

/-- A crash is the last thing that happens. -/
def step (context : Context) (label : Label) : Context :=
  if context.inst.crashed then context else context.act label

theorem step_of_crashed {context : Context} (crashed : context.inst.crashed = true)
    (label : Label) : context.step label = context :=
  if_pos crashed

theorem step_of_alive {context : Context} (alive : context.inst.crashed = false)
    (label : Label) : context.step label = context.act label :=
  if_neg (ne_true_of_eq_false alive)

/-- What holds of a context that does not change and of one that acts holds after a step. -/
theorem step_cases {P : Context → Prop} {context : Context} {label : Label}
    (crashed : context.inst.crashed = true → P context)
    (alive : context.inst.crashed = false → P (context.act label)) : P (context.step label) := by
  cases isCrashed : context.inst.crashed with
  | true => exact (step_of_crashed isCrashed label).symm ▸ crashed isCrashed
  | false => exact (step_of_alive isCrashed label).symm ▸ alive isCrashed

theorem crashed_step {context : Context} (crashed : context.inst.crashed = true) (label : Label) :
    (context.step label).inst.crashed = true := by
  rw [step_of_crashed crashed]
  exact crashed

theorem alive_of_step {context : Context} {label : Label}
    (alive : (context.step label).inst.crashed = false) : context.inst.crashed = false :=
  Bool.eq_false_iff.mpr fun crashed =>
    Bool.false_ne_true (alive.symm.trans (crashed_step crashed label))

/-- A run that has not ended in a crash had none before. -/
theorem alive_of_append {context : Context} {before after : List Label}
    (alive : (run step context (before ++ after)).inst.crashed = false) :
    (run step context before).inst.crashed = false := by
  induction after using List.reverseRecOn with
  | nil => rwa [List.append_nil] at alive
  | append_singleton after label ih =>
      rw [← List.append_assoc, run_append, run_cons, run_nil] at alive
      exact ih (alive_of_step alive)

theorem run_act_of_alive {context : Context} {labels : List Label}
    (alive : (run step context labels).inst.crashed = false) :
    run step context labels = run act context labels := by
  induction labels using List.reverseRecOn with
  | nil => rfl
  | append_singleton labels label ih =>
      have before := alive_of_append alive
      rw [run_append, run_append, run_cons, run_cons, run_nil, run_nil, ← ih before,
        step_of_alive before]

/-- A pass is not made after a crash. -/
theorem act_pass (context : Context) (quote : Quote) (replies : List Reply) :
    context.act (.pass quote replies) = context.step (.pass quote replies) := by
  refine (step_cases (P := (context.act (.pass quote replies) = ·)) (fun crashed => ?_)
    fun _ => rfl)
  exact if_neg fun running => Bool.false_ne_true (running.2.2.symm.trans crashed)

/-- Without passes there is nothing to be done. -/
theorem step_pass_of_not {context : Context} (notRunning : ¬ context.Running) {quote : Quote}
    {replies : List Reply} : context.step (.pass quote replies) = context :=
  (act_pass context quote replies).symm.trans (if_neg notRunning)

/-- A pass on a positive estimate selects, runs and writes back. -/
theorem step_pass {context : Context} {quote : Quote} {replies : List Reply}
    (running : context.Running) (positive : 0 < (context.quoted quote replies).inst.priceEstimate) :
    context.step (.pass quote replies) =
      ((selection >>= fun _ => runCase >>= fun _ => modifyInst writeBack).run
        (context.quoted quote replies)).2 := by
  have skips : ¬ ({ context with replies }.mapInst fun inst =>
      inst.readSymbolData quote).inst.priceEstimate ≤ 0 :=
    not_le.mpr positive
  rw [step_of_alive running.2.2, act, if_pos running, exec, pass, run_modifyInst_bind,
    run_getInst_bind, if_neg skips]
  rfl

/-- Any other pass only reads the quote, if it does that. -/
theorem step_pass_idle {context : Context} {quote : Quote} {replies : List Reply}
    (idle : ¬ (context.Running ∧ 0 < (context.quoted quote replies).inst.priceEstimate)) :
    context.step (.pass quote replies) = context ∨
      context.step (.pass quote replies) = context.quoted quote replies := by
  by_cases running : context.Running
  · have skips : ({ context with replies }.mapInst fun inst =>
        inst.readSymbolData quote).inst.priceEstimate ≤ 0 :=
      not_lt.mp fun positive => idle ⟨running, positive⟩
    rw [step_of_alive running.2.2, act, if_pos running, exec, pass, run_modifyInst_bind,
      run_getInst_bind, if_pos skips]
    exact Or.inr rfl
  · exact Or.inl (step_pass_of_not running)

/-- What holds with and without the quote read holds after such a pass. -/
theorem step_pass_skipped {P : Context → Prop} {context : Context} {quote : Quote}
    {replies : List Reply}
    (idle : ¬ (context.Running ∧ 0 < (context.quoted quote replies).inst.priceEstimate))
    (before : P context) (read : P (context.quoted quote replies)) :
    P (context.step (.pass quote replies)) := by
  rcases step_pass_idle idle with same | same
  · rw [same]
    exact before
  · rw [same]
    exact read

end Context

end TradingApp.Instance

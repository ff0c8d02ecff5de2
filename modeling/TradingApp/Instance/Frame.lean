import TradingApp.Instance.Loop

/-!
# What the cases and the loop leave alone

Every case works through the same few calls: it waits for replies, logs what
it sent, counts on its accounts and sets fields of its own.  A relation that
these calls keep is kept by every case; the two closing cases also choose the
trigger and their own roles.  A relation that also looks at nothing but the
accounts, the replies and the log is kept by all of a pass before it writes
the positions back.
-/

namespace TradingApp.Instance

open TradingApp.Account TradingApp.Transition

/-- What a case takes from the instance that creates it. -/
structure Identity where
  type : CaseType
  currentAcc : Option OrderAccountType
  oppositeAcc : Option OrderAccountType
  sign : ℤ
deriving DecidableEq, Repr

/-- What of a case never changes. -/
def TradeCase.identity (case : TradeCase) : Identity where
  type := case.type
  currentAcc := case.currentAcc
  oppositeAcc := case.oppositeAcc
  sign := case.sign

/-- A case without its requote orders. -/
def TradeCase.withoutRequotes (case : TradeCase) : TradeCase :=
  { case with requotePrice := 0, requoteOrderFlag := false, requoteOrders := [] }

/-- The identity of a case is not in its requote orders. -/
theorem identity_of_withoutRequotes {case other : TradeCase}
    (same : other.withoutRequotes = case.withoutRequotes) : other.identity = case.identity := by
  have kept := congrArg TradeCase.identity same
  exact kept

/-- A callback changes the accounts, and of the held case no more than its
requote flag. -/
theorem onCallback_withoutRequotes (inst : TradeInstance) (callback : Callback) :
    ∃ accounts tradeCase, inst.onCallback callback = { inst with accounts, tradeCase } ∧
      tradeCase.map TradeCase.withoutRequotes = inst.tradeCase.map TradeCase.withoutRequotes := by
  cases callback with
  | fill fill => exact ⟨_, _, rfl, rfl⟩
  | counters side openBy closeBy executedBy => exact ⟨_, _, rfl, rfl⟩
  | requoteOrderDone =>
      refine ⟨_, _, rfl, ?_⟩
      cases inst.tradeCase with
      | none => rfl
      | some case =>
          simp only [Option.map_some]
          split <;> rfl
  | tradeSendClose price size =>
      change ∃ accounts tradeCase, inst.onTradeSendClose price size = _ ∧ _
      unfold TradeInstance.onTradeSendClose
      split
      · exact ⟨inst.accounts, inst.tradeCase, rfl, rfl⟩
      · split
        · dsimp only
          split
          · exact ⟨inst.accounts, inst.tradeCase, rfl, rfl⟩
          · exact ⟨_, inst.tradeCase, rfl, rfl⟩
        · exact ⟨inst.accounts, inst.tradeCase, rfl, rfl⟩

/-- So the held case keeps its identity. -/
theorem onCallback_eq (inst : TradeInstance) (callback : Callback) :
    ∃ accounts tradeCase, inst.onCallback callback = { inst with accounts, tradeCase } ∧
      tradeCase.map TradeCase.identity = inst.tradeCase.map TradeCase.identity := by
  obtain ⟨accounts, tradeCase, same, held⟩ := onCallback_withoutRequotes inst callback
  have identities := congrArg (Option.map TradeCase.identity) held
  rw [Option.map_map, Option.map_map] at identities
  exact ⟨accounts, tradeCase, same, identities⟩

/-- The account holds the same position; counts, queued requests and the
division into lots may differ. -/
structure SameHolding (account other : TradeAccount) : Prop where
  accountType : other.accountType = account.accountType
  accountName : other.accountName = account.accountName
  symbol : other.symbol = account.symbol
  divisor : other.divisor = account.divisor
  total : other.total = account.total
  average : other.getAverage = account.getAverage
  rif : other.rif = account.rif
  pif : other.pif = account.pif
  totalExecuted : other.totalExecuted = account.totalExecuted

/-- The calls a case makes keep the relation. -/
structure ReplyFrame (R : Context → Context → Prop) : Prop where
  nextReply : Keeps R nextReply
  record : ∀ event, Keeps R (record event)
  modifyAccount : ∀ side f, (∀ account, SameHolding account (f account)) →
    Keeps R (modifyAccount side f)

/-- So does what a case notes about its requote orders. -/
structure CallFrame (R : Context → Context → Prop) : Prop extends ReplyFrame R where
  modifyRequotes : ∀ f, (∀ case, (f case).withoutRequotes = case.withoutRequotes) →
    Keeps R (modifyCase f)

/-- So does setting any field of the case but its identity. -/
structure Frame (R : Context → Context → Prop) : Prop extends CallFrame R where
  modifyCase : ∀ f, (∀ case, (f case).identity = case.identity) → Keeps R (modifyCase f)
  modifyRequotes := fun f same => modifyCase f fun case => identity_of_withoutRequotes (same case)

/-- So do the choices of a closing case. -/
structure ChoiceFrame (R : Context → Context → Prop) : Prop extends Frame R where
  setTrigger : Keeps R setTrigger
  modifyRoles : ∀ f, (∀ case, (f case).type = case.type) → Keeps R (Instance.modifyCase f)

/-- So does its use of a null pointer. -/
structure ClosingFrame (R : Context → Context → Prop) : Prop extends ChoiceFrame R where
  crash : Keeps R crash

variable {R : Context → Context → Prop} [Std.Refl R] [IsTrans Context R]

theorem keeps_getInst : Keeps R getInst :=
  keeps_get.bind fun _ => keeps_pure _

theorem keeps_unlessCrashed {m : CaseM Unit} (keeps : Keeps R m) : Keeps R (unlessCrashed m) :=
  keeps_getInst.bind fun _ => .ite (fun _ => keeps_pure ()) fun _ => keeps

/-- Waiting keeps what callbacks keep, if it does not look at the replies
still to come. -/
theorem keeps_nextReply
    (replies : ∀ (context : Context) replies, R context { context with replies })
    (onCallback : ∀ (context : Context) callback, R context (context.onCallback callback)) :
    Keeps R nextReply := by
  have taken : Keeps R (modifyGet Context.takeReply : CaseM Reply) := by
    refine keeps_modifyGet fun context => ?_
    unfold Context.takeReply
    split
    · exact Std.Refl.refl context
    · exact replies context _
  exact taken.bind fun reply => (keeps_foldl onCallback reply.callbacks).bind fun _ =>
    keeps_pure reply

/-! ## Calls -/

namespace ReplyFrame

variable (frame : ReplyFrame R)

include frame

theorem sendOrder (account : Option OrderAccountType) (price : ℚ) (size : ℕ)
    (event : OrderAccountType → ℕ → ℕ → ℚ → Event) (count : ℕ → TradeAccount → TradeAccount)
    (counts : ∀ size account, SameHolding account (count size account)) :
    Keeps R (sendOrder account price size event count) := by
  cases account with
  | none => exact keeps_pure 0
  | some side =>
      refine keeps_getInst.bind fun inst => .ite (fun _ => keeps_pure 0) fun _ => ?_
      refine frame.nextReply.bind fun reply => .ite (fun _ => keeps_pure 0) fun _ => ?_
      refine (frame.modifyAccount side _ (counts _)).bind fun _ => ?_
      exact (frame.record _).bind fun _ => keeps_pure _

theorem openOrder (account : Option OrderAccountType) (price : ℚ) (size : ℕ) :
    Keeps R (openOrder account price size) :=
  frame.sendOrder account price size _ _ fun _ _ => ⟨rfl, rfl, rfl, rfl, rfl, rfl, rfl, rfl, rfl⟩

theorem closeOrder (account : Option OrderAccountType) (price : ℚ) (size : ℕ) :
    Keeps R (closeOrder account price size) :=
  frame.sendOrder account price size _ _ fun _ _ => ⟨rfl, rfl, rfl, rfl, rfl, rfl, rfl, rfl, rfl⟩

theorem changeOrder (account : Option OrderAccountType) (requestId : ℕ) (newPrice : ℚ)
    (newSize : ℕ) : Keeps R (changeOrder account requestId newPrice newSize) := by
  cases account with
  | none => exact keeps_pure 0
  | some side =>
      refine keeps_getInst.bind fun inst => frame.nextReply.bind fun reply => ?_
      refine .ite (fun _ => keeps_pure _) fun _ => .ite (fun _ => keeps_pure _) fun _ => ?_
      exact (frame.record _).bind fun _ => keeps_pure _

theorem cancelAll (account : Option OrderAccountType) : Keeps R (cancelAll account) := by
  cases account with
  | none => exact keeps_pure ()
  | some side =>
      have dropped := frame.modifyAccount side (fun account => { account with pendingOrders := [] })
        fun _ => ⟨rfl, rfl, rfl, rfl, rfl, rfl, rfl, rfl, rfl⟩
      exact dropped.bind fun _ => frame.nextReply.bind fun _ => frame.record _

theorem checkOrderStatus (account : Option OrderAccountType) :
    Keeps R (checkOrderStatus account) := by
  cases account with
  | none => exact keeps_pure false
  | some side => exact frame.nextReply.bind fun _ => keeps_pure _

theorem sendRequest (account : Option OrderAccountType) (request : PositionRequest) :
    Keeps R (sendRequest account request) := by
  unfold Instance.sendRequest
  split
  · exact frame.openOrder _ _ _
  · exact frame.closeOrder _ _ _

theorem sendPendingOrders (account : Option OrderAccountType) :
    Keeps R (sendPendingOrders account) := by
  cases account with
  | none => exact keeps_pure ()
  | some side =>
      refine keeps_getInst.bind fun inst => ?_
      split
      · exact keeps_pure ()
      · refine (frame.sendRequest _ _).bind fun id => .whenever ?_
        exact frame.modifyAccount _ _ fun _ => ⟨rfl, rfl, rfl, rfl, rfl, rfl, rfl, rfl, rfl⟩

/-! ## Requote orders -/

theorem sendRequoteLoop (account : Option OrderAccountType) (baseQty : ℕ) (price : ℕ → ℚ)
    (fuel : ℕ) (remainder : ℤ) (i : ℕ) :
    Keeps R (sendRequoteLoop account baseQty price fuel remainder i) := by
  induction fuel generalizing remainder i with
  | zero => exact keeps_pure []
  | succ fuel ih =>
      refine .ite (fun _ => ?_) fun _ => keeps_pure []
      exact (frame.openOrder _ _ _).bind fun _ => (ih _ _).bind fun _ => keeps_pure _

theorem liveRequoteOrders (account : Option OrderAccountType) (orders : List ℕ) :
    Keeps R (liveRequoteOrders account orders) := by
  induction orders with
  | nil => exact keeps_pure []
  | cons order rest ih =>
      refine .ite (fun _ => ih) fun _ => ?_
      exact (frame.checkOrderStatus account).bind fun _ => ih.bind fun _ => keeps_pure _

theorem changeRequoteOrders (account : Option OrderAccountType) (price : ℕ → ℚ)
    (orders : List ℕ) (i : ℕ) : Keeps R (changeRequoteOrders account price orders i) := by
  induction orders generalizing i with
  | nil => exact keeps_pure []
  | cons order rest ih =>
      refine (frame.changeOrder _ _ _ _).bind fun newOrder => .ite (fun _ => ?_) fun _ => ?_
      · exact (ih _).bind fun _ => keeps_pure _
      · exact (ih _).bind fun _ => keeps_pure _

theorem openRounds (account : Option OrderAccountType) (price : ℕ → ℚ) (rounds : List ShareRound)
    (counter : ℕ) : Keeps R (TradeCase4.openRounds account price rounds counter) := by
  induction rounds generalizing counter with
  | nil => exact keeps_pure ()
  | cons round rest ih => exact (frame.openOrder _ _ _).bind fun _ => ih _

end ReplyFrame

namespace CallFrame

variable (frame : CallFrame R)

include frame

theorem sendRequoteOrders (case : TradeCase) : Keeps R (sendRequoteOrders case) := by
  refine keeps_getInst.bind fun inst => ?_
  split
  · exact keeps_pure ()
  · refine .ite (fun _ => keeps_pure ()) fun _ => ?_
    refine .bind (frame.modifyRequotes _ fun _ => rfl) fun _ => ?_
    refine .ite (fun _ => ?_) fun _ => keeps_pure ()
    refine (frame.sendRequoteLoop _ _ _ _ _ _).bind fun _ => ?_
    exact frame.modifyRequotes _ fun _ => rfl

theorem updateRequoteOrders (case : TradeCase) : Keeps R (updateRequoteOrders case) := by
  have resend := (frame.cancelAll case.currentAcc).bind fun _ => frame.sendRequoteOrders case
  refine keeps_getInst.bind fun inst => .ite (fun _ => keeps_pure ()) fun _ => ?_
  refine .ite (fun _ => resend) fun _ => ?_
  refine (frame.liveRequoteOrders _ _).bind fun live => ?_
  refine .bind (frame.modifyRequotes _ fun _ => rfl) fun _ => ?_
  refine .ite (fun _ => resend) fun _ => keeps_getInst.bind fun inst => ?_
  split
  · exact keeps_pure ()
  · refine .bind (frame.modifyRequotes _ fun _ => rfl) fun _ => ?_
    refine (frame.changeRequoteOrders _ _ _ _).bind fun _ => ?_
    exact frame.modifyRequotes _ fun _ => rfl

theorem repriceRequote (case : TradeCase) : Keeps R (repriceRequote case) :=
  keeps_getInst.bind fun _ => (frame.updateRequoteOrders case).whenever.bind fun _ =>
    frame.sendPendingOrders _

end CallFrame

/-! ## The cases that follow the trigger -/

namespace Frame

variable (frame : Frame R)

include frame

omit [Std.Refl R] [IsTrans Context R] in
theorem setState (state : CaseState) : Keeps R (setState state) :=
  frame.modifyCase _ fun _ => rfl

theorem waitEqual (case : TradeCase) : Keeps R (waitEqual case) :=
  keeps_getInst.bind fun _ => (frame.setState .done).whenever

theorem case4_init (case : TradeCase) : Keeps R (TradeCase4.init case) := by
  refine keeps_getInst.bind fun inst => ?_
  dsimp only
  split
  · exact frame.setState .failed
  · refine .bind (frame.modifyCase _ fun _ => rfl) fun _ => ?_
    refine (frame.openOrder _ _ _).bind fun _ => ?_
    refine .bind (frame.modifyCase _ fun _ => rfl) fun _ => ?_
    exact (frame.openRounds _ _ _ _).bind fun _ => frame.setState _

theorem case4_reprice (case : TradeCase) : Keeps R (TradeCase4.reprice case) := by
  refine (frame.repriceRequote case).bind fun _ => .ite (fun _ => keeps_pure ()) fun _ => ?_
  refine keeps_getInst.bind fun inst => .ite (fun _ => keeps_pure ()) fun _ => ?_
  refine (frame.changeOrder _ _ _ _).bind fun _ => ?_
  exact frame.modifyCase _ fun _ => rfl

theorem case4_wait (case : TradeCase) : Keeps R (TradeCase4.wait case) :=
  keeps_getInst.bind fun _ => (frame.setState .done).whenever

theorem hedgeCurrent_init (case : TradeCase) : Keeps R (HedgeCurrent.init case) := by
  refine keeps_getInst.bind fun inst => ?_
  refine .bind (frame.modifyCase _ fun _ => rfl) fun _ => ?_
  refine .ite (fun _ => ?_) fun _ => frame.setState .failed
  refine (frame.openOrder _ _ _).bind fun _ => ?_
  exact .bind (frame.modifyCase _ fun _ => rfl) fun _ => frame.setState _

theorem hedgeCurrent_reprice (case : TradeCase) : Keeps R (HedgeCurrent.reprice case) := by
  refine (frame.waitEqual case).bind fun _ => keeps_getInst.bind fun inst => ?_
  refine .ite (fun _ => keeps_pure ()) fun _ => (frame.changeOrder _ _ _ _).bind fun _ => ?_
  exact .ite (fun _ => frame.setState .wait) fun _ =>
    frame.modifyCase _ fun _ => rfl

theorem case9_init (case : TradeCase) : Keeps R (TradeCase9.init case) := by
  refine keeps_getInst.bind fun inst => ?_
  refine .bind (frame.modifyCase _ fun _ => rfl) fun _ => ?_
  refine .ite (fun _ => frame.setState .failed) fun _ => ?_
  refine .bind (frame.modifyCase _ fun _ => rfl) fun _ => ?_
  refine .ite (fun _ => frame.setState .failed) fun _ => (frame.closeOrder _ _ _).bind fun _ => ?_
  exact .bind (frame.modifyCase _ fun _ => rfl) fun _ => frame.setState _

theorem case9_reprice (case : TradeCase) : Keeps R (TradeCase9.reprice case) := by
  refine keeps_getInst.bind fun inst => .ite (fun _ => frame.setState .done) fun _ => ?_
  refine .ite (fun _ => keeps_pure ()) fun _ => .ite (fun _ => keeps_pure ()) fun _ => ?_
  refine (frame.changeOrder _ _ _ _).bind fun _ => .ite (fun _ => frame.setState .wait) fun _ => ?_
  exact frame.modifyCase _ fun _ => rfl

theorem case9_wait (case : TradeCase) : Keeps R (TradeCase9.wait case) :=
  keeps_getInst.bind fun _ => (frame.setState .done).whenever

theorem case10_init (case : TradeCase) : Keeps R (TradeCase10.init case) := by
  refine keeps_getInst.bind fun inst => ?_
  refine .bind (frame.modifyCase _ fun _ => rfl) fun _ => ?_
  refine (frame.closeOrder _ _ _).bind fun _ => ?_
  exact .bind (frame.modifyCase _ fun _ => rfl) fun _ => frame.setState _

theorem case10_reprice (case : TradeCase) : Keeps R (TradeCase10.reprice case) := by
  refine keeps_getInst.bind fun inst => ?_
  refine .bind (frame.modifyCase _ fun _ => rfl) fun _ => ?_
  refine .ite (fun _ => keeps_pure ()) fun _ => (frame.changeOrder _ _ _ _).bind fun _ => ?_
  exact .ite (fun _ => frame.setState .wait) fun _ =>
    frame.modifyCase _ fun _ => rfl

theorem case10_wait (case : TradeCase) : Keeps R (TradeCase10.wait case) :=
  keeps_getInst.bind fun _ => .ite (fun _ => frame.setState .done) fun _ =>
    (frame.case10_init case).whenever

/-- A case that follows the trigger keeps what its calls keep. -/
theorem run {case : TradeCase} (notPanic : case.type ≠ .panicClose)
    (notSoft : case.type ≠ .softClose) : Keeps R case.run := by
  unfold TradeCase.run TradeCase.init TradeCase.reprice TradeCase.wait
  cases type : case.type with
  | none => cases case.state <;> exact keeps_pure ()
  | case4 =>
      cases case.state with
      | init => exact frame.case4_init case
      | priceChange => exact frame.case4_reprice case
      | wait => exact frame.case4_wait case
      | done | failed | notSelected => exact keeps_pure ()
  | hedgeCurrent =>
      cases case.state with
      | init => exact frame.hedgeCurrent_init case
      | priceChange => exact frame.hedgeCurrent_reprice case
      | wait => exact frame.waitEqual case
      | done | failed | notSelected => exact keeps_pure ()
  | case9 =>
      cases case.state with
      | init => exact frame.case9_init case
      | priceChange => exact frame.case9_reprice case
      | wait => exact frame.case9_wait case
      | done | failed | notSelected => exact keeps_pure ()
  | case10 =>
      cases case.state with
      | init => exact frame.case10_init case
      | priceChange => exact frame.case10_reprice case
      | wait => exact frame.case10_wait case
      | done | failed | notSelected => exact keeps_pure ()
  | panicClose => exact absurd type notPanic
  | softClose => exact absurd type notSoft

end Frame

/-! ## The closing cases -/

namespace ChoiceFrame

variable (frame : ChoiceFrame R)

include frame

theorem panicClose_init (case : TradeCase) : Keeps R (PanicClose.init case) := by
  refine keeps_getInst.bind fun inst => .ite (fun _ => frame.setState .done) fun _ => ?_
  refine frame.setTrigger.bind fun _ => ?_
  refine .bind (frame.modifyRoles _ fun _ => rfl) fun _ => (frame.closeOrder _ _ _).bind fun _ => ?_
  exact .bind (frame.modifyCase _ fun _ => rfl) fun _ => frame.setState _

theorem panicClose_reprice (case : TradeCase) : Keeps R (PanicClose.reprice case) := by
  refine keeps_getInst.bind fun inst => .ite (fun _ => frame.setState .done) fun _ => ?_
  refine .ite (fun _ => keeps_pure ()) fun _ => (frame.changeOrder _ _ _ _).bind fun _ => ?_
  exact .ite (fun _ => frame.setState .wait) fun _ =>
    frame.modifyCase _ fun _ => rfl

theorem softClose_reprice (case : TradeCase) : Keeps R (SoftClose.reprice case) := by
  refine keeps_getInst.bind fun inst => .ite (fun _ => frame.setState .done) fun _ => ?_
  refine .ite (fun _ => keeps_pure ()) fun _ => (frame.changeOrder _ _ _ _).bind fun _ => ?_
  exact (frame.setState .wait).whenever.bind fun _ =>
    frame.modifyCase _ fun _ => rfl

/-- Every case keeps what its calls and choices keep, if the start of a soft close
does. -/
theorem run_of (case : TradeCase)
    (softClose_init : case.type = .softClose → Keeps R (SoftClose.init case)) :
    Keeps R case.run := by
  by_cases panic : case.type = .panicClose
  · unfold TradeCase.run TradeCase.init TradeCase.reprice TradeCase.wait
    rw [panic]
    cases case.state with
    | init => exact frame.panicClose_init case
    | priceChange => exact frame.panicClose_reprice case
    | wait => exact frame.waitEqual case
    | done | failed | notSelected => exact keeps_pure ()
  · by_cases soft : case.type = .softClose
    · have starts := softClose_init soft
      unfold TradeCase.run TradeCase.init TradeCase.reprice TradeCase.wait
      rw [soft]
      cases case.state with
      | init => exact starts
      | priceChange => exact frame.softClose_reprice case
      | wait => exact frame.waitEqual case
      | done | failed | notSelected => exact keeps_pure ()
    · exact frame.toFrame.run panic soft

end ChoiceFrame

namespace ClosingFrame

variable (frame : ClosingFrame R)

include frame

theorem softClose_init (case : TradeCase) : Keeps R (SoftClose.init case) := by
  refine keeps_getInst.bind fun inst => (frame.setState .done).whenever.bind fun _ => ?_
  refine frame.setTrigger.bind fun _ => .ite (fun _ => frame.crash) fun _ => ?_
  refine .bind (frame.modifyRoles _ fun _ => rfl) fun _ => keeps_getInst.bind fun inst => ?_
  refine .bind (frame.modifyCase _ fun _ => rfl) fun _ => ?_
  refine .ite (fun _ => keeps_pure ()) fun _ => (frame.closeOrder _ _ _).bind fun _ => ?_
  exact .bind (frame.modifyCase _ fun _ => rfl) fun _ => frame.setState _

/-- Every case keeps what its calls, its choices and a crash keep. -/
theorem run (case : TradeCase) : Keeps R case.run :=
  frame.run_of case fun _ => frame.softClose_init case

end ClosingFrame

/-! ## The destructor -/

theorem sameHolding_deleteComplete (account : TradeAccount) :
    SameHolding account (deleteCompletePositions account) :=
  ⟨rfl, rfl, rfl, rfl, rfl, rfl, rfl, rfl, rfl⟩

/-- Without an adjustment repackaging keeps the average. -/
theorem sameHolding_repackage (account : TradeAccount) (baseQty : ℕ) (mpv : ℚ) :
    SameHolding account (repackagePositionTable account baseQty mpv 0) := by
  refine ⟨rfl, rfl, rfl, rfl, rfl, ?_, rfl, rfl, rfl⟩
  change account.positionTable.average - 0 * account.positionTable.sign = _
  rw [zero_mul, sub_zero]
  rfl

/-- A case's destructor changes lots, cancels orders and starts a wait. -/
theorem keeps_destroy (case : TradeCase)
    (modifyPointed : ∀ account f, (∀ account, SameHolding account (f account)) →
      Keeps R (modifyPointed account f))
    (cancelAll : ∀ account, Keeps R (cancelAll account))
    (modifyInst : ∀ f, (∀ inst, ∃ waitForNextTimeWindow waitForNextTimeWindowAvicenna,
      f inst = { inst with waitForNextTimeWindow, waitForNextTimeWindowAvicenna }) →
      Keeps R (modifyInst f)) :
    Keeps R case.destroy := by
  refine keeps_getInst.bind fun inst => ?_
  refine (modifyPointed _ _ fun _ => sameHolding_repackage _ _ _).whenever.bind fun _ => ?_
  refine ((cancelAll _).bind fun _ => cancelAll _).whenever.bind fun _ => ?_
  refine (modifyPointed _ _ sameHolding_deleteComplete).bind fun _ => ?_
  refine (modifyPointed _ _ sameHolding_deleteComplete).bind fun _ => ?_
  refine modifyInst _ fun inst => ?_
  split
  · exact ⟨true, inst.priceEstimate, rfl⟩
  · exact ⟨inst.waitForNextTimeWindow, inst.waitForNextTimeWindowAvicenna, rfl⟩

/-! ## The loop -/

/-- The calls keep the relation, and so does whatever leaves the accounts and
the store alone and does not end the program. -/
structure SelectionFrame (R : Context → Context → Prop) : Prop extends ReplyFrame R where
  modifyInst : ∀ f, (∀ inst, (f inst).accounts = inst.accounts ∧
    (f inst).redisWriter = inst.redisWriter ∧ (f inst).crashed = inst.crashed) →
    Keeps R (modifyInst f)

namespace SelectionFrame

variable (frame : SelectionFrame R)

include frame

omit [IsTrans Context R] in
theorem modifyPointed (account : Option OrderAccountType) {f : TradeAccount → TradeAccount}
    (same : ∀ account, SameHolding account (f account)) : Keeps R (modifyPointed account f) := by
  cases account with
  | none => exact keeps_pure ()
  | some side => exact frame.modifyAccount side f same

theorem destroy (case : TradeCase) : Keeps R case.destroy := by
  apply keeps_destroy
  · exact fun account f same => frame.modifyPointed account same
  · exact frame.cancelAll
  · intro f waits
    refine frame.modifyInst f fun inst => ?_
    obtain ⟨_, _, same⟩ := waits inst
    rw [same]
    exact ⟨rfl, rfl, rfl⟩

theorem replaceCase (tradeCase : Option TradeCase) : Keeps R (replaceCase tradeCase) := by
  refine keeps_getInst.bind fun inst => ?_
  refine .bind (frame.modifyInst _ fun _ => ⟨rfl, rfl, rfl⟩) fun _ => ?_
  cases inst.tradeCase with
  | none => exact keeps_pure ()
  | some old => exact frame.destroy old

theorem caseSelection : Keeps R caseSelection := by
  refine keeps_getInst.bind fun inst => .ite (fun _ => keeps_pure ()) fun _ => ?_
  exact .bind (frame.modifyInst _ fun _ => ⟨rfl, rfl, rfl⟩) fun _ => frame.replaceCase _

theorem triggerSelection : Keeps R triggerSelection := by
  refine .bind (frame.modifyInst _ fun _ => ⟨rfl, rfl, rfl⟩) fun _ => ?_
  refine keeps_getInst.bind fun inst => ?_
  exact .whenever (.bind (frame.modifyInst _ fun _ => ⟨rfl, rfl, rfl⟩) fun _ => frame.caseSelection)

theorem specialCases : Keeps R specialCases := by
  refine .bind (frame.modifyInst _ fun inst => ?_) fun _ => keeps_getInst.bind fun inst => ?_
  · unfold TradeInstance.selfDestruct
    split <;> exact ⟨rfl, rfl, rfl⟩
  · refine .ite (fun _ => ?_) fun _ => .ite (fun _ => ?_) fun _ => ?_
    · refine .bind (.whenever (.bind ?_ fun _ => frame.replaceCase _)) fun _ => keeps_pure true
      exact frame.modifyInst _ fun _ => ⟨rfl, rfl, rfl⟩
    · refine .bind (.whenever (.bind ?_ fun _ => frame.replaceCase _)) fun _ => keeps_pure true
      exact frame.modifyInst _ fun _ => ⟨rfl, rfl, rfl⟩
    · exact (frame.caseSelection.whenever).bind fun _ => keeps_pure false

theorem selection : Keeps R selection := by
  refine .bind (frame.modifyInst _ fun _ => ⟨rfl, rfl, rfl⟩) fun _ => ?_
  refine frame.specialCases.bind fun special => .ite (fun _ => keeps_pure true) fun _ => ?_
  exact frame.triggerSelection.bind fun _ => keeps_pure false

theorem finishCase : Keeps R finishCase := by
  refine keeps_getInst.bind fun inst => ?_
  cases inst.tradeCase with
  | none => exact keeps_pure ()
  | some case =>
      refine .ite (fun _ => .whenever ?_) fun _ => .whenever ?_
      · exact frame.modifyInst _ fun _ => ⟨rfl, rfl, rfl⟩
      · exact .bind (frame.modifyInst _ fun _ => ⟨rfl, rfl, rfl⟩) fun _ => frame.replaceCase _

end SelectionFrame

/-- The relation is kept even if the program ends. -/
structure LoopFrame (R : Context → Context → Prop) : Prop extends SelectionFrame R where
  crash : Keeps R crash

namespace LoopFrame

variable (frame : LoopFrame R)

include frame

omit [Std.Refl R] [IsTrans Context R] in
theorem closing : ClosingFrame R where
  toReplyFrame := frame.toReplyFrame
  modifyCase _ _ := frame.modifyInst _ fun _ => ⟨rfl, rfl, rfl⟩
  setTrigger := frame.modifyInst _ fun _ => ⟨rfl, rfl, rfl⟩
  crash := frame.crash
  modifyRoles _ _ := frame.modifyInst _ fun _ => ⟨rfl, rfl, rfl⟩

theorem runCase : Keeps R runCase := by
  refine keeps_getInst.bind fun inst => ?_
  cases inst.tradeCase with
  | none => exact keeps_pure ()
  | some case =>
      refine (frame.closing.run case).bind fun _ => keeps_unlessCrashed ?_
      exact .bind (frame.modifyInst _ fun _ => ⟨rfl, rfl, rfl⟩) fun _ => frame.finishCase

end LoopFrame

/-! ## Steps -/

/-- Whatever a step does keeps the relation, as far as the accounts go. -/
structure StepFrame (R : Context → Context → Prop) : Prop where
  replies : ∀ (context : Context) replies, R context { context with replies }
  onCallback : ∀ (context : Context) callback, R context (context.onCallback callback)
  record : ∀ event, Keeps R (record event)
  modifyAccount : ∀ side f, (∀ account, SameHolding account (f account)) →
    Keeps R (modifyAccount side f)
  modifyInst : ∀ f, (∀ inst, (f inst).accounts = inst.accounts) → Keeps R (modifyInst f)

namespace StepFrame

variable (frame : StepFrame R)

include frame

theorem loop : LoopFrame R where
  nextReply := keeps_nextReply frame.replies frame.onCallback
  record := frame.record
  modifyAccount := frame.modifyAccount
  modifyInst f same := frame.modifyInst f fun inst => (same inst).1
  crash := frame.modifyInst _ fun _ => rfl

theorem pass (quote : Quote) : Keeps R (pass quote) := by
  refine .bind (frame.modifyInst _ fun _ => rfl) fun _ => keeps_getInst.bind fun inst => ?_
  refine .ite (fun _ => keeps_pure ()) fun _ => frame.loop.selection.bind fun _ => ?_
  exact frame.loop.runCase.bind fun _ => frame.modifyInst _ writeBack_accounts

omit [Std.Refl R] in
theorem exec (context : Context) (replies : List Reply) {m : CaseM Unit} (keeps : Keeps R m) :
    R context (context.exec replies m) :=
  IsTrans.trans _ _ _ (frame.replies context replies) (keeps _)

theorem act (context : Context) (label : Label) : R context (context.act label) := by
  cases label with
  | pass quote replies =>
      by_cases running : context.Running
      · rw [Context.act, if_pos running]
        exact frame.exec context replies (frame.pass quote)
      · rw [Context.act, if_neg running]
        exact Std.Refl.refl context
  | callback callback => exact frame.onCallback context callback
  | stopAction replies =>
      have calls := frame.loop.closing.toFrame
      refine frame.exec context replies ((calls.cancelAll (some .short)).bind fun _ => ?_)
      exact (calls.cancelAll (some .long)).bind fun _ => frame.modifyInst _ fun _ => rfl
  | enablePanicClose => exact frame.modifyInst .enablePanicClose (fun _ => rfl) context
  | disablePanicClose => exact frame.modifyInst .disablePanicClose (fun _ => rfl) context
  | enableSoftClose => exact frame.modifyInst .enableSoftClose (fun _ => rfl) context
  | disableSoftClose => exact frame.modifyInst .disableSoftClose (fun _ => rfl) context
  | resume =>
      exact frame.modifyInst (fun inst => { inst with isEnable := true }) (fun _ => rfl) context
  | pause =>
      exact frame.modifyInst (fun inst => { inst with isEnable := false }) (fun _ => rfl) context
  | avicennaToggle =>
      exact frame.modifyInst (fun inst => { inst with avicennaToggle := !inst.avicennaToggle })
        (fun _ => rfl) context

/-- A step keeps what its parts keep. -/
theorem step (context : Context) (label : Label) : R context (context.step label) :=
  Context.step_cases (fun _ => Std.Refl.refl context) fun _ => frame.act context label

end StepFrame

end TradingApp.Instance

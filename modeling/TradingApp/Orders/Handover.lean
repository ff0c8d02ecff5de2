import TradingApp.Orders.Accounts
import TradingApp.Orders.CancelAll

/-!
# From one trade case to the next

A trading thread runs the cases of an instance one after another on two
accounts, each of which is one of many of its order account.  A new case is
created, the old one is destroyed, and the new one executes `init` when it is run
for the first time.  The destructor cancels all orders of both accounts, first
of the long and then of the short one, if the instance is set to cancel on a
trigger.

No order is handed on to the next case as long as every cancellation of a
destructor goes out and is not refused for an order that lives on, no such order
comes back to life, and no request is queued after the cancellations.
-/

namespace TradingApp.Orders

open TradingApp.Account TradingApp.Transition

variable {α : Type}

/-- What the trading thread does with its cases. -/
inductive Phase where
  /-- there is no case -/
  | none
  /-- a case is destroyed, for a new one or for none -/
  | cancelLong (selected : Bool)
  | cancelShort (selected : Bool)
  /-- the case has not been run yet -/
  | fresh
  | running
deriving DecidableEq, Repr

namespace Phase

/-- A case was destroyed. -/
def after (selected : Bool) : Phase :=
  if selected then fresh else none

/-- The destructor has come to the short account, if there was one. -/
def isPastLong : Phase → Bool
  | none | cancelShort _ | fresh => true
  | cancelLong _ | running => false

theorem ne_running_of_isPastLong {phase : Phase} (past : phase.isPastLong = true) :
    phase ≠ running := by
  rintro rfl
  cases past

end Phase

/-- A trading thread, and the order accounts it trades on. -/
structure Trading (α : Type) where
  /-- the instance's accounts -/
  symbol : α
  cancelOnTrigger : Bool
  phase : Phase
  long : OrderSystem α
  short : OrderSystem α

namespace Trading

/-- What can happen to a symbol whose cases are handed over. -/
inductive Event (α : Type) where
  /-- a case is created, and takes the place of the old one -/
  | select
  /-- the old case is not replaced -/
  | drop
  /-- the destructor goes on after a `cancelAll` -/
  | proceed
  /-- the case is run for the first time -/
  | init
  | long (label : OrderSystem.Label α)
  | short (label : OrderSystem.Label α)
  /-- a request is queued -/
  | push (side : OrderAccountType) (request : PositionRequest)
  /-- a queued request was sent -/
  | pop (side : OrderAccountType)

/-- No order was sent, and there is no case. -/
def start (symbol : α) (longAccount shortAccount : α → TradeAccount) : Trading α where
  symbol := symbol
  cancelOnTrigger := true
  phase := .none
  long := OrderSystem.start .long longAccount
  short := OrderSystem.start .short shortAccount

/-- Neither account of the symbol is in a call. -/
def isIdle (trading : Trading α) : Bool :=
  (trading.long.thread trading.symbol).isIdle && (trading.short.thread trading.symbol).isIdle

variable [DecidableEq α]

/-- `~TradeCase` up to its first `cancelAll`. -/
def destroy (trading : Trading α) (selected : Bool) : Trading α :=
  if trading.cancelOnTrigger then
    { trading with
      long := trading.long.cancelAll trading.symbol
      phase := .cancelLong selected }
  else { trading with phase := .after selected }

/-- `~TradeCase` after a `cancelAll`. -/
def proceed (trading : Trading α) : Trading α :=
  match trading.phase with
  | .cancelLong selected =>
      match trading.long.thread trading.symbol with
      | .idle returned =>
          if returned ≠ 0 then
            { trading with
              short := trading.short.cancelAll trading.symbol
              phase := .cancelShort selected }
          else { trading with phase := .after selected }
      | _ => trading
  | .cancelShort selected =>
      if (trading.short.thread trading.symbol).isIdle then
        { trading with phase := .after selected }
      else trading
  | _ => trading

/-- A case makes one call at a time, and only a running case makes calls. -/
def mayCall (trading : Trading α) (label : OrderSystem.Label α) : Bool :=
  label.caller ≠ some trading.symbol || trading.phase = .running && trading.isIdle

/-- Change the queue of the instance's account. -/
def changeQueue (trading : Trading α) (side : OrderAccountType)
    (f : List PositionRequest → List PositionRequest) : Trading α :=
  let changed (system : OrderSystem α) : OrderSystem α :=
    system.setAccount trading.symbol
      { system.account trading.symbol with
        pendingOrders := f (system.account trading.symbol).pendingOrders }
  match side with
  | .long => { trading with long := changed trading.long }
  | .short => { trading with short := changed trading.short }

/-- A case is selected, dropped or run only between the calls of the trading
thread; its destructor cancels the orders of the long account and then those of
the short one. -/
def step (trading : Trading α) : Event α → Trading α
  | .select =>
      if trading.isIdle then
        match trading.phase with
        | .none => { trading with phase := .fresh }
        | .fresh | .running => trading.destroy true
        | .cancelLong _ | .cancelShort _ => trading
      else trading
  | .drop =>
      if trading.isIdle then
        match trading.phase with
        | .fresh | .running => trading.destroy false
        | .none | .cancelLong _ | .cancelShort _ => trading
      else trading
  | .proceed => trading.proceed
  | .init => if trading.phase = .fresh then { trading with phase := .running } else trading
  | .long label =>
      if trading.mayCall label then { trading with long := trading.long.step label } else trading
  | .short label =>
      if trading.mayCall label then { trading with short := trading.short.step label } else trading
  | .push side request => trading.changeQueue side (· ++ [request])
  | .pop side => if trading.phase = .running then trading.changeQueue side List.tail else trading

/-- No order of the account can be cancelled, and no request is queued. -/
def NothingLeft (system : OrderSystem α) (a : α) : Prop :=
  system.NoneLive a ∧ (system.account a).pendingOrders = []

/-- A case that executes `init` finds nothing left of the one before. -/
def InitClear (trading : Trading α) : Event α → Prop
  | .init =>
      trading.phase = .fresh →
        NothingLeft trading.long trading.symbol ∧ NothingLeft trading.short trading.symbol
  | _ => True

/-- The destructor has not emptied the queue yet. -/
def QueueOpen (trading : Trading α) : OrderAccountType → Prop
  | .long => trading.phase = .running
  | .short => trading.phase.isPastLong = false

/-- From a destructor's `cancelAll` to the next `init` the cancellations are
answered, no order comes back to life and no request is queued. -/
def CancelsAnswered (trading : Trading α) : Event α → Prop
  | .long label => trading.phase ≠ .running → trading.long.Clears trading.symbol label
  | .short label => trading.phase.isPastLong = true → trading.short.Clears trading.symbol label
  | .push side _ => trading.QueueOpen side
  | _ => True

instance (trading : Trading α) : (side : OrderAccountType) → Decidable (trading.QueueOpen side)
  | .long => inferInstanceAs (Decidable (_ = _))
  | .short => inferInstanceAs (Decidable (_ = _))

instance (trading : Trading α) : (event : Event α) → Decidable (CancelsAnswered trading event)
  | .long _ => inferInstanceAs (Decidable (_ → _))
  | .short _ => inferInstanceAs (Decidable (_ → _))
  | .push side _ => inferInstanceAs (Decidable (trading.QueueOpen side))
  | .select | .drop | .proceed | .init | .pop _ => inferInstanceAs (Decidable True)

/-- What holds of an account from the destructor's `cancelAll` on. -/
structure Clear (system : OrderSystem α) (a : α) : Prop where
  clearing : system.Clearing a
  queue : (system.account a).pendingOrders = []

/-- What holds between the selections of cases: from the destructor of one to the
first run of the next, both accounts are clear. -/
structure Handed (trading : Trading α) : Prop where
  cancels : trading.cancelOnTrigger = true
  longWired : trading.long.Wired
  shortWired : trading.short.Wired
  longErased : trading.long.CancelledErased
  shortErased : trading.short.CancelledErased
  long : trading.phase ≠ .running → Clear trading.long trading.symbol
  short : trading.phase.isPastLong = true → Clear trading.short trading.symbol
  longIdle : trading.phase.isPastLong = true → (trading.long.thread trading.symbol).isIdle = true
  shortIdle : trading.phase ≠ .running → (∀ selected, trading.phase ≠ .cancelShort selected) →
    (trading.short.thread trading.symbol).isIdle = true
  succeeds : ∀ selected, trading.phase = .cancelLong selected →
    ∀ returned, trading.long.thread trading.symbol = .idle returned → returned = 1

omit [DecidableEq α] in
theorem handed_start (symbol : α) {longAccount shortAccount : α → TradeAccount}
    (longQueue : (longAccount symbol).pendingOrders = [])
    (shortQueue : (shortAccount symbol).pendingOrders = []) :
    Handed (start symbol longAccount shortAccount) where
  cancels := rfl
  longWired := OrderSystem.wired_start .long longAccount
  shortWired := OrderSystem.wired_start .short shortAccount
  longErased := OrderSystem.cancelledErased_start .long longAccount
  shortErased := OrderSystem.cancelledErased_start .short shortAccount
  long _ := ⟨OrderSystem.clearing_of_orders_nil rfl rfl, longQueue⟩
  short _ := ⟨OrderSystem.clearing_of_orders_nil rfl rfl, shortQueue⟩
  longIdle _ := rfl
  shortIdle _ _ := rfl
  succeeds _ running := nomatch running

variable {trading : Trading α} {system : OrderSystem α} {a : α}

/-! ## Steps of the order accounts -/

theorem Clear.step (clear : Clear system a) (wired : system.Wired)
    (erased : system.CancelledErased) {label : OrderSystem.Label α}
    (noCall : label.caller ≠ some a) (clears : system.Clears a label) :
    Clear (system.step label) a where
  clearing := clear.clearing.step wired erased noCall clears
  queue := by
    rcases ((OrderSystem.step_spec system label).books a).pendingOrders with same | empty
    · exact same.trans clear.queue
    · exact empty

theorem isIdle_step {label : OrderSystem.Label α} (idle : (system.thread a).isIdle = true)
    (noCall : label.caller ≠ some a) : ((system.step label).thread a).isIdle = true := by
  cases thread : system.thread a with
  | idle returned =>
      rw [OrderSystem.idle_step thread noCall]
      rfl
  | waiting | acknowledged | cancelling =>
      rw [thread] at idle
      cases idle

/-- A case that is not running makes no call. -/
theorem noCall_of_mayCall {label : OrderSystem.Label α} (mayCall : trading.mayCall label = true)
    (notRunning : trading.phase ≠ .running) : label.caller ≠ some trading.symbol := by
  intro calls
  simp [Trading.mayCall, calls, notRunning] at mayCall

theorem Handed.long_step (handed : Handed trading) {label : OrderSystem.Label α}
    (mayCall : trading.mayCall label = true)
    (answered : trading.phase ≠ .running → trading.long.Clears trading.symbol label) :
    Handed { trading with long := trading.long.step label } where
  cancels := handed.cancels
  longWired := handed.longWired.step label
  shortWired := handed.shortWired
  longErased := handed.longErased.step handed.longWired label
  shortErased := handed.shortErased
  long phase := by
    have notRunning : trading.phase ≠ .running := phase
    exact (handed.long notRunning).step handed.longWired handed.longErased
      (noCall_of_mayCall mayCall notRunning) (answered notRunning)
  short := handed.short
  longIdle phase := by
    have past : trading.phase.isPastLong = true := phase
    have noCall : label.caller ≠ some trading.symbol :=
      noCall_of_mayCall mayCall (Phase.ne_running_of_isPastLong past)
    exact isIdle_step (handed.longIdle past) noCall
  shortIdle := handed.shortIdle
  succeeds selected phase := by
    have phase : trading.phase = .cancelLong selected := phase
    have notRunning : trading.phase ≠ .running := by
      rw [phase]
      intro running
      cases running
    intro returned idle
    exact (handed.long notRunning).clearing.succeeds (noCall_of_mayCall mayCall notRunning)
      (handed.succeeds selected phase) idle

theorem Handed.short_step (handed : Handed trading) {label : OrderSystem.Label α}
    (mayCall : trading.mayCall label = true)
    (answered : trading.phase.isPastLong = true →
      trading.short.Clears trading.symbol label) :
    Handed { trading with short := trading.short.step label } where
  cancels := handed.cancels
  longWired := handed.longWired
  shortWired := handed.shortWired.step label
  longErased := handed.longErased
  shortErased := handed.shortErased.step handed.shortWired label
  long := handed.long
  short phase := by
    have past : trading.phase.isPastLong = true := phase
    exact (handed.short past).step handed.shortWired handed.shortErased
      (noCall_of_mayCall mayCall (Phase.ne_running_of_isPastLong past)) (answered past)
  longIdle := handed.longIdle
  shortIdle phase notShort := by
    have notRunning : trading.phase ≠ .running := phase
    have noCall : label.caller ≠ some trading.symbol := noCall_of_mayCall mayCall notRunning
    exact isIdle_step (handed.shortIdle notRunning notShort) noCall
  succeeds := handed.succeeds

/-! ## Steps of the trading thread -/

theorem wired_setAccount (wired : system.Wired) (account : TradeAccount) :
    (system.setAccount a account).Wired where
  order id pos le := by
    obtain ⟨b, request, posted⟩ := wired.order id pos le
    exact ⟨b, request, posted.pos, posted.le, posted.wired⟩
  hash := wired.hash
  orders b id isKey := by
    obtain ⟨request, posted⟩ := wired.orders b id isKey
    exact ⟨request, posted.pos, posted.le, posted.wired⟩
  thread b wait waits := by
    have waitWired := wired.thread b wait waits
    cases wait with
    | acknowledgement request id => exact ⟨waitWired.pos, waitWired.le, waitWired.wired⟩
    | change original id newSize =>
        obtain ⟨request, before, posted⟩ := waitWired
        exact ⟨request, ⟨before.pos, before.le, before.wired⟩, posted.pos, posted.le, posted.wired⟩
    | cancel id rest =>
        obtain ⟨⟨request, posted⟩, set⟩ := waitWired
        exact ⟨⟨request, posted.pos, posted.le, posted.wired⟩, set⟩

theorem Handed.changeQueue (handed : Handed trading) (side : OrderAccountType)
    (f : List PositionRequest → List PositionRequest) (isOpen : trading.QueueOpen side) :
    Handed (trading.changeQueue side f) := by
  cases side with
  | long =>
      have running : trading.phase = .running := isOpen
      constructor
      · exact handed.cancels
      · exact wired_setAccount handed.longWired _
      · exact handed.shortWired
      · exact handed.longErased
      · exact handed.shortErased
      · exact fun notRunning => absurd running notRunning
      · exact handed.short
      · exact handed.longIdle
      · exact handed.shortIdle
      · exact handed.succeeds
  | short =>
      have notPast : trading.phase.isPastLong = false := isOpen
      constructor
      · exact handed.cancels
      · exact handed.longWired
      · exact wired_setAccount handed.shortWired _
      · exact handed.longErased
      · exact handed.shortErased
      · exact handed.long
      · intro past
        rw [Trading.changeQueue, notPast] at past
        exact absurd past Bool.false_ne_true
      · exact handed.longIdle
      · exact handed.shortIdle
      · exact handed.succeeds

theorem clear_cancelAll (system : OrderSystem α) (a : α) : Clear (system.cancelAll a) a where
  clearing := OrderSystem.clearing_cancelAll system a
  queue := by
    simp [OrderSystem.cancelAll]

theorem step_cancelAll (idle : (system.thread a).isIdle = true) :
    system.step (.cancelAll a) = system.cancelAll a :=
  if_pos idle

/-- The destructor begins with the long account. -/
theorem Handed.destroy (handed : Handed trading) (idle : trading.isIdle = true)
    (selected : Bool) : Handed (trading.destroy selected) := by
  obtain ⟨longIdle, shortIdle⟩ := Bool.and_eq_true_iff.mp idle
  unfold Trading.destroy
  rw [if_pos handed.cancels]
  constructor
  · exact handed.cancels
  · have wired := handed.longWired.step (.cancelAll trading.symbol)
    rw [step_cancelAll longIdle] at wired
    exact wired
  · exact handed.shortWired
  · have erased := handed.longErased.step handed.longWired (.cancelAll trading.symbol)
    rw [step_cancelAll longIdle] at erased
    exact erased
  · exact handed.shortErased
  · exact fun _ => clear_cancelAll trading.long trading.symbol
  · exact fun past => nomatch past
  · exact fun past => nomatch past
  · exact fun _ _ => shortIdle
  · intro _ _ returned returns
    simp [OrderSystem.cancelAll] at returns

omit [DecidableEq α] in
/-- After both `cancelAll` the case is gone. -/
theorem Handed.after (handed : Handed trading) {selected : Bool}
    (phase : trading.phase = .cancelShort selected)
    (idle : (trading.short.thread trading.symbol).isIdle = true) :
    Handed { trading with phase := .after selected } := by
  have notRunning : trading.phase ≠ .running := by
    rw [phase]
    intro running
    cases running
  have past : trading.phase.isPastLong = true := by
    rw [phase]
    rfl
  constructor
  · exact handed.cancels
  · exact handed.longWired
  · exact handed.shortWired
  · exact handed.longErased
  · exact handed.shortErased
  · exact fun _ => handed.long notRunning
  · exact fun _ => handed.short past
  · exact fun _ => handed.longIdle past
  · exact fun _ _ => idle
  · intro later isAfter
    cases selected <;> cases isAfter

theorem Handed.proceed (handed : Handed trading) : Handed trading.proceed := by
  unfold Trading.proceed
  cases phase : trading.phase with
  | cancelLong selected =>
      have notRunning : trading.phase ≠ .running := by
        rw [phase]
        intro running
        cases running
      have shortIdle : (trading.short.thread trading.symbol).isIdle = true := by
        apply handed.shortIdle notRunning
        rw [phase]
        intro other isShort
        cases isShort
      dsimp only
      cases thread : trading.long.thread trading.symbol with
      | idle returned =>
          dsimp only
          have success : returned ≠ 0 := by
            rw [handed.succeeds selected phase returned thread]
            exact Nat.one_ne_zero
          rw [if_pos success]
          constructor
          · exact handed.cancels
          · exact handed.longWired
          · have wired := handed.shortWired.step (.cancelAll trading.symbol)
            rw [step_cancelAll shortIdle] at wired
            exact wired
          · exact handed.longErased
          · have erased := handed.shortErased.step handed.shortWired (.cancelAll trading.symbol)
            rw [step_cancelAll shortIdle] at erased
            exact erased
          · exact fun _ => handed.long notRunning
          · exact fun _ => clear_cancelAll trading.short trading.symbol
          · intro _
            change (trading.long.thread trading.symbol).isIdle = true
            rw [thread]
            rfl
          · exact fun _ notShort => absurd rfl (notShort selected)
          · exact fun _ isLong => nomatch isLong
      | waiting | acknowledged | cancelling => exact handed
  | cancelShort selected =>
      dsimp only
      split
      · rename_i idle
        exact handed.after phase idle
      · exact handed
  | none | fresh | running => exact handed

theorem Handed.select (handed : Handed trading) : Handed (trading.step .select) := by
  unfold Trading.step
  dsimp only
  split
  · rename_i idle
    cases phase : trading.phase with
    | none =>
        have notRunning : trading.phase ≠ .running := by
          rw [phase]
          intro running
          cases running
        have past : trading.phase.isPastLong = true := by
          rw [phase]
          rfl
        constructor
        · exact handed.cancels
        · exact handed.longWired
        · exact handed.shortWired
        · exact handed.longErased
        · exact handed.shortErased
        · exact fun _ => handed.long notRunning
        · exact fun _ => handed.short past
        · exact fun _ => handed.longIdle past
        · exact fun _ _ => (Bool.and_eq_true_iff.mp idle).2
        · exact fun _ isLong => nomatch isLong
    | fresh | running => exact handed.destroy idle true
    | cancelLong | cancelShort => exact handed
  · exact handed

theorem Handed.drop (handed : Handed trading) : Handed (trading.step .drop) := by
  unfold Trading.step
  dsimp only
  split
  · rename_i idle
    split
    · exact handed.destroy idle false
    · exact handed.destroy idle false
    · exact handed
    · exact handed
    · exact handed
  · exact handed

theorem Handed.init (handed : Handed trading) : Handed (trading.step .init) := by
  unfold Trading.step
  dsimp only
  split
  · constructor
    · exact handed.cancels
    · exact handed.longWired
    · exact handed.shortWired
    · exact handed.longErased
    · exact handed.shortErased
    · exact fun notRunning => absurd rfl notRunning
    · exact fun past => nomatch past
    · exact fun past => nomatch past
    · exact fun notRunning => absurd rfl notRunning
    · exact fun _ isLong => nomatch isLong
  · exact handed

/-! ## Runs -/

theorem Handed.step (handed : Handed trading) (event : Event α)
    (answered : CancelsAnswered trading event) : Handed (trading.step event) := by
  cases event with
  | select => exact handed.select
  | drop => exact handed.drop
  | proceed => exact handed.proceed
  | init => exact handed.init
  | long label =>
      unfold Trading.step
      dsimp only
      split
      · rename_i mayCall
        exact handed.long_step mayCall answered
      · exact handed
  | short label =>
      unfold Trading.step
      dsimp only
      split
      · rename_i mayCall
        exact handed.short_step mayCall answered
      · exact handed
  | push side request => exact handed.changeQueue side (· ++ [request]) answered
  | pop side =>
      unfold Trading.step
      dsimp only
      split
      · rename_i running
        apply handed.changeQueue side
        cases side with
        | long => exact running
        | short =>
            unfold QueueOpen
            rw [running]
            rfl
      · exact handed

omit [DecidableEq α] in
theorem Handed.initClear (handed : Handed trading) (event : Event α) :
    InitClear trading event := by
  cases event with
  | init =>
      intro isFresh
      have notRunning : trading.phase ≠ .running := by
        rw [isFresh]
        intro running
        cases running
      have past : trading.phase.isPastLong = true := by
        rw [isFresh]
        rfl
      have shortIdle : (trading.short.thread trading.symbol).isIdle = true := by
        apply handed.shortIdle notRunning
        rw [isFresh]
        intro selected isShort
        cases isShort
      have long := handed.long notRunning
      have short := handed.short past
      exact ⟨⟨long.clearing.noneLive (handed.longIdle past), long.queue⟩,
        short.clearing.noneLive shortIdle, short.queue⟩
  | _ => trivial

/-- In every run in which the destructors' cancellations are answered, each case
starts with no order of the one before. -/
theorem init_clear (symbol : α) (longAccount shortAccount : α → TradeAccount)
    (longQueue : (longAccount symbol).pendingOrders = [])
    (shortQueue : (shortAccount symbol).pendingOrders = []) (events : List (Event α))
    (answered : EveryStep Trading.step CancelsAnswered (start symbol longAccount shortAccount)
      events) :
    EveryStep Trading.step InitClear (start symbol longAccount shortAccount) events := by
  have handed : EveryState Trading.step Handed (start symbol longAccount shortAccount) events :=
    everyState_of_everyStep (fun _ event inv meets => inv.step event meets)
      (handed_start symbol longQueue shortQueue) answered
  exact everyStep_of_everyState (fun _ event inv => inv.initClear event) handed

/-- A case opens and is replaced, and the destructor's cancellation of its order
is answered as told. -/
def replaced (sent : Bool) (answer : List (OrderSystem.Label Unit)) : List (Event Unit) :=
  [.select, .init, .long (.post .open () 5 10 ⟨true, true⟩), .long (.onOrder 1 ⟨.new, 10⟩),
    .long (.advance () true), .long (.advance () true), .select, .long (.advance () sent)] ++
  answer.map .long ++
  [.long (.advance () true), .long (.advance () true), .proceed, .short (.advance () true),
    .proceed, .init]

/-- The accounts of a single symbol. -/
def singleSymbol : Trading Unit :=
  start () (fun _ => .init .long ['L'] ['X'] 1 0) fun _ => .init .short ['S'] ['X'] 1 0

/-- A confirmed cancellation leaves nothing to the next case. -/
theorem init_clear_cancelled :
    EveryStep Trading.step InitClear singleSymbol (replaced true [.onOrder 1 ⟨.canceled, 10⟩]) ∧
      (run Trading.step singleSymbol (replaced true [.onOrder 1 ⟨.canceled, 10⟩])).phase =
        .running :=
  ⟨init_clear () _ _ rfl rfl _ (by decide +kernel), by decide +kernel⟩

/-- The cancellation is not sent, and the order is handed on to the next case. -/
theorem not_init_clear_unsent :
    ¬ ∀ events, EveryStep Trading.step InitClear singleSymbol events := by
  intro all
  have clear := (everyStep_iff_forall_concat _ _).mp (all (replaced false []))
    (replaced false []).dropLast .init ⟨[], by rfl⟩ (by decide +kernel)
  exact absurd (clear.1.1 1 (by decide +kernel)) (by decide +kernel)

end Trading

end TradingApp.Orders

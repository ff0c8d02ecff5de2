import TradingApp.Instance.State
import TradingApp.Orders.Desk

/-!
# What the gateway answers

An instance calls its accounts, and its environment chooses what comes back and
which callbacks come before.  The order accounts of both sides are such an
environment: whatever they, the gateway and the other trading threads do from a
call to its return, there are replies with which the instance gets the same
result and has the same accounts.

So what holds of an instance for all replies holds of it on the order accounts.
-/

namespace TradingApp.Instance

open TradingApp.Account TradingApp.Orders TradingApp.Transition

/-! ## Callbacks -/

/-- Callbacks make the accounts of an instance those of `after`, and change
nothing else. -/
def Booked (before after : TradeAccounts) : Prop :=
  ∃ callbacks : List Callback, ∀ inst : TradeInstance, inst.accounts = before →
    callbacks.foldl TradeInstance.onCallback inst = { inst with accounts := after }

namespace Booked

variable {before middle after : TradeAccounts}

theorem refl (accounts : TradeAccounts) : Booked accounts accounts := by
  refine ⟨[], ?_⟩
  rintro inst rfl
  rfl

theorem trans (first : Booked before middle) (second : Booked middle after) :
    Booked before after := by
  obtain ⟨callbacks, booked⟩ := first
  obtain ⟨more, bookedMore⟩ := second
  refine ⟨callbacks ++ more, fun inst same => ?_⟩
  rw [List.foldl_append, booked inst same]
  exact bookedMore { inst with accounts := middle } rfl

/-- Fills and counts are what callbacks do. -/
theorem of_changes (changes : Desk.Changes before after) : Booked before after := by
  cases changes with
  | same => exact .refl before
  | counts side counts =>
      obtain ⟨openBy, closeBy, executedBy, rfl⟩ := counts
      refine ⟨[.counters side openBy closeBy executedBy], ?_⟩
      rintro inst rfl
      rfl
  | fills fill =>
      refine ⟨[.fill fill], ?_⟩
      rintro inst rfl
      rfl

end Booked

theorem foldl_onCallback (callbacks : List Callback) (context : Context) :
    ∃ log, callbacks.foldl Context.onCallback context =
      { context with inst := callbacks.foldl TradeInstance.onCallback context.inst, log } := by
  induction callbacks generalizing context with
  | nil => exact ⟨context.log, rfl⟩
  | cons callback rest ih => exact ih (context.onCallback callback)

/-- The next reply delivers its callbacks. -/
theorem run_nextReply (context : Context) (reply : Reply) (more : List Reply) :
    ∃ log, nextReply.run { context with replies := reply :: more } =
      (reply,
        { inst := reply.callbacks.foldl TradeInstance.onCallback context.inst, replies := more,
          log }) := by
  obtain ⟨log, delivered⟩ := foldl_onCallback reply.callbacks { context with replies := more }
  exact ⟨log, Prod.ext rfl delivered⟩

/-! ## Calls -/

/-- A call of the trading thread to one of its accounts. -/
inductive Call where
  | send (request : PositionRequest)
  | change (requestId : ℕ) (newPrice : ℚ) (newSize : ℕ)
  | cancelAll
deriving DecidableEq, Repr

namespace Call

/-- What the order account is called with; how it takes a new order is not up to
the trading thread. -/
def label {α : Type} (a : α) (posting : Posting) : Call → OrderSystem.Label α
  | send request => .post request.type a request.price request.size posting
  | change requestId newPrice newSize => .change a requestId newPrice newSize posting
  | cancelAll => .cancelAll a

/-- What the instance makes of it. -/
def program (side : OrderAccountType) : Call → CaseM ℕ
  | send request => sendRequest (some side) request
  | change requestId newPrice newSize => changeOrder (some side) requestId newPrice newSize
  | cancelAll => do
      Instance.cancelAll (some side)
      return 1

/-- There are replies with which the instance gets a result and has its accounts
changed. -/
def Answered (call : Call) (side : OrderAccountType) (before : TradeAccounts) (returned : ℕ)
    (after : TradeAccounts) : Prop :=
  ∃ replies, ∀ (context : Context) (more : List Reply), context.inst.accounts = before →
    ∃ log, (call.program side).run { context with replies := replies ++ more } =
      (returned, { inst := { context.inst with accounts := after }, replies := more, log })

variable {side : OrderAccountType} {before middle after : TradeAccounts}

/-- What the log records of an accepted order. -/
def accepted : RequestType → OrderAccountType → ℕ → ℕ → ℚ → Event
  | .open => .opened
  | .close => .closed

theorem sendRequest_eq (account : Option OrderAccountType) (request : PositionRequest) :
    sendRequest account request =
      sendOrder account request.price request.size (accepted request.type) fun size account =>
        account.addLive request.type size := by
  obtain ⟨type, price, size⟩ := request
  cases type <;> rfl

/-- The instance does not send an order. -/
def Blocked (request : PositionRequest) (account : TradeAccount) : Prop :=
  request.price ≤ 0 ∨ request.size / account.divisor > maximumOrderLimit ∨
    request.size / account.divisor > orderAccountMaximumLimit

/-- The counters after an order was accepted. -/
def counted (side : OrderAccountType) (request : PositionRequest) (lots : ℕ)
    (accounts : TradeAccounts) : TradeAccounts :=
  accounts.set side ((accounts.get side).addLive request.type lots)

/-- An order that is not sent. -/
theorem answered_of_blocked {request : PositionRequest}
    (blocked : Blocked request (before.get side)) :
    Answered (.send request) side before 0 before := by
  refine ⟨[], ?_⟩
  rintro context more rfl
  refine ⟨context.log, ?_⟩
  change (sendRequest (some side) request).run _ = _
  rw [sendRequest_eq, sendOrder]
  simp only [run_getInst_bind]
  split
  · rfl
  · rename_i passes
    exact absurd blocked passes

/-- A call that waits for a reply, and does something once it is there. -/
theorem run_after_nextReply {β : Type} (booked : Booked before after) :
    ∃ callbacks : List Callback, ∀ (id : ℕ) (context : Context) (more : List Reply)
      (m : Reply → CaseM β), context.inst.accounts = before →
      ∃ log, (nextReply >>= m).run
          { context with replies := { callbacks, id, cancelled := [] } :: more } =
        (m { callbacks, id, cancelled := [] }).run
          { inst := { context.inst with accounts := after }, replies := more, log } := by
  obtain ⟨callbacks, booked⟩ := booked
  refine ⟨callbacks, fun id context more m same => ?_⟩
  obtain ⟨log, replied⟩ := run_nextReply context { callbacks, id, cancelled := [] } more
  refine ⟨log, ?_⟩
  rw [run_bind, replied, booked context.inst same]

/-- An order that is sent is refused, or it is counted. -/
theorem answered_of_booked {request : PositionRequest} (booked : Booked before after)
    (passes : ¬ Blocked request (before.get side)) :
    Answered (.send request) side before 0 after ∧
      ∀ id ≠ 0, Answered (.send request) side before id
        (counted side request (request.size / (before.get side).divisor) after) := by
  obtain ⟨callbacks, waits⟩ := run_after_nextReply (β := ℕ) booked
  have replied (id : ℕ) (context : Context) (more : List Reply)
      (same : context.inst.accounts = before) : ∃ log,
      ((program side (.send request)).run
          { context with replies := [{ callbacks, id, cancelled := [] }] ++ more }) =
        (if id = 0 then return 0
        else do
          modifyAccount side fun account =>
            account.addLive request.type ((request.size / (before.get side).divisor : ℕ) : ℤ)
          record (accepted request.type side id (request.size / (before.get side).divisor)
            request.price)
          return id : CaseM ℕ).run
          { inst := { context.inst with accounts := after }, replies := more, log } := by
    subst same
    change ∃ log, (sendRequest (some side) request).run _ = _
    rw [sendRequest_eq, sendOrder]
    simp only [run_getInst_bind, List.cons_append, List.nil_append]
    split
    · rename_i blocked
      exact absurd blocked passes
    · exact waits id context more _ rfl
  constructor
  · refine ⟨[{ callbacks, id := 0, cancelled := [] }], fun context more same => ?_⟩
    obtain ⟨log, ran⟩ := replied 0 context more same
    exact ⟨log, ran⟩
  · intro id nonzero
    refine ⟨[{ callbacks, id, cancelled := [] }], fun context more same => ?_⟩
    obtain ⟨log, ran⟩ := replied id context more same
    rw [if_neg nonzero] at ran
    exact ⟨_, ran⟩

/-- A change returns zero, the order's own id, or another id if it is not too large. -/
theorem answered_change (booked : Booked before after) (requestId : ℕ) (newPrice : ℚ)
    (newSize returned : ℕ)
    (possible : (returned = 0 ∨ returned = requestId) ∨
      newSize / (before.get side).divisor ≤ orderAccountMaximumLimit) :
    Answered (.change requestId newPrice newSize) side before returned after := by
  obtain ⟨callbacks, waits⟩ := run_after_nextReply (β := ℕ) booked
  refine ⟨[{ callbacks, id := returned, cancelled := [] }], ?_⟩
  intro context more same
  subst same
  change ∃ log, (changeOrder (some side) requestId newPrice newSize).run _ = _
  simp only [changeOrder, run_getInst_bind, List.cons_append, List.nil_append]
  obtain ⟨log, replied⟩ := waits returned context more _ rfl
  rw [replied]
  split
  · exact ⟨log, rfl⟩
  · rename_i other
    split
    · rename_i tooLarge
      exact absurd (possible.resolve_left other) (Nat.not_le.mpr tooLarge)
    · exact ⟨_, rfl⟩

/-- The account without its queue. -/
def forgetPending (side : OrderAccountType) (accounts : TradeAccounts) : TradeAccounts :=
  accounts.set side { accounts.get side with pendingOrders := [] }

theorem answered_cancelAll (booked : Booked (forgetPending side before) after) :
    Answered .cancelAll side before 1 after := by
  obtain ⟨callbacks, waits⟩ := run_after_nextReply (β := Unit) booked
  refine ⟨[{ callbacks, id := 0, cancelled := [] }], ?_⟩
  intro context more same
  subst same
  let inst := context.inst.modifyAccount side fun account => { account with pendingOrders := [] }
  obtain ⟨log, replied⟩ := waits 0 { context with inst } more
    (fun reply => record (.cancelled side reply.cancelled)) rfl
  refine ⟨.cancelled side [] :: log, ?_⟩
  change (Instance.cancelAll (some side) >>= fun _ => pure 1).run _ = _
  rw [run_bind]
  have ran : (Instance.cancelAll (some side)).run
      { context with replies := [{ callbacks, id := 0, cancelled := [] }] ++ more } = _ := replied
  rw [ran]
  rfl

/-! ## From a call to its return -/

section Returns

variable {α : Type} [DecidableEq α] {desk : Desk α} {a : α} {call : Call}

/-- What a call does to the accounts at once. -/
def begun (side : OrderAccountType) (accounts : TradeAccounts) : Call → TradeAccounts
  | cancelAll => forgetPending side accounts
  | _ => accounts

/-- Where the trading thread is in a call that has not returned. -/
def Waits (desk : Desk α) (a : α) (side : OrderAccountType) (before : TradeAccounts) : Call → Prop
  | send request => ∃ id,
      ((desk.get side).thread a).wait = some (.acknowledgement request.type id) ∧
        id ≠ 0 ∧ id ≤ (desk.get side).requestIdGenerator ∧
          ((desk.get side).info id).size = request.size / (before.get side).divisor ∧
            ¬ Blocked request (before.get side)
  | change _ _ newSize => newSize / (before.get side).divisor ≤ orderAccountMaximumLimit ∧
      ∃ original id newSize, ((desk.get side).thread a).wait = some (.change original id newSize)
  | cancelAll => ∃ rest, ((desk.get side).thread a).toCancel = some rest ∧
      ((desk.get side).thread a).isIdle = false

omit [DecidableEq α] in
theorem Waits.isIdle {side : OrderAccountType} {before : TradeAccounts}
    (waits : call.Waits desk a side before) : ((desk.get side).thread a).isIdle = false := by
  cases thread : (desk.get side).thread a with
  | idle returned =>
      cases call with
      | send request =>
          obtain ⟨id, waiting, _⟩ := waits
          rw [thread] at waiting
          cases waiting
      | change requestId newPrice newSize =>
          obtain ⟨_, original, id, newSize, waiting⟩ := waits
          rw [thread] at waiting
          cases waiting
      | cancelAll =>
          obtain ⟨rest, _, inCall⟩ := waits
          rw [thread] at inCall
          exact inCall
  | waiting | acknowledged | cancelling => rfl

/-- A call that has not returned: the accounts are as callbacks have left them. -/
structure Pending (desk : Desk α) (a : α) (side : OrderAccountType) (before : TradeAccounts)
    (call : Call) : Prop where
  wired : desk.Wired
  otherIdle : ∃ returned, (desk.get side.opposite).thread a = .idle returned
  booked : Booked (call.begun side before) (desk.accounts a)
  waits : call.Waits desk a side before

/-- A call that has returned was answered, and callbacks may have come since. -/
structure Returned (desk : Desk α) (a : α) (side : OrderAccountType) (before : TradeAccounts)
    (call : Call) (returned : ℕ) : Prop where
  idle : (desk.get side).thread a = .idle returned
  otherIdle : ∃ returned, (desk.get side.opposite).thread a = .idle returned
  answered : ∃ middle, call.Answered side before returned middle ∧ Booked middle (desk.accounts a)

omit [DecidableEq α] in
/-- A thread is woken, but waits for the same. -/
theorem Waits.of_woken (waits : call.Waits desk a side before) {next : Desk α}
    (woken : (next.get side).thread a = (desk.get side).thread a ∨
      (next.get side).thread a = ((desk.get side).thread a).wake)
    (orders : ∀ id, id ≤ (desk.get side).requestIdGenerator →
      ((next.get side).info id).size = ((desk.get side).info id).size ∧
        id ≤ (next.get side).requestIdGenerator) :
    call.Waits next a side before := by
  have sameWait : ((next.get side).thread a).wait = ((desk.get side).thread a).wait := by
    rcases woken with same | woken
    · rw [same]
    · rw [woken]
      cases (desk.get side).thread a <;> rfl
  cases call with
  | send request =>
      obtain ⟨id, waiting, nonzero, le, size, passes⟩ := waits
      obtain ⟨sameSize, le⟩ := orders id le
      exact ⟨id, sameWait.trans waiting, nonzero, le, sameSize.trans size, passes⟩
  | change requestId newPrice newSize =>
      obtain ⟨fits, original, id, newSize, waiting⟩ := waits
      exact ⟨fits, original, id, newSize, sameWait.trans waiting⟩
  | cancelAll =>
      obtain ⟨rest, toCancel, inCall⟩ := waits
      rcases woken with same | woken
      · exact ⟨rest, by rw [same]; exact toCancel, by rw [same]; exact inCall⟩
      · refine ⟨rest, by rw [woken, Thread.toCancel_wake]; exact toCancel, ?_⟩
        rw [woken]
        cases thread : (desk.get side).thread a with
        | idle returned =>
            rw [thread] at inCall
            cases inCall
        | waiting | acknowledged | cancelling => rfl

/-- Where the trading thread does not count an order, its accounts are booked. -/
theorem Pending.booked_step {side : OrderAccountType} {before : TradeAccounts}
    (pending : Pending desk a side before call) {label : Desk.Label α}
    (noCall : label.2.caller ≠ some a)
    (notFinishing : ∀ sent, label = (side, .advance a sent) → ∀ request id,
      (desk.get side).thread a ≠ .acknowledged (.acknowledgement request id)) :
    Booked (call.begun side before) ((desk.step label).accounts a) := by
  apply pending.booked.trans
  apply Booked.of_changes
  apply desk.changes_step noCall
  intro sent isAdvance request id
  by_cases same : label.1 = side
  · subst same
    exact notFinishing sent (Prod.ext rfl isAdvance) request id
  · have opposite : label.1 = side.opposite :=
      TradeAccounts.eq_opposite_of_ne fun back => same back.symm
    obtain ⟨returned, idle⟩ := pending.otherIdle
    rw [opposite, idle]
    exact Thread.noConfusion

/-- A step of anybody else leaves the call where it is. -/
theorem Pending.step_of_ne {side : OrderAccountType} {before : TradeAccounts}
    (pending : Pending desk a side before call) {label : Desk.Label α}
    (noCall : label.2.caller ≠ some a) (others : ∀ sent, label ≠ (side, .advance a sent)) :
    Pending (desk.step label) a side before call where
  wired := pending.wired.step label
  otherIdle := by
    obtain ⟨returned, idle⟩ := pending.otherIdle
    exact ⟨returned, Desk.idle_step idle noCall⟩
  booked := pending.booked_step noCall fun sent same => absurd same (others sent)
  waits := pending.waits.of_woken (Desk.waiting_step others noCall) fun _ le =>
    pending.wired.size label le

/-- The trading thread runs on in the call, or returns from it. -/
theorem Pending.advance {side : OrderAccountType} {before : TradeAccounts}
    (pending : Pending desk a side before call) (sent : Bool) :
    Pending (desk.step (side, .advance a sent)) a side before call ∨
      ∃ returned, Returned (desk.step (side, .advance a sent)) a side before call returned := by
  have noCall : (Prod.snd (side, OrderSystem.Label.advance a sent)).caller ≠ some a := nofun
  have own : (desk.step (side, .advance a sent)).get side =
      (desk.get side).step (.advance a sent) :=
    desk.get_step_self _
  have otherIdle : ∃ returned,
      ((desk.step (side, .advance a sent)).get side.opposite).thread a = .idle returned := by
    obtain ⟨returned, idle⟩ := pending.otherIdle
    exact ⟨returned, Desk.idle_step idle noCall⟩
  have waits := pending.waits
  cases call with
  | send request =>
      obtain ⟨id, waiting, nonzero, le, size, passes⟩ := waits
      cases thread : (desk.get side).thread a with
      | idle | cancelling =>
          rw [thread] at waiting
          cases waiting
      | waiting wait asleep =>
          rw [thread] at waiting
          obtain rfl := Option.some.inj waiting
          have booked := pending.booked_step noCall fun _ _ request id same => by
            rw [thread] at same
            cases same
          rcases OrderSystem.advance_waiting sent thread rfl with still | ⟨returned, idle, zero⟩
          · left
            obtain ⟨sameSize, le⟩ := pending.wired.size (side, .advance a sent) le
            refine ⟨pending.wired.step _, otherIdle, booked, id, ?_, nonzero, le,
              sameSize.trans size, passes⟩
            rw [own]
            exact still
          · right
            obtain rfl := zero request.type rfl
            refine ⟨0, ?_, otherIdle, _, (answered_of_booked booked passes).1, .refl _⟩
            rw [own]
            exact idle
      | acknowledged wait =>
          rw [thread] at waiting
          obtain rfl := Option.some.inj waiting
          right
          have finishes := OrderSystem.step_acknowledged sent thread
          refine ⟨id, ?_, otherIdle, _, ?_, .refl _⟩
          · rw [own, finishes]
            simp [OrderSystem.finish]
          · have accounts : (desk.step (side, .advance a sent)).accounts a =
                counted side request (request.size / (before.get side).divisor)
                  (desk.accounts a) := by
              change (desk.set side ((desk.get side).step (.advance a sent))).accounts a = _
              rw [Desk.accounts_set, finishes]
              simp [OrderSystem.finish, counted, size]
            rw [accounts]
            exact (answered_of_booked pending.booked passes).2 id nonzero
  | change requestId newPrice newSize =>
      have booked := pending.booked_step noCall fun _ _ request id same => by
        obtain ⟨_, original, key, newSize, waiting⟩ := waits
        rw [same] at waiting
        cases waiting
      obtain ⟨fits, original, id, newSize, waiting⟩ := waits
      cases thread : (desk.get side).thread a with
      | idle | cancelling =>
          rw [thread] at waiting
          cases waiting
      | waiting wait asleep =>
          rw [thread] at waiting
          obtain rfl := Option.some.inj waiting
          rcases OrderSystem.advance_waiting sent thread rfl with still | ⟨returned, idle, _⟩
          · left
            refine ⟨pending.wired.step _, otherIdle, booked, fits, original, id, newSize, ?_⟩
            rw [own]
            exact still
          · right
            refine ⟨returned, ?_, otherIdle, _,
              answered_change booked _ _ _ _ (.inr fits), .refl _⟩
            rw [own]
            exact idle
      | acknowledged wait =>
          rw [thread] at waiting
          obtain rfl := Option.some.inj waiting
          right
          refine ⟨id, ?_, otherIdle, _, answered_change booked _ _ _ _ (.inr fits), .refl _⟩
          rw [own, OrderSystem.step_acknowledged sent thread]
          simp [OrderSystem.finish]
  | cancelAll =>
      obtain ⟨rest, toCancel, inCall⟩ := waits
      have booked := pending.booked_step noCall fun _ _ request id same => by
        rw [same] at toCancel
        cases toCancel
      rcases OrderSystem.advance_toCancel sent toCancel inCall with ⟨later, still⟩ | idle
      · left
        refine ⟨pending.wired.step _, otherIdle, booked, later, ?_⟩
        rw [own]
        exact still
      · right
        refine ⟨1, ?_, otherIdle, _, answered_cancelAll booked, .refl _⟩
        rw [own]
        exact idle

/-- After the return there are only callbacks. -/
theorem Returned.step {side : OrderAccountType} {before : TradeAccounts} {returned : ℕ}
    (isReturned : Returned desk a side before call returned) {label : Desk.Label α}
    (noCall : label.2.caller ≠ some a) :
    Returned (desk.step label) a side before call returned := by
  obtain ⟨idle, ⟨otherReturned, otherIdle⟩, middle, answered, booked⟩ := isReturned
  refine ⟨Desk.idle_step idle noCall, ⟨otherReturned, Desk.idle_step otherIdle noCall⟩, middle,
    answered, booked.trans ?_⟩
  apply Booked.of_changes
  apply desk.changes_step noCall
  intro sent _ request id
  by_cases same : label.1 = side
  · rw [same, idle]
    exact Thread.noConfusion
  · rw [TradeAccounts.eq_opposite_of_ne (Ne.symm same), otherIdle]
    exact Thread.noConfusion

/-- A call that was begun is pending until it has returned. -/
theorem pending_or_returned_step {side : OrderAccountType} {before : TradeAccounts}
    (begun : Pending desk a side before call ∨
      ∃ returned, Returned desk a side before call returned)
    {label : Desk.Label α} (noCall : label.2.caller ≠ some a) :
    Pending (desk.step label) a side before call ∨
      ∃ returned, Returned (desk.step label) a side before call returned := by
  rcases begun with pending | ⟨returned, isReturned⟩
  · by_cases own : ∃ sent, label = (side, .advance a sent)
    · obtain ⟨sent, rfl⟩ := own
      exact pending.advance sent
    · exact Or.inl (pending.step_of_ne noCall fun sent same => own ⟨sent, same⟩)
  · exact Or.inr ⟨returned, isReturned.step noCall⟩

theorem pending_or_returned_run {side : OrderAccountType} {before : TradeAccounts}
    (begun : Pending desk a side before call ∨
      ∃ returned, Returned desk a side before call returned)
    {labels : List (Desk.Label α)} (noCall : ∀ label ∈ labels, label.2.caller ≠ some a) :
    Pending (run Desk.step desk labels) a side before call ∨
      ∃ returned, Returned (run Desk.step desk labels) a side before call returned := by
  induction labels generalizing desk with
  | nil => exact begun
  | cons label rest ih =>
      obtain ⟨first, later⟩ := List.forall_mem_cons.mp noCall
      exact ih (pending_or_returned_step begun first) later

theorem exists_idle {thread : Thread} (isIdle : thread.isIdle = true) :
    ∃ returned, thread = .idle returned := by
  cases thread with
  | idle returned => exact ⟨returned, rfl⟩
  | waiting | acknowledged | cancelling => cases isIdle

/-- A call begins, or it returns at once. -/
theorem begins (side : OrderAccountType) (wired : desk.Wired)
    (idle : ∀ side, ((desk.get side).thread a).isIdle = true) (posting : Posting) (call : Call) :
    Pending (desk.step (side, call.label a posting)) a side (desk.accounts a) call ∨
      ∃ returned, Returned (desk.step (side, call.label a posting)) a side (desk.accounts a) call
        returned := by
  have own : (desk.step (side, call.label a posting)).get side =
      (desk.get side).step (call.label a posting) := by
    rw [desk.get_step_self (side, call.label a posting)]
    cases call <;> rfl
  have accounts : (desk.step (side, call.label a posting)).accounts a =
      (desk.accounts a).set side (((desk.get side).step (call.label a posting)).account a) := by
    cases call <;> exact Desk.accounts_set desk side _ a
  have otherIdle : ∃ returned,
      ((desk.step (side, call.label a posting)).get side.opposite).thread a = .idle returned := by
    obtain ⟨returned, isIdle⟩ := exists_idle (idle side.opposite)
    refine ⟨returned, ?_⟩
    rcases desk.get_step_of_ne (side, call.label a posting) (Desk.opposite_ne side) with
      next | ⟨b, account, next⟩
    · rw [next]
      exact isIdle
    · rw [next]
      exact isIdle
  have returns {returned : ℕ} {after : TradeAccounts}
      (isIdle : ((desk.get side).step (call.label a posting)).thread a = .idle returned)
      (same : (desk.step (side, call.label a posting)).accounts a = after)
      (answered : call.Answered side (desk.accounts a) returned after) :
      ∃ returned, Returned (desk.step (side, call.label a posting)) a side (desk.accounts a) call
        returned := by
    subst same
    exact ⟨returned, by rw [own]; exact isIdle, otherIdle, _, answered, .refl _⟩
  have unchanged (same : ((desk.get side).step (call.label a posting)).account =
      (desk.get side).account) :
      (desk.step (side, call.label a posting)).accounts a = desk.accounts a := by
    rw [accounts, same, ← Desk.accounts_get, TradeAccounts.set_get]
  cases call with
  | send request =>
      have steps : (desk.get side).step (.post request.type a request.price request.size posting) =
          (desk.get side).post request.type a request.price request.size posting :=
        if_pos (idle side)
      obtain ⟨account, thread⟩ :=
        (desk.get side).post_begins request.type a request.price request.size
        posting
      rw [← steps] at account thread
      have same := unchanged account
      rcases thread with isIdle | ⟨passes, waiting, generator, size⟩
      · right
        apply returns isIdle same
        by_cases blocked : Blocked request ((desk.accounts a).get side)
        · exact answered_of_blocked blocked
        · exact (answered_of_booked (.refl _) blocked).1
      · left
        rw [← Desk.accounts_get] at passes size
        refine ⟨wired.step _, otherIdle, by rw [same]; exact .refl _,
          (desk.get side).requestIdGenerator + 1, ?_, Nat.succ_ne_zero _, ?_, ?_, passes⟩
        · rw [own]
          exact congrArg Thread.wait waiting
        · rw [own]
          exact generator.ge
        · rw [own]
          exact size
  | change requestId newPrice newSize =>
      have steps : (desk.get side).step (.change a requestId newPrice newSize posting) =
          (desk.get side).change a requestId newPrice newSize posting :=
        if_pos (idle side)
      obtain ⟨account, thread⟩ := (desk.get side).change_begins a requestId newPrice newSize posting
      rw [← steps] at account thread
      have same := unchanged account
      rcases thread with ⟨returned, refused, isIdle⟩ | ⟨fits, waiting⟩
      · exact Or.inr (returns isIdle same (answered_change (.refl _) _ _ _ _ (.inl refused)))
      · left
        rw [← Desk.accounts_get] at fits
        refine ⟨wired.step _, otherIdle, by rw [same]; exact .refl _, fits, requestId,
          (desk.get side).requestIdGenerator + 1, newSize, ?_⟩
        rw [own]
        exact congrArg Thread.wait waiting
  | cancelAll =>
      have steps : (desk.get side).step (.cancelAll a) = (desk.get side).cancelAll a :=
        if_pos (idle side)
      left
      refine ⟨wired.step _, otherIdle, ?_, (desk.get side).orders a, ?_⟩
      · have emptied : (desk.step (side, .cancelAll a)).accounts a =
            forgetPending side (desk.accounts a) := by
          rw [forgetPending, Desk.accounts_get]
          refine accounts.trans ?_
          change TradeAccounts.set _ side (((desk.get side).step (.cancelAll a)).account a) = _
          rw [steps]
          simp [OrderSystem.cancelAll]
        change Booked (forgetPending side (desk.accounts a)) _
        rw [← emptied]
        exact .refl _
      · rw [own]
        have thread : ((desk.get side).step (.cancelAll a)).thread a =
            .cancelling ((desk.get side).orders a) := by
          rw [steps]
          simp [OrderSystem.cancelAll]
        exact ⟨congrArg Thread.toCancel thread, congrArg Thread.isIdle thread⟩

/-- Whatever the order accounts do, a call that returns was answered, and since its
return there were only callbacks. -/
theorem everyCall_answered (accounts : α → TradeAccounts) (earlier : List (Desk.Label α))
    (idle : ∀ side,
      (((run Desk.step (Desk.start accounts) earlier).get side).thread a).isIdle = true)
    (side : OrderAccountType) (call : Call) (posting : Posting) {later : List (Desk.Label α)}
    (noCall : ∀ label ∈ later, label.2.caller ≠ some a) {returned : ℕ}
    (returns : ((run Desk.step (Desk.start accounts)
      (earlier ++ (side, call.label a posting) :: later)).get side).thread a = .idle returned) :
    ∃ middle,
      call.Answered side ((run Desk.step (Desk.start accounts) earlier).accounts a) returned
          middle ∧
        Booked middle ((run Desk.step (Desk.start accounts)
          (earlier ++ (side, call.label a posting) :: later)).accounts a) := by
  rw [run_append, run_cons] at returns ⊢
  have wired := Desk.wired_run accounts earlier
  have begun := begins side wired idle posting call
  rcases pending_or_returned_run begun noCall with
    pending | ⟨value, isReturned⟩
  · have inCall := pending.waits.isIdle
    rw [returns] at inCall
    cases inCall
  · obtain rfl : value = returned := Thread.idle.inj (isReturned.idle.symm.trans returns)
    exact isReturned.answered

/-- Two lots are opened; the first fill comes before the acknowledgement, the second
one after the return. -/
theorem everyCall_answered_twoLots :
    let accounts : Unit → TradeAccounts := fun _ =>
      { longAcc := .init .long ['L'] ['X'] 1 0, shortAcc := .init .short ['S'] ['X'] 1 0 }
    let later : List (Desk.Label Unit) :=
      [(.long, .advance () true), (.long, .onFill 1 5 1 1 (.init .short [] [] 1 0)),
        (.long, .onOrder 1 { condition := .new, openSize := 1 }), (.long, .advance () true),
        (.long, .advance () true), (.long, .onFill 1 5 1 0 (.init .short [] [] 1 0))]
    let call : Call := .send { type := .open, price := 5, size := 2 }
    let posting : Posting := { limitSet := true, sent := true }
    ∃ middle, call.Answered .long (accounts ()) 1 middle ∧
      Booked middle ((run Desk.step (Desk.start accounts)
        ((.long, call.label () posting) :: later)).accounts ()) := by
  intro accounts later call posting
  exact everyCall_answered accounts [] (fun side => by cases side <;> rfl) .long call posting
    (by decide) (by decide +kernel)

end Returns

end Call

end TradingApp.Instance

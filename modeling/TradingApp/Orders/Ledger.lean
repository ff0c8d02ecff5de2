import Mathlib.Data.Finset.Option
import TradingApp.Orders.Accounts
import TradingApp.Orders.Lives

/-!
# The ledger of live orders

The live counters of an account are raised when a call returns, and lowered
when an order is done, when a requested cancellation is answered, and for the
order that a change has replaced.  The ledger keeps the orders each of these was
done for beside what the gateway has said about them.

An order should be entered once and taken out once: it is acknowledged while its
call waits, and it is done, cancelled on request with nothing filled, or replaced
by another one that was acknowledged.
-/

namespace TradingApp.Orders

open TradingApp.Account TradingApp.Transition

variable {α : Type}

/-- The order that a change replaces. -/
def Wait.original : Wait → Option ℕ
  | change original _ _ => some original
  | _ => none

namespace OrderSystem

/-- What has become of the orders so far. -/
structure Ledger where
  /-- the order that an order replaces -/
  parent : ℕ → Option ℕ
  acknowledged : Finset ℕ
  done : Finset ℕ
  canceled : Finset ℕ
  changed : Finset ℕ
  /-- the lots each order was filled for -/
  filled : ℕ → ℕ
  /-- the orders that a returning call has counted -/
  accepted : Finset ℕ
  /-- the orders whose replacement a returning call has counted -/
  replaced : Finset ℕ
  /-- the orders that a cancellation has taken off -/
  withdrawn : Finset ℕ

namespace Ledger

/-- There are no orders. -/
def empty : Ledger where
  parent _ := none
  acknowledged := ∅
  done := ∅
  canceled := ∅
  changed := ∅
  filled _ := 0
  accepted := ∅
  replaced := ∅
  withdrawn := ∅

/-- An order that is done, cancelled, or changed into one that is so. -/
inductive Terminal (ledger : Ledger) : ℕ → Prop
  | done {id : ℕ} (member : id ∈ ledger.done) : Terminal ledger id
  | canceled {id : ℕ} (member : id ∈ ledger.canceled) : Terminal ledger id
  | changed {id new : ℕ} (member : id ∈ ledger.changed) (replaces : ledger.parent new = some id)
      (acknowledged : new ∈ ledger.acknowledged) (terminal : Terminal ledger new) :
      Terminal ledger id

/-- No replacement of the order was acknowledged. -/
def Unreplaced (ledger : Ledger) (id : ℕ) : Prop :=
  ∀ new ∈ ledger.acknowledged, ledger.parent new ≠ some id

instance (ledger : Ledger) (id : ℕ) : Decidable (ledger.Unreplaced id) :=
  inferInstanceAs (Decidable (∀ _ ∈ _, _))

end Ledger

/-- The order that a change asks to replace. -/
def Label.original : Label α → Option ℕ
  | .change _ original _ _ _ => some original
  | _ => none

/-- The order in the hash that a message reports a condition of. -/
def messaged (system : OrderSystem α) (condition : OrderCondition) : Label α → Option ℕ
  | .onOrder id order =>
      if id ∈ system.orderHash ∧ order.condition = condition then some id else none
  | _ => none

/-- The wait of a call that returns. -/
def finished (system : OrderSystem α) : Label α → Option Wait
  | .advance a _ =>
      match system.thread a with
      | .acknowledged wait => some wait
      | _ => none
  | _ => none

/-- The order whose cancellation a thread finds confirmed. -/
def withdrawn (system : OrderSystem α) : Label α → Option ℕ
  | .advance a _ =>
      match system.thread a with
      | .waiting (.cancel id _) _ => if (system.info id).cancelStage = .done then some id else none
      | _ => none
  | _ => none

/-- The call that has sent an order waits for it. -/
def awaits (system : OrderSystem α) (id : ℕ) : Bool :=
  match (system.info id).onAcknowledgementFunction with
  | some a =>
      match system.thread a with
      | .waiting wait _ => wait.posted = some id
      | _ => false
  | none => false

/-- A thread waits until the order is cancelled. -/
def awaitsCancel (system : OrderSystem α) (id : ℕ) : Bool :=
  match (system.info id).onAcknowledgementFunction with
  | some a =>
      match system.thread a with
      | .waiting (.cancel key _) _ => key = id
      | _ => false
  | none => false

/-- A cancelled order reports what was left unfilled. -/
def ReportsUnfilled (state : OrderSystem α × Ledger) : Label α → Prop
  | .onOrder id order =>
      order.condition = .canceled → order.openSize + state.2.filled id = (state.1.info id).size
  | _ => True

/-- An order is acknowledged while its call waits, it is done only after that,
and it is not replaced if it is done or cancelled. -/
def Orderly (state : OrderSystem α × Ledger) : Label α → Prop
  | .onOrder id order =>
      id ∈ state.1.orderHash →
        (order.condition = .new → id ∉ state.2.acknowledged →
          state.1.awaits id = true ∧ ∀ original ∈ state.2.parent id,
            state.2.Unreplaced original ∧ original ∉ state.2.done ∧ original ∉ state.2.canceled) ∧
        (order.condition = .done → id ∈ state.2.acknowledged ∧ state.2.Unreplaced id) ∧
        (order.condition = .canceled → id ∈ state.2.acknowledged → state.2.Unreplaced id)
  | _ => True

/-- An acknowledged order is cancelled while its account waits for that, and
with nothing filled. -/
def CancelsUnfilled (state : OrderSystem α × Ledger) : Label α → Prop
  | .onOrder id order =>
      id ∈ state.1.orderHash → order.condition = .canceled → id ∈ state.2.acknowledged →
        state.1.awaitsCancel id = true ∧ state.2.filled id = 0
  | _ => True

instance decidableReportsUnfilled (state : OrderSystem α × Ledger) :
    (label : Label α) → Decidable (ReportsUnfilled state label)
  | .onOrder _ _ => inferInstanceAs (Decidable (_ → _))
  | .post _ _ _ _ _ | .change _ _ _ _ _ | .cancel _ _ _ | .cancelAll _ | .advance _ _
  | .onOrderCancel _ | .onOrderChange _ _ | .onFill _ _ _ _ _ => inferInstanceAs (Decidable True)

instance decidableOrderly (state : OrderSystem α × Ledger) :
    (label : Label α) → Decidable (Orderly state label)
  | .onOrder _ _ => inferInstanceAs (Decidable (_ → _ ∧ _))
  | .post _ _ _ _ _ | .change _ _ _ _ _ | .cancel _ _ _ | .cancelAll _ | .advance _ _
  | .onOrderCancel _ | .onOrderChange _ _ | .onFill _ _ _ _ _ => inferInstanceAs (Decidable True)

instance decidableCancelsUnfilled (state : OrderSystem α × Ledger) :
    (label : Label α) → Decidable (CancelsUnfilled state label)
  | .onOrder _ _ => inferInstanceAs (Decidable (_ → _ → _ → _))
  | .post _ _ _ _ _ | .change _ _ _ _ _ | .cancel _ _ _ | .cancelAll _ | .advance _ _
  | .onOrderCancel _ | .onOrderChange _ _ | .onFill _ _ _ _ _ => inferInstanceAs (Decidable True)

/-- A call has an answer that it has still to count. -/
def Counting (state : OrderSystem α × Ledger) (a : α) : Prop :=
  match state.1.thread a with
  | .waiting (.cancel id _) _ => (state.1.info id).cancelStage = .done
  | .waiting wait _ | .acknowledged wait => ∃ id ∈ state.2.acknowledged, wait.posted = some id
  | .idle _ | .cancelling _ => False

/-- Where no call of an account has an answer to count, and all its acknowledged
orders are terminal, its live counters are zero. -/
def CountersClear (state : OrderSystem α × Ledger) : Prop :=
  ∀ a, ¬ Counting state a →
    (∀ id ∈ state.2.acknowledged, (state.1.info id).onAcknowledgementFunction = some a →
      state.2.Terminal id) →
    ∀ counter, (state.1.account a).live counter = 0

variable [DecidableEq α]

/-- The ledger after a step. -/
def ledger (ledger : Ledger) (system : OrderSystem α) (label : Label α) : Ledger where
  parent :=
    if system.Draws label then
      Function.update ledger.parent (system.requestIdGenerator + 1) label.original
    else ledger.parent
  acknowledged := ledger.acknowledged ∪ (system.messaged .new label).toFinset
  done := ledger.done ∪ (system.messaged .done label).toFinset
  canceled := ledger.canceled ∪ (system.messaged .canceled label).toFinset
  changed := ledger.changed ∪ (system.messaged .changed label).toFinset
  filled id := ledger.filled id + label.filledLots id
  accepted := ledger.accepted ∪ ((system.finished label).bind Wait.posted).toFinset
  replaced := ledger.replaced ∪ ((system.finished label).bind Wait.original).toFinset
  withdrawn := ledger.withdrawn ∪ (system.withdrawn label).toFinset

variable {system next : OrderSystem α} {ledger : Ledger} {label : Label α}

/-! ## Entries of a step -/

omit [DecidableEq α] in
theorem mem_messaged {condition : OrderCondition} {id : ℕ} :
    id ∈ (system.messaged condition label).toFinset ↔
      ∃ order, label = .onOrder id order ∧ id ∈ system.orderHash ∧ order.condition = condition := by
  rw [Option.mem_toFinset, Option.mem_def]
  cases label with
  | onOrder key order =>
      simp only [messaged, Option.ite_none_right_eq_some, Option.some.injEq]
      constructor
      · rintro ⟨⟨found, same⟩, rfl⟩
        exact ⟨order, rfl, found, same⟩
      · rintro ⟨_, equal, found, same⟩
        cases equal
        exact ⟨⟨found, same⟩, rfl⟩
  | _ => simp [messaged]

omit [DecidableEq α] in
theorem finished_eq_some {wait : Wait} :
    system.finished label = some wait ↔
      ∃ a sent, label = .advance a sent ∧ system.thread a = .acknowledged wait := by
  cases label with
  | advance a sent =>
      unfold finished
      constructor
      · intro isFinished
        cases thread : system.thread a with
        | acknowledged other =>
            simp only [thread, Option.some.injEq] at isFinished
            exact ⟨a, sent, rfl, isFinished ▸ thread⟩
        | idle | waiting | cancelling => simp [thread] at isFinished
      · rintro ⟨b, _, equal, thread⟩
        cases equal
        simp only [thread]
  | _ => simp [finished]

omit [DecidableEq α] in
theorem mem_withdrawn {id : ℕ} :
    id ∈ (system.withdrawn label).toFinset ↔
      ∃ a sent rest asleep, label = .advance a sent ∧
        system.thread a = .waiting (.cancel id rest) asleep ∧
          (system.info id).cancelStage = .done := by
  rw [Option.mem_toFinset, Option.mem_def]
  cases label with
  | advance a sent =>
      unfold withdrawn
      constructor
      · intro isWithdrawn
        cases thread : system.thread a with
        | waiting wait asleep =>
            cases wait with
            | cancel key rest =>
                simp only [thread, Option.ite_none_right_eq_some, Option.some.injEq] at isWithdrawn
                obtain ⟨done, rfl⟩ := isWithdrawn
                exact ⟨a, sent, rest, asleep, rfl, thread, done⟩
            | acknowledgement | change => simp [thread] at isWithdrawn
        | idle | acknowledged | cancelling => simp [thread] at isWithdrawn
      · rintro ⟨b, _, rest, asleep, equal, thread, done⟩
        cases equal
        simp only [thread]
        exact if_pos done
  | _ => simp [withdrawn]

omit [DecidableEq α] in
theorem mem_finished {select : Wait → Option ℕ} {id : ℕ} :
    id ∈ ((system.finished label).bind select).toFinset ↔
      ∃ a sent wait, label = .advance a sent ∧ system.thread a = .acknowledged wait ∧
        select wait = some id := by
  rw [Option.mem_toFinset, Option.mem_def, Option.bind_eq_some_iff]
  constructor
  · rintro ⟨wait, isFinished, isSelected⟩
    obtain ⟨a, sent, isLabel, thread⟩ := finished_eq_some.mp isFinished
    exact ⟨a, sent, wait, isLabel, thread, isSelected⟩
  · rintro ⟨a, sent, wait, isLabel, thread, isSelected⟩
    exact ⟨wait, finished_eq_some.mpr ⟨a, sent, isLabel, thread⟩, isSelected⟩

/-- The parent of an order that is already there stays. -/
theorem ledger_parent_of_le {id : ℕ} (le : id ≤ system.requestIdGenerator) :
    (system.ledger ledger label).parent id = ledger.parent id := by
  unfold OrderSystem.ledger
  dsimp only
  split
  · exact Function.update_of_ne (Nat.ne_of_lt (Nat.lt_succ_of_le le)) _ _
  · rfl

theorem ledger_parent_new (draws : system.Draws label) :
    (system.ledger ledger label).parent (system.requestIdGenerator + 1) = label.original := by
  unfold OrderSystem.ledger
  dsimp only
  rw [if_pos draws, Function.update_self]

section Members

variable {id : ℕ}

theorem mem_acknowledged_step : id ∈ (system.ledger ledger label).acknowledged ↔
    id ∈ ledger.acknowledged ∨
      ∃ order, label = .onOrder id order ∧ id ∈ system.orderHash ∧ order.condition = .new := by
  rw [← mem_messaged]
  exact Finset.mem_union

theorem mem_done_step : id ∈ (system.ledger ledger label).done ↔
    id ∈ ledger.done ∨
      ∃ order, label = .onOrder id order ∧ id ∈ system.orderHash ∧ order.condition = .done := by
  rw [← mem_messaged]
  exact Finset.mem_union

theorem mem_canceled_step : id ∈ (system.ledger ledger label).canceled ↔
    id ∈ ledger.canceled ∨
      ∃ order, label = .onOrder id order ∧ id ∈ system.orderHash ∧ order.condition = .canceled := by
  rw [← mem_messaged]
  exact Finset.mem_union

theorem mem_changed_step : id ∈ (system.ledger ledger label).changed ↔
    id ∈ ledger.changed ∨
      ∃ order, label = .onOrder id order ∧ id ∈ system.orderHash ∧ order.condition = .changed := by
  rw [← mem_messaged]
  exact Finset.mem_union

theorem mem_accepted_step : id ∈ (system.ledger ledger label).accepted ↔
    id ∈ ledger.accepted ∨ ∃ a sent wait, label = .advance a sent ∧
      system.thread a = .acknowledged wait ∧ wait.posted = some id := by
  rw [← mem_finished]
  exact Finset.mem_union

theorem mem_replaced_step : id ∈ (system.ledger ledger label).replaced ↔
    id ∈ ledger.replaced ∨ ∃ a sent wait, label = .advance a sent ∧
      system.thread a = .acknowledged wait ∧ wait.original = some id := by
  rw [← mem_finished]
  exact Finset.mem_union

theorem mem_withdrawn_step : id ∈ (system.ledger ledger label).withdrawn ↔
    id ∈ ledger.withdrawn ∨ ∃ a sent rest asleep, label = .advance a sent ∧
      system.thread a = .waiting (.cancel id rest) asleep ∧
        (system.info id).cancelStage = .done := by
  rw [← mem_withdrawn]
  exact Finset.mem_union

end Members

/-! ## What the ledger says -/

/-- The order was rejected after all. -/
def Rejected (state : OrderSystem α × Ledger) (id : ℕ) : Prop :=
  id ∉ state.1.orderHash ∧ id ∉ state.2.done ∧ id ∉ state.2.canceled ∧ id ∉ state.2.changed

/-- What holds of an order that is waited for. -/
def WaitEntered (state : OrderSystem α × Ledger) : Wait → Prop
  | .acknowledgement _ id => id ∉ state.2.accepted ∧ state.2.parent id = none
  | .change original id newSize =>
      id ∉ state.2.accepted ∧ state.2.parent id = some original ∧
        original ∈ state.2.acknowledged ∧
          (newSize = 0 → (state.1.info id).size = (state.1.info original).size)
  | .cancel id _ => id ∈ state.2.acknowledged ∧ id ∉ state.2.withdrawn

/-- What the ledger has to do with the hash, the maps and the threads: each
acknowledged order is entered under what has become of it. -/
structure Entered (state : OrderSystem α × Ledger) : Prop where
  wired : Wired state.1
  erased : CancelledErased state.1
  posted : ∀ id ∈ state.2.acknowledged, ∃ a request, state.1.Posted id a request
  ended : ∀ id, id ∈ state.2.done ∨ id ∈ state.2.canceled ∨ id ∈ state.2.changed →
    id ≤ state.1.requestIdGenerator ∧ id ∉ state.1.orderHash
  flag : ∀ id, (state.1.info id).acknowledged = true → id ∈ state.2.acknowledged
  keys : ∀ a, ∀ id ∈ state.1.orders a, id ∈ state.2.acknowledged
  parents : ∀ id original, id ≤ state.1.requestIdGenerator → state.2.parent id = some original →
    ∃ a request, state.1.Posted original a request ∧ state.1.Posted id a request
  waits : ∀ a wait, (state.1.thread a).wait = some wait → WaitEntered state wait
  passed : ∀ a wait id, state.1.thread a = .acknowledged wait → wait.posted = some id →
    id ∈ state.2.acknowledged
  lives : ∀ id ∈ state.2.acknowledged, id ∈ state.2.accepted ∨ Rejected state id ∨
    ∃ a wait, (state.1.thread a).wait = some wait ∧ wait.posted = some id ∧
      (state.1.info id).acknowledged = true
  accepted : ∀ id ∈ state.2.accepted, id ∈ state.2.acknowledged ∧
    ∀ original, state.2.parent id = some original → original ∈ state.2.replaced
  replaced : ∀ id ∈ state.2.replaced, id ∈ state.2.acknowledged ∧
    ∃ new ∈ state.2.accepted, state.2.parent new = some id
  only : ∀ id ∈ state.2.acknowledged, ∀ other ∈ state.2.acknowledged, ∀ original,
    state.2.parent id = some original → state.2.parent other = some original → id = other
  apart : ∀ id, (id ∈ state.2.done → id ∉ state.2.canceled ∧ id ∉ state.2.changed) ∧
    (id ∈ state.2.canceled → id ∉ state.2.changed)
  done : ∀ id ∈ state.2.done, id ∈ state.2.acknowledged
  unreplaced : ∀ id ∈ state.2.acknowledged, id ∈ state.2.done ∨ id ∈ state.2.canceled →
    state.2.Unreplaced id
  cancelled : ∀ id, (state.1.info id).cancelStage = .done → id ∈ state.2.canceled
  canceled : ∀ id ∈ state.2.canceled, id ∈ state.2.acknowledged →
    id ∈ state.2.withdrawn ∨ ∃ a rest asleep,
      state.1.thread a = .waiting (.cancel id rest) asleep ∧
        (state.1.info id).cancelStage = .done ∧
          (state.1.info id).order.openSize = (state.1.info id).size
  withdrawn : ∀ id ∈ state.2.withdrawn, id ∈ state.2.acknowledged ∧ id ∈ state.2.canceled ∧
    (state.1.info id).stage = .cancelled

omit [DecidableEq α] in
theorem entered_start (accountType : OrderAccountType) (account : α → TradeAccount) :
    Entered (start accountType account, Ledger.empty) where
  wired := wired_start accountType account
  erased := cancelledErased_start accountType account
  posted _ member := absurd member (Finset.notMem_empty _)
  ended id member := by
    rcases member with member | member | member <;> exact absurd member (Finset.notMem_empty id)
  flag _ flagged := nomatch flagged
  keys _ _ isKey := nomatch isKey
  parents _ _ _ isParent := nomatch isParent
  waits _ _ isWait := nomatch isWait
  passed _ _ _ isPassed := nomatch isPassed
  lives _ member := absurd member (Finset.notMem_empty _)
  accepted _ member := absurd member (Finset.notMem_empty _)
  replaced _ member := absurd member (Finset.notMem_empty _)
  only _ member := absurd member (Finset.notMem_empty _)
  apart id := ⟨fun member => absurd member (Finset.notMem_empty id),
    fun member => absurd member (Finset.notMem_empty id)⟩
  done _ member := absurd member (Finset.notMem_empty _)
  unreplaced _ member := absurd member (Finset.notMem_empty _)
  cancelled _ isDone := nomatch isDone
  canceled _ member := absurd member (Finset.notMem_empty _)
  withdrawn _ member := absurd member (Finset.notMem_empty _)

end OrderSystem

end TradingApp.Orders

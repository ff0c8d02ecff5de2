import TradingApp.Orders.System

/-!
# What a message changes

The effect of each message on the order it is about, on the maps, on the
threads and on the accounts, one lemma for each part of the state.
-/

namespace TradingApp.Orders

open TradingApp.Account

namespace OrderCondition

/-- The conditions after which an order is not in the hash any more. -/
def isFinal : OrderCondition → Bool
  | done | canceled | changed | denied | rejected | orderUnknown | other _ => true
  | _ => false

/-- The conditions of an order that has failed. -/
def isFailure : OrderCondition → Bool
  | denied | rejected | orderUnknown | other _ => true
  | _ => false

theorem isFinal_of_isFailure {condition : OrderCondition} (failure : condition.isFailure = true) :
    condition.isFinal = true := by
  cases condition <;> first | rfl | cases failure

end OrderCondition

namespace OrderInfo

variable {α : Type}

/-- The order after a message. -/
def receive (info : OrderInfo α) (order : OrderMessage) : OrderInfo α :=
  match order.condition with
  | .new =>
      if info.onAcknowledgementFunction.isSome then
        { info with order := order, stage := .acknowledged, acknowledged := true }
      else { info with order := order }
  | .done =>
      if info.onOrderDoneFunction.isSome then { info with order := order, stage := .done }
      else { info with order := order }
  | .canceled =>
      if info.onOrderCancelFunction.isSome then
        { info with order := order, stage := .cancelled, cancelStage := .done }
      else { info with order := order }
  | .cancelRejected | .tooLateToCancel =>
      if info.onOrderCancelFunction.isSome then
        { info with order := order, cancelStage := .fail }
      else { info with order := order }
  | .denied | .rejected | .orderUnknown | .other _ =>
      if info.onAcknowledgementFunction.isSome then
        { info with order := order, stage := .failed, acknowledged := false }
      else { info with order := order }
  | _ => { info with order := order }

/-- The account whose thread a message wakes. -/
def notified (info : OrderInfo α) (condition : OrderCondition) : Option α :=
  match condition with
  | .new | .denied | .rejected | .orderUnknown | .other _ => info.onAcknowledgementFunction
  | .canceled | .cancelRejected | .tooLateToCancel => info.onOrderCancelFunction
  | _ => none

/-- The account whose map a message takes the order out of. -/
def dropped (info : OrderInfo α) (condition : OrderCondition) : Option α :=
  match condition with
  | .done => info.onOrderDoneFunction
  | .changed => info.onOrderChangeFunction
  | _ => none

end OrderInfo

namespace OrderSystem

variable {α : Type} (system : OrderSystem α) (id : ℕ)

/-- The lots an order is filled for by a step. -/
def Label.filledLots (label : Label α) (id : ℕ) : ℕ :=
  match label with
  | .onFill key _ size _ _ => if id = key then size else 0
  | _ => 0

theorem modify_modify (f g : OrderInfo α → OrderInfo α) :
    (system.modify id f).modify id g = system.modify id fun info => g (f info) := by
  simp only [modify, Function.update_self, Function.update_idem]

variable [DecidableEq α] (order : OrderMessage)

/-! ## `OnOrder` -/

theorem onOrderFound_info :
    (system.onOrderFound id order).info =
      Function.update system.info id ((system.info id).receive order) := by
  unfold onOrderFound OrderInfo.receive
  dsimp only
  cases condition : order.condition with
  | new | denied | rejected | orderUnknown | other =>
      cases function : (system.info id).onAcknowledgementFunction with
      | none => simp [modify, eraseHash, function]
      | some a =>
          simp [modify, eraseHash, onNewOrderAcknowledgement, notify, function]
  | done =>
      cases function : (system.info id).onOrderDoneFunction with
      | none => simp [modify, eraseHash, function]
      | some a =>
          simp [modify, eraseHash, onOrderDone, eraseOrder, setAccount, function]
  | canceled | cancelRejected | tooLateToCancel =>
      cases function : (system.info id).onOrderCancelFunction with
      | none => simp [modify, eraseHash, function]
      | some a => simp [modify, eraseHash, onOrderCancel, notify, function]
  | changed | changeRejected =>
      cases function : (system.info id).onOrderChangeFunction with
      | none => simp [modify, eraseHash, function]
      | some a => simp [modify, eraseHash, onOrderChange, eraseOrder, function]
  | _ => rfl

theorem onOrderFound_orderHash :
    (system.onOrderFound id order).orderHash =
      if order.condition.isFinal then system.orderHash.erase id else system.orderHash := by
  unfold onOrderFound
  dsimp only
  cases condition : order.condition with
  | new | denied | rejected | orderUnknown | other =>
      cases function : (system.info id).onAcknowledgementFunction <;> rfl
  | done => cases function : (system.info id).onOrderDoneFunction <;> rfl
  | canceled | cancelRejected | tooLateToCancel =>
      cases function : (system.info id).onOrderCancelFunction <;> rfl
  | changed | changeRejected =>
      cases function : (system.info id).onOrderChangeFunction <;> rfl
  | _ => rfl

theorem onOrderFound_thread :
    (system.onOrderFound id order).thread =
      match (system.info id).notified order.condition with
      | some a => Function.update system.thread a (system.thread a).wake
      | none => system.thread := by
  unfold onOrderFound OrderInfo.notified
  dsimp only
  cases condition : order.condition with
  | new | denied | rejected | orderUnknown | other =>
      cases function : (system.info id).onAcknowledgementFunction <;> rfl
  | done => cases function : (system.info id).onOrderDoneFunction <;> rfl
  | canceled | cancelRejected | tooLateToCancel =>
      cases function : (system.info id).onOrderCancelFunction <;> rfl
  | changed | changeRejected =>
      cases function : (system.info id).onOrderChangeFunction <;> rfl
  | _ => rfl

theorem onOrderFound_orders :
    (system.onOrderFound id order).orders =
      match (system.info id).dropped order.condition with
      | some a => Function.update system.orders a ((system.orders a).filter (· ≠ id))
      | none => system.orders := by
  unfold onOrderFound OrderInfo.dropped
  dsimp only
  cases condition : order.condition with
  | new | denied | rejected | orderUnknown | other =>
      cases function : (system.info id).onAcknowledgementFunction <;> rfl
  | done => cases function : (system.info id).onOrderDoneFunction <;> rfl
  | canceled | cancelRejected | tooLateToCancel =>
      cases function : (system.info id).onOrderCancelFunction <;> rfl
  | changed | changeRejected =>
      cases function : (system.info id).onOrderChangeFunction <;> rfl
  | _ => rfl

/-- Only an order that is done is counted. -/
theorem onOrderFound_account :
    (system.onOrderFound id order).account =
      match order.condition, (system.info id).onOrderDoneFunction with
      | .done, some a =>
          Function.update system.account a ((system.account a).countDone (system.info id))
      | _, _ => system.account := by
  unfold onOrderFound
  dsimp only
  cases condition : order.condition with
  | new | denied | rejected | orderUnknown | other =>
      cases function : (system.info id).onAcknowledgementFunction <;> rfl
  | done =>
      cases function : (system.info id).onOrderDoneFunction with
      | none => rfl
      | some a =>
          simp only [modify_modify, onOrderDone]
          funext b
          simp only [eraseHash_account, eraseOrder_account, setAccount_account, modify_account,
            modify_info, Function.update_self]
          rfl
  | canceled | cancelRejected | tooLateToCancel =>
      cases function : (system.info id).onOrderCancelFunction <;> rfl
  | changed | changeRejected =>
      cases function : (system.info id).onOrderChangeFunction <;> rfl
  | _ => rfl

theorem onOrderFound_fixed :
    (system.onOrderFound id order).accountType = system.accountType ∧
      (system.onOrderFound id order).requestIdGenerator = system.requestIdGenerator := by
  unfold onOrderFound
  dsimp only
  cases condition : order.condition with
  | new | denied | rejected | orderUnknown | other =>
      cases function : (system.info id).onAcknowledgementFunction <;> exact ⟨rfl, rfl⟩
  | done => cases function : (system.info id).onOrderDoneFunction <;> exact ⟨rfl, rfl⟩
  | canceled | cancelRejected | tooLateToCancel =>
      cases function : (system.info id).onOrderCancelFunction <;> exact ⟨rfl, rfl⟩
  | changed | changeRejected =>
      cases function : (system.info id).onOrderChangeFunction <;> exact ⟨rfl, rfl⟩
  | _ => exact ⟨rfl, rfl⟩

/-! ## `OnFill` -/

section Fill

variable {system : OrderSystem α}

theorem onFill_info {id : ℕ} (found : id ∈ system.orderHash) (price : ℚ) (size openSize : ℕ)
    (other : TradeAccount) :
    ∃ fillSize, (system.onFill id price size openSize other).info =
      Function.update system.info id
        { system.info id with
          stage := if openSize = 0 then .filled else (system.info id).stage
          fillSize := fillSize } := by
  unfold onFill
  rw [if_pos found]
  dsimp only
  split
  · refine ⟨(system.info id).fillSize + size, ?_⟩
    unfold onFillReceived
    rw [modify_modify]
    rfl
  · exact ⟨(system.info id).fillSize, rfl⟩

variable (id : ℕ) (price : ℚ) (size openSize : ℕ) (other : TradeAccount)

theorem onFill_fixed :
    (system.onFill id price size openSize other).accountType = system.accountType ∧
      (system.onFill id price size openSize other).requestIdGenerator =
        system.requestIdGenerator ∧
      (system.onFill id price size openSize other).orderHash = system.orderHash ∧
      (system.onFill id price size openSize other).orders = system.orders ∧
      (system.onFill id price size openSize other).thread = system.thread := by
  unfold onFill
  split
  · dsimp only
    split <;> exact ⟨rfl, rfl, rfl, rfl, rfl⟩
  · exact ⟨rfl, rfl, rfl, rfl, rfl⟩

end Fill

end OrderSystem

end TradingApp.Orders

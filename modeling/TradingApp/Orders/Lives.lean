import TradingApp.Orders.Creation

/-!
# The life of an order

What a step may change of an order that was sent: its account's thread asks for
a change or a cancellation of it, or the gateway's thread delivers a message
about it while it is in the hash.  From this follow the rules of its life.  It
is acknowledged by `NEW` only, done by `DONE` only, cancelled by `CANCELED` only,
and left alone once it is erased.
-/

namespace TradingApp.Orders

open TradingApp.Account

variable {α : Type}

namespace OrderInfo

theorem acknowledged_receive {info : OrderInfo α} {order : OrderMessage}
    (acknowledged : (info.receive order).acknowledged = true) :
    info.acknowledged = true ∨ order.condition = .new := by
  unfold receive at acknowledged
  cases condition : order.condition with
  | new => exact Or.inr rfl
  | done | canceled | cancelRejected | tooLateToCancel =>
      left
      rw [condition] at acknowledged
      dsimp only at acknowledged
      split at acknowledged <;> exact acknowledged
  | denied | rejected | orderUnknown | other =>
      left
      rw [condition] at acknowledged
      dsimp only at acknowledged
      split at acknowledged
      · cases acknowledged
      · exact acknowledged
  | _ =>
      left
      rw [condition] at acknowledged
      exact acknowledged

theorem receive_acknowledged {info : OrderInfo α} {order : OrderMessage}
    (acknowledged : info.acknowledged = true) :
    (info.receive order).acknowledged = true ∨ order.condition.isFailure = true := by
  unfold receive
  cases condition : order.condition with
  | new | done | canceled | cancelRejected | tooLateToCancel =>
      left
      dsimp only
      split
      · first | rfl | exact acknowledged
      · exact acknowledged
  | denied | rejected | orderUnknown | other => exact Or.inr rfl
  | _ => exact Or.inl acknowledged

theorem cancelStage_receive {info : OrderInfo α} {order : OrderMessage}
    (done : (info.receive order).cancelStage = .done) :
    info.cancelStage = .done ∨
      order.condition = .canceled ∧ (info.receive order).stage = .cancelled := by
  unfold receive at done ⊢
  cases condition : order.condition with
  | canceled =>
      rw [condition] at done
      dsimp only at done ⊢
      split at done
      · rename_i set
        rw [if_pos set]
        exact Or.inr ⟨rfl, rfl⟩
      · exact Or.inl done
  | cancelRejected | tooLateToCancel =>
      left
      rw [condition] at done
      dsimp only at done
      split at done
      · cases done
      · exact done
  | new | done | denied | rejected | orderUnknown | other =>
      left
      rw [condition] at done
      dsimp only at done
      split at done <;> exact done
  | _ =>
      left
      rw [condition] at done
      exact done

theorem stage_receive_done {info : OrderInfo α} {order : OrderMessage}
    (done : (info.receive order).stage = .done) : info.stage = .done ∨ order.condition = .done := by
  unfold receive at done
  cases condition : order.condition with
  | done => exact Or.inr rfl
  | new | denied | rejected | orderUnknown | other | canceled =>
      left
      rw [condition] at done
      dsimp only at done
      split at done
      · cases done
      · exact done
  | cancelRejected | tooLateToCancel =>
      left
      rw [condition] at done
      dsimp only at done
      split at done <;> exact done
  | _ =>
      left
      rw [condition] at done
      exact done

/-- Only `NEW` brings an order back to life. -/
theorem canCancel_receive {info : OrderInfo α} {order : OrderMessage}
    (live : (info.receive order).canCancel = true) :
    info.canCancel = true ∨ order.condition = .new := by
  unfold receive at live
  cases condition : order.condition with
  | new => exact Or.inr rfl
  | done | canceled | denied | rejected | orderUnknown | other =>
      left
      rw [condition] at live
      dsimp only at live
      split at live
      · cases live
      · exact live
  | cancelRejected | tooLateToCancel =>
      left
      rw [condition] at live
      dsimp only at live
      split at live <;> exact live
  | _ =>
      left
      rw [condition] at live
      exact live

end OrderInfo

namespace OrderSystem

variable {system next : OrderSystem α} {label : Label α}

/-- What becomes of an order that was sent. -/
inductive Lives (system : OrderSystem α) (label : Label α) (id : ℕ) : OrderInfo α → Prop
  | same : Lives system label id (system.info id)
  | asksChange (a : α) :
      Lives system label id { system.info id with onOrderChangeFunction := some a }
  | asksCancel (a : α) (free : (system.thread a).wait = none) (isKey : id ∈ system.orders a) :
      Lives system label id
        { system.info id with onOrderCancelFunction := some a, cancelStage := .init }
  | cancelFails (a : α) (rest : Option (List ℕ)) (asleep : Bool)
      (thread : system.thread a = .waiting (.cancel id rest) asleep)
      (stage : (system.info id).cancelStage = .fail) :
      Lives system label id { system.info id with cancelStage := .none }
  | receives (order : OrderMessage) (found : id ∈ system.orderHash)
      (isLabel : label = .onOrder id order) :
      Lives system label id ((system.info id).receive order)
  | cancelMessage (found : id ∈ system.orderHash) :
      Lives system label id { system.info id with stage := .cancelled }
  | changeMessage (found : id ∈ system.orderHash) :
      Lives system label id { system.info id with stage := .failed }
  | fills (found : id ∈ system.orderHash) (openSize fillSize : ℕ) :
      Lives system label id
        { system.info id with
          stage := if openSize = 0 then .filled else (system.info id).stage
          fillSize := fillSize }

/-- An update of one order is the life of all. -/
theorem lives_update {key : ℕ} {after : OrderInfo α} (lives : Lives system label key after)
    (id : ℕ) : Lives system label id (Function.update system.info key after id) := by
  rw [Function.update_apply]
  split
  · rename_i same
    subst same
    exact lives
  · exact .same

section Next

variable [DecidableEq α] (step : Next system label next)

include step

theorem Next.lives {id : ℕ} (le : id ≤ system.requestIdGenerator) :
    Lives system label id (next.info id) := by
  cases step with
  | posts =>
      rw [setThread_info, emplace_info_of_le _ le]
      exact .same
  | asks => exact lives_update (.asksChange _) id
  | changes =>
      rw [setThread_info, askChange_emplace_info le]
      exact lives_update (.asksChange _) id
  | unsent =>
      rw [setThread_info, eraseHash_info, askChange_emplace_info le]
      exact lives_update (.asksChange _) id
  | cancelUnsent a key thread before after isKey =>
      exact lives_update (.asksCancel a before isKey) id
  | cancels a key rest before isKey => exact lives_update (.asksCancel a before isKey) id
  | cancelFails thread stage => exact lives_update (.cancelFails _ _ _ thread stage) id
  | finishesChange => split <;> exact .same
  | message found =>
      rw [onOrderFound_info]
      exact lives_update (.receives _ found rfl) id
  | cancelMessage found => exact lives_update (.cancelMessage found) id
  | changeMessage found => exact lives_update (.changeMessage found) id
  | @fill key price size openSize other found =>
      obtain ⟨fillSize, info⟩ := onFill_info found price size openSize other
      rw [info]
      exact lives_update (.fills found openSize fillSize) id
  | _ => exact .same

/-- A thread passes the wait for an acknowledgement once the order has it. -/
theorem Next.passed {a : α} {wait : Wait} (passed : next.thread a = .acknowledged wait) :
    system.thread a = .acknowledged wait ∨
      ∃ asleep id, system.thread a = .waiting wait asleep ∧ wait.posted = some id ∧
        (system.info id).acknowledged = true := by
  cases step with
  | same => exact Or.inl passed
  | returns b thread before after => exact Or.inl (thread_of_returned rfl after passed)
  | drops b id thread before after => exact Or.inl (thread_of_returned rfl after passed)
  | cancelUnsent b id thread before after => exact Or.inl (thread_of_returned rfl after passed)
  | posts =>
      refine Or.inl (thread_of_setThread ?_ passed)
      split <;> exact Thread.noConfusion
  | accepts thread posted acknowledged =>
      simp only [setThread_thread, addOrder_thread, Function.update_apply] at passed
      split at passed
      · rename_i same
        cases passed
        exact Or.inr ⟨_, _, same ▸ thread, posted, acknowledged⟩
      · exact Or.inl passed
  | cancelFails | cancelled =>
      exact Or.inl (thread_of_returned rfl (wait_afterCancel _ _) passed)
  | finishesChange =>
      simp only [setThread_thread] at passed
      split at passed
      · exact Or.inl (thread_of_setThread Thread.noConfusion passed)
      · exact Or.inl (thread_of_setThread Thread.noConfusion passed)
  | message found =>
      rw [onOrderFound_thread] at passed
      split at passed
      · rename_i b _
        rw [Function.update_apply] at passed
        split at passed
        · rename_i same
          cases thread : system.thread b with
          | waiting =>
              rw [thread] at passed
              exact Thread.noConfusion passed
          | _ =>
              rw [thread] at passed
              rw [same, thread]
              exact Or.inl passed
        · exact Or.inl passed
      · exact Or.inl passed
  | fill found =>
      rw [(onFill_fixed ..).2.2.2.2] at passed
      exact Or.inl passed
  | cancelMessage | changeMessage => exact Or.inl passed
  | _ => exact Or.inl (thread_of_setThread Thread.noConfusion passed)

end Next

variable {id : ℕ} {after : OrderInfo α}

/-- An order is acknowledged by `NEW`. -/
theorem Lives.acknowledged (lives : Lives system label id after)
    (acknowledged : after.acknowledged = true) :
    (system.info id).acknowledged = true ∨
      ∃ order, label = .onOrder id order ∧ order.condition = .new ∧ id ∈ system.orderHash := by
  cases lives with
  | receives order found isLabel =>
      rcases OrderInfo.acknowledged_receive acknowledged with before | new
      · exact Or.inl before
      · exact Or.inr ⟨order, isLabel, new, found⟩
  | _ => exact Or.inl acknowledged

/-- It stays so unless it is rejected after all. -/
theorem Lives.keepsAcknowledged (lives : Lives system label id after)
    (acknowledged : (system.info id).acknowledged = true) :
    after.acknowledged = true ∨
      ∃ order, label = .onOrder id order ∧ order.condition.isFailure = true ∧
        id ∈ system.orderHash := by
  cases lives with
  | receives order found isLabel =>
      rcases OrderInfo.receive_acknowledged acknowledged with still | failure
      · exact Or.inl still
      · exact Or.inr ⟨order, isLabel, failure, found⟩
  | _ => exact Or.inl acknowledged

/-- An order is cancelled by `CANCELED`. -/
theorem Lives.cancelStage_done (lives : Lives system label id after)
    (done : after.cancelStage = .done) :
    (system.info id).cancelStage = .done ∨
      after.stage = .cancelled ∧
        ∃ order, label = .onOrder id order ∧ order.condition = .canceled ∧
          id ∈ system.orderHash := by
  cases lives with
  | asksCancel => cases done
  | cancelFails => cases done
  | receives order found isLabel =>
      rcases OrderInfo.cancelStage_receive done with before | ⟨canceled, stage⟩
      · exact Or.inl before
      · exact Or.inr ⟨stage, order, isLabel, canceled, found⟩
  | _ => exact Or.inl done

/-- An order is done by `DONE`. -/
theorem Lives.stage_done (lives : Lives system label id after) (done : after.stage = .done) :
    (system.info id).stage = .done ∨
      ∃ order, label = .onOrder id order ∧ order.condition = .done ∧ id ∈ system.orderHash := by
  cases lives with
  | receives order found isLabel =>
      rcases OrderInfo.stage_receive_done done with before | condition
      · exact Or.inl before
      · exact Or.inr ⟨order, isLabel, condition, found⟩
  | cancelMessage => cases done
  | changeMessage => cases done
  | fills found openSize =>
      left
      by_cases filled : openSize = 0
      · rw [if_pos filled] at done
        cases done
      · rw [if_neg filled] at done
        exact done
  | _ => exact Or.inl done

/-- Only `NEW` brings an order back to life. -/
theorem Lives.canCancel (lives : Lives system label id after) (live : after.canCancel = true) :
    (system.info id).canCancel = true ∨
      ∃ order, label = .onOrder id order ∧ order.condition = .new ∧ id ∈ system.orderHash := by
  cases lives with
  | receives order found isLabel =>
      rcases OrderInfo.canCancel_receive live with before | new
      · exact Or.inl before
      · exact Or.inr ⟨order, isLabel, new, found⟩
  | cancelMessage => cases live
  | changeMessage => cases live
  | fills found openSize =>
      left
      by_cases filled : openSize = 0
      · rw [if_pos filled] at live
        cases live
      · rw [if_neg filled] at live
        exact live
  | _ => exact Or.inl live

/-- No message changes an order that was erased. -/
theorem Lives.erased (lives : Lives system label id after) (erased : id ∉ system.orderHash) :
    after.stage = (system.info id).stage ∧ after.order = (system.info id).order := by
  cases lives with
  | receives order found => exact absurd found erased
  | cancelMessage found => exact absurd found erased
  | changeMessage found => exact absurd found erased
  | fills found => exact absurd found erased
  | _ => exact ⟨rfl, rfl⟩

/-! ## Cancelled orders -/

variable [DecidableEq α]

/-- An order whose cancellation was confirmed is cancelled and erased. -/
def CancelledErased (system : OrderSystem α) : Prop :=
  ∀ id, (system.info id).cancelStage = .done →
    id ≤ system.requestIdGenerator ∧ (system.info id).stage = .cancelled ∧ id ∉ system.orderHash

omit [DecidableEq α] in
theorem cancelledErased_start (accountType : OrderAccountType) (account : α → TradeAccount) :
    CancelledErased (start accountType account) :=
  fun _ done => nomatch done

omit [DecidableEq α] in
theorem canCancel_eq_false_of_cancelled {info : OrderInfo α} (stage : info.stage = .cancelled) :
    info.canCancel = false := by
  unfold OrderInfo.canCancel
  rw [stage]

/-- A message for an order in the hash. -/
theorem step_onOrder (found : id ∈ system.orderHash) (order : OrderMessage) :
    system.step (.onOrder id order) = system.onOrderFound id order :=
  if_pos found

omit [DecidableEq α] in
/-- A new order is not acknowledged. -/
theorem Creates.acknowledged (creates : Creates system next label) :
    (next.info (system.requestIdGenerator + 1)).acknowledged = false := by
  cases creates with
  | post info => rw [info]; rfl
  | change before info => rw [info]; rfl

omit [DecidableEq α] in
/-- A new order was not cancelled. -/
theorem Creates.cancelStage (creates : Creates system next label) :
    (next.info (system.requestIdGenerator + 1)).cancelStage = .none := by
  cases creates with
  | post info => rw [info]; rfl
  | change before info => rw [info]; rfl

/-- Erased orders stay erased. -/
theorem Next.not_mem_orderHash (step : Next system label next)
    (le : id ≤ system.requestIdGenerator) (erased : id ∉ system.orderHash) :
    id ∉ next.orderHash := by
  intro found
  rcases step.mem_orderHash found with before | ⟨new, _⟩
  · exact erased before
  · exact absurd new (Nat.ne_of_lt (Nat.lt_succ_of_le le))

/-- A final message erases its order. -/
theorem not_mem_orderHash_of_isFinal {order : OrderMessage} (found : id ∈ system.orderHash)
    (final : order.condition.isFinal = true) :
    id ∉ (system.step (.onOrder id order)).orderHash := by
  rw [step_onOrder found, onOrderFound_orderHash, if_pos final]
  exact Finset.notMem_erase _ _

theorem CancelledErased.step (erased : CancelledErased system) (wired : Wired system)
    (label : Label α) : CancelledErased (system.step label) := by
  intro id done
  have steps : Next system label (system.step label) := step_spec system label
  by_cases le : id ≤ system.requestIdGenerator
  · have lives := steps.lives le
    refine ⟨le.trans steps.requestIdGenerator_le, ?_⟩
    rcases lives.cancelStage_done done with before | ⟨stage, order, rfl, canceled, found⟩
    · obtain ⟨_, stage, notFound⟩ := erased id before
      exact ⟨(lives.erased notFound).1.trans stage, steps.not_mem_orderHash le notFound⟩
    · refine ⟨stage, not_mem_orderHash_of_isFinal found ?_⟩
      rw [canceled]
      rfl
  · rcases steps.new_or_same wired (Nat.not_le.mp le) with ⟨creates, rfl⟩ | same
    · rw [creates.cancelStage] at done
      cases done
    · rw [same] at done
      exact absurd (erased id done).1 le

end OrderSystem

end TradingApp.Orders

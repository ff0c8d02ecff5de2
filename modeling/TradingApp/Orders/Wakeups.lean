import TradingApp.Orders.Threads
import TradingApp.Orders.Wiring

/-!
# Wake-ups

A thread that sleeps in a wait looks at its predicate when it is woken.  No
wake-up is lost if a message that makes the predicate true also wakes the
thread.

Four messages set the stage of an order and wake nobody: the order is done, it
is filled, `OnOrderCancel`, and `OnOrderChange` for an unknown order.  A wake-up
is lost exactly when one of them comes while a thread sleeps until the order is
acknowledged.
-/

namespace TradingApp.Orders

open TradingApp.Account TradingApp.Transition

variable {α : Type}

/-- The order a wait is about. -/
def Wait.order : Wait → ℕ
  | acknowledgement _ id => id
  | change _ id _ => id
  | cancel id _ => id

theorem Wait.order_of_posted {wait : Wait} {id : ℕ} (posted : wait.posted = some id) :
    wait.order = id := by
  cases wait with
  | acknowledgement request key => exact Option.some.inj posted
  | change original key newSize => exact Option.some.inj posted
  | cancel key rest => exact nomatch posted

/-- The order whose stage a message sets without waking a thread. -/
def OrderSystem.Label.silent : OrderSystem.Label α → Option ℕ
  | .onOrder id order => if order.condition = .done then some id else none
  | .onOrderCancel id => some id
  | .onOrderChange id condition => if condition = .orderUnknown then some id else none
  | .onFill id _ _ openSize _ => if openSize = 0 then some id else none
  | _ => none

namespace OrderInfo

/-- The gateway has answered a cancellation. -/
def Answered (info : OrderInfo α) : Prop :=
  info.cancelStage = .done ∨ info.cancelStage = .fail

/-- What is waited for is not so after a step if it was not so before. -/
structure StillWaits (before after : OrderInfo α) : Prop where
  acknowledged : after.isAcknowledged = true → before.isAcknowledged = true
  answered : after.Answered → before.Answered

theorem StillWaits.refl (info : OrderInfo α) : StillWaits info info :=
  ⟨id, id⟩

variable {info : OrderInfo α} {side : OrderAccountType} {a : α} {request : RequestType}

/-- A message that does not wake the account's thread answers no cancellation. -/
theorem WiredTo.answered_receive (wired : info.WiredTo side a request) {order : OrderMessage}
    (unnotified : info.notified order.condition ≠ some a)
    (answered : (info.receive order).Answered) : info.Answered := by
  have unset (same : info.notified order.condition = info.onOrderCancelFunction) :
      info.onOrderCancelFunction.isSome = false := by
    cases function : info.onOrderCancelFunction with
    | none => rfl
    | some b =>
        obtain rfl := wired.cancel b function
        exact absurd (same.trans function) unnotified
  unfold receive at answered
  cases condition : order.condition with
  | canceled | cancelRejected | tooLateToCancel =>
      rw [condition] at unset answered
      dsimp only at answered
      rw [unset rfl] at answered
      exact answered
  | new | denied | rejected | orderUnknown | other | done =>
      rw [condition] at answered
      dsimp only at answered
      split at answered <;> exact answered
  | _ =>
      rw [condition] at answered
      exact answered

/-- A message that does not wake the account's thread acknowledges no order,
unless the order is done. -/
theorem WiredTo.acknowledged_receive (wired : info.WiredTo side a request) {order : OrderMessage}
    (unnotified : info.notified order.condition ≠ some a) (notDone : order.condition ≠ .done)
    (acknowledged : (info.receive order).isAcknowledged = true) : info.isAcknowledged = true := by
  have unset (same : info.notified order.condition = info.onOrderCancelFunction) :
      info.onOrderCancelFunction.isSome = false := by
    cases function : info.onOrderCancelFunction with
    | none => rfl
    | some b =>
        obtain rfl := wired.cancel b function
        exact absurd (same.trans function) unnotified
  unfold receive at acknowledged
  cases condition : order.condition with
  | done => exact absurd condition notDone
  | canceled =>
      rw [condition] at unset acknowledged
      dsimp only at acknowledged
      rw [unset rfl] at acknowledged
      exact acknowledged
  | cancelRejected | tooLateToCancel =>
      rw [condition] at acknowledged
      dsimp only at acknowledged
      split at acknowledged <;> exact acknowledged
  | new | denied | rejected | orderUnknown | other =>
      rw [condition] at unnotified
      exact absurd wired.acknowledgement unnotified
  | _ =>
      rw [condition] at acknowledged
      exact acknowledged

end OrderInfo

namespace OrderSystem

/-- A sleeping thread has nothing to wake up for. -/
def NoLostWakeup (system : OrderSystem α) : Prop :=
  ∀ a wait, system.thread a = .waiting wait true → system.ends wait = false

/-- No thread sleeps until the order is acknowledged whose stage the message
sets silently. -/
def Heard (system : OrderSystem α) (label : Label α) : Prop :=
  ∀ id, label.silent = some id → id ∈ system.orderHash →
    ∀ a wait, system.thread a = .waiting wait true → wait.posted ≠ some id

variable {system next : OrderSystem α} {wait : Wait}

/-- The predicate of a wait that stays false. -/
theorem ends_eq_false
    (acknowledged : ∀ id, wait.posted = some id → (next.info id).isAcknowledged = true →
      (system.info id).isAcknowledged = true)
    (answered : (next.info wait.order).Answered → (system.info wait.order).Answered)
    (ends : system.ends wait = false) : next.ends wait = false := by
  by_contra now
  have now : next.ends wait = true := by simpa using now
  have before : system.ends wait = true := by
    cases wait with
    | acknowledgement request id => exact acknowledged id rfl now
    | change original id newSize => exact acknowledged id rfl now
    | cancel id rest =>
        have both : (next.info id).Answered := by
          simpa [OrderSystem.ends, OrderInfo.Answered] using now
        have before : (system.info id).Answered := answered both
        simpa [OrderSystem.ends, OrderInfo.Answered] using before
  exact absurd (ends.symm.trans before) Bool.false_ne_true

theorem ends_of_stillWaits
    (still : (system.info wait.order).StillWaits (next.info wait.order))
    (ends : system.ends wait = false) : next.ends wait = false := by
  apply ends_eq_false _ still.answered ends
  intro id posted acknowledged
  obtain rfl := Wait.order_of_posted posted
  exact still.acknowledged acknowledged

/-- The order of a wait has been sent by the account that waits. -/
theorem Wired.posted_order (wired : Wired system) {a : α}
    (waits : (system.thread a).wait = some wait) :
    ∃ request, system.Posted wait.order a request := by
  have waitWired := wired.thread a wait waits
  cases wait with
  | acknowledgement request id => exact ⟨request, waitWired⟩
  | change original id newSize =>
      obtain ⟨request, _, posted⟩ := waitWired
      exact ⟨request, posted⟩
  | cancel id rest => exact waitWired.1

theorem update_stillWaits {info : ℕ → OrderInfo α} {id : ℕ} {after : OrderInfo α}
    (still : (info id).StillWaits after) (other : ℕ) :
    (info other).StillWaits (Function.update info id after other) := by
  rw [Function.update_apply]
  split
  · rename_i same
    subst same
    exact still
  · exact .refl _

variable [DecidableEq α] {a : α}

omit [DecidableEq α] in
theorem askChange_stillWaits (b : α) (key id : ℕ) :
    (system.info id).StillWaits ((system.askChange b key).info id) := by
  apply update_stillWaits
  exact ⟨fun same => same, fun same => same⟩

omit [DecidableEq α] in
theorem askCancel_stillWaits (b : α) (key id : ℕ) :
    (system.info id).StillWaits ((system.askCancel b key).info id) := by
  apply update_stillWaits
  exact ⟨fun same => same, fun same => by rcases same with same | same <;> cases same⟩

theorem asleep_setThread {b : α} {thread : Thread}
    (asleep : (system.setThread b thread).thread a = .waiting wait true) :
    a = b ∧ thread = .waiting wait true ∨ system.thread a = .waiting wait true := by
  rw [setThread_thread, Function.update_apply] at asleep
  split at asleep
  · rename_i same
    exact Or.inl ⟨same, asleep⟩
  · exact Or.inr asleep

/-- A message's sleeping thread was not woken. -/
theorem asleep_message {id : ℕ} {order : OrderMessage}
    (asleep : (system.onOrderFound id order).thread a = .waiting wait true) :
    system.thread a = .waiting wait true ∧
      (system.info id).notified order.condition ≠ some a := by
  rw [onOrderFound_thread] at asleep
  split at asleep
  · rename_i b notified
    rw [Function.update_apply] at asleep
    split at asleep
    · rename_i same
      subst same
      cases thread : system.thread a <;> rw [thread] at asleep <;> cases asleep
    · rename_i different
      refine ⟨asleep, fun woken => different ?_⟩
      exact Option.some.inj (woken.symm.trans notified)
  · rename_i notified
    exact ⟨asleep, fun woken => nomatch notified.symm.trans woken⟩

/-- A message that is heard makes no predicate true of a thread that sleeps on. -/
theorem ends_message (wired : Wired system) {id : ℕ} {order : OrderMessage}
    (found : id ∈ system.orderHash) (heard : system.Heard (.onOrder id order))
    (asleep : (system.onOrderFound id order).thread a = .waiting wait true)
    (ends : system.ends wait = false) : (system.onOrderFound id order).ends wait = false := by
  obtain ⟨before, unnotified⟩ := asleep_message asleep
  have waits : (system.thread a).wait = some wait := by
    rw [before]
    rfl
  obtain ⟨request, posted⟩ := wired.posted_order waits
  have here (key : ℕ) (same : key = id) (isOrder : wait.order = key) :
      (system.info id).WiredTo system.accountType a request := by
    subst same isOrder
    exact posted.wired
  refine ends_eq_false (fun key isPosted acknowledged => ?_) (fun answered => ?_) ends
  · rw [onOrderFound_info, Function.update_apply] at acknowledged
    split at acknowledged
    · rename_i same
      have notDone : order.condition ≠ .done := by
        rintro done
        have silent : (Label.onOrder id order : Label α).silent = some id := if_pos done
        exact heard id silent found a wait before (same ▸ isPosted)
      rw [same]
      exact (here key same (Wait.order_of_posted isPosted)).acknowledged_receive unnotified notDone
        acknowledged
    · exact acknowledged
  · rw [onOrderFound_info, Function.update_apply] at answered
    split at answered
    · rename_i same
      rw [same]
      exact (here _ same rfl).answered_receive unnotified answered
    · exact answered

omit [DecidableEq α] in
/-- A message that sets the stage of an order, and nothing else that is waited
for. -/
theorem ends_silent {id : ℕ} {after : OrderInfo α}
    (info : next.info = Function.update system.info id after)
    (cancelStage : after.cancelStage = (system.info id).cancelStage)
    (other : wait.posted ≠ some id) (ends : system.ends wait = false) :
    next.ends wait = false := by
  apply ends_eq_false _ _ ends
  · intro key isPosted acknowledged
    rw [info, Function.update_of_ne] at acknowledged
    · exact acknowledged
    · rintro rfl
      exact other isPosted
  · intro answered
    rw [info, Function.update_apply] at answered
    split at answered
    · rename_i same
      unfold OrderInfo.Answered at answered
      rw [cancelStage] at answered
      rw [same]
      exact answered
    · exact answered

/-- What is heard is not lost. -/
theorem NoLostWakeup.stays {label : Label α} (kept : system.NoLostWakeup) (wired : Wired system)
    (heard : system.Heard label) (step : Next system label next) : next.NoLostWakeup := by
  intro a wait asleep
  have still {after : OrderSystem α} (before : system.thread a = .waiting wait true)
      (info : ∀ id, id ≤ system.requestIdGenerator →
        (system.info id).StillWaits (after.info id)) : after.ends wait = false := by
    have waits : (system.thread a).wait = some wait := by
      rw [before]
      rfl
    obtain ⟨request, posted⟩ := wired.posted_order waits
    exact ends_of_stillWaits (info _ posted.le) (kept a wait before)
  cases step with
  | same => exact kept a wait asleep
  | returns b thread before after =>
      exact still (thread_of_returned rfl after asleep) fun _ _ => .refl _
  | @posts request b price size posting =>
      apply still (thread_of_setThread (by split <;> simp) asleep)
      intro id le
      rw [setThread_info, emplace_info_of_le _ le]
      exact .refl _
  | asks =>
      exact still (thread_of_setThread Thread.noConfusion asleep) fun id _ =>
        askChange_stillWaits _ _ id
  | changes =>
      apply still (thread_of_setThread (by simp) asleep)
      intro id le
      rw [setThread_info, askChange_emplace_info le]
      exact askChange_stillWaits _ _ id
  | unsent =>
      apply still (thread_of_setThread Thread.noConfusion asleep)
      intro id le
      rw [setThread_info, eraseHash_info, askChange_emplace_info le]
      exact askChange_stillWaits _ _ id
  | drops b id thread before after =>
      exact still (thread_of_returned rfl after asleep) fun _ _ => .refl _
  | cancelUnsent b id thread before after =>
      exact still (thread_of_returned rfl after asleep) fun id _ =>
        askCancel_stillWaits _ _ id
  | cancels =>
      exact still (thread_of_setThread (by simp) asleep) fun id _ => askCancel_stillWaits _ _ id
  | sleeps thread ends =>
      rcases asleep_setThread asleep with ⟨_, new⟩ | before
      · cases new
        exact ends
      · exact still before fun _ _ => .refl _
  | cancelsAll | fails | accepts | finishes =>
      exact still (thread_of_setThread Thread.noConfusion asleep) fun _ _ => .refl _
  | cancelFails =>
      apply still (thread_of_returned rfl (wait_afterCancel _ _) asleep)
      intro id _
      apply update_stillWaits
      exact ⟨fun same => same, fun same => by rcases same with same | same <;> cases same⟩
  | cancelled =>
      have before := thread_of_returned rfl (wait_afterCancel _ _) asleep
      exact still before fun _ _ => .refl _
  | finishesChange =>
      have before := thread_of_setThread Thread.noConfusion asleep
      split at before <;> split <;> exact still before fun _ _ => .refl _
  | @sweeps b =>
      have asleep : (system.setThread b (.idle 1)).thread a = .waiting wait true := asleep
      exact still (thread_of_setThread Thread.noConfusion asleep) fun _ _ => .refl _
  | message found =>
      exact ends_message wired found heard asleep (kept a wait (asleep_message asleep).1)
  | @cancelMessage id found =>
      exact ends_silent rfl rfl (heard id rfl found a wait asleep) (kept a wait asleep)
  | @changeMessage id found =>
      exact ends_silent rfl rfl (heard id rfl found a wait asleep) (kept a wait asleep)
  | @fill id price size openSize other found =>
      rw [(onFill_fixed _ _ _ _ _).2.2.2.2] at asleep
      obtain ⟨fillSize, info⟩ := onFill_info found price size openSize other
      by_cases filled : openSize = 0
      · have silent : (Label.onFill id price size openSize other : Label α).silent = some id :=
          if_pos filled
        exact ends_silent info rfl (heard id silent found a wait asleep) (kept a wait asleep)
      · apply still asleep
        intro key _
        rw [info]
        apply update_stillWaits
        rw [if_neg filled]
        exact ⟨fun same => same, fun same => same⟩

omit [DecidableEq α] in
/-- A thread that sleeps until an order is acknowledged, when it is so. -/
theorem NoLostWakeup.not_acknowledged {id : ℕ} (kept : system.NoLostWakeup)
    (asleep : system.thread a = .waiting wait true) (posted : wait.posted = some id)
    (acknowledged : (system.info id).isAcknowledged = true) : False :=
  Bool.false_ne_true ((kept a wait asleep).symm.trans (ends_of_acknowledged posted acknowledged))

/-- A message that is not heard leaves a thread asleep whose predicate is true. -/
theorem heard_of_noLostWakeup {label : Label α} (wired : Wired system)
    (kept : (system.step label).NoLostWakeup) : system.Heard label := by
  intro id silent found a wait asleep isPosted
  cases label with
  | onOrder key order =>
      simp only [Label.silent, Option.ite_none_right_eq_some, Option.some.injEq] at silent
      obtain ⟨done, rfl⟩ := silent
      obtain ⟨owner, request, posted⟩ := wired.posted_of_mem_orderHash found
      have isFound : system.step (.onOrder key order) = system.onOrderFound key order :=
        if_pos found
      rw [isFound] at kept
      have asleep : (system.onOrderFound key order).thread a = .waiting wait true := by
        rw [onOrderFound_thread, done]
        exact asleep
      apply kept.not_acknowledged asleep isPosted
      rw [onOrderFound_info, Function.update_self, OrderInfo.receive, done]
      dsimp only
      rw [posted.wired.done]
      rfl
  | onOrderCancel key =>
      obtain rfl := Option.some.inj silent
      have isFound : system.step (.onOrderCancel key) =
          system.modify key fun info => { info with stage := .cancelled } := if_pos found
      rw [isFound] at kept
      apply kept.not_acknowledged asleep isPosted
      rw [modify_info, Function.update_self]
      rfl
  | onOrderChange key condition =>
      simp only [Label.silent, Option.ite_none_right_eq_some, Option.some.injEq] at silent
      obtain ⟨unknown, rfl⟩ := silent
      have isFound : system.step (.onOrderChange key condition) =
          system.modify key fun info => { info with stage := .failed } := if_pos ⟨found, unknown⟩
      rw [isFound] at kept
      apply kept.not_acknowledged asleep isPosted
      rw [modify_info, Function.update_self]
      rfl
  | onFill key price size openSize other =>
      simp only [Label.silent, Option.ite_none_right_eq_some, Option.some.injEq] at silent
      obtain ⟨filled, rfl⟩ := silent
      have kept : (system.onFill key price size openSize other).NoLostWakeup := kept
      obtain ⟨fillSize, info⟩ := onFill_info found price size openSize other
      have asleep :
          (system.onFill key price size openSize other).thread a = .waiting wait true := by
        rw [(onFill_fixed _ _ _ _ _).2.2.2.2]
        exact asleep
      apply kept.not_acknowledged asleep isPosted
      rw [info, Function.update_self, if_pos filled]
      rfl
  | _ => exact nomatch silent

/-- No wake-up is lost if and only if no message sets the stage of an order silently
while a thread sleeps until it is acknowledged. -/
theorem noLostWakeup_iff_heard (accountType : OrderAccountType) (account : α → TradeAccount)
    (labels : List (Label α)) :
    EveryState OrderSystem.step NoLostWakeup (start accountType account) labels ↔
      EveryStep OrderSystem.step Heard (start accountType account) labels := by
  have keeps (system : OrderSystem α) (label : Label α)
      (inv : Wired system ∧ system.NoLostWakeup) (heard : system.Heard label) :
      Wired (system.step label) ∧ (system.step label).NoLostWakeup :=
    ⟨inv.1.step label, inv.2.stays inv.1 heard (step_spec system label)⟩
  exact everyState_iff_everyStep_of_forall keeps (fun _ inv => inv.2)
    (fun _ _ inv kept => heard_of_noLostWakeup inv.1 kept)
    ⟨wired_start accountType account, nofun⟩ labels

/-- An order is sent, acknowledged and changed, and the gateway does not know
the order to be changed. -/
def unknownChange : List (Label Unit) :=
  [.post .open () 5 10 ⟨true, true⟩, .onOrder 1 ⟨.new, 10⟩, .advance () true, .advance () true,
    .change () 1 6 0 ⟨true, true⟩, .advance () true, .onOrderChange 2 .orderUnknown]

/-- The thread sleeps on although the change has failed. -/
theorem not_noLostWakeup_unknownChange :
    ¬ ∀ labels, EveryState OrderSystem.step NoLostWakeup singleSymbol labels := by
  intro all
  have lost : (run OrderSystem.step singleSymbol unknownChange).ends (.change 1 2 0) = false :=
    (all unknownChange).last () (.change 1 2 0) (by decide +kernel)
  exact absurd lost (by decide +kernel)

end OrderSystem

end TradingApp.Orders

import TradingApp.Orders.Lives
import TradingApp.Orders.Threads

/-!
# Cancelling all orders of an account

`cancelAll` goes through the orders of an account's map and reports a success
whatever becomes of the cancellations.  If each one goes out, and none is
refused for an order that lives on, then afterwards no order of the map can be
cancelled any more; and this stays so until the account makes its next call.
-/

namespace TradingApp.Orders

open TradingApp.Account

variable {α : Type}

/-- The orders of a wait in `cancelAll`, the one that is waited for first. -/
def Wait.toCancel : Wait → Option (List ℕ)
  | cancel id (some rest) => some (id :: rest)
  | _ => none

namespace Thread

/-- The orders a thread in `cancelAll` has still to deal with; none after it. -/
def toCancel : Thread → Option (List ℕ)
  | idle _ => some []
  | waiting wait _ => wait.toCancel
  | acknowledged _ => none
  | cancelling rest => some rest

@[simp]
theorem toCancel_wake (thread : Thread) : thread.wake.toCancel = thread.toCancel := by
  cases thread <;> rfl

end Thread

namespace OrderSystem

/-- No order of the account's map can be cancelled. -/
def NoneLive (system : OrderSystem α) (a : α) : Prop :=
  ∀ id ∈ system.orders a, (system.info id).canCancel = false

/-- In a `cancelAll` and after it, what can be cancelled is still to be dealt with. -/
def Clearing (system : OrderSystem α) (a : α) : Prop :=
  ∃ rest, (system.thread a).toCancel = some rest ∧
    ∀ id ∈ system.orders a, (system.info id).canCancel = true → id ∈ rest

/-- A cancellation of `cancelAll` goes out, and is not refused for an order that
lives on. -/
def answers (system : OrderSystem α) (a : α) (sent : Bool) : Bool :=
  match system.thread a with
  | .cancelling (id :: _) =>
      id ∉ system.orders a || !(system.info id).canCancel || sent && !(system.info id).isOver
  | .waiting (.cancel id _) _ =>
      (system.info id).cancelStage ≠ .fail || id ∉ system.orders a || !(system.info id).canCancel
  | _ => true

/-- The cancellations of an account are answered, and no `NEW` comes for an order
that cannot be cancelled any more. -/
def Clears (system : OrderSystem α) (a : α) : Label α → Prop
  | .advance b sent => b = a → system.answers a sent = true
  | .onOrder id order =>
      order.condition = .new → id ∈ system.orders a → (system.info id).canCancel = true
  | _ => True

variable [DecidableEq α]

instance (system : OrderSystem α) (a : α) : (label : Label α) → Decidable (system.Clears a label)
  | .advance .. => inferInstanceAs (Decidable (_ → _))
  | .onOrder .. => inferInstanceAs (Decidable (_ → _))
  | .post .. | .change .. | .cancel .. | .cancelAll .. | .onOrderCancel .. | .onOrderChange .. |
    .onFill .. => inferInstanceAs (Decidable True)

variable {system next : OrderSystem α} {label : Label α} {a : α}

/-! ## Steps of other threads -/

/-- What is in the map and can be cancelled was so before. -/
theorem live_before (wired : Wired system) (others : label.actor ≠ some a)
    (clears : system.Clears a label) {id : ℕ} (isKey : id ∈ (system.step label).orders a)
    (live : ((system.step label).info id).canCancel = true) :
    id ∈ system.orders a ∧ (system.info id).canCancel = true := by
  have steps : Next system label (system.step label) := step_spec system label
  rcases steps.mem_orders isKey with before | ⟨_, _, _, _, _, ⟨sent, rfl⟩, _⟩
  · refine ⟨before, ?_⟩
    obtain ⟨request, posted⟩ := wired.orders a id before
    rcases (steps.lives posted.le).canCancel live with same | ⟨order, rfl, new, _⟩
    · exact same
    · exact clears new before
  · exact absurd rfl others

theorem Clearing.other (clearing : system.Clearing a) (wired : Wired system)
    (others : label.actor ≠ some a) (clears : system.Clears a label) :
    (system.step label).Clearing a := by
  obtain ⟨rest, toCancel, left⟩ := clearing
  refine ⟨rest, ?_, ?_⟩
  · rcases step_thread_of_ne others with same | woken
    · rw [same]
      exact toCancel
    · rw [woken, Thread.toCancel_wake]
      exact toCancel
  · intro id isKey live
    obtain ⟨before, live⟩ := live_before wired others clears isKey live
    exact left id before live

/-! ## Steps of the account's thread -/

omit [DecidableEq α] in
/-- Past an order that cannot be cancelled any more. -/
theorem mem_of_mem_cons {id key : ℕ} {rest : List ℕ} (member : key ∈ id :: rest)
    (live : (system.info key).canCancel = true)
    (dead : key = id → (system.info key).canCancel = false) : key ∈ rest := by
  rcases List.mem_cons.mp member with same | inRest
  · rw [dead same] at live
    cases live
  · exact inRest

/-- The answer to a cancellation of `cancelAll`. -/
theorem Clearing.leave (erased : CancelledErased system) {id : ℕ} {rest : List ℕ}
    (ends : system.ends (.cancel id (some rest)) = true)
    (left : ∀ key ∈ system.orders a, (system.info key).canCancel = true → key ∈ id :: rest)
    (refused : (system.info id).cancelStage = .fail → id ∈ system.orders a →
      (system.info id).canCancel = false) :
    (system.leave a (.cancel id (some rest))).Clearing a := by
  unfold OrderSystem.leave
  dsimp only
  split
  · rename_i fail
    refine ⟨rest, by simp [Thread.afterCancel, Thread.toCancel], ?_⟩
    intro key isKey live
    have live : (system.info key).canCancel = true := by
      rw [setThread_info, modify_info, Function.update_apply] at live
      split at live
      · rename_i same
        rw [same]
        exact live
      · exact live
    apply mem_of_mem_cons (left key isKey live) live
    rintro rfl
    exact refused fail isKey
  · rename_i notFail
    have done : (system.info id).cancelStage = .done := by
      simpa [OrderSystem.ends, notFail] using ends
    refine ⟨rest, by simp [Thread.afterCancel, Thread.toCancel], ?_⟩
    intro key isKey live
    apply mem_of_mem_cons (left key isKey live) live
    rintro rfl
    exact canCancel_eq_false_of_cancelled (erased key done).2.1

/-- The next order of `cancelAll`. -/
theorem Clearing.cancelNext {rest : List ℕ} {sent : Bool}
    (left : ∀ key ∈ system.orders a, (system.info key).canCancel = true → key ∈ rest)
    (goesOut : ∀ id later, rest = id :: later → id ∈ system.orders a →
      (system.info id).canCancel = true → sent = true ∧ (system.info id).isOver = false) :
    (system.cancelNext a rest sent).Clearing a := by
  cases rest with
  | nil =>
      refine ⟨[], by simp [OrderSystem.cancelNext, Thread.toCancel], ?_⟩
      intro key isKey live
      have isKey : key ∈ (system.orders a).filter
          fun id => (system.info id).cancelStage ≠ .done := by
        simpa [OrderSystem.cancelNext] using isKey
      exact left key (List.mem_of_mem_filter isKey) live
  | cons id later =>
      unfold OrderSystem.cancelNext
      dsimp only
      split
      · rename_i asked
        obtain ⟨isSent, isOver⟩ := goesOut id later rfl asked.1 asked.2
        have cancel : system.cancel a id (some later) sent =
            (system.askCancel a id).setThread a (.waiting (.cancel id (some later)) false) := by
          unfold OrderSystem.cancel
          rw [if_neg (not_not.mpr asked.1), asked.2, isSent, isOver]
          rfl
        rw [cancel]
        refine ⟨id :: later, by simp [Thread.toCancel, Wait.toCancel], ?_⟩
        intro key isKey live
        apply left key isKey
        rw [setThread_info, askCancel_info, Function.update_apply] at live
        split at live
        · rename_i same
          rw [same]
          exact live
        · exact live
      · rename_i skipped
        refine ⟨later, by simp [Thread.toCancel], ?_⟩
        intro key isKey live
        apply mem_of_mem_cons (left key isKey live) live
        rintro rfl
        simpa using fun canCancel => skipped ⟨isKey, canCancel⟩

/-- What a thread in `cancelAll` does. -/
theorem Clearing.advance (clearing : system.Clearing a) (erased : CancelledErased system)
    {sent : Bool} (clears : system.Clears a (.advance a sent)) :
    (system.step (.advance a sent)).Clearing a := by
  obtain ⟨rest, toCancel, left⟩ := clearing
  have answers : system.answers a sent = true := clears rfl
  unfold OrderSystem.answers at answers
  change (system.advance a sent).Clearing a
  unfold OrderSystem.advance
  cases thread : system.thread a with
  | idle returned =>
      rw [thread] at toCancel
      exact ⟨rest, by rw [thread]; exact toCancel, left⟩
  | waiting wait asleep =>
      rw [thread] at toCancel answers
      dsimp only
      split
      · rename_i ends
        cases wait with
        | acknowledgement request id => cases toCancel
        | change original id newSize => cases toCancel
        | cancel id later =>
            cases later with
            | none => cases toCancel
            | some later =>
                obtain rfl := Option.some.inj toCancel
                apply Clearing.leave erased ends left
                intro fail isKey
                simpa [fail, isKey] using answers
      · exact ⟨rest, by simpa [Thread.toCancel] using toCancel, left⟩
  | acknowledged wait =>
      rw [thread] at toCancel
      cases toCancel
  | cancelling later =>
      rw [thread] at toCancel answers
      obtain rfl := Option.some.inj toCancel
      apply Clearing.cancelNext left
      rintro id after rfl isKey canCancel
      simpa [isKey, canCancel] using answers

/-- A `cancelAll` and what follows it clears the account, as long as the account
makes no other call. -/
theorem Clearing.step (clearing : system.Clearing a) (wired : Wired system)
    (erased : CancelledErased system) (noCall : label.caller ≠ some a)
    (clears : system.Clears a label) : (system.step label).Clearing a := by
  by_cases own : label.actor = some a
  · obtain ⟨sent, rfl⟩ := eq_advance_of_actor noCall own
    exact clearing.advance erased clears
  · exact clearing.other wired own clears

/-- `cancelAll` returns a success. -/
theorem Clearing.succeeds (clearing : system.Clearing a) (noCall : label.caller ≠ some a)
    (before : ∀ returned, system.thread a = .idle returned → returned = 1) {returned : ℕ}
    (idle : (system.step label).thread a = .idle returned) : returned = 1 := by
  have unawake {thread : Thread} (woken : thread.wake = .idle returned) :
      thread = .idle returned := by
    cases thread with
    | waiting => cases woken
    | _ => exact woken
  by_cases own : label.actor = some a
  · obtain ⟨sent, rfl⟩ := eq_advance_of_actor noCall own
    obtain ⟨rest, toCancel, _⟩ := clearing
    change (system.advance a sent).thread a = .idle returned at idle
    unfold OrderSystem.advance at idle
    cases thread : system.thread a with
    | idle already =>
        rw [thread] at idle
        exact before returned idle
    | waiting wait asleep =>
        rw [thread] at idle toCancel
        dsimp only at idle
        split at idle
        · cases wait with
          | acknowledgement request id => cases toCancel
          | change original id newSize => cases toCancel
          | cancel id later =>
              cases later with
              | none => cases toCancel
              | some later =>
                  unfold OrderSystem.leave at idle
                  dsimp only at idle
                  split at idle <;> simp [Thread.afterCancel] at idle
        · simp at idle
    | acknowledged wait =>
        rw [thread] at toCancel
        cases toCancel
    | cancelling later =>
        rw [thread] at idle
        cases later with
        | nil =>
            simp only [OrderSystem.cancelNext, setThread_thread, Function.update_self,
              Thread.idle.injEq] at idle
            exact idle.symm
        | cons id later =>
            unfold OrderSystem.cancelNext OrderSystem.cancel at idle
            dsimp only at idle
            split_ifs at idle <;> simp [Thread.afterCancel] at idle
  · rcases step_thread_of_ne own with same | woken
    · exact before returned (same.symm.trans idle)
    · exact before returned (unawake (woken.symm.trans idle))

omit [DecidableEq α] in
/-- Once `cancelAll` has returned, no order can be cancelled. -/
theorem Clearing.noneLive (clearing : system.Clearing a)
    (idle : (system.thread a).isIdle = true) : system.NoneLive a := by
  intro id isKey
  obtain ⟨rest, toCancel, left⟩ := clearing
  cases thread : system.thread a with
  | idle returned =>
      rw [thread] at toCancel
      obtain rfl := Option.some.inj toCancel
      simpa using fun live => left id isKey live
  | waiting | acknowledged | cancelling =>
      rw [thread] at idle
      cases idle

/-- What `cancelAll` starts with. -/
theorem clearing_cancelAll (system : OrderSystem α) (a : α) : (system.cancelAll a).Clearing a :=
  ⟨system.orders a, by simp [cancelAll, Thread.toCancel], fun _ isKey _ => isKey⟩

omit [DecidableEq α] in
/-- An account without orders is clear. -/
theorem clearing_of_orders_nil (none : system.orders a = [])
    (idle : (system.thread a).isIdle = true) : system.Clearing a := by
  refine ⟨[], ?_, ?_⟩
  · cases thread : system.thread a with
    | idle returned => rfl
    | waiting | acknowledged | cancelling =>
        rw [thread] at idle
        cases idle
  · intro id isKey
    rw [none] at isKey
    cases isKey

end OrderSystem

end TradingApp.Orders

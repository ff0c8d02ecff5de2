import TradingApp.Orders.Messages

/-!
# What a step can do

Every step of an order system is one of the cases below, each with what led to
it and the state it leads to.
-/

namespace TradingApp.Orders

open TradingApp.Account

namespace OrderSystem

variable {α : Type} [DecidableEq α]

/-- The state a step leads to. -/
inductive Next (system : OrderSystem α) : Label α → OrderSystem α → Prop
  /-- a call made in another call, a thread in no call, or an unmatched message -/
  | same {label : Label α} : Next system label system
  /-- a call returns at once, or `cancelAll` goes on to the next order -/
  | returns {label : Label α} (a : α) (thread : Thread) (before : (system.thread a).wait = none)
      (after : thread.wait = none) : Next system label (system.setThread a thread)
  | posts {request : RequestType} {a : α} {price : ℚ} {size : ℕ} {posting : Posting}
      (idle : (system.thread a).isIdle = true) :
      Next system (.post request a price size posting)
        ((system.emplace
          (system.newInfo request a price (size / (system.account a).divisor))).setThread a
          (if posting.sent then
            .waiting (.acknowledgement request (system.requestIdGenerator + 1)) false
          else .idle 0))
  /-- a change that is not sent -/
  | asks {a : α} {id : ℕ} {newPrice : ℚ} {newSize : ℕ} {posting : Posting}
      (idle : (system.thread a).isIdle = true) (isKey : id ∈ system.orders a) :
      Next system (.change a id newPrice newSize posting)
        ((system.askChange a id).setThread a (.idle id))
  | changes {a : α} {id : ℕ} {newPrice : ℚ} {newSize : ℕ} {posting : Posting}
      (idle : (system.thread a).isIdle = true) (isKey : id ∈ system.orders a)
      (isOver : (system.info id).isOver = false) (sent : posting.sent = true) :
      Next system (.change a id newPrice newSize posting)
        (((system.askChange a id).emplace (system.changedInfo a id newPrice newSize)).setThread a
          (.waiting (.change id (system.requestIdGenerator + 1) newSize) false))
  /-- a change whose sending fails -/
  | unsent {a : α} {id : ℕ} {newPrice : ℚ} {newSize : ℕ} {posting : Posting}
      (idle : (system.thread a).isIdle = true) (isKey : id ∈ system.orders a)
      (sent : posting.sent = false) :
      Next system (.change a id newPrice newSize posting)
        ((((system.askChange a id).emplace (system.changedInfo a id newPrice newSize)).eraseHash
          (system.requestIdGenerator + 1)).setThread a (.idle id))
  /-- a cancellation of an order that cannot be cancelled -/
  | drops {label : Label α} (a : α) (id : ℕ) (thread : Thread)
      (before : (system.thread a).wait = none) (after : thread.wait = none)
      (uncancellable : (system.info id).canCancel = false) :
      Next system label ((system.eraseOrder a id).setThread a thread)
  /-- a cancellation that is not sent -/
  | cancelUnsent {label : Label α} (a : α) (id : ℕ) (thread : Thread)
      (before : (system.thread a).wait = none) (after : thread.wait = none)
      (isKey : id ∈ system.orders a) (live : (system.info id).canCancel = true) :
      Next system label ((system.askCancel a id).setThread a thread)
  | cancels {label : Label α} (a : α) (id : ℕ) (rest : Option (List ℕ))
      (before : (system.thread a).wait = none) (isKey : id ∈ system.orders a)
      (live : (system.info id).canCancel = true) :
      Next system label ((system.askCancel a id).setThread a (.waiting (.cancel id rest) false))
  | cancelsAll {a : α} (idle : (system.thread a).isIdle = true) :
      Next system (.cancelAll a) (system.cancelAll a)
  /-- a thread goes to sleep, again or for the first time -/
  | sleeps {a : α} {sent asleep : Bool} {wait : Wait}
      (thread : system.thread a = .waiting wait asleep) (ends : system.ends wait = false) :
      Next system (.advance a sent) (system.setThread a (.waiting wait true))
  /-- the wait for an acknowledgement ends without one -/
  | fails {a : α} {sent asleep : Bool} {wait : Wait} {id : ℕ} (returned : ℕ)
      (thread : system.thread a = .waiting wait asleep) (posted : wait.posted = some id)
      (ends : (system.info id).isAcknowledged = true)
      (unacknowledged : (system.info id).acknowledged = false)
      (opened : ∀ request, wait = .acknowledgement request id → returned = 0) :
      Next system (.advance a sent) (system.setThread a (.idle returned))
  | accepts {a : α} {sent asleep : Bool} {wait : Wait} {id : ℕ}
      (thread : system.thread a = .waiting wait asleep) (posted : wait.posted = some id)
      (acknowledged : (system.info id).acknowledged = true) :
      Next system (.advance a sent) ((system.addOrder a id).setThread a (.acknowledged wait))
  | cancelFails {a : α} {sent asleep : Bool} {id : ℕ} {rest : Option (List ℕ)}
      (thread : system.thread a = .waiting (.cancel id rest) asleep)
      (stage : (system.info id).cancelStage = .fail) :
      Next system (.advance a sent)
        ((system.modify id fun info => { info with cancelStage := .none }).setThread a
          (.afterCancel rest false))
  | cancelled {a : α} {sent asleep : Bool} {id : ℕ} {rest : Option (List ℕ)}
      (thread : system.thread a = .waiting (.cancel id rest) asleep)
      (stage : (system.info id).cancelStage = .done) :
      Next system (.advance a sent)
        ((system.setAccount a
          ((system.account a).subtractLive (system.info id) (system.info id).order.openSize)).setThread
          a (.afterCancel rest true))
  | finishes {a : α} {sent : Bool} {request : RequestType} {id : ℕ}
      (thread : system.thread a = .acknowledged (.acknowledgement request id)) :
      Next system (.advance a sent)
        ((system.setAccount a ((system.account a).addLive request (system.info id).size)).setThread a
          (.idle id))
  | finishesChange {a : α} {sent : Bool} {original id newSize : ℕ}
      (thread : system.thread a = .acknowledged (.change original id newSize)) :
      Next system (.advance a sent)
        ((if newSize > 0 then
          system.setAccount a
            ((system.account a).countChange (system.info original) (system.info id))
        else system).setThread a (.idle id))
  /-- `cancelAll` takes the cancelled orders out of the map -/
  | sweeps {a : α} {sent : Bool} (thread : system.thread a = .cancelling []) :
      Next system (.advance a sent)
        { system.setThread a (.idle 1) with
          orders := Function.update system.orders a
            ((system.orders a).filter fun id => (system.info id).cancelStage ≠ .done) }
  | message {id : ℕ} {order : OrderMessage} (found : id ∈ system.orderHash) :
      Next system (.onOrder id order) (system.onOrderFound id order)
  | cancelMessage {id : ℕ} (found : id ∈ system.orderHash) :
      Next system (.onOrderCancel id)
        (system.modify id fun info => { info with stage := .cancelled })
  | changeMessage {id : ℕ} (found : id ∈ system.orderHash) :
      Next system (.onOrderChange id .orderUnknown)
        (system.modify id fun info => { info with stage := .failed })
  | fill {id : ℕ} {price : ℚ} {size openSize : ℕ} {other : TradeAccount}
      (found : id ∈ system.orderHash) :
      Next system (.onFill id price size openSize other)
        (system.onFill id price size openSize other)

variable (system : OrderSystem α)

theorem wait_eq_none_of_isIdle {thread : Thread} (idle : thread.isIdle = true) :
    thread.wait = none := by
  cases thread <;> first | rfl | cases idle

theorem wait_afterCancel (rest : Option (List ℕ)) (cancelled : Bool) :
    (Thread.afterCancel rest cancelled).wait = none := by
  cases rest <;> rfl

theorem cancel_spec (label : Label α) (a : α) (id : ℕ) (rest : Option (List ℕ)) (sent : Bool)
    (before : (system.thread a).wait = none) :
    Next system label (system.cancel a id rest sent) := by
  unfold cancel
  split
  · exact .returns a _ before (wait_afterCancel _ _)
  · rename_i isKey
    split
    · rename_i uncancellable
      exact .drops a id _ before (wait_afterCancel _ _) (by simpa using uncancellable)
    · rename_i live
      have isKey : id ∈ system.orders a := not_not.mp isKey
      have live : (system.info id).canCancel = true := by simpa using live
      split
      · exact .cancelUnsent a id _ before (wait_afterCancel _ _) isKey live
      · exact .cancels a id rest before isKey live

theorem advance_spec (a : α) (sent : Bool) :
    Next system (.advance a sent) (system.advance a sent) := by
  unfold advance
  cases thread : system.thread a with
  | idle returned => exact .same
  | waiting wait asleep =>
      dsimp only
      split
      · rename_i ends
        cases wait with
        | acknowledgement request id =>
            unfold leave
            dsimp only
            split
            · rename_i acknowledged
              exact .accepts thread rfl acknowledged
            · rename_i unacknowledged
              exact .fails 0 thread rfl ends (by simpa using unacknowledged) fun _ _ => rfl
        | change original id newSize =>
            unfold leave
            dsimp only
            split
            · rename_i acknowledged
              exact .accepts thread rfl acknowledged
            · rename_i unacknowledged
              exact .fails original thread rfl ends (by simpa using unacknowledged)
                fun _ same => nomatch same
        | cancel id rest =>
            unfold leave
            dsimp only
            split
            · rename_i stage
              exact .cancelFails thread stage
            · rename_i stage
              have stage : (system.info id).cancelStage = .done := by
                simpa [OrderSystem.ends, stage] using ends
              exact .cancelled thread stage
      · rename_i ends
        exact .sleeps thread (by simpa using ends)
  | acknowledged wait =>
      cases wait with
      | acknowledgement request id => exact .finishes thread
      | change original id newSize => exact .finishesChange thread
      | cancel id rest => exact .same
  | cancelling rest =>
      cases rest with
      | nil => exact .sweeps thread
      | cons id rest =>
          have before : (system.thread a).wait = none := by
            rw [thread]
            rfl
          dsimp only
          unfold cancelNext
          dsimp only
          split
          · exact cancel_spec system _ a id _ sent before
          · exact .returns a _ before rfl

/-- Every step is one of the cases. -/
theorem step_spec (label : Label α) : Next system label (system.step label) := by
  cases label with
  | post request a price size posting =>
      unfold step
      dsimp only
      split
      · rename_i idle
        unfold post
        dsimp only
        split
        · exact .returns a _ (wait_eq_none_of_isIdle idle) rfl
        · split
          · exact .returns a _ (wait_eq_none_of_isIdle idle) rfl
          · exact .posts idle
      · exact .same
  | change a id newPrice newSize posting =>
      unfold step
      dsimp only
      split
      · rename_i idle
        unfold change
        split
        · rename_i isKey
          dsimp only
          split
          · exact .asks idle isKey
          · rename_i passes
            split
            · rename_i sent
              have isOver : (system.info id).isOver = false := by
                simpa using fun isOver => passes (Or.inr (Or.inr isOver))
              exact .changes idle isKey isOver sent
            · rename_i sent
              exact .unsent idle isKey (by simpa using sent)
        · exact .returns a _ (wait_eq_none_of_isIdle idle) rfl
      · exact .same
  | cancel a id sent =>
      unfold step
      dsimp only
      split
      · rename_i idle
        exact cancel_spec system _ a id none sent (wait_eq_none_of_isIdle idle)
      · exact .same
  | cancelAll a =>
      unfold step
      dsimp only
      split
      · rename_i idle
        exact .cancelsAll idle
      · exact .same
  | advance a sent => exact advance_spec system a sent
  | onOrder id order =>
      change Next system _ (system.onOrder id order)
      unfold onOrder
      split
      · rename_i found
        exact .message found
      · exact .same
  | onOrderCancel id =>
      change Next system _ (system.onOrderCancelled id)
      unfold onOrderCancelled
      split
      · rename_i found
        exact .cancelMessage found
      · exact .same
  | onOrderChange id condition =>
      change Next system _ (system.onOrderChanged id condition)
      unfold onOrderChanged
      split
      · rename_i both
        obtain ⟨found, rfl⟩ := both
        exact .changeMessage found
      · exact .same
  | onFill id price size openSize other =>
      by_cases found : id ∈ system.orderHash
      · exact .fill found
      · have unmatched : system.step (.onFill id price size openSize other) = system :=
          if_neg found
        rw [unmatched]
        exact .same

end OrderSystem

end TradingApp.Orders

import TradingApp.Orders.Lives
import TradingApp.Orders.Threads

/-!
# Completed orders

An order that is done is taken out of its account's map by the gateway's
thread, and put into it by the trading thread once it has been acknowledged.
The map is rid of it exactly if the trading thread is not the later one.
-/

namespace TradingApp.Orders

open TradingApp.Account TradingApp.Transition

variable {α : Type}

namespace OrderSystem

/-- No order that is done and whose call has returned is in a map. -/
def Cleared (system : OrderSystem α) : Prop :=
  ∀ a id, (system.info id).stage = .done →
    (∀ wait, (system.thread a).wait = some wait → wait.posted ≠ some id) →
      id ∉ system.orders a

/-- No order that is done is in a map, not even while its call returns. -/
def ClearedAtOnce (system : OrderSystem α) : Prop :=
  ∀ a id, (system.info id).stage = .done → id ∉ system.orders a

/-- A thread that puts its acknowledged order into the map finds it not done. -/
def InTime (system : OrderSystem α) : Label α → Prop
  | .advance a _ =>
      ∀ wait asleep id, system.thread a = .waiting wait asleep → wait.posted = some id →
        (system.info id).acknowledged = true → (system.info id).stage ≠ .done
  | _ => True

variable {system : OrderSystem α} {label : Label α}

theorem ClearedAtOnce.cleared (cleared : system.ClearedAtOnce) : system.Cleared :=
  fun a id done _ => cleared a id done

variable [DecidableEq α]

/-- A message that an order is done takes it out of its account's map. -/
theorem not_mem_orders_of_done (wired : Wired system) {a : α} {id : ℕ} {order : OrderMessage}
    (isKey : id ∈ system.orders a) (done : order.condition = .done) :
    id ∉ (system.onOrderFound id order).orders a := by
  obtain ⟨request, posted⟩ := wired.orders a id isKey
  rw [onOrderFound_orders, done, OrderInfo.dropped, posted.wired.done]
  dsimp only
  rw [Function.update_self]
  simp

theorem ClearedAtOnce.step (cleared : system.ClearedAtOnce) (wired : Wired system)
    (inTime : system.InTime label) : (system.step label).ClearedAtOnce := by
  intro a id done isKey
  have steps : Next system label (system.step label) := step_spec system label
  rcases steps.mem_orders isKey with
    before | ⟨wait, asleep, thread, posted, acknowledged, ⟨sent, rfl⟩, after⟩
  · obtain ⟨request, posted⟩ := wired.orders a id before
    rcases (steps.lives posted.le).stage_done done with already | ⟨order, rfl, condition, found⟩
    · exact cleared a id already before
    · rw [step_onOrder found] at isKey
      exact not_mem_orders_of_done wired before condition isKey
  · rw [after] at done
    exact inTime wait asleep id thread posted acknowledged done

theorem inTime_of_clearedAtOnce (cleared : (system.step label).ClearedAtOnce) :
    system.InTime label := by
  cases label with
  | advance a sent =>
      intro wait asleep id thread posted acknowledged done
      rw [advance_accepts sent thread posted acknowledged] at cleared
      apply cleared a id done
      rw [setThread_orders, addOrder_orders, Function.update_self]
      split
      · assumption
      · exact List.mem_append_right _ (List.mem_singleton_self id)
  | _ => trivial

/-- Orders that are done are in no map if and only if the trading threads come in
time; then none is in a map after its call has returned. -/
theorem completed_orders_cleared (accountType : OrderAccountType) (account : α → TradeAccount)
    (labels : List (Label α)) :
    (EveryState OrderSystem.step ClearedAtOnce (start accountType account) labels ↔
        EveryStep OrderSystem.step InTime (start accountType account) labels) ∧
      (EveryStep OrderSystem.step InTime (start accountType account) labels →
        EveryState OrderSystem.step Cleared (start accountType account) labels) := by
  have keeps (system : OrderSystem α) (label : Label α)
      (inv : Wired system ∧ system.ClearedAtOnce) (inTime : system.InTime label) :
      Wired (system.step label) ∧ (system.step label).ClearedAtOnce :=
    ⟨inv.1.step label, inv.2.step inv.1 inTime⟩
  have atOnce : EveryState OrderSystem.step ClearedAtOnce (start accountType account) labels ↔
      EveryStep OrderSystem.step InTime (start accountType account) labels :=
    everyState_iff_everyStep_of_forall keeps (fun _ inv => inv.2)
      (fun _ _ _ cleared => inTime_of_clearedAtOnce cleared)
      ⟨wired_start accountType account, nofun⟩ labels
  exact ⟨atOnce, fun inTime => (atOnce.mpr inTime).mono fun _ cleared => cleared.cleared⟩

/-- An order is acknowledged and done before the trading thread wakes up. -/
def doneEarly : List (Label Unit) :=
  [.post .open () 5 10 ⟨true, true⟩, .onOrder 1 ⟨.new, 10⟩, .onOrder 1 ⟨.done, 0⟩,
    .advance () true, .advance () true]

/-- The order stays in the map. -/
theorem not_cleared_doneEarly :
    ¬ ∀ labels, EveryState OrderSystem.step Cleared singleSymbol labels := by
  intro all
  have cleared := (all doneEarly).last () 1 (by decide +kernel)
  have returned : (run OrderSystem.step singleSymbol doneEarly).thread () = .idle 1 := by
    decide +kernel
  rw [returned] at cleared
  exact cleared nofun (by decide +kernel)

end OrderSystem

end TradingApp.Orders

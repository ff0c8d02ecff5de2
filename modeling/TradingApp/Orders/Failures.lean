import Mathlib.Data.Finset.Option
import TradingApp.Orders.Accounts

/-!
# Calls that report a failure

`open` and `close` return zero if the wait for the acknowledgement ends without
one.  It ends with any change of the order's stage, so a fill, an
`OnOrderCancel` or a message that the order is done can end it too if it comes
before the acknowledgement.  A call whose wait ends without an acknowledgement
only for a rejected order never reports a failure for an order that is filled.
-/

namespace TradingApp.Orders

open TradingApp.Account TradingApp.Transition

variable {α : Type}

namespace OrderSystem

/-- What has become of the orders so far. -/
structure Outcomes where
  /-- orders whose `open` or `close` has returned zero -/
  failed : Finset ℕ
  /-- orders the gateway did not receive -/
  unsent : Finset ℕ
  /-- orders the gateway has rejected -/
  rejected : Finset ℕ
  /-- the lots of each order that were added to the total of an account -/
  counted : ℕ → ℕ

namespace Outcomes

/-- Nothing has happened. -/
def none : Outcomes where
  failed := ∅
  unsent := ∅
  rejected := ∅
  counted _ := 0

end Outcomes

/-- The order the gateway rejects by a message. -/
def Label.rejected : Label α → Option ℕ
  | .onOrder id order => if order.condition.isFailure then some id else none
  | _ => none

variable [DecidableEq α]

/-- The order of a call that has sent it in vain. -/
def unsent (system : OrderSystem α) : Label α → Option ℕ
  | .post request a price size posting =>
      if posting.sent = false ∧
          (system.step (.post request a price size posting)).requestIdGenerator ≠
            system.requestIdGenerator then
        some (system.requestIdGenerator + 1)
      else none
  | _ => none

/-- The order of an `open` or `close` whose wait ends without an
acknowledgement. -/
def unacknowledged (system : OrderSystem α) : Label α → Option ℕ
  | .advance a _ =>
      match system.thread a with
      | .waiting (.acknowledgement request id) _ =>
          if system.ends (.acknowledgement request id) ∧ (system.info id).acknowledged = false then
            some id
          else none
      | _ => none
  | _ => none

/-- The lots of an order that a step adds to the total of an account. -/
def countedLots (system : OrderSystem α) (label : Label α) (id : ℕ) : ℕ :=
  match label with
  | .onFill key _ size _ _ => if id = key ∧ system.CountsFill key then size else 0
  | _ => 0

/-- The outcomes after a step. -/
def outcomes (outcomes : Outcomes) (system : OrderSystem α) (label : Label α) : Outcomes where
  failed :=
    outcomes.failed ∪ (system.unsent label).toFinset ∪ (system.unacknowledged label).toFinset
  unsent := outcomes.unsent ∪ (system.unsent label).toFinset
  rejected := outcomes.rejected ∪ label.rejected.toFinset
  counted id := outcomes.counted id + system.countedLots label id

/-- The gateway sends no fill for an order it rejects or has not received. -/
def NoStrayFill (state : OrderSystem α × Outcomes) : Label α → Prop
  | .onFill id _ _ _ _ => id ∉ state.2.rejected ∧ id ∉ state.2.unsent
  | .onOrder id order => order.condition.isFailure = true → state.2.counted id = 0
  | _ => True

/-- The thread of an `open` or `close` finds its order still just sent,
acknowledged, or rejected by the gateway. -/
def FindsAnswer (state : OrderSystem α × Outcomes) : Label α → Prop
  | .advance a _ =>
      ∀ request id asleep, state.1.thread a = .waiting (.acknowledgement request id) asleep →
        (state.1.info id).stage = .sent ∨ (state.1.info id).acknowledged = true ∨
          id ∈ state.2.rejected
  | _ => True

/-- No fill of an order was counted whose call has returned zero. -/
def NothingCounted (state : OrderSystem α × Outcomes) : Prop :=
  ∀ id ∈ state.2.failed, state.2.counted id = 0

/-- What holds as long as calls fail for rejected orders only. -/
structure Uncounted (state : OrderSystem α × Outcomes) : Prop where
  wired : Wired state.1
  failed : ∀ id ∈ state.2.failed, id ∈ state.2.rejected ∨ id ∈ state.2.unsent
  rejected : ∀ id ∈ state.2.rejected, state.2.counted id = 0
  unsent : ∀ id ∈ state.2.unsent, state.2.counted id = 0
  new : ∀ id, state.1.requestIdGenerator < id → state.2.counted id = 0

omit [DecidableEq α] in
theorem uncounted_start (accountType : OrderAccountType) (account : α → TradeAccount) :
    Uncounted (start accountType account, Outcomes.none) where
  wired := wired_start accountType account
  failed _ member := absurd member (Finset.notMem_empty _)
  rejected _ _ := rfl
  unsent _ _ := rfl
  new _ _ := rfl

variable {state : OrderSystem α × Outcomes} {label : Label α}

omit [DecidableEq α] in
theorem Uncounted.nothingCounted (uncounted : Uncounted state) : NothingCounted state := by
  intro id failed
  rcases uncounted.failed id failed with rejected | unsent
  · exact uncounted.rejected id rejected
  · exact uncounted.unsent id unsent

/-! ## Outcomes of a step -/

/-- An order that a call has sent in vain is the newest one. -/
theorem eq_of_mem_unsent {system : OrderSystem α} {id : ℕ} (unsent : id ∈ system.unsent label) :
    id = system.requestIdGenerator + 1 := by
  cases label with
  | post =>
      simp only [OrderSystem.unsent, Option.mem_def, Option.ite_none_right_eq_some,
        Option.some.injEq] at unsent
      exact unsent.2.symm
  | _ => cases unsent

omit [DecidableEq α] in
/-- A rejection is a message that reports a failure. -/
theorem isFailure_of_mem_rejected {id : ℕ} (rejected : id ∈ label.rejected) :
    ∃ order, label = .onOrder id order ∧ order.condition.isFailure = true := by
  cases label with
  | onOrder key order =>
      simp only [Label.rejected, Option.mem_def, Option.ite_none_right_eq_some,
        Option.some.injEq] at rejected
      obtain ⟨failure, rfl⟩ := rejected
      exact ⟨order, rfl, failure⟩
  | _ => cases rejected

omit [DecidableEq α] in
/-- A step that counts a fill is the fill of an order in the hash. -/
theorem countedLots_eq_zero {system : OrderSystem α} {id : ℕ}
    (unfilled : ∀ price size openSize other, label = .onFill id price size openSize other →
      id ∉ system.orderHash) : system.countedLots label id = 0 := by
  cases label with
  | onFill key price size openSize other =>
      apply if_neg
      rintro ⟨rfl, counts⟩
      exact unfilled price size openSize other rfl counts.1
  | _ => rfl

/-- What is counted is what the total of the order's account changes by. -/
theorem total_step_onFill {system : OrderSystem α} {id : ℕ} {a : α} {request : RequestType}
    (function : (system.info id).onFillFunction = some (a, request)) (price : ℚ)
    (size openSize : ℕ) (other : TradeAccount) (b : α) :
    ((system.step (.onFill id price size openSize other)).account b).total =
      (system.account b).total +
        if b = a then
          request.signedSize (system.countedLots (.onFill id price size openSize other) id)
        else 0 := by
  by_cases found : id ∈ system.orderHash
  · have counts : system.countedLots (.onFill id price size openSize other) id = size :=
      if_pos ⟨rfl, found, by rw [function]; rfl⟩
    rw [counts]
    exact onFill_total id price size openSize other b found function
  · have uncounted : system.countedLots (.onFill id price size openSize other) id = 0 :=
      if_neg fun both => found both.2.1
    have unmatched : system.step (.onFill id price size openSize other) = system := if_neg found
    rw [uncounted, unmatched]
    cases request <;> simp [RequestType.signedSize]

omit [DecidableEq α] in
/-- A call that fails although its order was sent has found it rejected. -/
theorem rejected_of_unacknowledged {id : ℕ} (finds : FindsAnswer state label)
    (failed : id ∈ state.1.unacknowledged label) : id ∈ state.2.rejected := by
  cases label with
  | advance a sent =>
      unfold unacknowledged at failed
      dsimp only at failed
      split at failed
      · rename_i request key asleep thread
        simp only [Option.mem_def, Option.ite_none_right_eq_some, Option.some.injEq] at failed
        obtain ⟨⟨ends, unacknowledged⟩, rfl⟩ := failed
        rcases finds request key asleep thread with sent | acknowledged | rejected
        · have ends : (state.1.info key).isAcknowledged = true := ends
          simp [OrderInfo.isAcknowledged, sent, unacknowledged] at ends
        · rw [unacknowledged] at acknowledged
          cases acknowledged
        · exact rejected
      · cases failed
  | _ => cases failed

/-! ## Runs -/

theorem Uncounted.step (uncounted : Uncounted state) (noStray : NoStrayFill state label)
    (finds : FindsAnswer state label) :
    Uncounted (recording OrderSystem.step outcomes state label) := by
  have steps : Next state.1 label (state.1.step label) := step_spec state.1 label
  have new {id : ℕ} (new : state.1.requestIdGenerator < id) :
      (state.1.outcomes state.2 label).counted id = 0 := by
    have lots : state.1.countedLots label id = 0 := by
      apply countedLots_eq_zero
      intro _ _ _ _ _ found
      exact Nat.not_le.mpr new (uncounted.wired.hash id found).2
    exact (congrArg₂ (· + ·) (uncounted.new id new) lots :)
  have older {id : ℕ} (zero : state.2.counted id = 0)
      (unfilled : ∀ price size openSize other, label ≠ .onFill id price size openSize other) :
      (state.1.outcomes state.2 label).counted id = 0 := by
    have lots : state.1.countedLots label id = 0 := by
      apply countedLots_eq_zero
      intro price size openSize other isFill
      exact absurd isFill (unfilled price size openSize other)
    exact (congrArg₂ (· + ·) zero lots :)
  constructor
  · exact uncounted.wired.step label
  · intro id failed
    rcases Finset.mem_union.mp failed with failed | unacknowledged
    · rcases Finset.mem_union.mp failed with old | unsent
      · rcases uncounted.failed id old with rejected | unsent
        · exact Or.inl (Finset.mem_union_left _ rejected)
        · exact Or.inr (Finset.mem_union_left _ unsent)
      · exact Or.inr (Finset.mem_union_right _ unsent)
    · have rejected := rejected_of_unacknowledged finds (Option.mem_toFinset.mp unacknowledged)
      exact Or.inl (Finset.mem_union_left _ rejected)
  · intro id rejected
    rcases Finset.mem_union.mp rejected with old | message
    · apply older (uncounted.rejected id old)
      rintro price size openSize other rfl
      exact noStray.1 old
    · obtain ⟨order, rfl, failure⟩ := isFailure_of_mem_rejected (Option.mem_toFinset.mp message)
      apply older (noStray failure)
      intro _ _ _ _ isFill
      cases isFill
  · intro id unsent
    rcases Finset.mem_union.mp unsent with old | inVain
    · apply older (uncounted.unsent id old)
      rintro price size openSize other rfl
      exact noStray.2 old
    · apply new
      rw [eq_of_mem_unsent (Option.mem_toFinset.mp inVain)]
      exact Nat.lt_succ_self _
  · intro id isNew
    exact new (lt_of_le_of_lt steps.requestIdGenerator_le isNew)

/-- If the threads of `open` and `close` find their orders still just sent,
acknowledged or rejected, then no fill is ever counted of an order whose call has
returned zero. -/
theorem nothing_counted_of_failed (accountType : OrderAccountType) (account : α → TradeAccount)
    (labels : List (Label α))
    (noStray : EveryStep (recording OrderSystem.step outcomes) NoStrayFill
      (start accountType account, Outcomes.none) labels)
    (finds : EveryStep (recording OrderSystem.step outcomes) FindsAnswer
      (start accountType account, Outcomes.none) labels) :
    EveryState (recording OrderSystem.step outcomes) NothingCounted
      (start accountType account, Outcomes.none) labels := by
  have uncounted : EveryState (recording OrderSystem.step outcomes) Uncounted
      (start accountType account, Outcomes.none) labels :=
    everyState_of_everyStep (fun _ _ inv both => inv.step both.1 both.2)
      (uncounted_start accountType account)
      ((everyStep_and_iff _ _).mpr ⟨noStray, finds⟩)
  exact uncounted.mono fun _ inv => inv.nothingCounted

/-- An order is rejected, and the next one is filled for some lots. -/
def rejectedFirst : List (Label Unit) :=
  [.post .open () 5 10 ⟨true, true⟩, .onOrder 1 ⟨.rejected, 0⟩, .advance () true,
    .post .open () 5 10 ⟨true, true⟩, .onFill 2 5 4 6 (.init .short ['S'] ['X'] 1 0)]

theorem nothing_counted_rejectedFirst :
    EveryState (recording OrderSystem.step outcomes) NothingCounted
        (singleSymbol, Outcomes.none) rejectedFirst ∧
      (run (recording OrderSystem.step outcomes) (singleSymbol, Outcomes.none)
        rejectedFirst).2.failed = {1} := by
  constructor
  · apply nothing_counted_of_failed
    · refine ⟨trivial, ?_, trivial, trivial, ⟨?_, ?_⟩, trivial⟩
      · exact fun _ => by decide +kernel
      · decide +kernel
      · decide +kernel
    · refine ⟨trivial, trivial, ?_, trivial, trivial, trivial⟩
      intro request id asleep thread
      have isRejected : (run (recording OrderSystem.step outcomes) (singleSymbol, Outcomes.none)
          (rejectedFirst.take 2)).1.thread () = .waiting (.acknowledgement .open 1) false := by
        decide +kernel
      cases isRejected.symm.trans thread
      exact Or.inr (Or.inr (by decide +kernel))
  · decide +kernel

/-- An order is filled before it is acknowledged. -/
def filledEarly : List (Label Unit) :=
  [.post .open () 5 10 ⟨true, true⟩, .onFill 1 5 10 0 (.init .short ['S'] ['X'] 1 0),
    .advance () true]

/-- The call has returned zero, and ten lots were counted. -/
theorem counted_of_failed_filledEarly :
    ¬ ∀ labels, EveryStep (recording OrderSystem.step outcomes) NoStrayFill
        (singleSymbol, Outcomes.none) labels →
      EveryState (recording OrderSystem.step outcomes) NothingCounted
        (singleSymbol, Outcomes.none) labels := by
  intro all
  have noStray : EveryStep (recording OrderSystem.step outcomes) NoStrayFill
      (singleSymbol, Outcomes.none) filledEarly := by
    refine ⟨trivial, ⟨?_, ?_⟩, trivial, trivial⟩ <;> decide +kernel
  have counted := (all filledEarly noStray).last 1 (by decide +kernel)
  exact absurd counted (by decide +kernel)

end OrderSystem

end TradingApp.Orders

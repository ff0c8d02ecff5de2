import Mathlib.Data.Finset.Option
import TradingApp.Orders.Creation

/-!
# Chains of repriced orders

A change without a new size asks for an order of the size the replaced one was
posted with, whatever that one has been filled for.  So the orders of a chain
of such changes are all of one size, and a chain stays within it as long as no
two of its orders are filled.
-/

namespace TradingApp.Orders

open TradingApp.Account TradingApp.Transition

variable {α : Type}

namespace OrderSystem

/-- The chains of orders so far. -/
structure Chains where
  /-- the order a chain started with -/
  root : ℕ → ℕ
  /-- orders that the gateway has changed -/
  replaced : Finset ℕ
  /-- the lots each order was filled for -/
  filled : ℕ → ℕ
  /-- the lots all orders of a chain were filled for -/
  chainFilled : ℕ → ℕ

/-- Every order is a chain of its own. -/
def Chains.none : Chains where
  root id := id
  replaced := ∅
  filled _ := 0
  chainFilled _ := 0

namespace Label

/-- The order that was changed. -/
def replaced : Label α → Option ℕ
  | .onOrder id order => if order.condition = .changed then some id else none
  | _ => none

/-- The lots the orders of a chain are filled for. -/
def chainLots (label : Label α) (root : ℕ → ℕ) (first : ℕ) : ℕ :=
  match label with
  | .onFill key _ size _ _ => if root key = first then size else 0
  | _ => 0

/-- The order a new order's chain started with. -/
def newRoot (label : Label α) (root : ℕ → ℕ) (id : ℕ) : ℕ :=
  match label with
  | .change _ original _ newSize _ => if newSize = 0 then root original else id
  | _ => id

end Label

variable [DecidableEq α]

/-- The chains after a step. -/
def chains (chains : Chains) (system : OrderSystem α) (label : Label α) : Chains where
  root :=
    if system.Draws label then
      Function.update chains.root (system.requestIdGenerator + 1)
        (label.newRoot chains.root (system.requestIdGenerator + 1))
    else chains.root
  replaced := chains.replaced ∪ label.replaced.toFinset
  filled id := chains.filled id + label.filledLots id
  chainFilled first := chains.chainFilled first + label.chainLots chains.root first

/-- An order is filled for no more than its size, and not once it was changed. -/
def FillsWithinSize (state : OrderSystem α × Chains) : Label α → Prop
  | .onFill id _ size _ _ =>
      id ∉ state.2.replaced ∧ state.2.filled id + size ≤ (state.1.info id).size
  | _ => True

instance (state : OrderSystem α × Chains) :
    (label : Label α) → Decidable (FillsWithinSize state label)
  | .onFill .. => inferInstanceAs (Decidable (_ ∧ _))
  | .post .. | .change .. | .cancel .. | .cancelAll .. | .advance .. | .onOrder .. |
    .onOrderCancel .. | .onOrderChange .. => inferInstanceAs (Decidable True)

/-- No other order of the chain was filled. -/
def FillsOneOfChain (state : OrderSystem α × Chains) : Label α → Prop
  | .onFill id _ _ _ _ =>
      ∀ other, state.2.root other = state.2.root id → state.2.filled other ≠ 0 → other = id
  | _ => True

/-- No chain is filled for more than the size of its first order. -/
def WithinRequested (state : OrderSystem α × Chains) : Prop :=
  ∀ first, state.2.chainFilled first ≤ (state.1.info first).size

/-- What holds as long as one order of each chain is filled. -/
structure OneFilled (state : OrderSystem α × Chains) : Prop where
  wired : Wired state.1
  root_le : ∀ id, id ≤ state.1.requestIdGenerator → state.2.root id ≤ state.1.requestIdGenerator
  new : ∀ id, state.1.requestIdGenerator < id → (state.1.info id).size = 0 ∧ state.2.root id = id
  size : ∀ id, (state.1.info id).size = (state.1.info (state.2.root id)).size
  within : ∀ id, state.2.filled id ≤ (state.1.info id).size
  filled_le : ∀ id, state.2.filled id ≤ state.2.chainFilled (state.2.root id)
  one : ∀ first, state.2.chainFilled first = 0 ∨
    ∃ id, state.2.root id = first ∧ state.2.chainFilled first = state.2.filled id

omit [DecidableEq α] in
theorem oneFilled_start (accountType : OrderAccountType) (account : α → TradeAccount) :
    OneFilled (start accountType account, Chains.none) where
  wired := wired_start accountType account
  root_le _ le := le
  new _ _ := ⟨rfl, rfl⟩
  size _ := rfl
  within _ := Nat.zero_le _
  filled_le _ := le_refl _
  one _ := Or.inl rfl

omit [DecidableEq α] in
theorem OneFilled.withinRequested {state : OrderSystem α × Chains} (one : OneFilled state) :
    WithinRequested state := by
  intro first
  rcases one.one first with none | ⟨id, rfl, filled⟩
  · rw [none]
    exact Nat.zero_le _
  · calc state.2.chainFilled (state.2.root id) = state.2.filled id := filled
      _ ≤ (state.1.info id).size := one.within id
      _ = (state.1.info (state.2.root id)).size := one.size id

variable {system : OrderSystem α} {chains : Chains} {label : Label α}

/-! ## Fills -/

omit [DecidableEq α] in
/-- The order that is filled is the only one of its chain. -/
theorem OneFilled.chainFilled_eq (one : OneFilled (system, chains)) {id : ℕ}
    (only : ∀ other, chains.root other = chains.root id → chains.filled other ≠ 0 → other = id) :
    chains.chainFilled (chains.root id) = chains.filled id := by
  have least : chains.filled id ≤ chains.chainFilled (chains.root id) := one.filled_le id
  rcases one.one (chains.root id) with none | ⟨other, same, filled⟩
  · dsimp only at none
    omega
  · dsimp only at same filled
    by_cases unfilled : chains.filled other = 0
    · omega
    · obtain rfl := only other same unfilled
      exact filled

theorem OneFilled.fills (one : OneFilled (system, chains)) {id : ℕ} {price : ℚ}
    {size openSize : ℕ} {other : TradeAccount}
    (within : chains.filled id + size ≤ (system.info id).size)
    (only : ∀ other, chains.root other = chains.root id → chains.filled other ≠ 0 → other = id) :
    OneFilled (recording OrderSystem.step OrderSystem.chains (system, chains)
      (.onFill id price size openSize other)) := by
  let label : Label α := .onFill id price size openSize other
  have steps : Next system label (system.step label) := step_spec system label
  have draws : ¬ system.Draws label := not_not.mpr (onFill_fixed id price size openSize other).2.1
  have same : (system.step label).requestIdGenerator = system.requestIdGenerator :=
    not_not.mp draws
  have root : (system.chains chains label).root = chains.root := if_neg draws
  have sizes (key : ℕ) : ((system.step label).info key).size = (system.info key).size :=
    steps.size one.wired same key
  have filled (key : ℕ) : (system.chains chains label).filled key =
      chains.filled key + if key = id then size else 0 := rfl
  have chainFilled (first : ℕ) : (system.chains chains label).chainFilled first =
      chains.chainFilled first + if chains.root id = first then size else 0 := rfl
  have total := one.chainFilled_eq only
  constructor
  · exact one.wired.step label
  · intro key le
    exact (congrFun root key).trans_le ((one.root_le key (le.trans same.le)).trans same.ge)
  · intro key isNew
    have isNew : system.requestIdGenerator < key := same ▸ isNew
    exact ⟨(sizes key).trans (one.new key isNew).1,
      (congrFun root key).trans (one.new key isNew).2⟩
  · intro key
    change ((system.step label).info key).size =
      ((system.step label).info ((system.chains chains label).root key)).size
    rw [sizes, sizes, root]
    exact one.size key
  · intro key
    change (system.chains chains label).filled key ≤ ((system.step label).info key).size
    rw [sizes, filled]
    split
    · rename_i isKey
      rw [isKey]
      exact within
    · exact one.within key
  · intro key
    change (system.chains chains label).filled key ≤
      (system.chains chains label).chainFilled ((system.chains chains label).root key)
    rw [filled, chainFilled, root]
    have least : chains.filled key ≤ chains.chainFilled (chains.root key) := one.filled_le key
    by_cases isKey : key = id
    · subst isKey
      rw [if_pos rfl, if_pos rfl]
      exact Nat.add_le_add_right least size
    · rw [if_neg isKey]
      exact least.trans (Nat.le_add_right _ _)
  · intro first
    change (system.chains chains label).chainFilled first = 0 ∨ ∃ key,
      (system.chains chains label).root key = first ∧
        (system.chains chains label).chainFilled first = (system.chains chains label).filled key
    rw [chainFilled, root]
    by_cases isRoot : chains.root id = first
    · subst isRoot
      refine Or.inr ⟨id, rfl, ?_⟩
      rw [filled, if_pos rfl, if_pos rfl, total]
    · rw [if_neg isRoot, Nat.add_zero]
      rcases one.one first with none | ⟨key, rfl, isFilled⟩
      · exact Or.inl none
      · refine Or.inr ⟨key, rfl, ?_⟩
        have different : key ≠ id := fun equal => isRoot (equal ▸ rfl)
        rw [filled, if_neg different]
        exact isFilled

/-! ## Other steps -/

omit [DecidableEq α] in
theorem Label.lots_eq_zero
    (notFill : ∀ id price size openSize other, label ≠ .onFill id price size openSize other)
    (root : ℕ → ℕ) (id : ℕ) : label.filledLots id = 0 ∧ label.chainLots root id = 0 := by
  cases label with
  | onFill => exact absurd rfl (notFill _ _ _ _ _)
  | _ => exact ⟨rfl, rfl⟩

/-- Nothing is filled but by a fill. -/
theorem chains_unfilled (system : OrderSystem α) (chains : Chains)
    (notFill : ∀ id price size openSize other, label ≠ .onFill id price size openSize other) :
    (system.chains chains label).filled = chains.filled ∧
      (system.chains chains label).chainFilled = chains.chainFilled := by
  constructor
  · funext id
    exact congrArg (chains.filled id + ·) (Label.lots_eq_zero notFill chains.root id).1
  · funext first
    exact congrArg (chains.chainFilled first + ·) (Label.lots_eq_zero notFill chains.root first).2

/-- A step that draws no id and is no fill changes no chain. -/
theorem OneFilled.stays (one : OneFilled (system, chains))
    (notFill : ∀ id price size openSize other, label ≠ .onFill id price size openSize other)
    (draws : ¬ system.Draws label) :
    OneFilled (recording OrderSystem.step OrderSystem.chains (system, chains) label) := by
  have steps : Next system label (system.step label) := step_spec system label
  have same : (system.step label).requestIdGenerator = system.requestIdGenerator :=
    not_not.mp draws
  have root : (system.chains chains label).root = chains.root := if_neg draws
  have sizes (id : ℕ) : ((system.step label).info id).size = (system.info id).size :=
    steps.size one.wired same id
  obtain ⟨filled, chainFilled⟩ := chains_unfilled system chains notFill
  have reached : recording OrderSystem.step OrderSystem.chains (system, chains) label =
      (system.step label, system.chains chains label) := rfl
  rw [reached]
  refine ⟨one.wired.step label, ?_, ?_, ?_, ?_, ?_, ?_⟩ <;> dsimp only <;>
    simp only [root, filled, chainFilled, sizes, same]
  · exact one.root_le
  · exact one.new
  · exact one.size
  · exact one.within
  · exact one.filled_le
  · exact one.one

section Creates

variable (one : OneFilled (system, chains)) (draws : system.Draws label)

include one draws

/-- A new order goes on with a chain of its own size. -/
theorem OneFilled.size_newRoot :
    ((system.step label).info (system.requestIdGenerator + 1)).size =
      ((system.step label).info
        (label.newRoot chains.root (system.requestIdGenerator + 1))).size := by
  have steps : Next system label (system.step label) := step_spec system label
  obtain ⟨_, creates⟩ := steps.creates one.wired draws
  cases creates with
  | post => rfl
  | @change _ a original newPrice newSize posting before info =>
      unfold Label.newRoot
      dsimp only
      split
      · rename_i unchanged
        subst unchanged
        have rootSize := (steps.later one.wired (one.root_le original before.le)).size
        rw [info, size_changedInfo, rootSize]
        exact one.size original
      · rfl

theorem OneFilled.newRoot_le :
    label.newRoot chains.root (system.requestIdGenerator + 1) ≤
      (system.step label).requestIdGenerator := by
  have steps : Next system label (system.step label) := step_spec system label
  obtain ⟨last, creates⟩ := steps.creates one.wired draws
  cases creates with
  | post => exact last.ge
  | change before =>
      unfold Label.newRoot
      dsimp only
      split
      · exact (one.root_le _ before.le).trans steps.requestIdGenerator_le
      · exact last.ge

omit draws [DecidableEq α] in
theorem OneFilled.new_unfilled : chains.filled (system.requestIdGenerator + 1) = 0 := by
  have within : chains.filled (system.requestIdGenerator + 1) ≤
      (system.info (system.requestIdGenerator + 1)).size := one.within _
  have empty : (system.info (system.requestIdGenerator + 1)).size = 0 :=
    (one.new _ (Nat.lt_succ_self _)).1
  exact Nat.eq_zero_of_le_zero (within.trans empty.le)

/-- A new order starts a chain, or goes on with one. -/
theorem OneFilled.creates :
    OneFilled (recording OrderSystem.step OrderSystem.chains (system, chains) label) := by
  have steps : Next system label (system.step label) := step_spec system label
  obtain ⟨last, _⟩ := steps.creates one.wired draws
  have notFill (id : ℕ) (price : ℚ) (size openSize : ℕ) (other : TradeAccount) :
      label ≠ .onFill id price size openSize other := by
    rintro rfl
    exact draws (onFill_fixed id price size openSize other).2.1
  have root : (system.chains chains label).root =
      Function.update chains.root (system.requestIdGenerator + 1)
        (label.newRoot chains.root (system.requestIdGenerator + 1)) := if_pos draws
  obtain ⟨filled, chainFilled⟩ := chains_unfilled system chains notFill
  have oldSize {id : ℕ} (le : id ≤ system.requestIdGenerator) :
      ((system.step label).info id).size = (system.info id).size :=
    (steps.later one.wired le).size
  have reached : recording OrderSystem.step OrderSystem.chains (system, chains) label =
      (system.step label, system.chains chains label) := rfl
  rw [reached]
  refine ⟨one.wired.step label, ?_, ?_, ?_, ?_, ?_, ?_⟩ <;> dsimp only <;>
    simp only [root, filled, chainFilled]
  · intro id le
    rw [Function.update_apply]
    split
    · exact one.newRoot_le draws
    · rename_i isOld
      have le : id ≤ system.requestIdGenerator :=
        Nat.le_of_lt_succ (lt_of_le_of_ne (le.trans last.le) isOld)
      exact (one.root_le id le).trans steps.requestIdGenerator_le
  · intro id isNew
    have later : system.requestIdGenerator + 1 < id := last ▸ isNew
    have empty := one.new id (Nat.lt_of_succ_lt later)
    rw [steps.info_of_lt one.wired isNew, Function.update_of_ne (Nat.ne_of_gt later)]
    exact empty
  · intro id
    rw [Function.update_apply]
    split
    · rename_i isNew
      rw [isNew]
      exact one.size_newRoot draws
    · rename_i isOld
      by_cases le : id ≤ system.requestIdGenerator
      · rw [oldSize le, oldSize (one.root_le id le)]
        exact one.size id
      · have alone : chains.root id = id := (one.new id (Nat.not_le.mp le)).2
        rw [alone]
  · intro id
    by_cases le : id ≤ system.requestIdGenerator
    · rw [oldSize le]
      exact one.within id
    · have within : chains.filled id ≤ (system.info id).size := one.within id
      rw [(one.new id (Nat.not_le.mp le)).1] at within
      exact within.trans (Nat.zero_le _)
  · intro id
    by_cases isNew : id = system.requestIdGenerator + 1
    · rw [isNew, one.new_unfilled]
      exact Nat.zero_le _
    · rw [Function.update_of_ne isNew]
      exact one.filled_le id
  · intro first
    rcases one.one first with none | ⟨id, isRoot, isFilled⟩
    · exact Or.inl none
    · by_cases isNew : id = system.requestIdGenerator + 1
      · left
        rw [isNew] at isFilled
        exact isFilled.trans one.new_unfilled
      · refine Or.inr ⟨id, ?_, isFilled⟩
        rw [Function.update_of_ne isNew]
        exact isRoot

end Creates

/-! ## Runs -/

theorem OneFilled.step {state : OrderSystem α × Chains} (one : OneFilled state)
    (within : FillsWithinSize state label) (only : FillsOneOfChain state label) :
    OneFilled (recording OrderSystem.step OrderSystem.chains state label) := by
  by_cases isFill : ∃ id price size openSize other, label = .onFill id price size openSize other
  · obtain ⟨id, price, size, openSize, other, rfl⟩ := isFill
    exact one.fills within.2 only
  · have notFill (id : ℕ) (price : ℚ) (size openSize : ℕ) (other : TradeAccount) :
        label ≠ .onFill id price size openSize other :=
      fun same => isFill ⟨id, price, size, openSize, other, same⟩
    by_cases draws : state.1.Draws label
    · exact one.creates draws
    · exact one.stays notFill draws

/-- As long as no two orders of a chain are filled, no chain is filled for more
than its first order was posted for. -/
theorem chains_within_requested (accountType : OrderAccountType) (account : α → TradeAccount)
    (labels : List (Label α))
    (within : EveryStep (recording OrderSystem.step OrderSystem.chains) FillsWithinSize
      (start accountType account, Chains.none) labels)
    (only : EveryStep (recording OrderSystem.step OrderSystem.chains) FillsOneOfChain
      (start accountType account, Chains.none) labels) :
    EveryState (recording OrderSystem.step OrderSystem.chains) WithinRequested
      (start accountType account, Chains.none) labels := by
  have one : EveryState (recording OrderSystem.step OrderSystem.chains) OneFilled
      (start accountType account, Chains.none) labels :=
    everyState_of_everyStep (fun _ _ inv both => inv.step both.1 both.2)
      (oneFilled_start accountType account) ((everyStep_and_iff _ _).mpr ⟨within, only⟩)
  exact one.mono fun _ inv => inv.withinRequested

/-- An order is repriced and then filled in two parts. -/
def repricedBeforeFills : List (Label Unit) :=
  let other : TradeAccount := .init .short ['S'] ['X'] 1 0
  [.post .open () 5 10 ⟨true, true⟩, .onOrder 1 ⟨.new, 10⟩, .advance () true, .advance () true,
    .change () 1 6 0 ⟨true, true⟩, .onOrder 2 ⟨.new, 10⟩, .advance () true, .advance () true,
    .onOrder 1 ⟨.changed, 10⟩, .onFill 2 6 4 6 other, .onFill 2 6 6 0 other]

theorem chains_within_requested_repricedBeforeFills :
    EveryState (recording OrderSystem.step OrderSystem.chains) WithinRequested
        (singleSymbol, Chains.none) repricedBeforeFills ∧
      (run (recording OrderSystem.step OrderSystem.chains) (singleSymbol, Chains.none)
        repricedBeforeFills).2.chainFilled 1 = 10 := by
  refine ⟨chains_within_requested _ _ _ (by decide +kernel) ?_, by decide +kernel⟩
  refine ⟨trivial, trivial, trivial, trivial, trivial, trivial, trivial, trivial, trivial, ?_, ?_,
    trivial⟩
  · intro other _ filled
    exact absurd rfl filled
  · intro other _ filled
    by_contra different
    simp [recording, OrderSystem.chains, Label.filledLots, Chains.none, different] at filled

/-- An order is filled for four lots and then repriced. -/
def repricedAfterFill : List (Label Unit) :=
  let other : TradeAccount := .init .short ['S'] ['X'] 1 0
  [.post .open () 5 10 ⟨true, true⟩, .onOrder 1 ⟨.new, 10⟩, .advance () true, .advance () true,
    .onFill 1 5 4 6 other, .change () 1 6 0 ⟨true, true⟩, .onOrder 2 ⟨.new, 10⟩,
    .advance () true, .advance () true, .onOrder 1 ⟨.changed, 6⟩, .onFill 2 6 10 0 other]

/-- The chain of an order for ten lots is filled for fourteen. -/
theorem not_within_requested_repricedAfterFill :
    ¬ ∀ labels, EveryStep (recording OrderSystem.step OrderSystem.chains) FillsWithinSize
        (singleSymbol, Chains.none) labels →
      EveryState (recording OrderSystem.step OrderSystem.chains) WithinRequested
        (singleSymbol, Chains.none) labels := by
  intro all
  have within := (all repricedAfterFill (by decide +kernel)).last 1
  exact absurd within (by decide +kernel)

end OrderSystem

end TradingApp.Orders

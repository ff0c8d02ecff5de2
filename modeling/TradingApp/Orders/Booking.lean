import Mathlib.Data.Finset.Option
import TradingApp.Orders.Accounts
import TradingApp.Orders.Creation

/-!
# Where fills are booked

Each order goes back to the call that opened or closed, through any number of
changes.  A fill of the order belongs to the account that made the call, and to
the side the call was for.  As long as no fill comes for an order that `OnOrder`
has erased from the hash, every fill is booked there, once.
-/

namespace TradingApp.Orders

open TradingApp.Account TradingApp.Transition

variable {α : Type}

namespace OrderSystem

/-- What was sent and delivered so far. -/
structure Deliveries (α : Type) where
  /-- the account and the side an order goes back to -/
  origin : ℕ → Option (α × RequestType)
  /-- the orders of changes whose sending has failed -/
  unsent : Finset ℕ
  /-- the orders that `OnOrder` has erased -/
  erased : Finset ℕ
  /-- the lots filled for each account and side -/
  filled : α → RequestType → ℕ

/-- Nothing was sent. -/
def Deliveries.none : Deliveries α where
  origin _ := Option.none
  unsent := ∅
  erased := ∅
  filled _ _ := 0

variable [DecidableEq α]

namespace Deliveries

/-- The account and the side a new order goes back to. -/
def newOrigin (deliveries : Deliveries α) : Label α → Option (α × RequestType)
  | .post request a _ _ _ => some (a, request)
  | .change _ original _ _ _ => deliveries.origin original
  | _ => Option.none

/-- The lots a fill of an order adds to what was filled for an account and side. -/
def filledLots (deliveries : Deliveries α) (label : Label α) (a : α) (request : RequestType) : ℕ :=
  match label with
  | .onFill id _ size _ _ =>
      if deliveries.origin id = some (a, request) ∧ id ∉ deliveries.unsent then size else 0
  | _ => 0

end Deliveries

/-- The new order of a change whose sending fails. -/
def unsentChange (system : OrderSystem α) (label : Label α) : Option ℕ :=
  match label with
  | .change _ _ _ _ posting =>
      if posting.sent = false ∧ system.Draws label then some (system.requestIdGenerator + 1)
      else none
  | _ => none

/-- The order that `OnOrder` erases. -/
def erases (system : OrderSystem α) : Label α → Option ℕ
  | .onOrder id order =>
      if id ∈ system.orderHash ∧ order.condition.isFinal = true then some id else none
  | _ => none

/-- The deliveries after a step. -/
def deliveries (deliveries : Deliveries α) (system : OrderSystem α) (label : Label α) :
    Deliveries α where
  origin :=
    if system.Draws label then
      Function.update deliveries.origin (system.requestIdGenerator + 1)
        (deliveries.newOrigin label)
    else deliveries.origin
  unsent := deliveries.unsent ∪ (system.unsentChange label).toFinset
  erased := deliveries.erased ∪ (system.erases label).toFinset
  filled a request := deliveries.filled a request + deliveries.filledLots label a request

/-- No fill comes for an order that was erased. -/
def NoFillOnceErased (state : OrderSystem α × Deliveries α) : Label α → Prop
  | .onFill id _ _ _ _ => id ∉ state.2.erased
  | _ => True

instance (state : OrderSystem α × Deliveries α) :
    (label : Label α) → Decidable (NoFillOnceErased state label)
  | .onFill id _ _ _ _ => inferInstanceAs (Decidable (id ∉ _))
  | .post .. | .change .. | .cancel .. | .cancelAll .. | .advance .. | .onOrder .. |
    .onOrderCancel .. | .onOrderChange .. => inferInstanceAs (Decidable True)

/-- The total of each account is what it was, with the fills of its opens and
less those of its closes. -/
def TotalsBooked (initial : α → TradeAccount) (state : OrderSystem α × Deliveries α) : Prop :=
  ∀ a, (state.1.account a).total =
    (initial a).total + state.2.filled a .open - state.2.filled a .close

/-- Every order is in the hash and carries the function of the account and side
it goes back to, unless it was erased or could not be sent. -/
structure Booked (initial : α → TradeAccount) (state : OrderSystem α × Deliveries α) : Prop where
  wired : Wired state.1
  origin : ∀ id a request, state.1.Posted id a request → state.2.origin id = some (a, request)
  known : ∀ id, state.2.origin id ≠ none → 0 < id ∧ id ≤ state.1.requestIdGenerator
  found : ∀ id, 0 < id → id ≤ state.1.requestIdGenerator → id ∉ state.2.erased →
    id ∉ state.2.unsent → id ∈ state.1.orderHash
  unsent : ∀ id ∈ state.2.unsent, id ≤ state.1.requestIdGenerator ∧ id ∉ state.1.orderHash
  totals : TotalsBooked initial state

omit [DecidableEq α] in
theorem booked_start (accountType : OrderAccountType) (account : α → TradeAccount) :
    Booked account (start accountType account, Deliveries.none) where
  wired := wired_start accountType account
  origin id a request posted := absurd posted.pos (Nat.not_lt.mpr posted.le)
  known id isKnown := absurd rfl isKnown
  found id pos le := absurd pos (Nat.not_lt.mpr le)
  unsent id member := absurd member (Finset.notMem_empty _)
  totals a := by
    simp [start, Deliveries.none]

variable {system next : OrderSystem α} {deliveries : Deliveries α} {label : Label α}
  {initial : α → TradeAccount}

/-- The owner of an order was its owner before. -/
theorem Posted.before (wired : Wired system) (step : Next system label next) {id : ℕ} {a : α}
    {request : RequestType} (posted : next.Posted id a request)
    (old : id ≤ system.requestIdGenerator) : system.Posted id a request := by
  obtain ⟨b, other, before⟩ := wired.order id posted.pos old
  obtain ⟨rfl, rfl⟩ := (before.stays step wired).unique posted
  exact before

/-! ## Fills -/

/-- A fill changes the totals by what is delivered. -/
theorem Booked.onFill (booked : Booked initial (system, deliveries)) {id : ℕ}
    (notErased : id ∉ deliveries.erased) (price : ℚ) (size openSize : ℕ) (other : TradeAccount)
    (b : α) :
    ((system.onFill id price size openSize other).account b).total =
      (system.account b).total +
        deliveries.filledLots (.onFill id price size openSize other) b .open -
        deliveries.filledLots (.onFill id price size openSize other) b .close := by
  unfold Deliveries.filledLots
  dsimp only
  by_cases found : id ∈ system.orderHash
  · obtain ⟨a, request, posted⟩ := booked.wired.posted_of_mem_orderHash found
    have sent : id ∉ deliveries.unsent := fun unsent => (booked.unsent id unsent).2 found
    have origin : deliveries.origin id = some (a, request) := booked.origin id a request posted
    rw [onFill_total id price size openSize other b found posted.wired.fill, origin]
    by_cases same : b = a
    · subst same
      cases request <;> simp [sent, RequestType.signedSize, sub_eq_add_neg]
    · simp [same, Ne.symm same]
  · have unknown (request : RequestType) :
        ¬ (deliveries.origin id = some (b, request) ∧ id ∉ deliveries.unsent) := by
      rintro ⟨origin, sent⟩
      obtain ⟨pos, le⟩ := booked.known id (by rw [origin]; exact Option.some_ne_none _)
      exact found (booked.found id pos le notErased sent)
    have unmatched : system.onFill id price size openSize other = system := if_neg found
    rw [unmatched, if_neg (unknown .open), if_neg (unknown .close)]
    simp

/-- Only a fill delivers lots. -/
theorem filledLots_eq_zero
    (notFill : ∀ id price size openSize other, label ≠ .onFill id price size openSize other)
    (a : α) (request : RequestType) : deliveries.filledLots label a request = 0 := by
  cases label with
  | onFill => exact absurd rfl (notFill _ _ _ _ _)
  | _ => rfl

theorem Booked.totals_step (booked : Booked initial (system, deliveries))
    (once : NoFillOnceErased (system, deliveries) label) :
    TotalsBooked initial (recording OrderSystem.step OrderSystem.deliveries (system, deliveries)
      label) := by
  intro a
  have before := booked.totals a
  have filled (request : RequestType) :
      (system.deliveries deliveries label).filled a request =
        deliveries.filled a request + deliveries.filledLots label a request := rfl
  simp only [recording, filled]
  by_cases isFill : ∃ id price size openSize other, label = .onFill id price size openSize other
  · obtain ⟨id, price, size, openSize, other, rfl⟩ := isFill
    have after := booked.onFill once price size openSize other a
    change ((system.onFill id price size openSize other).account a).total = _
    dsimp only at before
    push_cast
    omega
  · have notFill (id : ℕ) (price : ℚ) (size openSize : ℕ) (other : TradeAccount) :
        label ≠ .onFill id price size openSize other :=
      fun same => isFill ⟨id, price, size, openSize, other, same⟩
    rw [((step_spec system label).books a).total notFill, filledLots_eq_zero notFill,
      filledLots_eq_zero notFill]
    exact before

/-! ## Orders -/

theorem not_mem_unsentChange (draws : ¬ system.Draws label) :
    (system.unsentChange label).toFinset = ∅ := by
  have none : system.unsentChange label = Option.none := by
    unfold unsentChange
    split
    · exact if_neg fun both => draws both.2
    · rfl
  rw [none]
  rfl

/-- A step that draws no id keeps the orders booked. -/
theorem Booked.stays (booked : Booked initial (system, deliveries))
    (once : NoFillOnceErased (system, deliveries) label) (draws : ¬ system.Draws label) :
    Booked initial (recording OrderSystem.step OrderSystem.deliveries (system, deliveries)
      label) := by
  have steps : Next system label (system.step label) := step_spec system label
  have same : (system.step label).requestIdGenerator = system.requestIdGenerator := by
    simpa [Draws] using draws
  have origin : (system.deliveries deliveries label).origin = deliveries.origin := if_neg draws
  have unsent : (system.deliveries deliveries label).unsent = deliveries.unsent := by
    change deliveries.unsent ∪ (system.unsentChange label).toFinset = deliveries.unsent
    rw [not_mem_unsentChange draws, Finset.union_empty]
  constructor
  · exact booked.wired.step label
  · intro id a request posted
    have posted : (system.step label).Posted id a request := posted
    have le : id ≤ system.requestIdGenerator := same ▸ posted.le
    have before := posted.before booked.wired steps le
    exact (congrFun origin id).trans (booked.origin id a request before)
  · intro id known
    have known : deliveries.origin id ≠ Option.none := fun none =>
      known ((congrFun origin id).trans none)
    have bounds := booked.known id known
    exact ⟨bounds.1, bounds.2.trans same.ge⟩
  · intro id pos le notErased sent
    have sent : id ∉ deliveries.unsent := fun member => sent (unsent ▸ member)
    have before : id ∈ system.orderHash :=
      booked.found id pos (le.trans same.le)
        (fun member => notErased (Finset.mem_union_left _ member)) sent
    change id ∈ (system.step label).orderHash
    rcases steps.orderHash same with kept | ⟨key, order, rfl, final, found, erased⟩
    · exact kept ▸ before
    · rw [erased]
      apply Finset.mem_erase_of_ne_of_mem _ before
      rintro rfl
      apply notErased
      apply Finset.mem_union_right
      rw [Option.mem_toFinset]
      exact if_pos ⟨found, final⟩
  · intro id member
    obtain ⟨le, notFound⟩ := booked.unsent id (unsent ▸ member)
    refine ⟨le.trans same.ge, ?_⟩
    change id ∉ (system.step label).orderHash
    rcases steps.orderHash same with kept | ⟨key, order, rfl, final, found, erased⟩
    · exact kept ▸ notFound
    · rw [erased]
      exact fun now => notFound (Finset.mem_of_mem_erase now)
  · exact booked.totals_step once

/-- A new order that is not sent is not in the hash. -/
theorem Creates.not_mem_orderHash (creates : Creates system (system.step label) label) {id : ℕ}
    (member : id ∈ (system.unsentChange label).toFinset) :
    id = system.requestIdGenerator + 1 ∧ id ∉ (system.step label).orderHash := by
  cases creates with
  | post => cases Option.mem_toFinset.mp member
  | change before info isPosted orderHash =>
      simp only [unsentChange, Option.mem_toFinset, Option.mem_def,
        Option.ite_none_right_eq_some, Option.some.injEq] at member
      obtain ⟨⟨sent, _⟩, rfl⟩ := member
      refine ⟨rfl, ?_⟩
      rw [orderHash, sent]
      exact Finset.notMem_erase _ _

/-- Any other one is. -/
theorem Creates.mem_orderHash (creates : Creates system (system.step label) label)
    (draws : system.Draws label)
    (sent : system.requestIdGenerator + 1 ∉ (system.unsentChange label).toFinset) :
    system.requestIdGenerator + 1 ∈ (system.step label).orderHash := by
  cases creates with
  | post info isPosted orderHash =>
      rw [orderHash]
      exact Finset.mem_insert_self _ _
  | @change _ _ _ _ _ posting before info isPosted orderHash =>
      rw [orderHash]
      split
      · exact Finset.mem_insert_self _ _
      · rename_i isUnsent
        exact absurd (Option.mem_toFinset.mpr (if_pos ⟨by simpa using isUnsent, draws⟩)) sent

omit [DecidableEq α] in
/-- The orders that were there stay as they are in the hash. -/
theorem Creates.mem_orderHash_iff (creates : Creates system next label) {id : ℕ}
    (isOld : id ≠ system.requestIdGenerator + 1) :
    id ∈ next.orderHash ↔ id ∈ system.orderHash := by
  cases creates with
  | post info isPosted orderHash =>
      rw [orderHash, Finset.mem_insert, or_iff_right isOld]
  | change before info isPosted orderHash =>
      rw [orderHash]
      split
      · rw [Finset.mem_insert, or_iff_right isOld]
      · rw [Finset.mem_erase, Finset.mem_insert, or_iff_right isOld, and_iff_right isOld]

omit [DecidableEq α] in
/-- A new order goes back to the account that sends it. -/
theorem Booked.newOrigin (booked : Booked initial (system, deliveries))
    (creates : Creates system next label) {a : α} {request : RequestType}
    (posted : next.Posted (system.requestIdGenerator + 1) a request) :
    deliveries.newOrigin label = some (a, request) := by
  cases creates with
  | post info isPosted =>
      obtain ⟨rfl, rfl⟩ := isPosted.unique posted
      rfl
  | change before info isPosted =>
      obtain ⟨rfl, rfl⟩ := isPosted.unique posted
      exact booked.origin _ _ _ before

/-- A step that draws an id keeps the orders booked. -/
theorem Booked.creates (booked : Booked initial (system, deliveries))
    (once : NoFillOnceErased (system, deliveries) label) (draws : system.Draws label) :
    Booked initial (recording OrderSystem.step OrderSystem.deliveries (system, deliveries)
      label) := by
  have steps : Next system label (system.step label) := step_spec system label
  obtain ⟨last, creates⟩ := steps.creates booked.wired draws
  have origin : (system.deliveries deliveries label).origin =
      Function.update deliveries.origin (system.requestIdGenerator + 1)
        (deliveries.newOrigin label) := if_pos draws
  have old {id : ℕ} (isOld : id ≠ system.requestIdGenerator + 1)
      (le : id ≤ (system.step label).requestIdGenerator) : id ≤ system.requestIdGenerator :=
    Nat.le_of_lt_succ (lt_of_le_of_ne (le.trans last.le) isOld)
  constructor
  · exact booked.wired.step label
  · intro id a request posted
    have posted : (system.step label).Posted id a request := posted
    apply (congrFun origin id).trans
    by_cases isOld : id = system.requestIdGenerator + 1
    · subst isOld
      rw [Function.update_self]
      exact booked.newOrigin creates posted
    · rw [Function.update_of_ne isOld]
      exact booked.origin id a request (posted.before booked.wired steps (old isOld posted.le))
  · intro id known
    have known : Function.update deliveries.origin (system.requestIdGenerator + 1)
        (deliveries.newOrigin label) id ≠ Option.none := fun none =>
      known ((congrFun origin id).trans none)
    by_cases isOld : id = system.requestIdGenerator + 1
    · subst isOld
      exact ⟨Nat.succ_pos _, last.ge⟩
    · rw [Function.update_of_ne isOld] at known
      have bounds := booked.known id known
      exact ⟨bounds.1, bounds.2.trans steps.requestIdGenerator_le⟩
  · intro id pos le notErased sent
    by_cases isOld : id = system.requestIdGenerator + 1
    · subst isOld
      exact creates.mem_orderHash draws fun member => sent (Finset.mem_union_right _ member)
    · exact (creates.mem_orderHash_iff isOld).mpr (booked.found id pos (old isOld le)
        (fun member => notErased (Finset.mem_union_left _ member))
        fun member => sent (Finset.mem_union_left _ member))
  · intro id member
    rcases Finset.mem_union.mp member with before | new
    · obtain ⟨le, notFound⟩ := booked.unsent id before
      have isOld : id ≠ system.requestIdGenerator + 1 := Nat.ne_of_lt (Nat.lt_succ_of_le le)
      exact ⟨le.trans steps.requestIdGenerator_le,
        fun now => notFound ((creates.mem_orderHash_iff isOld).mp now)⟩
    · obtain ⟨rfl, notFound⟩ := creates.not_mem_orderHash new
      exact ⟨last.ge, notFound⟩
  · exact booked.totals_step once

/-! ## Runs -/

theorem Booked.step {state : OrderSystem α × Deliveries α} (booked : Booked initial state)
    (once : NoFillOnceErased state label) :
    Booked initial (recording OrderSystem.step OrderSystem.deliveries state label) := by
  by_cases draws : state.1.Draws label
  · exact booked.creates once draws
  · exact booked.stays once draws

/-- In every run in which no fill comes for an erased order, each account's total
is what was filled on its own orders. -/
theorem totals_booked (accountType : OrderAccountType) (account : α → TradeAccount)
    (labels : List (Label α))
    (once : EveryStep (recording OrderSystem.step OrderSystem.deliveries) NoFillOnceErased
      (start accountType account, Deliveries.none) labels) :
    EveryState (recording OrderSystem.step OrderSystem.deliveries) (TotalsBooked account)
      (start accountType account, Deliveries.none) labels := by
  have booked : EveryState (recording OrderSystem.step OrderSystem.deliveries) (Booked account)
      (start accountType account, Deliveries.none) labels :=
    everyState_of_everyStep (fun _ _ inv meets => inv.step meets)
      (booked_start accountType account) once
  exact booked.mono fun _ inv => inv.totals

/-- One account opens and changes its order, and the other one cannot send an open
and then closes. -/
def twoAccounts : List (Label Bool) :=
  let other : TradeAccount := .init .short ['S'] ['X'] 1 0
  [.post .open true 5 10 ⟨true, true⟩, .onOrder 1 ⟨.new, 10⟩, .advance true true,
    .advance true true, .onFill 1 5 4 6 other, .change true 1 6 0 ⟨true, true⟩,
    .onOrder 1 ⟨.changed, 6⟩, .onFill 2 6 3 7 other, .post .open false 8 20 ⟨true, false⟩,
    .post .close false 8 5 ⟨true, true⟩, .onFill 4 8 5 0 other, .onOrder 4 ⟨.done, 0⟩]

theorem totals_booked_twoAccounts :
    EveryState (recording OrderSystem.step OrderSystem.deliveries)
        (TotalsBooked fun _ => .init .long ['L'] ['X'] 1 0)
        (start .long fun _ => .init .long ['L'] ['X'] 1 0, Deliveries.none) twoAccounts ∧
      ((run OrderSystem.step (start .long fun _ => .init .long ['L'] ['X'] 1 0)
          twoAccounts).account true).total = 7 ∧
      ((run OrderSystem.step (start .long fun _ => .init .long ['L'] ['X'] 1 0)
          twoAccounts).account false).total = -5 := by
  exact ⟨totals_booked _ _ _ (by decide +kernel), by decide +kernel, by decide +kernel⟩

end OrderSystem

end TradingApp.Orders

import TradingApp.Orders.Wiring

/-!
# Where orders come from

The id of every order was drawn by a call of `open` or `close`, or by a change
of an order that its account has in its map.  The order goes into the hash, and
stays there until `OnOrder` erases it; only a change whose sending fails takes
its own order out again.
-/

namespace TradingApp.Orders

open TradingApp.Account

variable {α : Type} [DecidableEq α]

namespace OrderSystem

/-- A step draws a new id. -/
def Draws (system : OrderSystem α) (label : Label α) : Prop :=
  (system.step label).requestIdGenerator ≠ system.requestIdGenerator

instance (system : OrderSystem α) (label : Label α) : Decidable (system.Draws label) :=
  inferInstanceAs (Decidable (_ ≠ _))

variable {system next : OrderSystem α} {label : Label α}

/-- How an order with a new id comes about. -/
inductive Creates (system next : OrderSystem α) : Label α → Prop
  | post {request : RequestType} {a : α} {price : ℚ} {size : ℕ} {posting : Posting}
      (info : next.info (system.requestIdGenerator + 1) =
        system.newInfo request a price (size / (system.account a).divisor))
      (posted : next.Posted (system.requestIdGenerator + 1) a request)
      (orderHash : next.orderHash = insert (system.requestIdGenerator + 1) system.orderHash) :
      Creates system next (.post request a price size posting)
  | change {request : RequestType} {a : α} {original : ℕ} {newPrice : ℚ} {newSize : ℕ}
      {posting : Posting} (before : system.Posted original a request)
      (info : next.info (system.requestIdGenerator + 1) =
        system.changedInfo a original newPrice newSize)
      (posted : next.Posted (system.requestIdGenerator + 1) a request)
      (orderHash : next.orderHash =
        if posting.sent then insert (system.requestIdGenerator + 1) system.orderHash
        else (insert (system.requestIdGenerator + 1) system.orderHash).erase
          (system.requestIdGenerator + 1)) :
      Creates system next (.change a original newPrice newSize posting)

omit [DecidableEq α] in
/-- A replacement without a new size has the size of the order it replaces. -/
theorem size_changedInfo (a : α) (original : ℕ) (newPrice : ℚ) :
    (system.changedInfo a original newPrice 0).size = (system.info original).size := by
  unfold changedInfo
  rw [Nat.zero_div]
  rfl

section Next

variable (step : Next system label next)

include step

/-- A step that draws an id creates an order. -/
theorem Next.creates (wired : Wired system)
    (draws : next.requestIdGenerator ≠ system.requestIdGenerator) :
    next.requestIdGenerator = system.requestIdGenerator + 1 ∧ Creates system next label := by
  cases step with
  | @posts request a price size posting =>
      refine ⟨rfl,
        .post ?_ ((posted_emplace (wiredTo_newInfo request a price _)).setThread a _) rfl⟩
      exact Function.update_self _ _ _
  | @changes a original newPrice newSize posting idle isKey isOver sent =>
      obtain ⟨request, before⟩ := wired.orders _ _ isKey
      refine ⟨rfl, .change before ?_ ((posted_changed before newPrice newSize).setThread a _) ?_⟩
      · exact Function.update_self _ _ _
      · rw [sent]
        rfl
  | @unsent a original newPrice newSize posting idle isKey sent =>
      obtain ⟨request, before⟩ := wired.orders _ _ isKey
      have posted := posted_changed before newPrice newSize
      refine ⟨rfl, .change before ?_ ⟨posted.pos, posted.le, posted.wired⟩ ?_⟩
      · exact Function.update_self _ _ _
      · rw [sent]
        rfl
  | message => exact absurd (onOrderFound_fixed _ _ _).2 draws
  | fill => exact absurd (onFill_fixed _ _ _ _ _).2.1 draws
  | finishesChange => exact absurd (by split <;> rfl) draws
  | _ => exact absurd rfl draws

/-- A step that draws no id takes at most the order of a final message out of the
hash. -/
theorem Next.orderHash (same : next.requestIdGenerator = system.requestIdGenerator) :
    next.orderHash = system.orderHash ∨
      ∃ id order, label = .onOrder id order ∧ order.condition.isFinal = true ∧
        id ∈ system.orderHash ∧ next.orderHash = system.orderHash.erase id := by
  cases step with
  | posts | changes | unsent => exact absurd same (Nat.succ_ne_self _)
  | @message id order found =>
      rw [onOrderFound_orderHash]
      split
      · rename_i final
        exact Or.inr ⟨id, order, rfl, final, found, rfl⟩
      · exact Or.inl rfl
  | fill => exact Or.inl (onFill_fixed _ _ _ _ _).2.2.1
  | finishesChange =>
      left
      split <;> rfl
  | _ => exact Or.inl rfl

/-- There is nothing under an id that was not drawn yet. -/
theorem Next.info_of_lt (wired : Wired system) {id : ℕ} (new : next.requestIdGenerator < id) :
    next.info id = system.info id := by
  have ofKey {a : α} {key : ℕ} (isKey : key ∈ system.orders a)
      (new : system.requestIdGenerator < id) : id ≠ key := by
    obtain ⟨request, posted⟩ := wired.orders a key isKey
    exact Nat.ne_of_gt (lt_of_le_of_lt posted.le new)
  have ofFound {key : ℕ} (found : key ∈ system.orderHash)
      (new : system.requestIdGenerator < id) : id ≠ key :=
    Nat.ne_of_gt (lt_of_le_of_lt (wired.hash key found).2 new)
  have drawn (new : system.requestIdGenerator + 1 < id) :
      id ≠ system.requestIdGenerator + 1 ∧ system.requestIdGenerator < id :=
    ⟨Nat.ne_of_gt new, Nat.lt_of_succ_lt new⟩
  cases step with
  | posts => exact Function.update_of_ne (drawn new).1 _ _
  | asks idle isKey => exact Function.update_of_ne (ofKey isKey new) _ _
  | changes idle isKey =>
      exact (Function.update_of_ne (drawn new).1 _ _).trans
        (Function.update_of_ne (ofKey isKey (drawn new).2) _ _)
  | unsent idle isKey =>
      exact (Function.update_of_ne (drawn new).1 _ _).trans
        (Function.update_of_ne (ofKey isKey (drawn new).2) _ _)
  | cancelUnsent a key thread before after isKey =>
      exact Function.update_of_ne (ofKey isKey new) _ _
  | cancels a key rest before isKey => exact Function.update_of_ne (ofKey isKey new) _ _
  | @cancelFails a sent asleep key rest thread =>
      obtain ⟨⟨request, posted⟩, _⟩ :=
        wired.thread a (.cancel key rest) (by rw [thread]; rfl)
      exact Function.update_of_ne (Nat.ne_of_gt (lt_of_le_of_lt posted.le new)) _ _
  | message found =>
      rw [(onOrderFound_fixed _ _ _).2] at new
      rw [onOrderFound_info]
      exact Function.update_of_ne (ofFound found new) _ _
  | cancelMessage found => exact Function.update_of_ne (ofFound found new) _ _
  | changeMessage found => exact Function.update_of_ne (ofFound found new) _ _
  | @fill key price size openSize other found =>
      rw [(onFill_fixed _ _ _ _ _).2.1] at new
      obtain ⟨fillSize, info⟩ := onFill_info found price size openSize other
      rw [info]
      exact Function.update_of_ne (ofFound found new) _ _
  | finishesChange => split <;> rfl
  | _ => rfl

/-- Under an id that was not drawn before, there is a new order or still nothing. -/
theorem Next.new_or_same (wired : Wired system) {id : ℕ} (new : system.requestIdGenerator < id) :
    Creates system next label ∧ id = system.requestIdGenerator + 1 ∨
      next.info id = system.info id := by
  by_cases le : id ≤ next.requestIdGenerator
  · have draws : next.requestIdGenerator ≠ system.requestIdGenerator :=
      fun same => absurd (same ▸ le) (Nat.not_le.mpr new)
    obtain ⟨last, creates⟩ := step.creates wired draws
    exact Or.inl ⟨creates, Nat.le_antisymm (last ▸ le) new⟩
  · exact Or.inr (step.info_of_lt wired (Nat.not_le.mp le))

/-- The size of an order never changes. -/
theorem Next.size (wired : Wired system)
    (same : next.requestIdGenerator = system.requestIdGenerator) (id : ℕ) :
    (next.info id).size = (system.info id).size := by
  by_cases le : id ≤ system.requestIdGenerator
  · exact (step.later wired le).size
  · rw [step.info_of_lt wired (same.trans_lt (Nat.not_le.mp le))]

end Next

/-! ## New waits -/

/-- What a thread may begin to wait for. -/
inductive NewWait (system next : OrderSystem α) (label : Label α) (a : α) : Wait → Prop
  | post {request : RequestType} {price : ℚ} {size : ℕ} {posting : Posting}
      (isLabel : label = .post request a price size posting)
      (draws : next.requestIdGenerator = system.requestIdGenerator + 1) :
      NewWait system next label a (.acknowledgement request (system.requestIdGenerator + 1))
  | change {original : ℕ} {newPrice : ℚ} {newSize : ℕ} {posting : Posting}
      (isLabel : label = .change a original newPrice newSize posting)
      (draws : next.requestIdGenerator = system.requestIdGenerator + 1)
      (isKey : original ∈ system.orders a) :
      NewWait system next label a (.change original (system.requestIdGenerator + 1) newSize)
  | cancel {id : ℕ} {rest : Option (List ℕ)} (isKey : id ∈ system.orders a)
      (live : (system.info id).canCancel = true) :
      NewWait system next label a (.cancel id rest)

theorem Next.newWait (step : Next system label next) {a : α} {wait : Wait}
    (waits : (next.thread a).wait = some wait) :
    (system.thread a).wait = some wait ∨ NewWait system next label a wait := by
  refine (step.begins waits).imp_right fun begins => ?_
  cases begins with
  | post => exact .post rfl rfl
  | change isKey => exact .change rfl rfl isKey
  | cancel isKey live => exact .cancel isKey live

end OrderSystem

end TradingApp.Orders

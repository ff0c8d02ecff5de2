import TradingApp.Orders.Wiring

/-!
# What a step does to the accounts

Each account is left alone, or its books are kept in one of six ways.  From
these follow what changes a total, a live counter or the queue of pending
requests.  Only a fill changes a total, and it changes no live counter.
-/

namespace TradingApp.Account

open TradingApp.Orders

namespace RequestType

/-- What a fill adds to the total of the account that sent the order. -/
def signedSize (request : RequestType) (size : ℕ) : ℤ :=
  match request with
  | .open => size
  | .close => -size

end RequestType

namespace TradeAccount

/-- The live counter for opens or for closes. -/
def live (account : TradeAccount) : RequestType → ℤ
  | .open => account.totalOpen
  | .close => account.totalClose

variable (account other : TradeAccount) (request : RequestType) (lots : ℤ)

@[simp]
theorem addLive_total : (account.addLive request lots).total = account.total := by
  cases request <;> rfl

theorem addLive_live (counter : RequestType) :
    (account.addLive request lots).live counter =
      account.live counter + if request = counter then lots else 0 := by
  cases request <;> cases counter <;> simp [addLive, live]

@[simp]
theorem addLive_pendingOrders :
    (account.addLive request lots).pendingOrders = account.pendingOrders := by
  cases request <;> rfl

section Orders

variable {α : Type} (info changed : OrderInfo α)

@[simp]
theorem subtractLive_pendingOrders (lots : ℕ) :
    (account.subtractLive info lots).pendingOrders = account.pendingOrders := by
  unfold subtractLive
  split
  · exact addLive_pendingOrders _ _ _
  · rfl

@[simp]
theorem countChange_pendingOrders :
    (account.countChange info changed).pendingOrders = account.pendingOrders := by
  unfold countChange
  dsimp only
  split_ifs <;> simp only [addLive_pendingOrders]

@[simp]
theorem subtractLive_total (lots : ℕ) :
    (account.subtractLive info lots).total = account.total := by
  unfold subtractLive
  split
  · exact addLive_total _ _ _
  · rfl

@[simp]
theorem countDone_total : (account.countDone info).total = account.total :=
  subtractLive_total account info info.size

@[simp]
theorem countChange_total : (account.countChange info changed).total = account.total := by
  unfold countChange
  dsimp only
  split_ifs <;> simp only [addLive_total]

end Orders

/-! ## Fills -/

variable (orderId : ℕ) (price : ℚ) (size : ℕ)

/-- A fill of an order that opens or closes. -/
def onFill : TradeAccount :=
  match request with
  | .open => (account.onOpenFill other orderId price size).1
  | .close => account.onCloseFill orderId price size

theorem onFill_total :
    (account.onFill other request orderId price size).total =
      account.total + request.signedSize size := by
  cases request with
  | «open» => exact (onOpenFill_spec account other orderId price size).1.total
  | close => exact (onCloseFill_spec account orderId price size).total

theorem onOpenFill_live (counter : RequestType) :
    (account.onOpenFill other orderId price size).1.live counter = account.live counter := by
  obtain ⟨spread, otherSpread, spreads⟩ := calculateSpread_eq account other price size true
  unfold onOpenFill
  split
  · simp only [onOpenFillLong, spreads]
    cases counter <;> rfl
  · simp only [onOpenFillShort, spreads]
    split <;> cases counter <;> rfl

theorem onCloseFill_live (counter : RequestType) :
    (account.onCloseFill orderId price size).live counter = account.live counter := by
  unfold onCloseFill
  dsimp only
  split <;> cases counter <;> rfl

theorem onFill_live (counter : RequestType) :
    (account.onFill other request orderId price size).live counter = account.live counter := by
  cases request with
  | «open» => exact onOpenFill_live account other orderId price size counter
  | close => exact onCloseFill_live account orderId price size counter

theorem onFill_pendingOrders :
    (account.onFill other request orderId price size).pendingOrders = account.pendingOrders := by
  cases request with
  | «open» => exact (onOpenFill_pendingOrders account other orderId price size).1
  | close => exact onCloseFill_pendingOrders account orderId price size

end TradeAccount

end TradingApp.Account

namespace TradingApp.Orders

open TradingApp.Account

variable {α : Type}

namespace OrderSystem

/-- A fill of the order is added to its account's total. -/
def CountsFill (system : OrderSystem α) (id : ℕ) : Prop :=
  id ∈ system.orderHash ∧ (system.info id).onFillFunction.isSome = true

instance (system : OrderSystem α) (id : ℕ) : Decidable (system.CountsFill id) :=
  inferInstanceAs (Decidable (_ ∧ _))

variable [DecidableEq α] {system next : OrderSystem α} {label : Label α}

/-- What becomes of an account. -/
inductive Books (system : OrderSystem α) (label : Label α) (a : α) : TradeAccount → Prop
  | same : Books system label a (system.account a)
  | clears (isLabel : label = .cancelAll a) :
      Books system label a { system.account a with pendingOrders := [] }
  | withdraws (id : ℕ) (rest : Option (List ℕ)) (asleep sent : Bool)
      (isLabel : label = .advance a sent)
      (thread : system.thread a = .waiting (.cancel id rest) asleep)
      (stage : (system.info id).cancelStage = .done) :
      Books system label a
        ((system.account a).subtractLive (system.info id) (system.info id).order.openSize)
  | counts (request : RequestType) (id : ℕ) (sent : Bool) (isLabel : label = .advance a sent)
      (thread : system.thread a = .acknowledged (.acknowledgement request id)) :
      Books system label a ((system.account a).addLive request (system.info id).size)
  | countsChange (original id newSize : ℕ) (sent : Bool) (isLabel : label = .advance a sent)
      (thread : system.thread a = .acknowledged (.change original id newSize))
      (resized : newSize > 0) :
      Books system label a
        ((system.account a).countChange (system.info original) (system.info id))
  | done (id : ℕ) (order : OrderMessage) (isLabel : label = .onOrder id order)
      (found : id ∈ system.orderHash) (condition : order.condition = .done)
      (function : (system.info id).onOrderDoneFunction = some a) :
      Books system label a ((system.account a).countDone (system.info id))
  | fills (id : ℕ) (price : ℚ) (size openSize : ℕ) (other : TradeAccount) (request : RequestType)
      (isLabel : label = .onFill id price size openSize other) (found : id ∈ system.orderHash)
      (function : (system.info id).onFillFunction = some (a, request)) :
      Books system label a ((system.account a).onFill other request id price size)

theorem Books.of_update {a : α} {account : TradeAccount}
    (books : Books system label a account) (b : α) :
    Books system label b (Function.update system.account a account b) := by
  rw [Function.update_apply]
  split
  · rename_i same
    subst same
    exact books
  · exact .same

theorem onFill_account (id : ℕ) (price : ℚ) (size openSize : ℕ) (other : TradeAccount) {a : α}
    {request : RequestType} (found : id ∈ system.orderHash)
    (function : (system.info id).onFillFunction = some (a, request)) :
    (system.onFill id price size openSize other).account =
      Function.update system.account a
        ((system.account a).onFill other request id price size) := by
  unfold onFill
  rw [if_pos found]
  dsimp only
  rw [function]
  cases request <;> rfl

/-- Every step keeps the books in one of these ways. -/
theorem Next.books (step : Next system label next) (b : α) :
    Books system label b (next.account b) := by
  cases step with
  | @cancelsAll a idle => exact Books.of_update (.clears rfl) b
  | @cancelled a sent asleep id rest thread stage =>
      exact Books.of_update (.withdraws id rest asleep sent rfl thread stage) b
  | @finishes a sent request id thread =>
      exact Books.of_update (.counts request id sent rfl thread) b
  | @finishesChange a sent original id newSize thread =>
      split
      · rename_i resized
        exact Books.of_update (.countsChange original id newSize sent rfl thread resized) b
      · exact .same
  | @message id order found =>
      rw [onOrderFound_account]
      split
      · rename_i condition function
        exact Books.of_update (.done id order rfl found condition function) b
      · exact .same
  | @fill id price size openSize other found =>
      cases function : (system.info id).onFillFunction with
      | none =>
          have same : (system.onFill id price size openSize other).account = system.account := by
            unfold onFill
            rw [if_pos found]
            dsimp only
            rw [function]
            rfl
          rw [same]
          exact .same
      | some owner =>
          rw [onFill_account id price size openSize other found function]
          exact Books.of_update (.fills id price size openSize other owner.2 rfl found function) b
  | _ => exact .same

/-! ## Totals and queues -/

/-- A fill that is found is booked on the account that sent the order. -/
theorem onFill_total (id : ℕ) (price : ℚ) (size openSize : ℕ) (other : TradeAccount) (b : α)
    {a : α} {request : RequestType} (found : id ∈ system.orderHash)
    (function : (system.info id).onFillFunction = some (a, request)) :
    ((system.onFill id price size openSize other).account b).total =
      (system.account b).total + if b = a then request.signedSize size else 0 := by
  rw [onFill_account id price size openSize other found function, Function.update_apply]
  split
  · rename_i same
    rw [same]
    exact TradeAccount.onFill_total _ _ _ _ _ _
  · exact (add_zero _).symm

variable {b : α} {account : TradeAccount}

omit [DecidableEq α] in
/-- Only a fill changes a total. -/
theorem Books.total (books : Books system label b account)
    (notFill : ∀ id price size openSize other, label ≠ .onFill id price size openSize other) :
    account.total = (system.account b).total := by
  cases books with
  | same => rfl
  | clears => rfl
  | withdraws => exact TradeAccount.subtractLive_total _ _ _
  | counts => exact TradeAccount.addLive_total _ _ _
  | countsChange => exact TradeAccount.countChange_total _ _ _
  | done => exact TradeAccount.countDone_total _ _
  | fills id price size openSize other request isLabel => exact absurd isLabel (notFill _ _ _ _ _)

omit [DecidableEq α] in
/-- Only `cancelAll` changes a queue. -/
theorem Books.pendingOrders (books : Books system label b account) :
    account.pendingOrders = (system.account b).pendingOrders ∨ account.pendingOrders = [] := by
  cases books with
  | same => exact Or.inl rfl
  | clears => exact Or.inr rfl
  | withdraws => exact Or.inl (TradeAccount.subtractLive_pendingOrders _ _ _)
  | counts => exact Or.inl (TradeAccount.addLive_pendingOrders _ _ _)
  | countsChange => exact Or.inl (TradeAccount.countChange_pendingOrders _ _ _)
  | done => exact Or.inl (TradeAccount.subtractLive_pendingOrders _ _ _)
  | fills => exact Or.inl (TradeAccount.onFill_pendingOrders _ _ _ _ _ _)

end OrderSystem

end TradingApp.Orders

import TradingApp.Account.TradeAccount
import TradingApp.Transition.Run

/-!
# What a fill changes

The effect of a fill on the account it is delivered to and on the other one,
field by field for the fields the later modules speak about: the divisor, the
total, the average, the lots and the executed shares.
-/

namespace TradingApp.Account

open TradingApp.Machine TradingApp.Position

namespace TradeAccount

/-- The divisor, the total, the average, the lots and the executed shares of
one account are those of another. -/
structure SamePosition (account other : TradeAccount) : Prop where
  divisor : other.divisor = account.divisor
  total : other.total = account.total
  average : other.average = account.average
  positionTable : other.positionTable = account.positionTable
  totalExecuted : other.totalExecuted = account.totalExecuted

theorem SamePosition.refl (account : TradeAccount) : SamePosition account account := by
  constructor <;> rfl

variable (account other : TradeAccount) (orderId : ℕ) (price : ℚ) (size : ℕ)

/-- Only the spreads change. -/
theorem calculateSpread_eq (openClose : Bool) :
    ∃ spread otherSpread, account.calculateSpread other price size openClose =
      ({ account with spread }, { other with spread := otherSpread }) := by
  unfold calculateSpread
  dsimp only
  split
  · exact ⟨_, _, rfl⟩
  · split
    · exact ⟨_, _, rfl⟩
    · exact ⟨account.spread, other.spread, rfl⟩

/-- What an open fill leaves of the account it is delivered to. -/
structure Opened (after : TradeAccount) : Prop where
  divisor : after.divisor = account.divisor
  total : after.total = account.total + size
  average : after.average =
    { account with total := account.total + size : TradeAccount }.openAverage price size
  positionTable : after.positionTable = account.positionTable.recordOpenPosition orderId size price
  totalExecuted : after.totalExecuted = account.totalExecuted

/-- What a close fill leaves of the account it is delivered to. -/
structure Closed (after : TradeAccount) : Prop where
  divisor : after.divisor = account.divisor
  total : after.total = account.total - size
  average : after.average =
    { account with total := account.total - size : TradeAccount }.closeAverage price size
  positionTable :
    after.positionTable = account.positionTable.recordClosePosition orderId size price
  totalExecuted : after.totalExecuted = account.totalExecuted

theorem onOpenFill_spec :
    Opened account orderId price size (account.onOpenFill other orderId price size).1 ∧
      SamePosition other (account.onOpenFill other orderId price size).2 := by
  obtain ⟨spread, otherSpread, spreads⟩ := calculateSpread_eq account other price size true
  unfold onOpenFill
  split
  · simp only [onOpenFillLong, spreads]
    constructor <;> constructor <;> rfl
  · simp only [onOpenFillShort, spreads]
    split <;> constructor <;> constructor <;> rfl

theorem onCloseFill_spec :
    Closed account orderId price size (account.onCloseFill orderId price size) := by
  unfold onCloseFill
  dsimp only
  split <;> constructor <;> rfl

/-! Fills queue nothing. -/

theorem onOpenFill_pendingOrders :
    (account.onOpenFill other orderId price size).1.pendingOrders = account.pendingOrders ∧
      (account.onOpenFill other orderId price size).2.pendingOrders = other.pendingOrders := by
  obtain ⟨spread, otherSpread, spreads⟩ := calculateSpread_eq account other price size true
  unfold onOpenFill
  split
  · simp only [onOpenFillLong, spreads, and_true]
    rfl
  · simp only [onOpenFillShort, spreads, and_true]
    split <;> rfl

theorem onCloseFill_pendingOrders :
    (account.onCloseFill orderId price size).pendingOrders = account.pendingOrders := by
  unfold onCloseFill
  dsimp only
  split <;> rfl

end TradeAccount

namespace TradeAccounts

@[simp]
theorem get_setBoth_self (side : OrderAccountType) (account other : TradeAccount) :
    (setBoth side account other).get side = account := by
  cases side <;> rfl

@[simp]
theorem get_setBoth_opposite (side : OrderAccountType) (account other : TradeAccount) :
    (setBoth side account other).get side.opposite = other := by
  cases side <;> rfl

theorem eq_opposite_of_ne {side other : OrderAccountType} (different : side ≠ other) :
    other = side.opposite := by
  cases side <;> cases other <;> trivial

variable (accounts : TradeAccounts) (fill : Fill)

theorem onFill_open (isOpen : fill.isOpen = true) :
    (accounts.get fill.side).Opened fill.orderId fill.price fill.size
      ((accounts.onFill fill).get fill.side) := by
  simp only [onFill, isOpen, if_true, get_setBoth_self]
  exact (TradeAccount.onOpenFill_spec _ _ _ _ _).1

theorem onFill_close (isClose : fill.isOpen = false) :
    (accounts.get fill.side).Closed fill.orderId fill.price fill.size
      ((accounts.onFill fill).get fill.side) := by
  simp only [onFill, isClose, Bool.false_eq_true, if_false, get_setBoth_self]
  exact TradeAccount.onCloseFill_spec _ _ _ _

/-- A fill leaves the position of the other account alone. -/
theorem onFill_other {side : OrderAccountType} (different : fill.side ≠ side) :
    (accounts.get side).SamePosition ((accounts.onFill fill).get side) := by
  obtain rfl := eq_opposite_of_ne different
  unfold onFill
  dsimp only
  split
  · rw [get_setBoth_opposite]
    exact (TradeAccount.onOpenFill_spec _ _ _ _ _).2
  · rw [get_setBoth_opposite]
    exact .refl _

/-- What a fill adds to the total of its account. -/
def Fill.signedSize : ℤ :=
  if fill.isOpen then fill.size else -fill.size

theorem onFill_total :
    ((accounts.onFill fill).get fill.side).total =
      (accounts.get fill.side).total + fill.signedSize := by
  unfold Fill.signedSize
  cases isOpen : fill.isOpen with
  | true => exact (onFill_open accounts fill isOpen).total
  | false => exact (onFill_close accounts fill isOpen).total

theorem onFill_divisor (side : OrderAccountType) :
    ((accounts.onFill fill).get side).divisor = (accounts.get side).divisor := by
  by_cases different : fill.side ≠ side
  · exact (onFill_other accounts fill different).divisor
  · obtain rfl := not_not.mp different
    cases isOpen : fill.isOpen with
    | true => exact (onFill_open accounts fill isOpen).divisor
    | false => exact (onFill_close accounts fill isOpen).divisor

theorem onFill_pendingOrders (side : OrderAccountType) :
    ((accounts.onFill fill).get side).pendingOrders = (accounts.get side).pendingOrders := by
  unfold onFill
  dsimp only
  by_cases different : fill.side ≠ side
  · obtain rfl := eq_opposite_of_ne different
    split
    · rw [get_setBoth_opposite]
      exact (TradeAccount.onOpenFill_pendingOrders _ _ _ _ _).2
    · rw [get_setBoth_opposite]
  · obtain rfl := not_not.mp different
    split
    · rw [get_setBoth_self]
      exact (TradeAccount.onOpenFill_pendingOrders _ _ _ _ _).1
    · rw [get_setBoth_self]
      exact TradeAccount.onCloseFill_pendingOrders _ _ _ _

end TradeAccounts

end TradingApp.Account

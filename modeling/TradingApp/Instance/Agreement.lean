import TradingApp.Account.Fills
import TradingApp.Instance.Restore
import TradingApp.Position.Passes

/-!
# The account and its lot table

An account and its table count the same position twice: the account in a
signed total, the table in an unsigned open size, and each keeps an average of
its own.  The two counts agree after every fill exactly when the account
starts without a position and its total stays within the unsigned range: the
constructor restores a stored position to the account but not to its table.
-/

namespace TradingApp.Instance

open TradingApp.Account TradingApp.Machine TradingApp.Position TradingApp.Redis
  TradingApp.Transition TradeAccounts

/-- The account and its table hold the same position at the same average. -/
structure Agrees (account : TradeAccount) : Prop where
  openSize : (account.positionTable.openSize : ℤ) = account.total
  average : account.getAverage = account.average

/-- Between fills the averages may differ while there is no position. -/
structure InStep (account : TradeAccount) : Prop where
  openSize : (account.positionTable.openSize : ℤ) = account.total
  inRange : account.positionTable.openSize < 2 ^ 32
  average : account.total ≠ 0 → account.getAverage = account.average

/-- A fill on the side leaves account and table in agreement, and a close does
not take more from the table than it holds. -/
structure FillAgrees (side : OrderAccountType) (accounts : TradeAccounts) (fill : Fill) : Prop where
  noWrap : fill.side = side → fill.isOpen = false →
    fill.size ≤ (accounts.get side).positionTable.openSize
  agrees : fill.side = side → Agrees ((accounts.onFill fill).get side)

/-- An open on the side keeps the total within an unsigned 32-bit integer. -/
def FillInRange (side : OrderAccountType) (accounts : TradeAccounts) (fill : Fill) : Prop :=
  fill.side = side → fill.isOpen = true → (accounts.get side).total + fill.size < 2 ^ 32

/-! ## One fill -/

variable {account after : TradeAccount} {orderId size : ℕ} {price : ℚ}

theorem average_open_from_flat (average : ℚ) (nonzero : (size : ℚ) ≠ 0) :
    average + (price - average) * size / size = price := by
  rw [mul_div_cancel_right₀ _ nonzero]
  ring

/-- Opening within range keeps account and table together. -/
theorem InStep.opened (inStep : InStep account)
    (opened : account.Opened orderId price size after)
    (inRange : account.total + size < 2 ^ 32) : InStep after ∧ Agrees after := by
  have sizeAfter : after.positionTable.openSize = account.positionTable.openSize + size := by
    rw [opened.positionTable]
    refine word32_add ?_
    have := inStep.openSize
    omega
  have sizeTotal : (after.positionTable.openSize : ℤ) = after.total := by
    rw [sizeAfter, opened.total, ← inStep.openSize]
    push_cast
    rfl
  have averages : after.getAverage = after.average := by
    have tableAverage : after.getAverage =
        if after.positionTable.openSize > 0 then
          account.getAverage + (price - account.getAverage) * size / after.positionTable.openSize
        else 0 := by
      rw [TradeAccount.getAverage, opened.positionTable]
      rfl
    rw [tableAverage, opened.average, TradeAccount.openAverage]
    dsimp only
    rw [← opened.total, ← sizeTotal]
    by_cases flat : account.total = 0
    · have empty : account.positionTable.openSize = 0 := by
        have := inStep.openSize
        omega
      rw [sizeAfter, empty, Nat.zero_add]
      rcases Nat.eq_zero_or_pos size with rfl | positive
      · rfl
      · have nonzero : (size : ℚ) ≠ 0 := by positivity
        rw [if_pos positive, if_pos (by omega), Int.cast_natCast,
          average_open_from_flat _ nonzero, average_open_from_flat _ nonzero]
    · rw [inStep.average flat, Int.cast_natCast]
      exact if_congr (by omega) rfl rfl
  refine ⟨⟨sizeTotal, ?_, fun _ => averages⟩, ⟨sizeTotal, averages⟩⟩
  rw [opened.positionTable, PositionRecordTable.recordOpenPosition_openSize]
  exact word32_lt _

/-- Closing what there is keeps account and table together. -/
theorem InStep.closed (inStep : InStep account)
    (closed : account.Closed orderId price size after) (nonneg : 0 ≤ after.total) :
    InStep after ∧ Agrees after ∧ size ≤ account.positionTable.openSize := by
  have noWrap : size ≤ account.positionTable.openSize := by
    have := inStep.openSize
    have := closed.total
    omega
  have sizeAfter : after.positionTable.openSize = account.positionTable.openSize - size := by
    rw [closed.positionTable]
    exact word32_sub inStep.inRange noWrap
  have sizeTotal : (after.positionTable.openSize : ℤ) = after.total := by
    rw [sizeAfter, closed.total, ← inStep.openSize, Nat.cast_sub noWrap]
  have averages : after.getAverage = after.average := by
    have tableAverage : after.getAverage =
        if after.positionTable.openSize > 0 then
          account.getAverage + (account.getAverage - price) * size / after.positionTable.openSize
        else 0 := by
      rw [TradeAccount.getAverage, closed.positionTable]
      rfl
    rw [tableAverage, closed.average, TradeAccount.closeAverage]
    dsimp only
    rw [← closed.total, ← sizeTotal, Int.cast_natCast]
    by_cases flat : account.total = 0
    · have empty : after.positionTable.openSize = 0 := by
        have := inStep.openSize
        omega
      rw [empty]
      rfl
    · rw [inStep.average flat]
      exact if_congr (by omega) rfl rfl
  refine ⟨⟨sizeTotal, ?_, fun _ => averages⟩, ⟨sizeTotal, averages⟩, noWrap⟩
  rw [closed.positionTable, PositionRecordTable.recordClosePosition_openSize]
  exact word32_lt _

/-- A position that another account's fill leaves alone stays in step. -/
theorem InStep.same (inStep : InStep account) (same : account.SamePosition after) :
    InStep after := by
  constructor
  · rw [same.positionTable, same.total]
    exact inStep.openSize
  · rw [same.positionTable]
    exact inStep.inRange
  · rw [TradeAccount.getAverage, same.positionTable, same.total, same.average]
    exact inStep.average

/-! ## Runs of fills -/

section Runs

variable {side : OrderAccountType} {accounts : TradeAccounts} {fill : Fill}

/-- From an account in step, a fill agrees if and only if it stays in range. -/
theorem InStep.fillAgrees_iff (inStep : InStep (accounts.get side))
    (nonneg : 0 ≤ ((accounts.onFill fill).get side).total) :
    FillAgrees side accounts fill ↔ FillInRange side accounts fill := by
  constructor
  · intro fillAgrees sameSide isOpen
    subst sameSide
    have sizes := (fillAgrees.agrees rfl).openSize
    have opened := onFill_open accounts fill isOpen
    rw [opened.total, opened.positionTable, PositionRecordTable.recordOpenPosition_openSize]
      at sizes
    rw [← sizes]
    exact_mod_cast word32_lt _
  · intro inRange
    constructor
    · rintro rfl isClose
      exact (inStep.closed (onFill_close accounts fill isClose) nonneg).2.2
    · rintro rfl
      cases isOpen : fill.isOpen with
      | true => exact (inStep.opened (onFill_open accounts fill isOpen) (inRange rfl isOpen)).2
      | false => exact (inStep.closed (onFill_close accounts fill isOpen) nonneg).2.1

theorem InStep.onFill (inStep : InStep (accounts.get side))
    (nonneg : 0 ≤ ((accounts.onFill fill).get side).total)
    (inRange : FillInRange side accounts fill) : InStep ((accounts.onFill fill).get side) := by
  by_cases sameSide : fill.side = side
  · subst sameSide
    cases isOpen : fill.isOpen with
    | true => exact (inStep.opened (onFill_open accounts fill isOpen) (inRange rfl isOpen)).1
    | false => exact (inStep.closed (onFill_close accounts fill isOpen) nonneg).1
  · exact inStep.same (onFill_other accounts fill sameSide)

/-- A first fill on an account whose empty table does not show its position
leaves them apart. -/
theorem not_fillAgrees_of_restored (empty : (accounts.get side).positionTable.openSize = 0)
    (restored : (accounts.get side).total ≠ 0) (nonneg : 0 ≤ (accounts.get side).total)
    (sameSide : fill.side = side) : ¬ FillAgrees side accounts fill := by
  intro fillAgrees
  subst sameSide
  have sizes := (fillAgrees.agrees rfl).openSize
  cases isOpen : fill.isOpen with
  | true =>
      have opened := onFill_open accounts fill isOpen
      rw [opened.total, opened.positionTable] at sizes
      have small : word32 ((0 : ℕ) + fill.size) ≤ fill.size := by
        unfold word32
        omega
      rw [PositionRecordTable.recordOpenPosition_openSize, empty] at sizes
      omega
  | false =>
      have nothing : fill.size = 0 := by
        have := fillAgrees.noWrap rfl isOpen
        omega
      have closed := onFill_close accounts fill isOpen
      rw [closed.total, closed.positionTable, nothing] at sizes
      rw [PositionRecordTable.recordClosePosition_openSize, empty] at sizes
      simp only [Nat.cast_zero, sub_zero] at sizes
      exact restored sizes.symm

/-- Without a fill on the side nothing is asked of it. -/
theorem everyStep_fillAgrees_of_no_fill {fills : List Fill}
    (none : ∀ fill ∈ fills, fill.side ≠ side) :
    EveryStep TradeAccounts.onFill (FillAgrees side) accounts fills := by
  induction fills generalizing accounts with
  | nil => trivial
  | cons fill rest ih =>
      rw [List.forall_mem_cons] at none
      exact ⟨⟨fun same => absurd same none.1, fun same => absurd same none.1⟩, ih none.2⟩

/-- Fills on the other side do not make up for a restored position. -/
theorem no_fill_of_fillAgrees_of_restored {fills : List Fill}
    (empty : (accounts.get side).positionTable.openSize = 0)
    (restored : (accounts.get side).total ≠ 0) (nonneg : 0 ≤ (accounts.get side).total)
    (agree : EveryStep TradeAccounts.onFill (FillAgrees side) accounts fills) :
    ∀ fill ∈ fills, fill.side ≠ side := by
  induction fills generalizing accounts with
  | nil => exact List.forall_mem_nil _
  | cons fill rest ih =>
      have different : fill.side ≠ side := fun same =>
        not_fillAgrees_of_restored empty restored nonneg same agree.1
      have same := onFill_other accounts fill different
      rw [List.forall_mem_cons]
      refine ⟨different, ih ?_ ?_ ?_ agree.2⟩
      · rwa [same.positionTable]
      · rwa [same.total]
      · rwa [same.total]

end Runs

/-- On the accounts of a new instance, whatever it found stored, all fills of
a run on one side leave the account and its table in agreement, and none wraps
the table's open size, exactly when the account starts without a position and
stays within the unsigned range, or gets no fill at all. -/
theorem fills_agree_iff_starts_flat {config : Config} {lastOpenPrice : OrderAccountType → ℚ}
    {writer after : RedisWriter} {accounts : TradeAccounts}
    (restores : restoreAccounts config lastOpenPrice writer = some (accounts, after))
    (side : OrderAccountType) {fills : List Fill}
    (nonneg : EveryState TradeAccounts.onFill (fun accounts => 0 ≤ (accounts.get side).total)
      accounts fills) :
    EveryStep TradeAccounts.onFill (FillAgrees side) accounts fills ↔
      ((accounts.get side).total = 0 ∧
          EveryStep TradeAccounts.onFill (FillInRange side) accounts fills) ∨
        ∀ fill ∈ fills, fill.side ≠ side := by
  have empty : (accounts.get side).positionTable.openSize = 0 := by
    rw [(restoreAccounts_get restores side).positionTable]
    rfl
  have positions := (everyState_iff_everyStep_next accounts fills).mp nonneg
  by_cases flat : (accounts.get side).total = 0
  · have start : InStep (accounts.get side) := by
      constructor
      · rw [empty, flat]
        rfl
      · rw [empty]
        decide
      · exact fun position => absurd flat position
    have equivalent : EveryStep TradeAccounts.onFill (FillAgrees side) accounts fills ↔
        EveryStep TradeAccounts.onFill (FillInRange side) accounts fills :=
      everyStep_iff_everyStep (fun _ _ (inStep : InStep _) => inStep.onFill)
        (fun _ _ inStep => inStep.fillAgrees_iff) start positions.2
    constructor
    · exact fun agree => Or.inl ⟨flat, equivalent.mp agree⟩
    · rintro (inRange | none)
      · exact equivalent.mpr inRange.2
      · exact everyStep_fillAgrees_of_no_fill none
  · constructor
    · exact fun agree => Or.inr (no_fill_of_fillAgrees_of_restored empty flat positions.1 agree)
    · rintro (inRange | none)
      · exact absurd inRange.1 flat
      · exact everyStep_fillAgrees_of_no_fill none

/-- The short account, with nothing stored, stays in agreement. -/
theorem fills_agree_short :
    ∃ accounts after, restoreAccounts .roundLots (fun _ => 0) tenLongLots = some (accounts, after) ∧
      EveryStep TradeAccounts.onFill (FillAgrees .short) accounts
        [{ side := .short, isOpen := true, orderId := 1, price := 10, size := 5 },
          { side := .short, isOpen := false, orderId := 2, price := 9, size := 2 }] := by
  obtain ⟨after, restores⟩ := restoreAccounts_tenLongLots
  have nonneg : EveryState TradeAccounts.onFill (fun accounts => 0 ≤ (accounts.get .short).total)
      tenLongLotsAccounts
      [{ side := .short, isOpen := true, orderId := 1, price := 10, size := 5 },
        { side := .short, isOpen := false, orderId := 2, price := 9, size := 2 }] := by
    decide +kernel
  refine ⟨_, after, restores,
    (fills_agree_iff_starts_flat restores .short nonneg).mpr (Or.inl ⟨rfl, ?_⟩)⟩
  unfold FillInRange
  decide +kernel

/-- The long account has eleven lots after its first fill, its table one. -/
theorem not_fills_agree_restored :
    ∃ accounts after, restoreAccounts .roundLots (fun _ => 0) tenLongLots = some (accounts, after) ∧
      EveryState TradeAccounts.onFill (fun accounts => 0 ≤ (accounts.get .long).total) accounts
        [{ side := .long, isOpen := true, orderId := 1, price := 6, size := 1 }] ∧
      ¬ EveryStep TradeAccounts.onFill (FillAgrees .long) accounts
        [{ side := .long, isOpen := true, orderId := 1, price := 6, size := 1 }] := by
  obtain ⟨after, restores⟩ := restoreAccounts_tenLongLots
  refine ⟨_, after, restores, by decide +kernel, fun agree => ?_⟩
  have sizes := (agree.1.agrees rfl).openSize
  exact absurd sizes (by decide +kernel)

end TradingApp.Instance

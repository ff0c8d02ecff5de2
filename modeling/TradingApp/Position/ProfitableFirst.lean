import TradingApp.Position.Ordering

/-!
# Profitable lots first

A close takes the lots that its price makes a profit on before any other.  On
a table without complete records the long loops do so for every size.  The
second short loop starts at the profitable end again: once the first one has
completed a record there, it closes that record a second time.
-/

namespace TradingApp.Position.PositionRecordTable

open TradingApp.Lots PositionRecord

/-- Closing the record at `price` earns something. -/
def profitable (table : PositionRecordTable) (price : ℚ) (record : PositionRecord) : Bool :=
  decide ((price - record.openPrice) * table.sign > 0)

/-- Total size of the incomplete records that are profitable at `price`. -/
def profitableSize (table : PositionRecordTable) (price : ℚ) : ℕ :=
  ((table.records.filter fun record =>
    !record.isComplete && table.profitable price record).map (·.openSize)).sum

/-- Total size of the complete records. -/
def completeSize (table : PositionRecordTable) : ℕ :=
  ((table.records.filter (·.isComplete)).map (·.openSize)).sum

/-- Total size of the records opened at a price. -/
def sizeAt (table : PositionRecordTable) (price : ℚ) : ℕ :=
  ((table.records.filter fun record => record.openPrice = price).map (·.openSize)).sum

/-- What closing the complete records at `price` has earned. -/
def closedProfit (table : PositionRecordTable) (price : ℚ) : ℚ :=
  ((table.records.filter (·.isComplete)).map fun record =>
    (price - record.openPrice) * record.openSize * record.sign).sum

/-- A sorted table without complete records, whose lots are the position. -/
structure Tidy (table : PositionRecordTable) : Prop where
  incomplete : ∀ record ∈ table.records, record.isComplete = false
  sorted : table.Sorted
  positive : table.PositiveSizes
  covered : (table.records.map (·.openSize)).sum = table.openSize

/-- A close of `size` at `price` that leads from a table without complete
records to `after` has closed profitable lots first and the right amount. -/
structure ClosesProfitableFirst (table : PositionRecordTable) (size : ℕ) (price : ℚ)
    (after : PositionRecordTable) : Prop where
  completeSize : after.completeSize = size
  incompleteSize : after.incompleteSize + size = table.incompleteSize
  sizeAt : ∀ at_, after.sizeAt at_ = table.sizeAt at_
  profitableFirst :
    (∃ record ∈ after.records, record.isComplete = true ∧ table.profitable price record = false) →
      ∀ record ∈ after.records, table.profitable price record = true → record.isComplete = true
  pnl : after.pnl = table.pnl + after.closedProfit price
  sorted : after.Sorted

variable {table : PositionRecordTable} {price : ℚ}

/-! ## How far a tidy table can be closed -/

/-- On an incomplete record, the test of the first loop is profitability. -/
theorem profitTest_of_incomplete {record : PositionRecord}
    (incomplete : record.isComplete = false) :
    profitTest table.isLong price record = table.profitable price record := by
  cases isLong : table.isLong <;>
    simp [profitTest, longProfitTest, shortProfitTest, profitable, sign, isLong, incomplete]

theorem stable_profitable (table : PositionRecordTable) (id : ℕ) (price average : ℚ) :
    (closing id price average).Stable (table.profitable price) :=
  closing_stable id price average fun openPrice _ =>
    decide ((price - openPrice) * table.sign > 0)

theorem profitableSize_eq_openTotal (table : PositionRecordTable) (id : ℕ) (price average : ℚ) :
    table.profitableSize price =
      (closing id price average).openTotal (table.profitable price) table.visited := by
  rw [openTotal_visited]
  rfl

section Tidy

variable (tidy : table.Tidy) (id size : ℕ)

include tidy

theorem Tidy.isOpen : ∀ record ∈ table.visited, record.isComplete = false :=
  fun record member => tidy.incomplete record (mem_visited.mp member)

theorem Tidy.incompleteSize : table.incompleteSize = table.openSize := by
  rw [← tidy.covered, PositionRecordTable.incompleteSize, List.filter_eq_self.mpr]
  intro record member
  rw [tidy.incomplete record member, Bool.not_false]

/-- The first loop prefers the profitable records. -/
theorem Tidy.filter_profitTest (price : ℚ) :
    table.visited.filter (profitTest table.isLong price) =
      table.visited.filter (table.profitable price) :=
  List.filter_congr fun record member => profitTest_of_incomplete (tidy.isOpen record member)

theorem Tidy.total_profitable (average : ℚ) :
    (closing id price average).total (table.visited.filter (table.profitable price)) =
      table.profitableSize price := by
  rw [profitableSize_eq_openTotal table id price average, Closing.openTotal]
  congr 1
  refine List.filter_congr fun record member => ?_
  rw [closing_done, tidy.isOpen record member, Bool.not_false, Bool.true_and]

theorem Tidy.total_visited (average : ℚ) :
    (closing id price average).total table.visited = table.openSize := by
  rw [← tidy.incompleteSize, incompleteSize_eq_openTotal table id price average, Closing.openTotal]
  congr 1
  refine (List.filter_eq_self.mpr fun record member => ?_).symm
  rw [closing_done, tidy.isOpen record member]
  rfl

/-- A tidy long table can be closed completely at every price; a short one as
well where nothing is profitable, and else as far as the profit goes. -/
theorem Tidy.closable (price : ℚ) :
    table.closable price =
      if table.isLong = true ∨ table.profitableSize price = 0 then table.openSize
      else table.profitableSize price := by
  have order := (sorted_iff_visited table).mp tidy.sorted
  have positive : ∀ record ∈ table.visited, 0 < record.openSize :=
    fun record member => tidy.positive record (mem_visited.mp member)
  unfold PositionRecordTable.closable
  cases isLong : table.isLong with
  | true =>
      have last : table.visited.Pairwise fun first second =>
          profitTest true price first = true → profitTest true price second = true := by
        refine order.imp_of_mem fun {first second} firstMember secondMember le => ?_
        simp only [profitTest, longProfitTest, if_true, tidy.isOpen first firstMember,
          tidy.isOpen second secondMember, Bool.not_false, Bool.and_true, decide_eq_true_eq]
        exact lt_of_le_of_lt le
      rw [Closing.reach_of_preferred_last _ tidy.isOpen last, tidy.total_visited]
      simp
  | false =>
      have inFront : table.visited.Pairwise fun first second =>
          profitTest false price second = true → profitTest false price first = true := by
        refine order.imp fun {first second} le => ?_
        simp only [profitTest, shortProfitTest, Bool.false_eq_true, if_false, decide_eq_true_eq]
        exact fun profit => lt_of_lt_of_le profit le
      have filtered := tidy.filter_profitTest price
      rw [isLong] at filtered
      rw [Closing.reach_of_preferred_first _ tidy.isOpen positive inFront, filtered,
        tidy.total_profitable, tidy.total_visited]
      simp

end Tidy

/-! ## What a close leaves -/

theorem completeSize_add_incompleteSize (table : PositionRecordTable) :
    table.incompleteSize + table.completeSize = (table.records.map (·.openSize)).sum := by
  have both : table.completeSize + table.incompleteSize =
      (table.records.map (·.openSize)).sum :=
    (closing 0 0 0).total_filter_add_not (·.isComplete) table.records
  rw [Nat.add_comm]
  exact both

theorem sum_visited (table : PositionRecordTable) :
    (table.visited.map (·.openSize)).sum = (table.records.map (·.openSize)).sum :=
  (table.visited_perm.map _).sum_eq

theorem sizeAt_eq_total (table : PositionRecordTable) (at_ : ℚ) (id : ℕ) (price average : ℚ) :
    table.sizeAt at_ = (closing id price average).total
      (table.visited.filter fun record => record.openPrice = at_) :=
  ((table.visited_perm.filter _).map _).sum_eq.symm

theorem closedProfit_eq_doneCharge (table : PositionRecordTable) (id : ℕ) (price average : ℚ) :
    table.closedProfit price =
      (closing id price average).doneCharge (unitProfit price) table.visited := by
  have worth (record : PositionRecord) :
      (price - record.openPrice) * record.openSize * record.sign =
        record.openSize • unitProfit price record := by
    rw [unitProfit, nsmul_eq_mul]
    ring
  unfold closedProfit Closing.doneCharge
  simp only [worth]
  exact ((table.visited_perm.filter _).map _).sum_eq.symm

theorem stable_openPrice (at_ : ℚ) (id : ℕ) (price average : ℚ) :
    (closing id price average).Stable fun record => decide (record.openPrice = at_) :=
  closing_stable id price average fun openPrice _ => decide (openPrice = at_)

/-- A close keeps what the records hold in total at each price. -/
theorem sizeAt_recordClosePosition (table : PositionRecordTable) (id size : ℕ) (price at_ : ℚ) :
    (table.recordClosePosition id size price).sizeAt at_ = table.sizeAt at_ := by
  rw [sizeAt_eq_total _ at_ id price (table.closeAverage size price),
    sizeAt_eq_total table at_ id price (table.closeAverage size price),
    recordClosePosition_visited]
  exact (stable_openPrice at_ id price _).total_filter_sweep _ _ _

/-- A close keeps what the records hold in total. -/
theorem sum_recordClosePosition (table : PositionRecordTable) (id size : ℕ) (price : ℚ) :
    ((table.recordClosePosition id size price).records.map (·.openSize)).sum =
      (table.records.map (·.openSize)).sum := by
  have anyStable : (table.closingOf id size price).Stable (Closing.anyLot (R := PositionRecord)) :=
    closing_stable id price _ fun _ _ => true
  have kept := anyStable.total_filter_sweep (profitTest table.isLong price) table.visited size
  have everyRecord : ∀ records : List PositionRecord, records.filter Closing.anyLot = records :=
    fun records => by simp
  rw [everyRecord, everyRecord, ← recordClosePosition_visited] at kept
  rw [← sum_visited, ← sum_visited table]
  exact kept

/-- Where nothing is complete, a close that stays within what the table can
close earns what closing the records it completes earns. -/
theorem Tidy.pnl_recordClosePosition (tidy : table.Tidy) (id : ℕ) {size : ℕ}
    (within : size ≤ table.closable price) :
    (table.recordClosePosition id size price).pnl =
      table.pnl + (table.recordClosePosition id size price).closedProfit price := by
  have isStable : (table.closingOf id size price).Stable (unitProfit price) :=
    closing_stable id price _ fun openPrice sign => (price - openPrice) * sign
  have noneDone : (table.closingOf id size price).doneCharge (unitProfit price) table.visited =
      0 := by
    have none : table.visited.filter (table.closingOf id size price).done = [] :=
      List.filter_eq_nil_iff.mpr fun record member => by
        simp [closingOf, tidy.isOpen record member]
    rw [Closing.doneCharge, none, List.map_nil, List.sum_nil]
  rw [closedProfit_eq_doneCharge _ id price (table.closeAverage size price),
    recordClosePosition_visited, recordClosePosition_pnl]
  refine congrArg (table.pnl + ·) ?_
  rw [← table.closable_eq_reach id size price] at within
  have booked := isStable.doneCharge_sweep within
  rw [noneDone, zero_add] at booked
  exact booked.symm

/-- A close that stays within what the table can close takes profitable lots
first and the right amount. -/
theorem Tidy.closesProfitableFirst (tidy : table.Tidy) (id : ℕ) {size : ℕ}
    (within : size ≤ table.closable price) :
    table.ClosesProfitableFirst size price (table.recordClosePosition id size price) := by
  have taken := (incompleteSize_recordClosePosition_iff tidy.positive id size price).mpr within
  refine ⟨?_, taken, table.sizeAt_recordClosePosition id size price, ?_,
    tidy.pnl_recordClosePosition id within, tidy.sorted.recordClosePosition id size price⟩
  · have together := completeSize_add_incompleteSize (table.recordClosePosition id size price)
    rw [sum_recordClosePosition, tidy.covered, ← tidy.incompleteSize] at together
    omega
  · simp only [← mem_visited, recordClosePosition_visited]
    exact (table.stable_profitable id price _).preferred_first tidy.isOpen
      (fun record member => profitTest_of_incomplete (tidy.isOpen record member)) within

/-- On a sorted table without complete records, a close takes profitable lots
first and exactly the right amount if and only if the account is long, nothing
is profitable, or what is profitable covers the close. -/
theorem closesProfitableFirst_iff (tidy : table.Tidy) (id size : ℕ) (price : ℚ)
    (covered : size ≤ table.openSize) :
    table.ClosesProfitableFirst size price (table.recordClosePosition id size price) ↔
      table.isLong = true ∨ table.profitableSize price = 0 ∨
        size ≤ table.profitableSize price := by
  have reach : size ≤ table.closable price ↔
      table.isLong = true ∨ table.profitableSize price = 0 ∨
        size ≤ table.profitableSize price := by
    rw [tidy.closable price]
    split <;> rename_i whole
    · rcases whole with isLong | none
      · exact iff_of_true covered (Or.inl isLong)
      · exact iff_of_true covered (Or.inr (Or.inl none))
    · rw [not_or] at whole
      simp [whole]
  rw [← reach]
  constructor
  · intro first
    exact (incompleteSize_recordClosePosition_iff tidy.positive id size price).mp
      first.incompleteSize
  · exact tidy.closesProfitableFirst id

/-- 100 sold at 30 and 100 sold at 20. -/
def soldTwice : PositionRecordTable :=
  ((empty false).recordOpenPosition 1 100 30).recordOpenPosition 2 100 20

theorem tidy_soldTwice : soldTwice.Tidy where
  incomplete := by decide +kernel
  sorted := by decide +kernel
  positive := by
    unfold PositiveSizes
    decide +kernel
  covered := by decide +kernel

/-- Buying 150 back at 25 closes half of what was sold at 30 twice and leaves
what was sold at 20 open. -/
theorem not_closesProfitableFirst_soldTwice :
    soldTwice.Tidy ∧ 0 < 150 ∧ 150 ≤ soldTwice.openSize ∧
      ¬ soldTwice.ClosesProfitableFirst 150 25 (soldTwice.recordClosePosition 3 150 25) := by
  refine ⟨tidy_soldTwice, by decide, by decide +kernel, fun first => ?_⟩
  have completed := first.completeSize
  revert completed
  decide +kernel

/-- Buying 50 back at 25 takes them from what was sold at 30. -/
theorem closesProfitableFirst_iff_soldTwice :
    soldTwice.ClosesProfitableFirst 50 25 (soldTwice.recordClosePosition 3 50 25) ↔
      soldTwice.isLong = true ∨ soldTwice.profitableSize 25 = 0 ∨
        50 ≤ soldTwice.profitableSize 25 :=
  closesProfitableFirst_iff tidy_soldTwice 3 50 25 (by decide +kernel)

end TradingApp.Position.PositionRecordTable

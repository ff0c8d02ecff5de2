import Mathlib.Algebra.Module.Rat
import Mathlib.Tactic.FieldSimp
import TradingApp.Position.Table

/-!
# What the operations do to a table

The closing loops of both sides are sweeps over the records in the order the
loops visit them.  Each operation gets one lemma that says what it does to
the open size, the incomplete records and the realised profit; what follows
uses these and not the loops.
-/

namespace TradingApp.Position.PositionRecordTable

open TradingApp.Machine TradingApp.Lots PositionRecord

/-- The records in the order the closing loops visit them. -/
def visited (table : PositionRecordTable) : List PositionRecord :=
  if table.isLong then table.records.reverse else table.records

/-- The test of the first closing loop. -/
def profitTest (isLong : Bool) (price : ℚ) : PositionRecord → Bool :=
  if isLong then longProfitTest price else shortProfitTest price

/-- How a close of `size` at `price` closes the records of a table. -/
def closingOf (table : PositionRecordTable) (id size : ℕ) (price : ℚ) :
    Closing PositionRecord :=
  closing id price (table.closeAverage size price)

/-- The quantity a close at `price` can take before one of its loops meets a
record that is already complete. -/
def closable (table : PositionRecordTable) (price : ℚ) : ℕ :=
  (closing 0 price 0).reach (profitTest table.isLong price) table.visited

/-- The records, as they were before, that a close of `size` at `price`
closes in whole or in part. -/
def closedRecords (table : PositionRecordTable) (id size : ℕ) (price : ℚ) :
    List PositionRecord :=
  (table.closingOf id size price).sweepTouched (profitTest table.isLong price) table.visited size

theorem closable_eq_reach (table : PositionRecordTable) (id size : ℕ) (price : ℚ) :
    (table.closingOf id size price).reach (profitTest table.isLong price) table.visited =
      table.closable price :=
  rfl

/-- Each record is visited once. -/
theorem visited_perm (table : PositionRecordTable) : table.visited.Perm table.records := by
  unfold visited
  split
  · exact List.reverse_perm table.records
  · exact .refl table.records

theorem mem_visited {table : PositionRecordTable} {record : PositionRecord} :
    record ∈ table.visited ↔ record ∈ table.records :=
  table.visited_perm.mem_iff

theorem openTotal_visited (table : PositionRecordTable) (id : ℕ) (price average : ℚ)
    (q : PositionRecord → Bool) :
    (closing id price average).openTotal q table.visited =
      (closing id price average).openTotal q table.records :=
  (closing id price average).openTotal_perm q table.visited_perm

theorem incompleteSize_eq_openTotal (table : PositionRecordTable) (id : ℕ) (price average : ℚ) :
    table.incompleteSize = (closing id price average).openTotal Closing.anyLot table.visited := by
  rw [openTotal_visited]
  simp [incompleteSize, Closing.openTotal, Closing.total]

/-! ## Closing -/

/-- A closing loop is a pass that books the profit of what it closes. -/
theorem closePass_eq (eligible : PositionRecord → Bool) (id : ℕ) (price average : ℚ)
    (records : List PositionRecord) (deletedSize : ℕ) (pnl : ℚ) :
    closePass eligible id price average records deletedSize pnl =
      (((closing id price average).consume eligible records deletedSize).1,
        ((closing id price average).consume eligible records deletedSize).2,
        pnl +
          (closing id price average).charge (unitProfit price) eligible records deletedSize) := by
  induction records generalizing deletedSize pnl with
  | nil => simp [closePass, Closing.consume, Closing.charge]
  | cons record rest ih =>
      by_cases nothing : deletedSize = 0
      · simp [closePass, nothing]
      · by_cases taken : eligible record = true
        · by_cases fits : record.openSize ≤ deletedSize
          · have profit : (record.setCloseInfo id record.openSize price average).pnl =
                record.openSize • unitProfit price record := by
              simp only [setCloseInfo, unitProfit, nsmul_eq_mul]
              ring
            simp [closePass, Closing.consume, Closing.charge, nothing, taken, fits, ih, profit,
              closing, add_assoc]
          · have smaller : deletedSize ≤ record.openSize := Nat.le_of_lt (Nat.lt_of_not_le fits)
            have profit : (record.setPartialCloseInfo id deletedSize price average).pnl =
                deletedSize • unitProfit price record := by
              simp only [setPartialCloseInfo, unitProfit, nsmul_eq_mul]
              ring
            simp [closePass, Closing.consume, Closing.charge, nothing, taken, fits, profit,
              closing, Nat.min_eq_right smaller, Nat.sub_eq_zero_of_le smaller]
        · simp [closePass, Closing.consume, Closing.charge, nothing, taken, ih]

@[simp]
theorem recordClosePosition_isLong (table : PositionRecordTable) (id size : ℕ) (price : ℚ) :
    (table.recordClosePosition id size price).isLong = table.isLong :=
  rfl

@[simp]
theorem recordClosePosition_openSize (table : PositionRecordTable) (id size : ℕ) (price : ℚ) :
    (table.recordClosePosition id size price).openSize = word32 (table.openSize - size) :=
  rfl

@[simp]
theorem recordClosePosition_average (table : PositionRecordTable) (id size : ℕ) (price : ℚ) :
    (table.recordClosePosition id size price).average = table.closeAverage size price :=
  rfl

/-- A second loop after the first one, when something is left, makes a
sweep. -/
theorem closePass_closePass (eligible : PositionRecord → Bool) (id : ℕ) (price average : ℚ)
    (records : List PositionRecord) (size : ℕ) (pnl : ℚ) :
    (if (closePass eligible id price average records size pnl).2.1 > 0 then
        closePass (fun _ => true) id price average
          (closePass eligible id price average records size pnl).1
          (closePass eligible id price average records size pnl).2.1
          (closePass eligible id price average records size pnl).2.2
      else closePass eligible id price average records size pnl) =
      (((closing id price average).sweep eligible records size).1,
        ((closing id price average).sweep eligible records size).2,
        pnl + (closing id price average).sweepCharge (unitProfit price) eligible records size) := by
  rw [closePass_eq]
  by_cases covered : ((closing id price average).consume eligible records size).2 = 0
  · simp [Closing.sweep, Closing.sweepCharge, covered]
  · simp only [Nat.pos_of_ne_zero covered, if_true, closePass_eq, Closing.sweep,
      Closing.sweepCharge, add_assoc]
    rfl

/-- The same for loops that run from the end of the list. -/
theorem closePassReversed_closePassReversed (eligible : PositionRecord → Bool) (id : ℕ)
    (price average : ℚ) (records : List PositionRecord) (size : ℕ) (pnl : ℚ) :
    (if (closePassReversed eligible id price average records size pnl).2.1 > 0 then
        closePassReversed (fun _ => true) id price average
          (closePassReversed eligible id price average records size pnl).1
          (closePassReversed eligible id price average records size pnl).2.1
          (closePassReversed eligible id price average records size pnl).2.2
      else closePassReversed eligible id price average records size pnl) =
      (((closing id price average).sweep eligible records.reverse size).1.reverse,
        ((closing id price average).sweep eligible records.reverse size).2,
        pnl + (closing id price average).sweepCharge (unitProfit price) eligible records.reverse
          size) := by
  have loops := closePass_closePass eligible id price average records.reverse size pnl
  have first : closePassReversed eligible id price average records size pnl =
      ((closePass eligible id price average records.reverse size pnl).1.reverse,
        (closePass eligible id price average records.reverse size pnl).2) := rfl
  simp only [first]
  split
  · rename_i something
    simp only [something, if_true] at loops
    simp only [closePassReversed, List.reverse_reverse, loops]
  · rename_i nothing
    simp only [nothing, if_false] at loops
    simp only [loops]

/-- The two loops of a close together are a sweep over the records in the
order they are visited. -/
theorem recordClosePosition_loops (table : PositionRecordTable) (id size : ℕ) (price : ℚ) :
    (table.recordClosePosition id size price).visited =
        ((table.closingOf id size price).sweep (profitTest table.isLong price) table.visited
          size).1 ∧
      (table.recordClosePosition id size price).pnl =
        table.pnl + (table.closingOf id size price).sweepCharge (unitProfit price)
          (profitTest table.isLong price) table.visited size := by
  cases isLong : table.isLong with
  | true =>
      simp only [recordClosePosition, visited, profitTest, closingOf, isLong, if_true,
        closePassReversed_closePassReversed, List.reverse_reverse, and_self]
  | false =>
      simp only [recordClosePosition, visited, profitTest, closingOf, isLong, if_false,
        Bool.false_eq_true, closePass_closePass, and_self]

theorem recordClosePosition_visited (table : PositionRecordTable) (id size : ℕ) (price : ℚ) :
    (table.recordClosePosition id size price).visited =
      ((table.closingOf id size price).sweep (profitTest table.isLong price) table.visited
        size).1 :=
  (table.recordClosePosition_loops id size price).1

theorem recordClosePosition_pnl (table : PositionRecordTable) (id size : ℕ) (price : ℚ) :
    (table.recordClosePosition id size price).pnl =
      table.pnl + (table.closingOf id size price).sweepCharge (unitProfit price)
        (profitTest table.isLong price) table.visited size :=
  (table.recordClosePosition_loops id size price).2

/-- All records of a table have a positive size. -/
def PositiveSizes (table : PositionRecordTable) : Prop :=
  ∀ record ∈ table.records, 0 < record.openSize

theorem PositiveSizes.recordClosePosition {table : PositionRecordTable}
    (positive : table.PositiveSizes) (id size : ℕ) (price : ℚ) :
    (table.recordClosePosition id size price).PositiveSizes := by
  intro record member
  rw [← mem_visited, recordClosePosition_visited] at member
  have start : ∀ lot ∈ table.visited, 0 < (table.closingOf id size price).size lot :=
    fun lot inside => positive lot (mem_visited.mp inside)
  exact Closing.size_pos_of_mem_consume _
    (fun lot inside => Closing.size_pos_of_mem_consume _ start inside) member

/-- A close takes from the incomplete records exactly what it closes if and
only if it does not exceed what the table can close at that price. -/
theorem incompleteSize_recordClosePosition_iff {table : PositionRecordTable}
    (positive : table.PositiveSizes) (id size : ℕ) (price : ℚ) :
    (table.recordClosePosition id size price).incompleteSize + size = table.incompleteSize ↔
      size ≤ table.closable price := by
  rw [incompleteSize_eq_openTotal _ id price (table.closeAverage size price),
    incompleteSize_eq_openTotal table id price (table.closeAverage size price),
    recordClosePosition_visited, ← table.closable_eq_reach id size price]
  exact Closing.openTotal_sweep_add_iff (table.closingOf id size price) _
    (fun lot member => positive lot (mem_visited.mp member)) size

/-- A close within what the table can close at that price closes no complete
record. -/
theorem closedRecords_incomplete {table : PositionRecordTable} {id size : ℕ} {price : ℚ}
    (within : size ≤ table.closable price) :
    ∀ record ∈ table.closedRecords id size price, record.isComplete = false :=
  ((Closing.sweepTouched_open_iff (table.closingOf id size price) _ _ size).mpr within).1

/-! ## Opening -/

theorem mem_insertRecord {sign : ℤ} {record other : PositionRecord}
    {records : List PositionRecord} :
    other ∈ insertRecord sign record records ↔ other = record ∨ other ∈ records := by
  induction records with
  | nil => simp [insertRecord]
  | cons first rest ih =>
      unfold insertRecord
      split
      · simp
      · simp [ih, or_left_comm]

/-- Inserting a record adds one term to a sum over the records that pass a
test. -/
theorem sum_filter_insertRecord (keep : PositionRecord → Bool) (sign : ℤ)
    (record : PositionRecord) (records : List PositionRecord) :
    (((insertRecord sign record records).filter keep).map (·.openSize)).sum =
      (if keep record then record.openSize else 0) +
        ((records.filter keep).map (·.openSize)).sum := by
  induction records with
  | nil => by_cases kept : keep record = true <;> simp [insertRecord, kept]
  | cons first rest ih =>
      unfold insertRecord
      split
      · by_cases kept : keep record = true <;> simp [List.filter_cons, kept]
      · by_cases kept : keep first = true
        · simp only [List.filter_cons, kept, if_true, List.map_cons, List.sum_cons, ih]
          omega
        · simp only [List.filter_cons, kept, if_false, Bool.false_eq_true, ih]

@[simp]
theorem recordOpenPosition_isLong (table : PositionRecordTable) (id size : ℕ) (price : ℚ) :
    (table.recordOpenPosition id size price).isLong = table.isLong :=
  rfl

@[simp]
theorem recordOpenPosition_openSize (table : PositionRecordTable) (id size : ℕ) (price : ℚ) :
    (table.recordOpenPosition id size price).openSize = word32 (table.openSize + size) :=
  rfl

theorem incompleteSize_recordOpenPosition (table : PositionRecordTable) (id size : ℕ)
    (price : ℚ) :
    (table.recordOpenPosition id size price).incompleteSize = size + table.incompleteSize := by
  simp [incompleteSize, recordOpenPosition, sum_filter_insertRecord, ofFill]

theorem PositiveSizes.recordOpenPosition {table : PositionRecordTable}
    (positive : table.PositiveSizes) {size : ℕ} (sizePos : 0 < size) (id : ℕ) (price : ℚ) :
    (table.recordOpenPosition id size price).PositiveSizes := by
  intro record member
  rcases mem_insertRecord.mp member with rfl | inside
  · exact sizePos
  · exact positive record inside

/-! ## Purging and repackaging -/

@[simp]
theorem incompleteSize_deleteCompletePosition (table : PositionRecordTable) :
    table.deleteCompletePosition.incompleteSize = table.incompleteSize := by
  simp [incompleteSize, deleteCompletePosition]

theorem PositiveSizes.deleteCompletePosition {table : PositionRecordTable}
    (positive : table.PositiveSizes) : table.deleteCompletePosition.PositiveSizes :=
  fun record member => positive record (List.mem_filter.mp member).1

/-- What a packing loop pushes and what it leaves over. -/
theorem pack_sum (baseQty : ℕ) (average : ℚ) (sign : ℤ) (price : ℕ → ℚ)
    (count i orderId remainder : ℕ) :
    ((pack baseQty average sign price count i orderId remainder).1.map (·.openSize)).sum =
        min remainder (count * baseQty) ∧
      (pack baseQty average sign price count i orderId remainder).2.2 =
        remainder - count * baseQty := by
  induction count generalizing i orderId remainder with
  | zero => simp [pack]
  | succ count ih =>
      simp only [pack, List.map_cons, List.sum_cons, ofFill, ih, Nat.succ_mul]
      split <;> omega

/-- A packing loop that stops before the remainder is used up pushes
incomplete records of positive size. -/
theorem mem_pack {baseQty : ℕ} {average : ℚ} {sign : ℤ} {price : ℕ → ℚ}
    {count i orderId remainder : ℕ} (basePos : 0 < baseQty)
    (enough : 0 < count → (count - 1) * baseQty < remainder) {record : PositionRecord}
    (member : record ∈ (pack baseQty average sign price count i orderId remainder).1) :
    record.isComplete = false ∧ 0 < record.openSize := by
  induction count generalizing i orderId remainder with
  | zero => simp [pack] at member
  | succ count ih =>
      have covers := enough (Nat.succ_pos count)
      rw [Nat.add_sub_cancel] at covers
      simp only [pack, List.mem_cons] at member
      rcases member with rfl | member
      · refine ⟨rfl, ?_⟩
        simp only [ofFill]
        split <;> omega
      · refine ih (fun more => ?_) member
        have onceMore : (count - 1) * baseQty + baseQty = count * baseQty := by
          rw [← Nat.succ_mul, Nat.succ_eq_add_one, Nat.sub_add_cancel more]
        split <;> omega

/-- The records of a repackaged table together hold the open size, with
nothing to spare. -/
theorem noe_bounds (openSize : ℕ) {baseQty : ℕ} (basePos : 0 < baseQty) :
    openSize ≤ noe openSize baseQty * baseQty ∧
      (0 < noe openSize baseQty → (noe openSize baseQty - 1) * baseQty < openSize) := by
  have base : (0 : ℚ) < baseQty := by exact_mod_cast basePos
  constructor
  · have upper : (openSize : ℚ) / baseQty ≤ noe openSize baseQty := Nat.le_ceil _
    rw [div_le_iff₀ base] at upper
    exact_mod_cast upper
  · intro some
    have lower : ((noe openSize baseQty - 1 : ℕ) : ℚ) < (openSize : ℚ) / baseQty := by
      rw [← Nat.lt_ceil]
      exact Nat.sub_lt some Nat.one_pos
    rw [lt_div_iff₀ base] at lower
    exact_mod_cast lower

theorem noeh_le_noe (openSize baseQty : ℕ) : noeh openSize baseQty ≤ noe openSize baseQty := by
  unfold noeh
  rw [Nat.ceil_le]
  have nonneg : (0 : ℚ) ≤ noe openSize baseQty := Nat.cast_nonneg _
  linarith

/-- Repackaging leaves incomplete records of positive size. -/
theorem mem_repackaging {table : PositionRecordTable} {baseQty : ℕ} (basePos : 0 < baseQty)
    (mpv adjustment : ℚ) {record : PositionRecord}
    (member : record ∈ (table.repackaging baseQty mpv adjustment).records) :
    record.isComplete = false ∧ 0 < record.openSize := by
  have bounds := noe_bounds table.openSize basePos
  have half := noeh_le_noe table.openSize baseQty
  simp only [repackaging, List.mem_append, (pack_sum _ _ _ _ _ _ _ _).2] at member
  have monotone : ∀ m, m ≤ noe table.openSize baseQty - 1 →
      m * baseQty ≤ (noe table.openSize baseQty - 1) * baseQty :=
    fun m le => Nat.mul_le_mul_right baseQty le
  rcases member with inHigh | inLow
  · refine mem_pack basePos (fun some => ?_) inHigh
    have below := monotone (noeh table.openSize baseQty - 1) (by omega)
    have last := bounds.2 (by omega)
    omega
  · refine mem_pack basePos (fun some => ?_) inLow
    have last := bounds.2 (by omega)
    have together : (noe table.openSize baseQty - noeh table.openSize baseQty - 1) * baseQty +
        noeh table.openSize baseQty * baseQty = (noe table.openSize baseQty - 1) * baseQty := by
      rw [← Nat.add_mul]
      congr 1
      omega
    omega

/-- The records of a repackaged table hold what there was. -/
theorem sum_repackaging (table : PositionRecordTable) {baseQty : ℕ} (basePos : 0 < baseQty)
    (mpv adjustment : ℚ) :
    ((table.repackaging baseQty mpv adjustment).records.map (·.openSize)).sum =
      table.openSize := by
  have bounds := noe_bounds table.openSize basePos
  have half := noeh_le_noe table.openSize baseQty
  simp only [repackaging, List.map_append, List.sum_append, pack_sum]
  have whole : noeh table.openSize baseQty * baseQty +
      (noe table.openSize baseQty - noeh table.openSize baseQty) * baseQty =
      noe table.openSize baseQty * baseQty := by
    rw [← Nat.add_mul]
    congr 1
    omega
  omega

/-- Repackaging partitions the open size. -/
theorem incompleteSize_repackaging (table : PositionRecordTable) {baseQty : ℕ}
    (basePos : 0 < baseQty) (mpv adjustment : ℚ) :
    (table.repackaging baseQty mpv adjustment).incompleteSize = table.openSize := by
  have allIncomplete : (table.repackaging baseQty mpv adjustment).records.filter
      (fun record => !record.isComplete) = (table.repackaging baseQty mpv adjustment).records := by
    rw [List.filter_eq_self]
    intro record member
    simp [(mem_repackaging basePos mpv adjustment member).1]
  rw [incompleteSize, allIncomplete, sum_repackaging table basePos]

end TradingApp.Position.PositionRecordTable

import Mathlib.Algebra.Order.BigOperators.Group.List
import TradingApp.Position.ProfitableFirst

/-!
# Predicted and realised profit

`sizeofOrderWithPnl` says how much a close at a price could take with profit,
and how much it would earn.  A fill of that size at that price closes exactly
the records it has counted; a smaller fill at a price at least as good closes
only profitable ones.
-/

namespace TradingApp.Position.PositionRecordTable

open TradingApp.Lots TradingApp.Machine TradingApp.Transition PositionRecord

/-- The loop over the records, with the sum as a 32-bit integer. -/
def sizeofOrderWithPnl (table : PositionRecordTable) (sendPrice : ℚ) : ℕ × ℚ :=
  table.records.foldl
    (fun (sum, pnl) record =>
      if !record.isComplete && decide ((sendPrice - record.openPrice) * table.sign > 0) then
        (word32 (sum + record.openSize),
          pnl + (sendPrice - record.openPrice) * table.sign * record.openSize)
      else (sum, pnl))
    (0, 0)

/-- Every record carries the sign of its table. -/
def Signed (table : PositionRecordTable) : Prop :=
  ∀ record ∈ table.records, record.sign = table.sign

/-- The records of a short account are all incomplete. -/
def ShortIncomplete (table : PositionRecordTable) : Prop :=
  table.isLong = false → ∀ record ∈ table.records, record.isComplete = false

/-- The table after the close of a predicted size: the incomplete records with
a profit are complete, the others are as they were, and the profit is
`gain`. -/
structure ClosesAllProfitable (table : PositionRecordTable) (id : ℕ) (price gain : ℚ)
    (after : PositionRecordTable) : Prop where
  records : after.records = table.records.map fun record =>
    if !record.isComplete && table.profitable price record then
      record.setCloseInfo id record.openSize price after.average
    else record
  pnl : after.pnl = table.pnl + gain

/-- The table after a close of `size` that completes only incomplete records
with a profit at `price`, and earns something. -/
structure ClosesOnlyProfitable (table : PositionRecordTable) (size : ℕ) (price : ℚ)
    (after : PositionRecordTable) : Prop where
  completeSize : after.completeSize = table.completeSize + size
  incompleteSize : after.incompleteSize + size = table.incompleteSize
  unprofitable : after.records.filter (fun record => !table.profitable price record) =
    table.records.filter fun record => !table.profitable price record
  complete : ∀ record ∈ table.records, record.isComplete = true → record ∈ after.records
  pnl : table.pnl < after.pnl

variable {table : PositionRecordTable} {price : ℚ}

/-! ## Signs -/

theorem closing_sign_stable (id : ℕ) (price average : ℚ) :
    (closing id price average).Stable PositionRecord.sign :=
  closing_stable id price average fun _ sign => sign

theorem sign_of_mem_pack {baseQty : ℕ} {average : ℚ} {sign : ℤ} {price : ℕ → ℚ}
    {count i orderId remainder : ℕ} {record : PositionRecord}
    (member : record ∈ (pack baseQty average sign price count i orderId remainder).1) :
    record.sign = sign := by
  induction count generalizing i orderId remainder with
  | zero => exact absurd member List.not_mem_nil
  | succ count ih =>
      rcases List.mem_cons.mp member with rfl | member
      · rfl
      · exact ih member

/-- Every step of a table gives its records its own sign. -/
theorem Signed.step (signed : table.Signed) (op : Op) : (table.step op).Signed := by
  cases op with
  | openPosition id size price =>
      intro record member
      rcases mem_insertRecord.mp member with rfl | inside
      · rfl
      · exact signed record inside
  | closePosition id size price =>
      intro record member
      rw [PositionRecordTable.step, ← mem_visited, recordClosePosition_visited] at member
      rcases (closing_sign_stable id price _).exists_of_mem_consume member with
        ⟨first, firstMember, firstSign⟩
      rcases (closing_sign_stable id price _).exists_of_mem_consume firstMember with
        ⟨origin, inside, originSign⟩
      rw [firstSign, originSign]
      exact signed origin (mem_visited.mp inside)
  | deleteComplete => exact fun record member => signed record (List.mem_filter.mp member).1
  | repackage baseQty mpv adjustment =>
      intro record member
      rcases List.mem_append.mp member with inHigh | inLow
      · exact sign_of_mem_pack inHigh
      · exact sign_of_mem_pack inLow

/-- The records of every table that the operations build carry its sign. -/
theorem signed_run (isLong : Bool) (ops : List Op) : (run step (empty isLong) ops).Signed := by
  have every : EveryState step Signed (empty isLong) ops :=
    everyState_of_forall_step (fun _ op signed => signed.step op)
      (fun _ member => absurd member List.not_mem_nil) ops
  exact every.last

/-! ## What is predicted -/

/-- A loop that adds up the sizes of the records that pass a test, and what
they are worth. -/
theorem foldl_sums (p : PositionRecord → Bool) (w : PositionRecord → ℚ)
    (records : List PositionRecord) (sum : ℕ) (pnl : ℚ) :
    records.foldl
        (fun (sum, pnl) record =>
          if p record then (word32 (sum + record.openSize), pnl + w record) else (sum, pnl))
        (word32 sum, pnl) =
      (word32 (sum + ((records.filter p).map (·.openSize)).sum : ℕ),
        pnl + ((records.filter p).map w).sum) := by
  induction records generalizing sum pnl with
  | nil => simp
  | cons record rest ih =>
      have sums : word32 (word32 sum + record.openSize) = word32 ((sum + record.openSize : ℕ)) := by
        rw [word32_word32_add]
        push_cast
        rfl
      by_cases counted : p record = true
      · simp only [List.foldl_cons, counted, if_true, sums, ih, List.filter_cons, List.map_cons,
          List.sum_cons, add_assoc]
      · simp only [List.foldl_cons, counted, if_false, ih, List.filter_cons, Bool.false_eq_true]

/-- The prediction is the profitable size, and the profit of the records that
make it up. -/
theorem sizeofOrderWithPnl_eq (table : PositionRecordTable) (price : ℚ) :
    table.sizeofOrderWithPnl price =
      (word32 (table.profitableSize price),
        ((table.records.filter fun record =>
          !record.isComplete && table.profitable price record).map fun record =>
            (price - record.openPrice) * table.sign * record.openSize).sum) := by
  have loop := foldl_sums (fun record => !record.isComplete && table.profitable price record)
    (fun record => (price - record.openPrice) * table.sign * record.openSize) table.records 0 0
  rw [Nat.zero_add, zero_add] at loop
  exact loop

theorem profitableSize_le (table : PositionRecordTable) (price : ℚ) :
    table.profitableSize price ≤ (table.records.map (·.openSize)).sum :=
  (closing 0 0 0).total_filter_le _ table.records

/-! ## What the first loop closes -/

/-- The first loop tests for incomplete records with a profit. -/
theorem ShortIncomplete.profitTest_eq (short : table.ShortIncomplete) {record : PositionRecord}
    (member : record ∈ table.visited) :
    profitTest table.isLong price record =
      (!record.isComplete && table.profitable price record) := by
  cases isLong : table.isLong with
  | true =>
      simp [profitTest, longProfitTest, profitable, sign, isLong, Bool.and_comm]
  | false =>
      have incomplete := short isLong record (mem_visited.mp member)
      rw [← isLong, profitTest_of_incomplete incomplete, incomplete, Bool.not_false, Bool.true_and]

theorem ShortIncomplete.total_filter (short : table.ShortIncomplete) (price : ℚ) (id : ℕ)
    (average : ℚ) :
    (closing id price average).total (table.visited.filter (profitTest table.isLong price)) =
      table.profitableSize price := by
  rw [profitableSize_eq_openTotal table id price average, Closing.openTotal]
  exact congrArg _ (List.filter_congr fun record member => short.profitTest_eq member)

/-- Records that are visited changed are changed in the list. -/
theorem records_eq_map {after : PositionRecordTable} {g : PositionRecord → PositionRecord}
    (side : after.isLong = table.isLong) (visited : after.visited = table.visited.map g) :
    after.records = table.records.map g := by
  unfold PositionRecordTable.visited at visited
  rw [side] at visited
  cases isLong : table.isLong with
  | true =>
      simp only [isLong, if_true, List.map_reverse] at visited
      exact List.reverse_injective visited
  | false =>
      simp only [isLong, if_false, Bool.false_eq_true] at visited
      exact visited

/-- Records that pass a test and are visited as before are listed as before. -/
theorem filter_records_eq {after : PositionRecordTable} {p : PositionRecord → Bool}
    (side : after.isLong = table.isLong)
    (visited : after.visited.filter p = table.visited.filter p) :
    after.records.filter p = table.records.filter p := by
  unfold PositionRecordTable.visited at visited
  rw [side] at visited
  cases isLong : table.isLong with
  | true =>
      simp only [isLong, if_true, List.filter_reverse] at visited
      exact List.reverse_injective visited
  | false =>
      simp only [isLong, if_false, Bool.false_eq_true] at visited
      exact visited

/-- Sums along the list are sums along the visited records. -/
theorem sum_filter_visited (table : PositionRecordTable) (p : PositionRecord → Bool)
    (w : PositionRecord → ℚ) :
    ((table.visited.filter p).map w).sum = ((table.records.filter p).map w).sum :=
  ((table.visited_perm.filter p).map w).sum_eq

section

variable (short : table.ShortIncomplete) (positive : table.PositiveSizes) (signed : table.Signed)
  (id : ℕ)

include short positive signed

/-- A close of the profitable size completes the incomplete records with a
profit. -/
theorem ShortIncomplete.closesAllProfitable (price : ℚ) :
    table.ClosesAllProfitable id price (table.sizeofOrderWithPnl price).2
      (table.recordClosePosition id (table.profitableSize price) price) := by
  have total := short.total_filter price id
    (table.closeAverage (table.profitableSize price) price)
  have positiveVisited : ∀ record ∈ table.visited, 0 < record.openSize :=
    fun record member => positive record (mem_visited.mp member)
  constructor
  · refine records_eq_map rfl ?_
    rw [recordClosePosition_visited, closingOf, Closing.sweep_of_le _ (le_of_eq total.symm),
      Closing.consume_of_total_le _ positiveVisited (le_of_eq total)]
    refine List.map_congr_left fun record member => ?_
    rw [short.profitTest_eq member]
    rfl
  · have worth : ∀ record ∈ table.visited.filter (profitTest table.isLong price),
        (price - record.openPrice) * table.sign * record.openSize =
          record.openSize • unitProfit price record := by
      intro record member
      rw [unitProfit, signed record (mem_visited.mp (List.mem_filter.mp member).1), nsmul_eq_mul]
      ring
    rw [recordClosePosition_pnl, closingOf,
      Closing.sweepCharge_of_total_le _ _ (le_of_eq total.symm), sizeofOrderWithPnl_eq]
    refine congrArg (table.pnl + ·) ?_
    have inFull := Closing.charge_total
      (closing id price (table.closeAverage (table.profitableSize price) price))
      (unitProfit price) (table.visited.filter (profitTest table.isLong price))
    rw [total] at inFull
    rw [inFull, ← sum_filter_visited,
      ← List.filter_congr fun record member => short.profitTest_eq member]
    exact congrArg List.sum (List.map_congr_left fun record member => (worth record member).symm)

/-- A close within the profitable size completes only incomplete records with
a profit, and earns something. -/
theorem ShortIncomplete.closesOnlyProfitable {size : ℕ} (price : ℚ) (sizePos : 0 < size)
    (within : size ≤ table.profitableSize price) :
    table.ClosesOnlyProfitable size price (table.recordClosePosition id size price) := by
  have total := short.total_filter price id (table.closeAverage size price)
  have covered := within
  rw [← total] at covered
  have positiveVisited : ∀ record ∈ table.visited, 0 < record.openSize :=
    fun record member => positive record (mem_visited.mp member)
  have closable : size ≤ table.closable price := by
    have allOpen : (table.visited.filter (profitTest table.isLong price)).takeWhile
        (fun record => !record.isComplete) =
          table.visited.filter (profitTest table.isLong price) := by
      refine List.takeWhile_eq_self_iff.mpr fun record member => ?_
      have test := (List.mem_filter.mp member).2
      rw [short.profitTest_eq (List.mem_filter.mp member).1, Bool.and_eq_true] at test
      exact test.1
    have reach := Closing.total_takeWhile_filter_le_reach (table.closingOf id size price)
      (profitTest table.isLong price) table.visited
    simp only [closingOf, closing_done, allOpen, total] at reach
    exact Nat.le_trans within reach
  have taken := (incompleteSize_recordClosePosition_iff positive id size price).mpr closable
  have only : ∀ record ∈ table.visited, profitTest table.isLong price record = true →
      table.profitable price record = true := by
    intro record member test
    rw [short.profitTest_eq member, Bool.and_eq_true] at test
    exact test.2
  refine ⟨?_, taken, ?_, ?_, ?_⟩
  · have before := completeSize_add_incompleteSize table
    have after := completeSize_add_incompleteSize (table.recordClosePosition id size price)
    rw [sum_recordClosePosition] at after
    omega
  · refine filter_records_eq rfl ?_
    rw [recordClosePosition_visited, closingOf, Closing.sweep_of_le _ covered]
    exact (table.stable_profitable id price _).filter_not_consume only
  · intro record member isComplete
    rw [← mem_visited, recordClosePosition_visited, closingOf, Closing.sweep_of_le _ covered]
    refine Closing.mem_consume_of_not_eligible _ (mem_visited.mpr member) ?_
    rw [short.profitTest_eq (mem_visited.mpr member), isComplete]
    rfl
  · have gains : ∀ record ∈ table.visited.filter (profitTest table.isLong price),
        0 < unitProfit price record := by
      intro record member
      have test := only record (List.mem_filter.mp member).1 (List.mem_filter.mp member).2
      rw [unitProfit, signed record (mem_visited.mp (List.mem_filter.mp member).1)]
      exact of_decide_eq_true test
    have some : table.visited.filter (profitTest table.isLong price) ≠ [] := by
      intro none
      rw [none, Closing.total_nil] at covered
      omega
    rw [recordClosePosition_pnl, closingOf, Closing.sweepCharge_of_total_le _ _ covered]
    exact lt_add_of_pos_right _ (Closing.charge_pos _ gains
      (fun record member => positiveVisited record (List.mem_filter.mp member).1) sizePos some)

end

/-- A better price is a profit on whatever the other one was a profit on. -/
theorem profitableSize_mono {better : ℚ} (isBetter : InOrder table.isLong price better) :
    table.profitableSize price ≤ table.profitableSize better := by
  refine List.Sublist.sum_le_sum (List.Sublist.map _ (List.monotone_filter_right _ ?_))
    fun _ _ => Nat.zero_le _
  intro record counted
  rw [Bool.and_eq_true] at counted ⊢
  refine ⟨counted.1, ?_⟩
  have profit := of_decide_eq_true counted.2
  refine decide_eq_true ?_
  rw [gt_iff_lt, ← gt_iff_lt, sub_mul_sign_pos_iff] at profit ⊢
  exact fun before => profit (isBetter.trans before)

/-- Where the sizes fit an integer, a fill of the predicted size at the price
of the prediction closes the records that were counted, and earns what was
predicted; a smaller one at a price at least as good closes only records with
a profit, and earns something. -/
theorem closes_as_predicted (short : table.ShortIncomplete) (positive : table.PositiveSizes)
    (signed : table.Signed) (fits : (table.records.map (·.openSize)).sum < 2 ^ 31) (id : ℕ)
    (price : ℚ) :
    let predicted := table.sizeofOrderWithPnl price
    table.ClosesAllProfitable id price predicted.2
        (table.recordClosePosition id predicted.1 price) ∧
      ∀ (size : ℕ) (better : ℚ), 0 < size → size ≤ predicted.1 →
        InOrder table.isLong price better →
          table.ClosesOnlyProfitable size better (table.recordClosePosition id size better) := by
  have isSize : (table.sizeofOrderWithPnl price).1 = table.profitableSize price := by
    have small := table.profitableSize_le price
    rw [sizeofOrderWithPnl_eq]
    exact word32_natCast (by omega)
  dsimp only
  rw [isSize]
  refine ⟨short.closesAllProfitable positive signed id price, ?_⟩
  intro size better sizePos within isBetter
  exact short.closesOnlyProfitable positive signed id better sizePos
    (Nat.le_trans within (profitableSize_mono isBetter))

/-- 100 bought at 20 and 50 at 10, of which 30 are sold again at 15. -/
def soldInPart : PositionRecordTable :=
  run step (empty true) [.openPosition 1 100 20, .openPosition 2 50 10, .closePosition 3 30 15]

/-- At 12 the 20 that are left of those bought at 10 are a profit, and at 21
everything is. -/
theorem closes_as_predicted_soldInPart :
    soldInPart.ClosesAllProfitable 4 12 (soldInPart.sizeofOrderWithPnl 12).2
        (soldInPart.recordClosePosition 4 (soldInPart.sizeofOrderWithPnl 12).1 12) ∧
      soldInPart.ClosesOnlyProfitable 5 21 (soldInPart.recordClosePosition 4 5 21) := by
  have positive : soldInPart.PositiveSizes := by
    unfold PositiveSizes
    decide +kernel
  have predicted := closes_as_predicted (fun isShort => absurd isShort (by decide +kernel))
    positive (signed_run true _) (by decide +kernel) 4 12
  exact ⟨predicted.1, predicted.2 5 21 (by decide) (by decide +kernel) (by decide +kernel)⟩

end TradingApp.Position.PositionRecordTable

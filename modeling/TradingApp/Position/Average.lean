import TradingApp.Position.Prediction

/-!
# Average, profit and lots

The average of a table moves with its fills, its profit with the records a
close happens to choose.  On a long table that is purged after every close the
two make up for each other: average times open size and profit together are
what the lots have cost.
-/

namespace TradingApp.Position.PositionRecordTable

open TradingApp.Lots TradingApp.Machine TradingApp.Transition PositionRecord

/-- A fill of the account; the complete records are deleted after a close. -/
inductive Fill where
  | opened (id size : ℕ) (price : ℚ)
  | closed (id size : ℕ) (price : ℚ)
deriving DecidableEq, Repr

/-- What the table makes of a fill. -/
def fillStep (table : PositionRecordTable) : Fill → PositionRecordTable
  | .opened id size price => table.recordOpenPosition id size price
  | .closed id size price => (table.recordClosePosition id size price).deleteCompletePosition

/-- Something is opened, or something of the position is closed. -/
def IsFill (table : PositionRecordTable) : Fill → Prop
  | .opened _ size _ => 0 < size
  | .closed _ size _ => 0 < size ∧ size ≤ table.openSize

/-- The fill leaves a position. -/
def LeavesOpen (table : PositionRecordTable) (fill : Fill) : Prop :=
  (table.fillStep fill).openSize ≠ 0

/-- What is opened fits in the counter. -/
def FitsOpen (table : PositionRecordTable) : Fill → Prop
  | .opened _ size _ => table.openSize + size < 2 ^ 32
  | .closed _ _ _ => True

instance (table : PositionRecordTable) : (fill : Fill) → Decidable (table.IsFill fill)
  | .opened _ size _ => inferInstanceAs (Decidable (0 < size))
  | .closed _ size _ => inferInstanceAs (Decidable (0 < size ∧ size ≤ table.openSize))

instance (table : PositionRecordTable) (fill : Fill) : Decidable (table.LeavesOpen fill) :=
  inferInstanceAs (Decidable (_ ≠ _))

instance (table : PositionRecordTable) : (fill : Fill) → Decidable (table.FitsOpen fill)
  | .opened _ size _ => inferInstanceAs (Decidable (table.openSize + size < 2 ^ 32))
  | .closed _ _ _ => inferInstanceAs (Decidable True)

/-- What the lots have cost. -/
def cost (table : PositionRecordTable) : ℚ :=
  (table.records.map fun record => record.openPrice * (record.openSize : ℚ)).sum

/-- What the lots would earn at a reference price. -/
def unrealised (table : PositionRecordTable) (reference : ℚ) : ℚ :=
  (table.records.map fun record =>
    (reference - record.openPrice) * record.openSize * table.sign).sum

/-- The profit of the open lots at a reference price. -/
def getOpenPNL (table : PositionRecordTable) (reference : ℚ) : ℚ :=
  (reference - table.average) * table.openSize * table.sign

/-- Average, profit and lots tell the same story. -/
structure SameStory (table : PositionRecordTable) : Prop where
  cost : table.average * table.openSize + table.pnl = table.cost
  openPNL : ∀ reference, table.getOpenPNL reference = table.unrealised reference + table.pnl

variable {table : PositionRecordTable} {price : ℚ}

/-! ## Sums over the records -/

theorem insertRecord_perm (sign : ℤ) (record : PositionRecord) (records : List PositionRecord) :
    (insertRecord sign record records).Perm (record :: records) := by
  induction records with
  | nil => exact List.Perm.refl _
  | cons first rest ih =>
      unfold insertRecord
      split
      · exact List.Perm.refl _
      · exact (ih.cons first).trans (List.Perm.swap record first rest)

theorem cost_recordOpenPosition (table : PositionRecordTable) (id size : ℕ) (price : ℚ) :
    (table.recordOpenPosition id size price).cost = price * size + table.cost :=
  ((insertRecord_perm _ _ table.records).map _).sum_eq

/-- A close keeps what the records have cost in total. -/
theorem cost_recordClosePosition (table : PositionRecordTable) (id size : ℕ) (price : ℚ) :
    (table.recordClosePosition id size price).cost = table.cost := by
  have visitedCost (table : PositionRecordTable) :
      table.cost = (table.visited.map fun record => record.openSize • record.openPrice).sum := by
    have smul (record : PositionRecord) :
        record.openPrice * (record.openSize : ℚ) = record.openSize • record.openPrice := by
      rw [nsmul_eq_mul, mul_comm]
    unfold cost
    simp only [smul]
    exact (table.visited_perm.map _).sum_eq.symm
  have stable : (table.closingOf id size price).Stable PositionRecord.openPrice :=
    closing_stable id price _ fun openPrice _ => openPrice
  rw [visitedCost, visitedCost table, recordClosePosition_visited]
  exact stable.sum_consume.trans stable.sum_consume

/-- What is left after the complete records are deleted has cost the rest. -/
theorem cost_deleteCompletePosition (table : PositionRecordTable) :
    table.deleteCompletePosition.cost +
        ((table.records.filter (·.isComplete)).map fun record =>
          record.openPrice * (record.openSize : ℚ)).sum = table.cost := by
  unfold cost deleteCompletePosition
  induction table.records with
  | nil => simp
  | cons record rest ih =>
      cases isComplete : record.isComplete <;>
        simp only [List.filter_cons, isComplete, Bool.not_true, Bool.not_false, if_true, if_false,
          Bool.false_eq_true, List.map_cons, List.sum_cons, ← ih] <;> ring

/-- Closing at a price earns that price less what the closed records have
cost. -/
theorem closedProfit_eq (table : PositionRecordTable) (isLong : table.isLong = true)
    (signed : table.Signed) (price : ℚ) :
    table.closedProfit price = price * table.completeSize -
      ((table.records.filter (·.isComplete)).map fun record =>
        record.openPrice * (record.openSize : ℚ)).sum := by
  have positive : table.sign = 1 := by rw [sign, isLong, if_pos rfl]
  unfold Signed at signed
  unfold closedProfit completeSize
  rw [positive] at signed
  generalize table.records = records at signed ⊢
  induction records with
  | nil => simp
  | cons record rest ih =>
      rcases List.forall_mem_cons.mp signed with ⟨here, later⟩
      cases isComplete : record.isComplete with
      | true =>
          simp only [List.filter_cons, isComplete, if_true, List.map_cons, List.sum_cons, ih later,
            here]
          push_cast
          ring
      | false =>
          simp only [List.filter_cons, isComplete, if_false, Bool.false_eq_true, ih later]

/-! ## The invariant -/

/-- What a run that leaves something open maintains. -/
structure Told (table : PositionRecordTable) : Prop where
  isLong : table.isLong = true
  tidy : table.Tidy
  signed : table.Signed
  inRange : table.openSize < 2 ^ 32
  same : table.average * table.openSize + table.pnl = table.cost

theorem told_empty : (empty true).Told where
  isLong := rfl
  tidy := ⟨fun _ member => absurd member List.not_mem_nil, List.Pairwise.nil,
    fun _ member => absurd member List.not_mem_nil, rfl⟩
  signed := fun _ member => absurd member List.not_mem_nil
  inRange := by decide
  same := by decide +kernel

/-- What the lots would earn is what the position is worth at the reference
price less what they have cost. -/
theorem Told.unrealised (told : table.Told) (reference : ℚ) :
    table.unrealised reference = reference * table.openSize - table.cost := by
  have positive : table.sign = 1 := by rw [sign, told.isLong, if_pos rfl]
  unfold PositionRecordTable.unrealised cost
  rw [positive, ← told.tidy.covered]
  induction table.records with
  | nil => simp
  | cons record rest ih =>
      simp only [List.map_cons, List.sum_cons, ih]
      push_cast
      ring

theorem Told.sameStory (told : table.Told) : table.SameStory := by
  have positive : table.sign = 1 := by rw [sign, told.isLong, if_pos rfl]
  refine ⟨told.same, fun reference => ?_⟩
  rw [told.unrealised, getOpenPNL, positive, ← told.same]
  push_cast
  ring

theorem Told.opened (told : table.Told) (id : ℕ) {size : ℕ} (price : ℚ) (sizePos : 0 < size)
    (fits : table.openSize + size < 2 ^ 32) : (table.recordOpenPosition id size price).Told := by
  have openSize : (table.recordOpenPosition id size price).openSize = table.openSize + size :=
    word32_add fits
  have isOpen : 0 < table.openSize + size := by omega
  refine ⟨told.isLong, ⟨?_, told.tidy.sorted.recordOpenPosition id size price,
    told.tidy.positive.recordOpenPosition sizePos id price, ?_⟩,
    told.signed.step (.openPosition id size price), by omega, ?_⟩
  · intro record member
    rcases mem_insertRecord.mp member with rfl | inside
    · rfl
    · exact told.tidy.incomplete record inside
  · have sizes : ((table.recordOpenPosition id size price).records.map (·.openSize)).sum =
        size + (table.records.map (·.openSize)).sum :=
      ((insertRecord_perm _ _ table.records).map _).sum_eq
    rw [sizes, told.tidy.covered, openSize, Nat.add_comm]
  · have average : (table.recordOpenPosition id size price).average =
        table.average + (price - table.average) * size / (table.openSize + size : ℕ) := by
      rw [← word32_add fits] at isOpen ⊢
      exact if_pos isOpen
    have nonzero : ((table.openSize + size : ℕ) : ℚ) ≠ 0 := by exact_mod_cast Nat.ne_of_gt isOpen
    have pnl : (table.recordOpenPosition id size price).pnl = table.pnl := rfl
    rw [cost_recordOpenPosition, average, openSize, pnl, ← told.same, add_mul,
      div_mul_cancel₀ _ nonzero]
    push_cast
    ring

theorem Told.closed (told : table.Told) (id : ℕ) {size : ℕ} (price : ℚ)
    (covered : size ≤ table.openSize) (leaves : table.openSize - size ≠ 0) :
    (table.recordClosePosition id size price).deleteCompletePosition.Told := by
  have within : size ≤ table.closable price := by
    rw [told.tidy.closable, if_pos (Or.inl told.isLong)]
    exact covered
  have reduced : word32 ((table.openSize : ℤ) - size) = table.openSize - size :=
    word32_sub told.inRange covered
  have first := told.tidy.closesProfitableFirst id within
  have signed := told.signed.step (.closePosition id size price)
  have sorted := (told.tidy.sorted.recordClosePosition id size price).deleteCompletePosition
  have positive := (told.tidy.positive.recordClosePosition id size price).deleteCompletePosition
  refine ⟨told.isLong, ⟨?_, sorted, positive, ?_⟩, signed.step .deleteComplete, ?_, ?_⟩
  · intro record member
    simpa using (List.mem_filter.mp member).2
  · have rest : (table.recordClosePosition id size price).incompleteSize =
        table.openSize - size := by
      have taken := first.incompleteSize
      rw [told.tidy.incompleteSize] at taken
      omega
    exact rest.trans reduced.symm
  · exact word32_lt (table.openSize - size)
  · have average : table.closeAverage size price =
        table.average + (table.average - price) * size / (table.openSize - size : ℕ) := by
      rw [closeAverage, reduced]
      exact if_pos (Nat.pos_of_ne_zero leaves)
    have nonzero : ((table.openSize - size : ℕ) : ℚ) ≠ 0 := by exact_mod_cast leaves
    have remaining : ((table.openSize - size : ℕ) : ℚ) = table.openSize - size :=
      Nat.cast_sub covered
    have profit :=
      closedProfit_eq (table.recordClosePosition id size price) told.isLong signed price
    have cost := (table.recordClosePosition id size price).cost_deleteCompletePosition
    rw [cost_recordClosePosition] at cost
    rw [first.completeSize] at profit
    have left := eq_sub_of_add_eq cost
    calc (table.closeAverage size price) * (word32 (table.openSize - size) : ℕ) +
          (table.recordClosePosition id size price).pnl
        = table.average * table.openSize - price * size +
            (table.pnl + (table.recordClosePosition id size price).closedProfit price) := by
          rw [average, reduced, first.pnl, add_mul, div_mul_cancel₀ _ nonzero, remaining]
          ring
      _ = (table.recordClosePosition id size price).deleteCompletePosition.cost := by
          rw [profit, left, ← told.same]
          ring

/-- A fill that leaves something open keeps the invariant. -/
theorem Told.step (told : table.Told) {fill : Fill} (isFill : table.IsFill fill)
    (fits : table.FitsOpen fill) (leaves : table.LeavesOpen fill) : (table.fillStep fill).Told := by
  cases fill with
  | opened id size price => exact told.opened id price isFill fits
  | closed id size price =>
      have reduced : word32 ((table.openSize : ℤ) - size) = table.openSize - size :=
        word32_sub told.inRange isFill.2
      exact told.closed id price isFill.2 fun zero => leaves (reduced.trans zero)

/-- Along every run of fills of a long account that fit in the counter, for as
long as something is open, average, profit and lots tell the same story. -/
theorem sameStory_run (fills : List Fill)
    (areFills : EveryStep fillStep IsFill (empty true) fills)
    (fit : EveryStep fillStep FitsOpen (empty true) fills)
    (leave : EveryStep fillStep LeavesOpen (empty true) fills) :
    EveryState fillStep SameStory (empty true) fills := by
  have steps := (everyStep_and_iff _ _).mpr
    ⟨areFills, (everyStep_and_iff _ _).mpr ⟨fit, leave⟩⟩
  have told : EveryState fillStep Told (empty true) fills :=
    everyState_of_everyStep
      (fun _ _ told meets => told.step meets.1 meets.2.1 meets.2.2) told_empty steps
  exact told.mono fun _ told => told.sameStory

/-- A long account that is opened twice and closed at a profit and at a
loss. -/
theorem sameStory_run_closed :
    EveryState fillStep SameStory (empty true) [.opened 1 100 20, .opened 2 50 10,
      .closed 3 70 15, .closed 4 30 12] :=
  sameStory_run _ (by decide +kernel) (by decide +kernel) (by decide +kernel)

/-- Opening `2 ^ 32 - 1` lots and then two more leaves an open size of one. -/
theorem not_sameStory_overflow :
    EveryStep fillStep IsFill (empty true) [.opened 1 (2 ^ 32 - 1) 1, .opened 2 2 1] ∧
      EveryStep fillStep LeavesOpen (empty true) [.opened 1 (2 ^ 32 - 1) 1, .opened 2 2 1] ∧
        ¬ EveryState fillStep SameStory (empty true)
          [.opened 1 (2 ^ 32 - 1) 1, .opened 2 2 1] := by
  refine ⟨by decide +kernel, by decide +kernel, fun every => ?_⟩
  have cost := every.last.cost
  revert cost
  decide +kernel

end TradingApp.Position.PositionRecordTable

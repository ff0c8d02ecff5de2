import TradingApp.Position.Conservation

/-!
# Closing in two fills

An exchange may fill a close order in parts.  Two close fills at one price
leave what one fill of their sum leaves as long as neither of them meets a
complete record; `splitClosable` is how far that carries.
-/

namespace TradingApp.Position.PositionRecordTable

open TradingApp.Machine TradingApp.Lots TradingApp.Transition PositionRecord

/-- Total size of the incomplete records opened at a price. -/
def incompleteAt (table : PositionRecordTable) (price : ℚ) : ℕ :=
  ((table.records.filter fun record =>
    !record.isComplete && decide (record.openPrice = price)).map (·.openSize)).sum

/-- Two tables agree on the position they hold and what it earned. -/
structure Agree (first second : PositionRecordTable) : Prop where
  openSize : first.openSize = second.openSize
  average : first.average = second.average
  pnl : first.pnl = second.pnl
  incompleteAt : ∀ price, first.incompleteAt price = second.incompleteAt price

/-- The quantity that two closes at `price`, the first of them of size `a`,
can take together before one of their loops meets a complete record.  A long
table skips what the first close completed until it runs out of profitable
records; a short one stumbles over the first record it visits once that is
complete. -/
def splitClosable (table : PositionRecordTable) (price : ℚ) (a : ℕ) : ℕ :=
  if table.isLong then
    (closing 0 price 0).splitReachOpen (fun record => record.openPrice < price) table.visited a
  else
    (closing 0 price 0).splitReachAll (fun record => record.openPrice > price) table.visited

theorem incompleteAt_eq_openTotal (table : PositionRecordTable) (at_ : ℚ) (id : ℕ)
    (price average : ℚ) :
    table.incompleteAt at_ = (closing id price average).openTotal
      (fun record => record.openPrice = at_) table.visited := by
  rw [openTotal_visited]
  rfl

/-- The incomplete size is determined by the incomplete size at each price. -/
theorem Agree.incompleteSize {first second : PositionRecordTable} (agree : first.Agree second) :
    first.incompleteSize = second.incompleteSize := by
  rw [incompleteSize_eq_openTotal first 0 0 0, incompleteSize_eq_openTotal second 0 0 0]
  refine (closing 0 0 0).openTotal_congr openPrice fun price => ?_
  rw [← incompleteAt_eq_openTotal, ← incompleteAt_eq_openTotal]
  exact agree.incompleteAt price

theorem profitTest_long (price : ℚ) (id : ℕ) (average : ℚ) :
    profitTest true price =
      (closing id price average).openAnd fun record => record.openPrice < price := by
  funext record
  simp [profitTest, longProfitTest, Closing.openAnd, closing, Bool.and_comm]

theorem profitTest_short (price : ℚ) :
    profitTest false price = fun record => decide (record.openPrice > price) :=
  rfl

/-- Within its reach, what a sweep books does not depend on the id and the
average it writes into the records. -/
theorem sweepCharge_closing {M : Type*} [AddCommMonoid M] (w : PositionRecord → M)
    {prefers : PositionRecord → Bool} {records : List PositionRecord} {n id : ℕ}
    {price average : ℚ} (within : n ≤ (closing id price average).reach prefers records)
    (id' : ℕ) (average' : ℚ) :
    (closing id price average).sweepCharge w prefers records n =
      (closing id' price average').sweepCharge w prefers records n := by
  rw [Closing.sweepCharge_of_le (closing id price average) w within,
    Closing.sweepCharge_of_le (closing id' price average') w within]
  exact Closing.charge_congr (c := closing id price average) (d := closing id' price average') w
    rfl _ _ _

theorem splitClosable_le_closable (table : PositionRecordTable) (price : ℚ) (a : ℕ) :
    table.splitClosable price a ≤ table.closable price := by
  unfold splitClosable closable
  cases isLong : table.isLong with
  | true =>
      rw [profitTest_long price 0 0]
      exact Closing.splitReachOpen_le_reach _ _ _
  | false =>
      rw [profitTest_short]
      exact Closing.splitReachAll_le_reach _ _

section

variable {table : PositionRecordTable} {price : ℚ} {a b : ℕ} (id : ℕ)

/-- After a first close, a second one may go exactly as far as the two can go
together. -/
theorem le_closable_recordClosePosition_iff (aPos : 0 < a) (bPos : 0 < b)
    (within : a ≤ table.closable price) :
    b ≤ (table.recordClosePosition id a price).closable price ↔
      a + b ≤ table.splitClosable price a := by
  rw [← table.closable_eq_reach id a price] at within
  rw [← closable_eq_reach _ id a price, recordClosePosition_visited, recordClosePosition_isLong,
    splitClosable]
  cases isLong : table.isLong with
  | true =>
      rw [isLong, profitTest_long price id (table.closeAverage a price)] at within
      rw [profitTest_long price id (table.closeAverage a price)]
      exact Closing.le_reach_sweep_openAnd_iff (table.closingOf id a price)
        (closing_stable id price _ fun openPrice _ => decide (openPrice < price)) within bPos
  | false =>
      rw [isLong, profitTest_short] at within
      rw [profitTest_short]
      exact Closing.le_reach_sweep_all_iff (table.closingOf id a price)
        (closing_stable id price _ fun openPrice _ => decide (openPrice > price)) aPos within bPos

/-- What two closes book that together stay within what the table can close
in two. -/
theorem sweepCharge_recordClosePosition {M : Type*} [AddCommMonoid M] (w : ℚ → ℤ → M)
    (aPos : 0 < a) (bPos : 0 < b) (together : a + b ≤ table.splitClosable price a) :
    (table.closingOf id a price).sweepCharge (fun record => w record.openPrice record.sign)
          (profitTest table.isLong price) table.visited a +
        ((table.recordClosePosition id a price).closingOf id b price).sweepCharge
          (fun record => w record.openPrice record.sign) (profitTest table.isLong price)
          (table.recordClosePosition id a price).visited b =
      (table.closingOf id (a + b) price).sweepCharge
        (fun record => w record.openPrice record.sign) (profitTest table.isLong price)
        table.visited (a + b) := by
  have single := Nat.le_trans together (table.splitClosable_le_closable price a)
  have first : a ≤ table.closable price := Nat.le_trans (Nat.le_add_right a b) single
  have second := (le_closable_recordClosePosition_iff id aPos bPos first).mpr together
  have reached : a + b ≤ (closing id price (table.closeAverage (a + b) price)).reach
      (profitTest table.isLong price) table.visited := single
  have isStable := fun f => closing_stable id price (table.closeAverage a price) (β := Bool) f
  rw [← closable_eq_reach _ id b price, recordClosePosition_visited,
    recordClosePosition_isLong] at second
  rw [recordClosePosition_visited]
  unfold closingOf at second ⊢
  rw [sweepCharge_closing _ second id (table.closeAverage a price),
    sweepCharge_closing _ reached id (table.closeAverage a price)]
  unfold splitClosable at together
  cases isLong : table.isLong with
  | true =>
      rw [isLong] at together
      rw [profitTest_long price id (table.closeAverage a price)]
      exact Closing.sweepCharge_openAnd_add _
        (isStable fun openPrice _ => decide (openPrice < price)) (fun _ _ => rfl) bPos together
  | false =>
      rw [isLong] at together
      rw [profitTest_short]
      exact Closing.sweepCharge_all_add _
        (isStable fun openPrice _ => decide (openPrice > price)) (fun _ _ => rfl) aPos bPos
        together


/-- A close within what the table can close takes from the incomplete records
at each price what it books there. -/
theorem incompleteAt_recordClosePosition (within : a ≤ table.closable price) (at_ : ℚ) :
    (table.recordClosePosition id a price).incompleteAt at_ +
        (table.closingOf id a price).sweepCharge
          (Closing.unitOf fun record => record.openPrice = at_) (profitTest table.isLong price)
          table.visited a =
      table.incompleteAt at_ := by
  rw [incompleteAt_eq_openTotal _ at_ id price (table.closeAverage a price),
    incompleteAt_eq_openTotal table at_ id price (table.closeAverage a price),
    recordClosePosition_visited]
  exact Closing.openTotal_sweep_of_le (table.closingOf id a price) (fun _ _ => rfl) within

/-- Closing `a` and then `b` moves the average like closing their sum. -/
theorem closeAverage_recordClosePosition (inRange : table.openSize < 2 ^ 32) (bPos : 0 < b)
    (covered : a + b ≤ table.openSize) :
    (table.recordClosePosition id a price).closeAverage b price =
      table.closeAverage (a + b) price := by
  have afterFirst : word32 ((table.openSize : ℤ) - a) = table.openSize - a :=
    word32_sub inRange (by omega)
  have afterBoth : word32 ((table.openSize : ℤ) - (a + b : ℕ)) = table.openSize - (a + b) :=
    word32_sub inRange covered
  have firstPos : table.openSize - a > 0 := by omega
  have sizes : ((table.openSize - a : ℕ) : ℚ) = table.openSize - a :=
    Nat.cast_sub (by omega)
  have first : (table.recordClosePosition id a price).average =
      table.average + (table.average - price) * a / (table.openSize - a : ℕ) := by
    rw [recordClosePosition_average, closeAverage, afterFirst, if_pos firstPos]
  unfold closeAverage
  rw [recordClosePosition_openSize, word32_sub_sub, afterBoth, first]
  dsimp only
  split
  · rename_i bothPos
    have restPos : (0 : ℚ) < (table.openSize - (a + b) : ℕ) := by exact_mod_cast bothPos
    have firstPos' : (0 : ℚ) < (table.openSize - a : ℕ) := by exact_mod_cast firstPos
    have sum : ((table.openSize - a : ℕ) : ℚ) = (table.openSize - (a + b) : ℕ) + b := by
      rw [← Nat.cast_add]
      congr 1
      omega
    rw [sum] at firstPos' ⊢
    push_cast
    field_simp
    ring
  · rfl

/-- Two closes that together stay within what the table can close in two
leave what one close leaves. -/
theorem agree_of_le_splitClosable (inRange : table.openSize < 2 ^ 32) (aPos : 0 < a)
    (bPos : 0 < b) (covered : a + b ≤ table.openSize)
    (together : a + b ≤ table.splitClosable price a) :
    ((table.recordClosePosition id a price).recordClosePosition id b price).Agree
      (table.recordClosePosition id (a + b) price) := by
  have single := Nat.le_trans together (table.splitClosable_le_closable price a)
  have first : a ≤ table.closable price := Nat.le_trans (Nat.le_add_right a b) single
  have second := (le_closable_recordClosePosition_iff id aPos bPos first).mpr together
  refine ⟨?_, ?_, ?_, fun at_ => ?_⟩
  · simp only [recordClosePosition_openSize, word32_sub_sub]
  · simp only [recordClosePosition_average]
    exact closeAverage_recordClosePosition id inRange bPos covered
  · have booked := sweepCharge_recordClosePosition id
      (fun openPrice sign => (price - openPrice) * (sign : ℚ)) aPos bPos together
    simp only [recordClosePosition_pnl, recordClosePosition_isLong]
    rw [add_assoc]
    exact congrArg (table.pnl + ·) booked
  · have booked := sweepCharge_recordClosePosition id
      (fun openPrice _ => if decide (openPrice = at_) then 1 else 0) aPos bPos together
    have afterFirst := incompleteAt_recordClosePosition id first at_
    have afterSecond := incompleteAt_recordClosePosition id second at_
    have afterSingle := incompleteAt_recordClosePosition id single at_
    rw [recordClosePosition_isLong] at afterSecond
    rw [← afterFirst, ← afterSecond, add_assoc,
      add_comm (Closing.sweepCharge _ _ _ _ b)] at afterSingle
    exact (Nat.add_right_cancel (afterSingle.trans (congrArg _ booked))).symm

/-- Where one close can be taken from the incomplete records, two closes
leave the same only if they stay within what the table can close in two. -/
theorem le_splitClosable_of_agree (positive : table.PositiveSizes) (aPos : 0 < a) (bPos : 0 < b)
    (single : a + b ≤ table.closable price)
    (agree : ((table.recordClosePosition id a price).recordClosePosition id b price).Agree
      (table.recordClosePosition id (a + b) price)) :
    a + b ≤ table.splitClosable price a := by
  have first : a ≤ table.closable price := Nat.le_trans (Nat.le_add_right a b) single
  have afterFirst := (incompleteSize_recordClosePosition_iff positive id a price).mpr first
  have afterSingle :=
    (incompleteSize_recordClosePosition_iff positive id (a + b) price).mpr single
  have same := agree.incompleteSize
  refine (le_closable_recordClosePosition_iff id aPos bPos first).mp ?_
  refine (incompleteSize_recordClosePosition_iff (positive.recordClosePosition id a price) id b
    price).mp ?_
  omega

end

/-! ## Reachable tables -/

/-- Every admissible run keeps the sizes of the records positive and the open
size in range, whatever becomes of conservation. -/
theorem wellSized_run (isLong : Bool) {ops : List Op}
    (admissible : EveryStep step Admissible (empty isLong) ops) :
    (run step (empty isLong) ops).PositiveSizes ∧
      (run step (empty isLong) ops).openSize < 2 ^ 32 := by
  have every : EveryState step (fun table => table.PositiveSizes ∧ table.openSize < 2 ^ 32)
      (empty isLong) ops := by
    refine everyState_of_everyStep (C := Admissible) ?_
      ⟨(sound_empty isLong).positive, (sound_empty isLong).inRange⟩ admissible
    rintro table op ⟨positive, inRange⟩ promised
    cases op with
    | openPosition id size price =>
        exact ⟨positive.recordOpenPosition promised id price, word32_lt (table.openSize + size)⟩
    | closePosition id size price =>
        exact ⟨positive.recordClosePosition id size price, word32_lt (table.openSize - size)⟩
    | deleteComplete => exact ⟨positive.deleteCompletePosition, inRange⟩
    | repackage baseQty mpv adjustment =>
        exact ⟨fun record member => (mem_repackaging promised mpv adjustment member).2, inRange⟩
  exact every.last

/-- On every table an admissible run reaches: two closes that together stay
within what the table can close in two leave what one close leaves; and where
the one close can be taken from the incomplete records, only those do. -/
theorem closeTwice_agrees (isLong : Bool) (ops : List Op)
    (admissible : EveryStep step Admissible (empty isLong) ops) (id a b : ℕ) (price : ℚ)
    (aPos : 0 < a) (bPos : 0 < b)
    (covered : a + b ≤ (run step (empty isLong) ops).openSize) :
    let table := run step (empty isLong) ops
    let twice := (table.recordClosePosition id a price).recordClosePosition id b price
    let once := table.recordClosePosition id (a + b) price
    (a + b ≤ table.splitClosable price a → twice.Agree once) ∧
      (a + b ≤ table.closable price → twice.Agree once → a + b ≤ table.splitClosable price a) := by
  obtain ⟨positive, inRange⟩ := wellSized_run isLong admissible
  exact ⟨agree_of_le_splitClosable id inRange aPos bPos covered,
    le_splitClosable_of_agree id positive aPos bPos⟩

/-- Selling 150 of 100 at 20 and 100 at 10 for 30 may be done in two fills:
the second long loop skips the record the first one completed. -/
theorem closeTwice_agrees_long :
    ((run step (empty true) [.openPosition 1 100 20, .openPosition 2 100 10]).recordClosePosition
          3 120 30 |>.recordClosePosition 3 30 30).Agree
      ((run step (empty true) [.openPosition 1 100 20, .openPosition 2 100 10]).recordClosePosition
        3 (120 + 30) 30) :=
  (closeTwice_agrees true [.openPosition 1 100 20, .openPosition 2 100 10] (by decide +kernel) 3
    120 30 30 (by decide) (by decide) (by decide +kernel)).1 (by decide +kernel)

/-- Buying back 200 sold at 30 and 20 for 15 in two equal fills closes the
record sold at 30 twice and leaves the one sold at 20 open. -/
theorem closeTwice_differs_short :
    EveryStep step Admissible (empty false) [.openPosition 1 100 30, .openPosition 2 100 20] ∧
      100 + 100 ≤
        (run step (empty false) [.openPosition 1 100 30, .openPosition 2 100 20]).openSize ∧
      ¬ ((run step (empty false) [.openPosition 1 100 30, .openPosition 2 100 20]
          |>.recordClosePosition 3 100 15).recordClosePosition 3 100 15).Agree
        ((run step (empty false) [.openPosition 1 100 30, .openPosition 2 100 20]
          ).recordClosePosition 3 (100 + 100) 15) := by
  refine ⟨by decide +kernel, by decide +kernel, fun agree => ?_⟩
  have lotsAt20 := agree.incompleteAt 20
  revert lotsAt20
  decide +kernel

end TradingApp.Position.PositionRecordTable

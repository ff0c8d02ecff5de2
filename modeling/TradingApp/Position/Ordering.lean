import TradingApp.Lots.Kept
import TradingApp.Position.Conservation

/-!
# The order of the lots

A table lists the lots of a long account from the cheapest on and those of a
short one from the dearest on.  Opening inserts with respect to that order,
and closing leaves every lot and every part of a split lot where it was.
Repackaging builds the list anew, in two loops: the first ends at the average
and the second starts on the better side of it, so that the order holds
exactly when one record is enough.
-/

namespace TradingApp.Position.PositionRecordTable

open TradingApp.Lots TradingApp.Transition PositionRecord

/-- The first of two prices may stand in front of the second. -/
def InOrder (isLong : Bool) (first second : ℚ) : Prop :=
  if isLong then first ≤ second else second ≤ first

instance (isLong : Bool) (first second : ℚ) : Decidable (InOrder isLong first second) :=
  inferInstanceAs (Decidable (if isLong then _ else _))

/-- The list is sorted by open price. -/
def Sorted (table : PositionRecordTable) : Prop :=
  table.records.Pairwise fun first second =>
    InOrder table.isLong first.openPrice second.openPrice

instance (table : PositionRecordTable) : Decidable table.Sorted :=
  inferInstanceAs (Decidable (List.Pairwise _ _))

/-- The open price of the first record. -/
def startingPrice (table : PositionRecordTable) : ℚ :=
  match table.records.head? with
  | some record => record.openPrice
  | none => 0

/-- The open price of the last record. -/
def endingPrice (table : PositionRecordTable) : ℚ :=
  match table.records.getLast? with
  | some record => record.openPrice
  | none => 0

/-- The list is sorted, and the starting and the ending price are the extremes
of the prices in it. -/
structure Ordered (table : PositionRecordTable) : Prop where
  sorted : table.Sorted
  starts : ∀ record ∈ table.records, InOrder table.isLong table.startingPrice record.openPrice
  ends : ∀ record ∈ table.records, InOrder table.isLong record.openPrice table.endingPrice
  startingPrice_mem : table.records ≠ [] →
    ∃ record ∈ table.records, record.openPrice = table.startingPrice
  endingPrice_mem : table.records ≠ [] →
    ∃ record ∈ table.records, record.openPrice = table.endingPrice

/-! ## Prices in order -/

variable {isLong : Bool} {a b c : ℚ}

theorem InOrder.refl (isLong : Bool) (a : ℚ) : InOrder isLong a a := by
  cases isLong <;> exact le_refl a

theorem InOrder.trans (first : InOrder isLong a b) (second : InOrder isLong b c) :
    InOrder isLong a c := by
  cases isLong with
  | true => exact le_trans (α := ℚ) first second
  | false => exact le_trans (α := ℚ) second first

theorem InOrder.of_not (notBefore : ¬ InOrder isLong a b) : InOrder isLong b a := by
  cases isLong <;> exact le_of_not_ge notBefore

/-- The test that insertion makes. -/
theorem sub_mul_sign_pos_iff (table : PositionRecordTable) :
    (a - b) * table.sign > 0 ↔ ¬ InOrder table.isLong a b := by
  cases isLong : table.isLong <;> simp [sign, isLong, InOrder]

theorem Sorted.ordered {table : PositionRecordTable} (sorted : table.Sorted) :
    table.Ordered := by
  refine ⟨sorted, ?_, ?_, ?_, ?_⟩
  · intro record member
    unfold Sorted at sorted
    unfold startingPrice
    cases records : table.records with
    | nil =>
        rw [records] at member
        exact absurd member List.not_mem_nil
    | cons first rest =>
        rw [records] at member sorted
        rcases List.mem_cons.mp member with rfl | later
        · exact InOrder.refl _ _
        · exact List.rel_of_pairwise_cons sorted later
  · intro record member
    unfold Sorted at sorted
    unfold endingPrice
    rcases List.eq_nil_or_concat table.records with records | ⟨front, last, records⟩
    · rw [records] at member
      exact absurd member List.not_mem_nil
    · rw [records, List.concat_eq_append] at member sorted
      rw [records, List.concat_eq_append, List.getLast?_concat]
      rcases List.mem_append.mp member with earlier | isLast
      · have apart := (List.pairwise_append.mp sorted).2.2
        exact apart record earlier last (List.mem_singleton_self last)
      · rw [List.mem_singleton.mp isLast]
        exact InOrder.refl _ _
  · intro nonempty
    unfold startingPrice
    cases records : table.records with
    | nil => exact absurd records nonempty
    | cons first rest => exact ⟨first, List.mem_cons_self, rfl⟩
  · intro nonempty
    refine ⟨table.records.getLast nonempty, List.getLast_mem nonempty, ?_⟩
    rw [endingPrice, List.getLast?_eq_getLast_of_ne_nil nonempty]

/-- In the order the closing loops visit them, the dearest records come
first. -/
theorem sorted_iff_visited (table : PositionRecordTable) :
    table.Sorted ↔
      table.visited.Pairwise fun first second => second.openPrice ≤ first.openPrice := by
  unfold Sorted visited InOrder
  cases table.isLong with
  | true => simp [List.pairwise_reverse]
  | false => simp

/-! ## The operations -/

theorem pairwise_insertRecord (table : PositionRecordTable) (record : PositionRecord)
    {records : List PositionRecord}
    (sorted : records.Pairwise fun first second =>
      InOrder table.isLong first.openPrice second.openPrice) :
    (insertRecord table.sign record records).Pairwise fun first second =>
      InOrder table.isLong first.openPrice second.openPrice := by
  induction records with
  | nil => exact List.pairwise_singleton _ _
  | cons first rest ih =>
      rcases List.pairwise_cons.mp sorted with ⟨ahead, later⟩
      unfold insertRecord
      simp only [sub_mul_sign_pos_iff]
      split
      · rename_i worse
        have before := InOrder.of_not worse
        refine List.pairwise_cons.mpr ⟨?_, sorted⟩
        intro other member
        rcases List.mem_cons.mp member with rfl | member
        · exact before
        · exact before.trans (ahead other member)
      · rename_i notWorse
        refine List.pairwise_cons.mpr ⟨?_, ih later⟩
        intro other member
        rcases mem_insertRecord.mp member with rfl | member
        · exact not_not.mp notWorse
        · exact ahead other member

theorem Sorted.recordOpenPosition {table : PositionRecordTable} (sorted : table.Sorted)
    (id size : ℕ) (price : ℚ) : (table.recordOpenPosition id size price).Sorted :=
  table.pairwise_insertRecord _ sorted

theorem Sorted.recordClosePosition {table : PositionRecordTable} (sorted : table.Sorted)
    (id size : ℕ) (price : ℚ) : (table.recordClosePosition id size price).Sorted := by
  rw [sorted_iff_visited, recordClosePosition_visited]
  exact (closing_stable id price _ fun openPrice _ => openPrice).pairwise_sweep
    (r := fun first second => second ≤ first) le_refl ((sorted_iff_visited table).mp sorted)

theorem Sorted.deleteCompletePosition {table : PositionRecordTable} (sorted : table.Sorted) :
    table.deleteCompletePosition.Sorted :=
  List.Pairwise.sublist List.filter_sublist sorted

/-- One record is enough for a position that fits in the base quantity. -/
theorem noe_le_one_iff (openSize : ℕ) {baseQty : ℕ} (basePos : 0 < baseQty) :
    noe openSize baseQty ≤ 1 ↔ openSize ≤ baseQty := by
  have base : (0 : ℚ) < baseQty := by exact_mod_cast basePos
  rw [noe, Nat.ceil_le, Nat.cast_one, div_le_one base]
  exact_mod_cast Iff.rfl

/-- The first loop is never left out while there is something to pack. -/
theorem noeh_pos {openSize baseQty : ℕ} (some : 0 < noe openSize baseQty) :
    0 < noeh openSize baseQty := by
  rw [noeh, Nat.ceil_pos]
  have positive : (0 : ℚ) < noe openSize baseQty := by exact_mod_cast some
  linarith

/-- The prices of a packing loop, by the index they are computed from. -/
theorem map_openPrice_pack (baseQty : ℕ) (average : ℚ) (sign : ℤ) (price : ℕ → ℚ)
    (count i orderId remainder : ℕ) :
    (pack baseQty average sign price count i orderId remainder).1.map (·.openPrice) =
      (List.range count).map fun k => price (i + k) := by
  induction count generalizing i orderId remainder with
  | zero => rfl
  | succ count ih =>
      rw [pack, List.map_cons, ih, List.range_succ_eq_map, List.map_cons, List.map_map]
      refine congrArg (price i :: ·) (List.map_congr_left fun k _ => ?_)
      simp only [Function.comp_apply, Nat.succ_eq_add_one]
      congr 1
      omega

theorem length_pack (baseQty : ℕ) (average : ℚ) (sign : ℤ) (price : ℕ → ℚ)
    (count i orderId remainder : ℕ) :
    (pack baseQty average sign price count i orderId remainder).1.length = count := by
  rw [← List.length_map (·.openPrice), map_openPrice_pack, List.length_map, List.length_range]

theorem exists_mem_pack (baseQty : ℕ) (average : ℚ) (sign : ℤ) (price : ℕ → ℚ)
    {count k : ℕ} (i orderId remainder : ℕ) (lt : k < count) :
    ∃ record ∈ (pack baseQty average sign price count i orderId remainder).1,
      record.openPrice = price (i + k) := by
  have member : price (i + k) ∈ (List.range count).map fun k => price (i + k) :=
    List.mem_map_of_mem (List.mem_range.mpr lt)
  rw [← map_openPrice_pack baseQty average sign price count i orderId remainder] at member
  exact List.mem_map.mp member

theorem sorted_of_length_le_one {table : PositionRecordTable}
    (short : table.records.length ≤ 1) : table.Sorted := by
  unfold Sorted
  rcases Nat.le_one_iff_eq_zero_or_eq_one.mp short with none | one
  · rw [List.length_eq_zero_iff.mp none]
    exact List.Pairwise.nil
  · rcases List.length_eq_one_iff.mp one with ⟨record, records⟩
    rw [records]
    exact List.pairwise_singleton _ _

theorem length_repackaging (table : PositionRecordTable) (baseQty : ℕ) (mpv adjustment : ℚ) :
    (table.repackaging baseQty mpv adjustment).records.length = noe table.openSize baseQty := by
  have half := noeh_le_noe table.openSize baseQty
  simp only [repackaging, List.length_append, length_pack]
  omega

theorem noeh_lt_noe {openSize baseQty : ℕ} (several : 1 < noe openSize baseQty) :
    noeh openSize baseQty < noe openSize baseQty := by
  have atMost : noeh openSize baseQty ≤ noe openSize baseQty - 1 := by
    rw [noeh, Nat.ceil_le, Nat.cast_sub (Nat.le_of_lt several)]
    have two : (2 : ℚ) ≤ noe openSize baseQty := by exact_mod_cast several
    push_cast
    linarith
  omega

/-- A repackaged list is sorted exactly when one record is enough. -/
theorem sorted_repackaging_iff (table : PositionRecordTable) {baseQty : ℕ} {mpv : ℚ}
    (basePos : 0 < baseQty) (mpvPos : 0 < mpv) (adjustment : ℚ) :
    (table.repackaging baseQty mpv adjustment).Sorted ↔ table.openSize ≤ baseQty := by
  rw [← noe_le_one_iff table.openSize basePos]
  constructor
  · intro sorted
    by_contra notOne
    have several : 1 < noe table.openSize baseQty := Nat.lt_of_not_le notOne
    have fewer := noeh_lt_noe several
    have some := noeh_pos (Nat.lt_trans Nat.one_pos several)
    have across := (List.pairwise_append.mp sorted).2.2
    -- the last record of the first loop is at the average, the first one of the second is not
    obtain ⟨last, lastMember, lastPrice⟩ := exists_mem_pack baseQty
      (table.average - adjustment * table.sign) table.sign
      (fun i => table.average - adjustment * table.sign -
        (noeh table.openSize baseQty - i : ℕ) * mpv * table.sign) 1 1 table.openSize
      (Nat.sub_lt some Nat.one_pos)
    obtain ⟨next, nextMember, nextPrice⟩ := exists_mem_pack baseQty
      (table.average - adjustment * table.sign) table.sign
      (fun i => table.average - adjustment * table.sign - i * mpv * table.sign) 1 _ _
      (Nat.sub_pos_of_lt fewer)
    have order := across last lastMember next nextMember
    rw [lastPrice, nextPrice, Nat.add_sub_cancel' some, Nat.sub_self] at order
    cases isLong : table.isLong <;> simp [repackaging, sign, isLong, InOrder] at order <;> linarith
  · intro one
    exact sorted_of_length_le_one (by rwa [length_repackaging])

/-! ## Runs -/

/-- A repackaging has a base quantity and a price step. -/
def PacksInSteps (_ : PositionRecordTable) : Op → Prop
  | .repackage baseQty mpv _ => 0 < baseQty ∧ 0 < mpv
  | _ => True

/-- A repackaging finds a position that fits in one record. -/
def PacksOneRecord (table : PositionRecordTable) : Op → Prop
  | .repackage baseQty _ _ => table.openSize ≤ baseQty
  | _ => True

instance (table : PositionRecordTable) : (op : Op) → Decidable (table.PacksInSteps op)
  | .repackage baseQty mpv _ => inferInstanceAs (Decidable (0 < baseQty ∧ 0 < mpv))
  | .openPosition .. | .closePosition .. | .deleteComplete => inferInstanceAs (Decidable True)

/-- A step keeps the order exactly if it packs at most one record. -/
theorem Sorted.step_iff {table : PositionRecordTable} (sorted : table.Sorted) {op : Op}
    (inSteps : table.PacksInSteps op) : (table.step op).Sorted ↔ table.PacksOneRecord op := by
  cases op with
  | openPosition id size price =>
      exact iff_of_true (sorted.recordOpenPosition id size price) trivial
  | closePosition id size price =>
      exact iff_of_true (sorted.recordClosePosition id size price) trivial
  | deleteComplete => exact iff_of_true sorted.deleteCompletePosition trivial
  | repackage baseQty mpv adjustment =>
      exact table.sorted_repackaging_iff inSteps.1 inSteps.2 adjustment

/-- Along every run from an empty table, the list is always sorted, with its
extremes at its ends, if and only if every repackaging finds a position that
fits in one record. -/
theorem ordered_iff_packsOneRecord (isLong : Bool) (ops : List Op)
    (inSteps : EveryStep step PacksInSteps (empty isLong) ops) :
    EveryState step Ordered (empty isLong) ops ↔
      EveryStep step PacksOneRecord (empty isLong) ops :=
  everyState_iff_everyStep
    (fun _ _ (sorted : Sorted _) promised one => (sorted.step_iff promised).mpr one)
    (fun _ sorted => sorted.ordered)
    (fun _ _ sorted promised after => (sorted.step_iff promised).mp after.sorted)
    List.Pairwise.nil inSteps

/-- A long position of 200 at 10 repackaged in hundreds is listed at 10 and
then at 9.99. -/
theorem not_ordered_repackaged :
    EveryStep step PacksInSteps (empty true) [.openPosition 1 200 10, .repackage 100 (1 / 100) 0] ∧
      ¬ EveryState step Ordered (empty true)
        [.openPosition 1 200 10, .repackage 100 (1 / 100) 0] := by
  refine ⟨by decide +kernel, fun every => ?_⟩
  have sorted : EveryState step Sorted (empty true)
      [.openPosition 1 200 10, .repackage 100 (1 / 100) 0] :=
    every.mono fun _ ordered => ordered.sorted
  revert sorted
  decide +kernel

/-- A short position that is opened in two lots, partly closed and repackaged
as one record. -/
theorem ordered_iff_packsOneRecord_short :
    EveryState step Ordered (empty false) [.openPosition 1 100 20, .openPosition 2 50 30,
        .closePosition 3 120 10, .deleteComplete, .repackage 100 (1 / 100) 0] ↔
      EveryStep step PacksOneRecord (empty false) [.openPosition 1 100 20,
        .openPosition 2 50 30, .closePosition 3 120 10, .deleteComplete,
        .repackage 100 (1 / 100) 0] :=
  ordered_iff_packsOneRecord false _ (by decide +kernel)

end TradingApp.Position.PositionRecordTable

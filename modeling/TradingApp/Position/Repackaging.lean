import Mathlib.Algebra.Order.BigOperators.Group.List
import TradingApp.Position.Ordering

/-!
# Repackaging

The records of a repackaged table partition the open size into pieces of the
base quantity, the last of which may be smaller.  The two loops that push them
share one remainder: together they are one loop over all indices.  The
remainder is an unsigned word; `packWord` is the loop that would wrap around,
and never does.
-/

namespace TradingApp.Position.PositionRecordTable

open TradingApp.Machine PositionRecord

/-- A packing loop whose remainder is a 32-bit word. -/
def packWord (baseQty : ℕ) (average : ℚ) (sign : ℤ) (price : ℕ → ℚ) :
    ℕ → ℕ → ℕ → ℕ → List PositionRecord × ℕ × ℕ
  | 0, _, orderId, remainder => ([], orderId, remainder)
  | count + 1, i, orderId, remainder =>
      let size := if remainder ≥ baseQty then baseQty else remainder
      let next :=
        packWord baseQty average sign price count (i + 1) (orderId + 1)
          (word32 ((remainder : ℤ) - size))
      (.ofFill orderId size (price i) average sign :: next.1, next.2)

/-- Repackaging with such loops. -/
def repackagingWord (table : PositionRecordTable) (baseQty : ℕ) (mpv adjustment : ℚ) :
    PositionRecordTable :=
  let noe := noe table.openSize baseQty
  let average := table.average - adjustment * table.sign
  let noeh := noeh table.openSize baseQty
  let noel := noe - noeh
  let high := packWord baseQty average table.sign
    (fun i => average - (noeh - i : ℕ) * mpv * table.sign) noeh 1 1 table.openSize
  let low := packWord baseQty average table.sign
    (fun i => average - i * mpv * table.sign) noel 1 high.2.1 high.2.2
  { table with average, pnl := 0, records := high.1 ++ low.1 }

/-- `after` is a table repackaged by the base quantity. -/
structure Partitions (table : PositionRecordTable) (baseQty : ℕ) (adjustment : ℚ)
    (after : PositionRecordTable) : Prop where
  openSize : after.openSize = table.openSize
  pnl : after.pnl = 0
  average : after.average = table.average - adjustment * table.sign
  length : after.records.length = ⌈(table.openSize : ℚ) / baseQty⌉₊
  incomplete : ∀ record ∈ after.records, record.isComplete = false
  sizes : ∀ record ∈ after.records, 1 ≤ record.openSize ∧ record.openSize ≤ baseQty
  full : ∀ record ∈ after.records.dropLast, record.openSize = baseQty
  sum : (after.records.map (·.openSize)).sum = table.openSize
  price : ∀ record ∈ after.records, (after.average - record.openPrice) * after.sign ≥ 0
  /-- what the records pushed so far hold never exceeds what there was -/
  remainder : ∀ pushed, ((after.records.take pushed).map (·.openSize)).sum ≤ table.openSize

/-! ## The remainder -/

/-- What an iteration takes is never more than what is left. -/
theorem packWord_eq (baseQty : ℕ) (average : ℚ) (sign : ℤ) (price : ℕ → ℚ)
    (count i orderId : ℕ) {remainder : ℕ} (inRange : remainder < 2 ^ 32) :
    packWord baseQty average sign price count i orderId remainder =
      pack baseQty average sign price count i orderId remainder := by
  induction count generalizing i orderId remainder with
  | zero => rfl
  | succ count ih =>
      have takes : (if remainder ≥ baseQty then baseQty else remainder) ≤ remainder := by
        split <;> omega
      rw [packWord, pack, word32_sub inRange takes, ih (i + 1) (orderId + 1) (by omega)]

theorem pack_remainder_le (baseQty : ℕ) (average : ℚ) (sign : ℤ) (price : ℕ → ℚ)
    (count i orderId remainder : ℕ) :
    (pack baseQty average sign price count i orderId remainder).2.2 ≤ remainder := by
  rw [(pack_sum ..).2]
  exact Nat.sub_le _ _

theorem repackagingWord_eq {table : PositionRecordTable} (inRange : table.openSize < 2 ^ 32)
    (baseQty : ℕ) (mpv adjustment : ℚ) :
    table.repackagingWord baseQty mpv adjustment = table.repackaging baseQty mpv adjustment := by
  unfold repackagingWord repackaging
  dsimp only
  rw [packWord_eq _ _ _ _ _ _ _ inRange,
    packWord_eq _ _ _ _ _ _ _ (Nat.lt_of_le_of_lt (pack_remainder_le ..) inRange)]

/-! ## The sizes -/

/-- What a packing loop pushes, index by index. -/
theorem map_openSize_pack (baseQty : ℕ) (average : ℚ) (sign : ℤ) (price : ℕ → ℚ)
    (count i orderId remainder : ℕ) :
    (pack baseQty average sign price count i orderId remainder).1.map (·.openSize) =
      (List.range count).map fun k => min baseQty (remainder - k * baseQty) := by
  induction count generalizing i orderId remainder with
  | zero => rfl
  | succ count ih =>
      have takes :
          (if remainder ≥ baseQty then baseQty else remainder) = min baseQty remainder := by
        split <;> omega
      rw [pack, List.map_cons, ih, takes, List.range_succ_eq_map, List.map_cons, List.map_map]
      refine List.cons_eq_cons.mpr ⟨by simp [ofFill], List.map_congr_left fun k _ => ?_⟩
      simp only [Function.comp_apply, Nat.succ_mul]
      omega

/-- The two loops are one loop over all indices. -/
theorem map_openSize_repackaging (table : PositionRecordTable) (baseQty : ℕ)
    (mpv adjustment : ℚ) :
    (table.repackaging baseQty mpv adjustment).records.map (·.openSize) =
      (List.range (noe table.openSize baseQty)).map fun k =>
        min baseQty (table.openSize - k * baseQty) := by
  have together : noe table.openSize baseQty = noeh table.openSize baseQty +
      (noe table.openSize baseQty - noeh table.openSize baseQty) := by
    have half := noeh_le_noe table.openSize baseQty
    omega
  unfold repackaging
  dsimp only
  rw [List.map_append, map_openSize_pack, map_openSize_pack, (pack_sum ..).2, together,
    List.range_add, List.map_append, Nat.add_sub_cancel_left, List.map_map]
  refine congrArg _ (List.map_congr_left fun k _ => ?_)
  rw [Function.comp_apply, Nat.add_mul, Nat.sub_add_eq]

/-- All pieces but the last have the base quantity. -/
theorem size_of_lt {openSize baseQty k : ℕ} (basePos : 0 < baseQty)
    (earlier : k + 1 < noe openSize baseQty) : min baseQty (openSize - k * baseQty) = baseQty := by
  have last := (noe_bounds openSize basePos).2 (by omega)
  have before : (k + 1) * baseQty ≤ (noe openSize baseQty - 1) * baseQty :=
    Nat.mul_le_mul_right baseQty (by omega)
  rw [Nat.succ_mul] at before
  omega

theorem mem_sizes_repackaging {table : PositionRecordTable} {baseQty : ℕ} {mpv adjustment : ℚ}
    {record : PositionRecord}
    (member : record ∈ (table.repackaging baseQty mpv adjustment).records) :
    ∃ k < noe table.openSize baseQty,
      min baseQty (table.openSize - k * baseQty) = record.openSize := by
  have sized := List.mem_map_of_mem (f := (·.openSize)) member
  rw [map_openSize_repackaging] at sized
  obtain ⟨k, inRange, size⟩ := List.mem_map.mp sized
  exact ⟨k, List.mem_range.mp inRange, size⟩

/-- A piece in front of the last one is full. -/
theorem full_repackaging {table : PositionRecordTable} {baseQty : ℕ} (basePos : 0 < baseQty)
    {mpv adjustment : ℚ} {record : PositionRecord}
    (member : record ∈ (table.repackaging baseQty mpv adjustment).records.dropLast) :
    record.openSize = baseQty := by
  have sized := List.mem_map_of_mem (f := (·.openSize)) member
  rw [List.map_dropLast, map_openSize_repackaging, ← List.map_dropLast] at sized
  obtain ⟨k, inRange, size⟩ := List.mem_map.mp sized
  have earlier : k + 1 < noe table.openSize baseQty := by
    rw [List.dropLast_eq_take, List.length_range, List.take_range, List.mem_range] at inRange
    omega
  rw [← size, size_of_lt basePos earlier]

/-! ## The prices -/

theorem sign_mul_sign (table : PositionRecordTable) : (table.sign : ℚ) * table.sign = 1 := by
  unfold sign
  split <;> norm_num

/-- A record of a packing loop whose prices lie `steps` price steps on the
better side of the average. -/
theorem price_of_mem_pack (table : PositionRecordTable) {baseQty : ℕ} {average mpv : ℚ}
    (mpvNonneg : 0 ≤ mpv) (steps : ℕ → ℕ) {count i orderId remainder : ℕ} {record : PositionRecord}
    (member : record ∈ (pack baseQty average table.sign
      (fun i => average - steps i * mpv * table.sign) count i orderId remainder).1) :
    (average - record.openPrice) * table.sign ≥ 0 := by
  have priced := List.mem_map_of_mem (f := (·.openPrice)) member
  rw [map_openPrice_pack] at priced
  obtain ⟨k, -, price⟩ := List.mem_map.mp priced
  have distance : (average - record.openPrice) * table.sign = steps (i + k) * mpv := by
    rw [← price, sub_sub_cancel, mul_assoc, table.sign_mul_sign, mul_one]
  rw [distance]
  exact mul_nonneg (Nat.cast_nonneg _) mpvNonneg

theorem price_repackaging {table : PositionRecordTable} {baseQty : ℕ} {mpv adjustment : ℚ}
    (mpvNonneg : 0 ≤ mpv) {record : PositionRecord}
    (member : record ∈ (table.repackaging baseQty mpv adjustment).records) :
    (table.average - adjustment * table.sign - record.openPrice) * table.sign ≥ 0 := by
  rcases List.mem_append.mp member with inHigh | inLow
  · exact table.price_of_mem_pack mpvNonneg (noeh table.openSize baseQty - ·) inHigh
  · exact table.price_of_mem_pack mpvNonneg id inLow

/-! ## The partition -/

/-- Repackaging partitions the position, whatever the state of the table, and
the remainder of its loops never wraps around. -/
theorem partitions_repackaging (table : PositionRecordTable) (inRange : table.openSize < 2 ^ 32)
    {baseQty : ℕ} (basePos : 0 < baseQty) {mpv : ℚ} (mpvNonneg : 0 ≤ mpv) (adjustment : ℚ) :
    table.Partitions baseQty adjustment (table.repackaging baseQty mpv adjustment) ∧
      table.repackagingWord baseQty mpv adjustment =
        table.repackaging baseQty mpv adjustment := by
  have sum := sum_repackaging table basePos mpv adjustment
  refine ⟨⟨rfl, rfl, rfl, length_repackaging table baseQty mpv adjustment, ?_, ?_, ?_, sum, ?_, ?_⟩,
    repackagingWord_eq inRange baseQty mpv adjustment⟩
  · exact fun record member => (mem_repackaging basePos mpv adjustment member).1
  · intro record member
    obtain ⟨k, -, size⟩ := mem_sizes_repackaging member
    exact ⟨(mem_repackaging basePos mpv adjustment member).2, by omega⟩
  · exact fun record member => full_repackaging basePos member
  · exact fun record member => price_repackaging mpvNonneg member
  · intro pushed
    rw [← sum]
    exact List.Sublist.sum_le_sum (List.Sublist.map _ (List.take_sublist pushed _))
      fun _ _ => Nat.zero_le _

/-- 250 held at 10, repackaged in hundreds. -/
theorem partitions_repackaging_opened :
    ((empty true).recordOpenPosition 1 250 10).Partitions 100 (1 / 2)
        (((empty true).recordOpenPosition 1 250 10).repackaging 100 (1 / 100) (1 / 2)) ∧
      ((empty true).recordOpenPosition 1 250 10).repackagingWord 100 (1 / 100) (1 / 2) =
        ((empty true).recordOpenPosition 1 250 10).repackaging 100 (1 / 100) (1 / 2) :=
  partitions_repackaging _ (by decide +kernel) (by decide) (by decide +kernel) (1 / 2)

end TradingApp.Position.PositionRecordTable

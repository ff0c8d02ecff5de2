import TradingApp.Position.Passes
import TradingApp.Transition.Run

/-!
# Conservation of a position table

A table conserves a position when its incomplete records together hold the
open size.  Opening, purging and repackaging keep that up, as long as the
counter does not overflow.  A close keeps it up as long as none of its loops
meets a complete record; only the first long loop looks at that flag.
-/

namespace TradingApp.Position.PositionRecordTable

open TradingApp.Machine TradingApp.Lots TradingApp.Transition PositionRecord

/-- The incomplete records hold exactly the open size. -/
def Conserves (table : PositionRecordTable) : Prop :=
  table.incompleteSize = table.openSize

/-- The step closes no record that is already complete. -/
def ClosesOnlyIncomplete (table : PositionRecordTable) : Op → Prop
  | .closePosition id size price =>
      ∀ record ∈ table.closedRecords id size price, record.isComplete = false
  | _ => True

/-- What the callers of a table promise. -/
def Admissible (table : PositionRecordTable) : Op → Prop
  | .openPosition _ size _ => 0 < size
  | .closePosition _ size _ => 0 < size ∧ size ≤ table.openSize
  | .deleteComplete => True
  | .repackage baseQty _ _ => 0 < baseQty

/-- The step neither overflows the open size nor closes more than the table
can close at the price of the fill. -/
def StaysClosable (table : PositionRecordTable) : Op → Prop
  | .openPosition _ size _ => table.openSize + size < 2 ^ 32
  | .closePosition _ size price => size ≤ table.closable price
  | _ => True

instance (table : PositionRecordTable) : Decidable table.Conserves :=
  inferInstanceAs (Decidable (_ = _))

instance (table : PositionRecordTable) : (op : Op) → Decidable (table.Admissible op)
  | .openPosition _ size _ => inferInstanceAs (Decidable (0 < size))
  | .closePosition _ size _ => inferInstanceAs (Decidable (0 < size ∧ size ≤ table.openSize))
  | .deleteComplete => inferInstanceAs (Decidable True)
  | .repackage baseQty _ _ => inferInstanceAs (Decidable (0 < baseQty))

/-- What a run that stays closable maintains. -/
structure Sound (table : PositionRecordTable) : Prop where
  conserves : table.Conserves
  positive : table.PositiveSizes
  inRange : table.openSize < 2 ^ 32

theorem sound_empty (isLong : Bool) : (empty isLong).Sound where
  conserves := rfl
  positive := fun record member => by simp [empty] at member
  inRange := by simp [empty]

/-- A sound table stays sound through every step that stays closable. -/
theorem Sound.step {table : PositionRecordTable} (sound : table.Sound) {op : Op}
    (admissible : table.Admissible op) (closable : table.StaysClosable op) :
    (table.step op).Sound := by
  have conserves : table.incompleteSize = table.openSize := sound.conserves
  cases op with
  | openPosition id size price =>
      refine ⟨?_, sound.positive.recordOpenPosition admissible id price,
        word32_lt (table.openSize + size)⟩
      simp only [StaysClosable] at closable
      rw [Conserves, PositionRecordTable.step, incompleteSize_recordOpenPosition,
        recordOpenPosition_openSize, word32_add closable]
      omega
  | closePosition id size price =>
      refine ⟨?_, sound.positive.recordClosePosition id size price,
        word32_lt (table.openSize - size)⟩
      have taken :=
        (incompleteSize_recordClosePosition_iff sound.positive id size price).mpr closable
      have reduced := word32_sub sound.inRange admissible.2
      rw [Conserves, PositionRecordTable.step, recordClosePosition_openSize, reduced]
      omega
  | deleteComplete =>
      refine ⟨?_, sound.positive.deleteCompletePosition, sound.inRange⟩
      rw [Conserves, PositionRecordTable.step, incompleteSize_deleteCompletePosition]
      exact conserves
  | repackage baseQty mpv adjustment =>
      exact ⟨incompleteSize_repackaging table admissible mpv adjustment,
        fun record member => (mem_repackaging admissible mpv adjustment member).2, sound.inRange⟩

/-- A step that breaks the condition breaks conservation. -/
theorem Sound.closable_of_conserves {table : PositionRecordTable} (sound : table.Sound) {op : Op}
    (admissible : table.Admissible op) (after : (table.step op).Conserves) :
    table.StaysClosable op := by
  have conserves : table.incompleteSize = table.openSize := sound.conserves
  cases op with
  | openPosition id size price =>
      rw [Conserves, PositionRecordTable.step, incompleteSize_recordOpenPosition,
        recordOpenPosition_openSize] at after
      have bounded := word32_lt (table.openSize + size)
      simp only [StaysClosable]
      omega
  | closePosition id size price =>
      rw [Conserves, PositionRecordTable.step, recordClosePosition_openSize,
        word32_sub sound.inRange admissible.2] at after
      refine (incompleteSize_recordClosePosition_iff sound.positive id size price).mp ?_
      have small := admissible.2
      omega
  | deleteComplete => trivial
  | repackage baseQty mpv adjustment => trivial

/-- Along every admissible run from an empty table, the incomplete records
always hold the open size and no complete record is closed again, if and only
if every step stays closable. -/
theorem conserves_iff_staysClosable (isLong : Bool) (ops : List Op)
    (admissible : EveryStep step Admissible (empty isLong) ops) :
    (EveryState step Conserves (empty isLong) ops ∧
        EveryStep step ClosesOnlyIncomplete (empty isLong) ops) ↔
      EveryStep step StaysClosable (empty isLong) ops := by
  have exact : EveryState step Conserves (empty isLong) ops ↔
      EveryStep step StaysClosable (empty isLong) ops :=
    everyState_iff_everyStep (fun _ _ sound adm meets => Sound.step sound adm meets)
      (fun _ sound => sound.conserves)
      (fun _ _ sound adm after => sound.closable_of_conserves adm after)
      (sound_empty isLong) admissible
  have onlyIncomplete : ∀ (table : PositionRecordTable) (op : Op), table.StaysClosable op →
      table.ClosesOnlyIncomplete op := by
    intro table op closable
    cases op with
    | closePosition id size price => exact closedRecords_incomplete closable
    | openPosition id size price => trivial
    | deleteComplete => trivial
    | repackage baseQty mpv adjustment => trivial
  rw [exact]
  exact ⟨fun both => both.1, fun meets => ⟨meets, meets.mono onlyIncomplete⟩⟩

/-- Buying 100 at 20, selling them, buying 100 at 10 and selling those at 5
closes the first record a second time. -/
theorem not_conserves_resold :
    EveryStep step Admissible (empty true) [.openPosition 1 100 20, .closePosition 2 100 25,
        .openPosition 3 100 10, .closePosition 4 100 5] ∧
      ¬ EveryState step Conserves (empty true) [.openPosition 1 100 20, .closePosition 2 100 25,
        .openPosition 3 100 10, .closePosition 4 100 5] := by
  decide +kernel

/-- Where every close is a profit on the lots it takes, the table conserves
the position. -/
theorem conserves_iff_staysClosable_sold :
    (EveryState step Conserves (empty true) [.openPosition 1 100 20, .openPosition 2 50 10,
        .closePosition 3 120 25] ∧
        EveryStep step ClosesOnlyIncomplete (empty true) [.openPosition 1 100 20,
          .openPosition 2 50 10, .closePosition 3 120 25]) ↔
      EveryStep step StaysClosable (empty true) [.openPosition 1 100 20, .openPosition 2 50 10,
        .closePosition 3 120 25] :=
  conserves_iff_staysClosable true _ (by decide +kernel)

end TradingApp.Position.PositionRecordTable

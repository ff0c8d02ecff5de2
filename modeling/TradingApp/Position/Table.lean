import Mathlib.Data.Rat.Floor
import TradingApp.Machine.Word
import TradingApp.Position.Record

/-!
# The position record table

The lots of one account, cheapest first for a long account and dearest first
for a short one, with the open size, the average price and the realised
profit.  The open size is an unsigned 32-bit counter.

The two closing loops of each side differ in their test and in their
direction only; `closePass` is the loop, on the records in the order the loop
visits them.
-/

namespace TradingApp.Position

open TradingApp.Machine

/-- `PositionRecordTable`: its records in the order of the list, and the figures
kept beside them. -/
structure PositionRecordTable where
  isLong : Bool
  openSize : ℕ
  pnl : ℚ
  average : ℚ
  records : List PositionRecord
deriving DecidableEq, Repr

namespace PositionRecordTable

/-- The table an account starts with. -/
def empty (isLong : Bool) : PositionRecordTable :=
  { isLong, openSize := 0, pnl := 0, average := 0, records := [] }

/-- A profit of a short table is a fall of the price. -/
def sign (table : PositionRecordTable) : ℤ :=
  if table.isLong then 1 else -1

/-! ## Opening -/

/-- Insert a record in front of the first one with a worse price. -/
def insertRecord (sign : ℤ) (record : PositionRecord) : List PositionRecord → List PositionRecord
  | [] => [record]
  | first :: rest =>
      if (first.openPrice - record.openPrice) * sign > 0 then record :: first :: rest
      else first :: insertRecord sign record rest

/-- A fill that opens joins the average and gets a record of its own. -/
def recordOpenPosition (table : PositionRecordTable) (id size : ℕ) (price : ℚ) :
    PositionRecordTable :=
  let openSize := word32 (table.openSize + size)
  let average :=
    if openSize > 0 then table.average + (price - table.average) * size / openSize else 0
  { table with
    openSize
    average
    records := insertRecord table.sign (.ofFill id size price average table.sign) table.records }

/-! ## Closing -/

/-- A closing loop over the records in the order it visits them.  It ends with
the records, what is left to close and the realised profit. -/
def closePass (eligible : PositionRecord → Bool) (id : ℕ) (price average : ℚ) :
    List PositionRecord → ℕ → ℚ → List PositionRecord × ℕ × ℚ
  | [], deletedSize, pnl => ([], deletedSize, pnl)
  | record :: rest, deletedSize, pnl =>
      if deletedSize = 0 then (record :: rest, 0, pnl)
      else if eligible record then
        if deletedSize ≥ record.openSize then
          let closed := record.setCloseInfo id record.openSize price average
          let next :=
            closePass eligible id price average rest (deletedSize - record.openSize)
              (pnl + closed.pnl)
          (closed :: next.1, next.2)
        else
          -- the unclosed remainder is inserted where the loop meets it first
          let closed := record.setPartialCloseInfo id deletedSize price average
          (record.unclosed deletedSize :: closed :: rest, 0, pnl + closed.pnl)
      else
        let next := closePass eligible id price average rest deletedSize pnl
        (record :: next.1, next.2)

/-- The long table is visited from its end. -/
def closePassReversed (eligible : PositionRecord → Bool) (id : ℕ) (price average : ℚ)
    (records : List PositionRecord) (deletedSize : ℕ) (pnl : ℚ) : List PositionRecord × ℕ × ℚ :=
  let result := closePass eligible id price average records.reverse deletedSize pnl
  (result.1.reverse, result.2)

/-- What the first pass over a long table closes. -/
def longProfitTest (price : ℚ) (record : PositionRecord) : Bool :=
  decide (record.openPrice < price) && !record.isComplete

/-- The short side does not ask whether the record is complete. -/
def shortProfitTest (price : ℚ) (record : PositionRecord) : Bool :=
  decide (record.openPrice > price)

/-- The average a close of `size` at `price` leaves. -/
def closeAverage (table : PositionRecordTable) (size : ℕ) (price : ℚ) : ℚ :=
  let openSize := word32 (table.openSize - size)
  if openSize > 0 then table.average + (table.average - price) * size / openSize else 0

/-- A fill that closes takes the records with a profit first, and then any. -/
def recordClosePosition (table : PositionRecordTable) (id size : ℕ) (price : ℚ) :
    PositionRecordTable :=
  let openSize := word32 (table.openSize - size)
  let average := table.closeAverage size price
  let first :=
    if table.isLong then
      closePassReversed (longProfitTest price) id price average table.records size table.pnl
    else closePass (shortProfitTest price) id price average table.records size table.pnl
  -- when closing without pnl
  let second :=
    if first.2.1 > 0 then
      if table.isLong then
        closePassReversed (fun _ => true) id price average first.1 first.2.1 first.2.2
      else closePass (fun _ => true) id price average first.1 first.2.1 first.2.2
    else first
  { table with openSize, average, records := second.1, pnl := second.2.2 }

/-! ## Purging and repackaging -/

/-- The complete records are removed. -/
def deleteCompletePosition (table : PositionRecordTable) : PositionRecordTable :=
  { table with records := table.records.filter fun record => !record.isComplete }

/-- The loop that pushes `count` records, the one with index `i` at
`price i`.  It ends with the records, the next order id and the remainder. -/
def pack (baseQty : ℕ) (average : ℚ) (sign : ℤ) (price : ℕ → ℚ) :
    ℕ → ℕ → ℕ → ℕ → List PositionRecord × ℕ × ℕ
  | 0, _, orderId, remainder => ([], orderId, remainder)
  | count + 1, i, orderId, remainder =>
      let size := if remainder ≥ baseQty then baseQty else remainder
      let next := pack baseQty average sign price count (i + 1) (orderId + 1) (remainder - size)
      (.ofFill orderId size (price i) average sign :: next.1, next.2)

/-- The number of records of a repackaged table. -/
def noe (openSize baseQty : ℕ) : ℕ :=
  ⌈(openSize : ℚ) / baseQty⌉₊

/-- The number of its records from the average upwards. -/
def noeh (openSize baseQty : ℕ) : ℕ :=
  ⌈(noe openSize baseQty : ℚ) / 2⌉₊

/-- The open size is cut into packages at prices around the average. -/
def repackaging (table : PositionRecordTable) (baseQty : ℕ) (mpv adjustment : ℚ) :
    PositionRecordTable :=
  let noe := noe table.openSize baseQty
  let average := table.average - adjustment * table.sign
  let noeh := noeh table.openSize baseQty
  let noel := noe - noeh
  let high := pack baseQty average table.sign
    (fun i => average - (noeh - i : ℕ) * mpv * table.sign) noeh 1 1 table.openSize
  let low := pack baseQty average table.sign
    (fun i => average - i * mpv * table.sign) noel 1 high.2.1 high.2.2
  { table with average, pnl := 0, records := high.1 ++ low.1 }

/-! ## Runs -/

/-- The operations on a table. -/
inductive Op where
  | openPosition (id size : ℕ) (price : ℚ)
  | closePosition (id size : ℕ) (price : ℚ)
  | deleteComplete
  | repackage (baseQty : ℕ) (mpv adjustment : ℚ)
deriving DecidableEq, Repr

/-- Apply an operation. -/
def step (table : PositionRecordTable) : Op → PositionRecordTable
  | .openPosition id size price => table.recordOpenPosition id size price
  | .closePosition id size price => table.recordClosePosition id size price
  | .deleteComplete => table.deleteCompletePosition
  | .repackage baseQty mpv adjustment => table.repackaging baseQty mpv adjustment

/-- Total size of the incomplete records. -/
def incompleteSize (table : PositionRecordTable) : ℕ :=
  ((table.records.filter fun record => !record.isComplete).map (·.openSize)).sum

end PositionRecordTable

end TradingApp.Position

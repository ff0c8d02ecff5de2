import TradingApp.Position.Table
import TradingApp.Redis.RedisWriter

/-!
# The stored position table

After every pass the lots of both accounts are written as a list of lines: one
for the table, and one for each of its records.  The program never reads them
back.  The lines tell all that they are written from, the rationals to six
decimals.
-/

namespace TradingApp.Redis

open TradingApp.Decimal TradingApp.Position

/-- `std::to_string` of a truth value. -/
def boolText (value : Bool) : Text :=
  if value then ['1'] else ['0']

/-- The first line of a table. -/
def tableLine (table : PositionRecordTable) : Text :=
  [','].intercalate
    [natText table.openSize, doubleText table.pnl, doubleText table.average]

/-- The line of a record. -/
def recordLine (record : PositionRecord) : Text :=
  [','].intercalate
    [doubleText record.averageAtOpen, natText record.openOrderId, doubleText record.openPrice,
      natText record.openSize, doubleText record.averageAtClose, natText record.closeOrderId,
      doubleText record.closePrice, natText record.closeSize, doubleText record.pnl,
      intText record.sign, boolText record.isComplete]

/-- What `writePositionRecordTableToRedis` writes. -/
def tableLines (table : PositionRecordTable) : List Text :=
  tableLine table :: table.records.map recordLine

/-- A record to six decimals. -/
def roundedRecord (record : PositionRecord) : PositionRecord :=
  { record with
    openPrice := roundTo 6 record.openPrice
    averageAtOpen := roundTo 6 record.averageAtOpen
    closePrice := roundTo 6 record.closePrice
    averageAtClose := roundTo 6 record.averageAtClose
    pnl := roundTo 6 record.pnl }

/-- Two tables are the same to six decimals. -/
structure SameToSixDecimals (table other : PositionRecordTable) : Prop where
  openSize : table.openSize = other.openSize
  pnl : roundTo 6 table.pnl = roundTo 6 other.pnl
  average : roundTo 6 table.average = roundTo 6 other.average
  records : table.records.map roundedRecord = other.records.map roundedRecord

/-! ## Fields -/

theorem natText_injective : Function.Injective natText := by
  intro m n same
  have reads := congrArg readNat same
  rw [readNat_natText, readNat_natText] at reads
  exact Option.some_injective _ reads

theorem intText_injective : Function.Injective intText := by
  intro m n same
  have reads := congrArg readInt same
  rw [readInt_intText, readInt_intText] at reads
  exact Option.some_injective _ reads

theorem boolText_injective : Function.Injective boolText := by
  intro first second same
  cases first <;> cases second
  · rfl
  · exact absurd same (by decide)
  · exact absurd same (by decide)
  · rfl

/-- A rational is told to six decimals. -/
theorem roundTo_eq_of_doubleText_eq {x y : ℚ} (same : doubleText x = doubleText y) :
    roundTo 6 x = roundTo 6 y := by
  have reads := congrArg readDouble same
  rw [readDouble_doubleText, readDouble_doubleText] at reads
  exact Option.some_injective _ reads

section CommaFree

theorem separates_comma : Separates ',' := by
  decide

theorem comma_not_mem_doubleText (x : ℚ) : ',' ∉ doubleText x :=
  not_mem_fixedText separates_comma 6 x

theorem comma_not_mem_natText (n : ℕ) : ',' ∉ natText n :=
  not_mem_natText separates_comma n

theorem comma_not_mem_intText (n : ℤ) : ',' ∉ intText n :=
  not_mem_intText separates_comma n

theorem comma_not_mem_boolText (value : Bool) : ',' ∉ boolText value := by
  cases value <;> decide

end CommaFree

/-- Fields without commas are recovered from their line. -/
theorem fields_eq_of_line_eq {first second : List Text} (firstSome : first ≠ [])
    (secondSome : second ≠ []) (firstFree : ∀ field ∈ first, ',' ∉ field)
    (secondFree : ∀ field ∈ second, ',' ∉ field)
    (same : [','].intercalate first = [','].intercalate second) : first = second := by
  rw [← List.splitOn_intercalate ',' firstFree firstSome, same,
    List.splitOn_intercalate ',' secondFree secondSome]

/-! ## Lines -/

theorem tableLine_injective {table other : PositionRecordTable}
    (same : tableLine table = tableLine other) :
    table.openSize = other.openSize ∧ roundTo 6 table.pnl = roundTo 6 other.pnl ∧
      roundTo 6 table.average = roundTo 6 other.average := by
  have free (table : PositionRecordTable) : ∀ field ∈
      [natText table.openSize, doubleText table.pnl, doubleText table.average],
        ',' ∉ field := by
    simp only [List.forall_mem_cons, List.not_mem_nil, false_imp_iff, implies_true, and_true]
    exact ⟨comma_not_mem_natText _, comma_not_mem_doubleText _, comma_not_mem_doubleText _⟩
  have fields := fields_eq_of_line_eq (List.cons_ne_nil _ _) (List.cons_ne_nil _ _) (free table)
    (free other) same
  simp only [List.cons.injEq, and_true] at fields
  obtain ⟨openSize, pnl, average⟩ := fields
  exact ⟨natText_injective openSize, roundTo_eq_of_doubleText_eq pnl,
    roundTo_eq_of_doubleText_eq average⟩

theorem recordLine_injective {record other : PositionRecord}
    (same : recordLine record = recordLine other) :
    roundedRecord record = roundedRecord other := by
  have free (record : PositionRecord) : ∀ field ∈
      [doubleText record.averageAtOpen, natText record.openOrderId, doubleText record.openPrice,
        natText record.openSize, doubleText record.averageAtClose, natText record.closeOrderId,
        doubleText record.closePrice, natText record.closeSize, doubleText record.pnl,
        intText record.sign, boolText record.isComplete], ',' ∉ field := by
    simp only [List.forall_mem_cons, List.not_mem_nil, false_imp_iff, implies_true, and_true]
    exact ⟨comma_not_mem_doubleText _, comma_not_mem_natText _, comma_not_mem_doubleText _,
      comma_not_mem_natText _, comma_not_mem_doubleText _, comma_not_mem_natText _,
      comma_not_mem_doubleText _, comma_not_mem_natText _, comma_not_mem_doubleText _,
      comma_not_mem_intText _, comma_not_mem_boolText _⟩
  have fields := fields_eq_of_line_eq (List.cons_ne_nil _ _) (List.cons_ne_nil _ _) (free record)
    (free other) same
  simp only [List.cons.injEq, and_true] at fields
  obtain ⟨averageAtOpen, openOrderId, openPrice, openSize, averageAtClose, closeOrderId,
    closePrice, closeSize, pnl, sign, isComplete⟩ := fields
  unfold roundedRecord
  rw [PositionRecord.mk.injEq]
  exact ⟨natText_injective openOrderId, natText_injective openSize,
    roundTo_eq_of_doubleText_eq openPrice, roundTo_eq_of_doubleText_eq averageAtOpen,
    natText_injective closeOrderId, natText_injective closeSize,
    roundTo_eq_of_doubleText_eq closePrice, roundTo_eq_of_doubleText_eq averageAtClose,
    boolText_injective isComplete, roundTo_eq_of_doubleText_eq pnl, intText_injective sign⟩

/-- Two tables with the same lines are the same to six decimals: the same sizes,
orders and signs, and the same lots in the same order. -/
theorem sameToSixDecimals_of_tableLines_eq {table other : PositionRecordTable}
    (same : tableLines table = tableLines other) : SameToSixDecimals table other := by
  obtain ⟨first, rest⟩ := List.cons.inj same
  obtain ⟨openSize, pnl, average⟩ := tableLine_injective first
  refine ⟨openSize, pnl, average, ?_⟩
  generalize table.records = records at rest ⊢
  generalize other.records = others at rest ⊢
  induction records generalizing others with
  | nil =>
      cases others with
      | nil => rfl
      | cons other others => cases rest
  | cons record records ih =>
      cases others with
      | nil => cases rest
      | cons other others =>
          obtain ⟨line, lines⟩ := List.cons.inj rest
          rw [List.map_cons, List.map_cons, recordLine_injective line, ih others lines]

/-- Two ten-thousandths of a millionth are not told apart. -/
theorem sameToSixDecimals_tenLots :
    SameToSixDecimals
      ((PositionRecordTable.empty true).recordOpenPosition 1 10 5)
      ((PositionRecordTable.empty true).recordOpenPosition 1 10 (5 + 2 / 10 ^ 10)) :=
  sameToSixDecimals_of_tableLines_eq (by decide +kernel)

end TradingApp.Redis

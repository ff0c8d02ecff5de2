import Mathlib.Data.List.Induction
import TradingApp.Redis.RedisWriter

/-!
# Updates of a stored position

The round in force, the price in force and the live shares of a stored
position are updated in place, by reading the value, whichever of the three
forms it has, and writing it back in the longest one.
-/

namespace TradingApp.Redis

/-- A text that can be a field of a value. -/
abbrev Field : Type :=
  { text : Text // ',' ∉ text }

/-! ## Updates -/

/-- A call that updates a stored position. -/
inductive Update where
  | rif (rif : Field)
  | pif (pif : Field)
  | liveShares (buyLive sellLive total : Field)

namespace RedisWriter

/-- Make one of the updates. -/
def update (writer : RedisWriter) (key : Text) : Update → Option RedisWriter
  | .rif rif => writer.writeRIFToRedis key rif
  | .pif pif => writer.writePIFToRedis key pif
  | .liveShares buyLive sellLive total => writer.writeLiveSharesInfo key buyLive sellLive total

/-- Updates one after the other. -/
def updateAll (writer : RedisWriter) (key : Text) : List Update → Option RedisWriter
  | [] => some writer
  | update :: rest => (writer.update key update).bind fun writer => writer.updateAll key rest

end RedisWriter

/-- The round in force that was written last. -/
def lastRif (updates : List Update) : Option Field :=
  (updates.filterMap fun
    | .rif rif => some rif
    | _ => none).getLast?

/-- The price in force that was written last. -/
def lastPif (updates : List Update) : Option Field :=
  (updates.filterMap fun
    | .pif pif => some pif
    | _ => none).getLast?

/-- The live shares that were written last. -/
def lastLiveShares (updates : List Update) : Option (Field × Field × Field) :=
  (updates.filterMap fun
    | .liveShares buyLive sellLive total => some (buyLive, sellLive, total)
    | _ => none).getLast?

/-- A position with the values written last, where there are any. -/
def Position.updated (position : Position) (updates : List Update) : Position :=
  { position with
    rif := (lastRif updates).elim position.rif (·.val)
    pif := (lastPif updates).elim position.pif (·.val)
    liveSharesBuy := (lastLiveShares updates).elim position.liveSharesBuy (·.1.val)
    liveSharesSell := (lastLiveShares updates).elim position.liveSharesSell (·.2.1.val)
    totalExecutedShares := (lastLiveShares updates).elim position.totalExecutedShares (·.2.2.val) }

/-! ## Stored values -/

/-- What follows the price in the three forms of a value. -/
inductive Columns where
  | none
  | inForce (rif pif : Text)
  | live (rif pif liveBuy liveSell totalExecuted : Text)

/-- The columns after the price. -/
def Columns.fields : Columns → List Text
  | .none => []
  | .inForce rif pif => [rif, pif]
  | .live rif pif liveBuy liveSell totalExecuted => [rif, pif, liveBuy, liveSell, totalExecuted]

/-- The value is a position of a user in a symbol, in one of the forms. -/
def IsPositionValue (user symbol value : Text) : Prop :=
  ∃ quantity price columns, value.splitOn ',' =
    [equity, [], user, symbol, symbol, [], [], quantity, [], price] ++ Columns.fields columns

/-- What a text is split on is in none of the parts. -/
theorem not_mem_of_mem_splitOn {separator : Char} {text field : Text}
    (member : field ∈ text.splitOn separator) : separator ∉ field := by
  rw [List.splitOn_eq_splitOnP] at member
  induction text generalizing field with
  | nil =>
      rw [List.splitOnP_nil, List.mem_singleton] at member
      rw [member]
      exact List.not_mem_nil
  | cons character rest ih =>
      rw [List.splitOnP_cons_eq_if_modifyHead] at member
      split at member
      · rcases List.mem_cons.mp member with rfl | later
        · exact List.not_mem_nil
        · exact ih later
      · rename_i differs
        obtain ⟨first, others, parts⟩ := List.exists_cons_of_ne_nil
          (List.splitOnP_ne_nil (· == separator) rest)
        rw [parts, List.modifyHead_cons] at member
        rcases List.mem_cons.mp member with rfl | later
        · have inFirst : separator ∉ first := ih (parts ▸ List.mem_cons_self)
          rintro (_ | _)
          · exact differs (beq_self_eq_true separator)
          · rename_i inFirst'
            exact inFirst inFirst'
        · exact ih (parts ▸ List.mem_cons_of_mem first later)

/-- A value in one of the forms reads as an entry. -/
theorem IsPositionValue.entry {user symbol value : Text}
    (isValue : IsPositionValue user symbol value) :
    ∃ entry : Entry, entry.user = user ∧ entry.symbol = symbol ∧
      parseStem1Value value = some entry.position := by
  obtain ⟨quantity, price, columns, split⟩ := isValue
  have commaFree : ∀ field ∈ value.splitOn ',', ',' ∉ field := fun _ => not_mem_of_mem_splitOn
  rw [split] at commaFree
  have free (field : Text) (member : field ∈ [user, symbol, quantity, price] ++ columns.fields) :
      ',' ∉ field := by
    apply commaFree
    simp only [List.mem_append, List.mem_cons] at member ⊢
    tauto
  have fixedFree : ∀ field ∈ ([[], ['0']] : List Text), ',' ∉ field := by decide
  unfold parseStem1Value
  rw [split]
  cases columns with
  | none =>
      refine ⟨⟨user, symbol, quantity, price, [], [], ['0'], ['0'], ['0'], ?_⟩, rfl, rfl, rfl⟩
      simp only [Columns.fields, List.append_nil, List.forall_mem_cons] at free fixedFree ⊢
      tauto
  | inForce rif pif =>
      refine ⟨⟨user, symbol, quantity, price, rif, pif, ['0'], ['0'], ['0'], ?_⟩, rfl, rfl, rfl⟩
      simp only [Columns.fields, List.cons_append, List.nil_append, List.forall_mem_cons]
        at free fixedFree ⊢
      tauto
  | live rif pif liveBuy liveSell totalExecuted =>
      refine ⟨⟨user, symbol, quantity, price, rif, pif, liveBuy, liveSell, totalExecuted, ?_⟩, rfl,
        rfl, rfl⟩
      simpa only [Columns.fields, List.cons_append, List.nil_append] using free

/-- The answer for a missing key does not read as a position. -/
theorem parseStem1Value_nonexistentKey : parseStem1Value nonexistentKey = none := by
  decide +kernel

/-! ## One update -/

namespace Entry

/-- The entry with other live shares. -/
def withLive (entry : Entry) (buyLive sellLive total : Field) : Entry :=
  { entry with
    liveBuy := buyLive
    liveSell := sellLive
    totalExecuted := total
    commaFree := by
      have commaFree := entry.commaFree
      have buyFree := buyLive.property
      have sellFree := sellLive.property
      have totalFree := total.property
      simp only [List.forall_mem_cons] at commaFree ⊢
      tauto }

/-- What an update makes of a position. -/
def update (entry : Entry) : Update → Entry
  | .rif rif => entry.withRif rif rif.property
  | .pif pif => entry.withPif pif pif.property
  | .liveShares buyLive sellLive total => entry.withLive buyLive sellLive total

theorem key_update (entry : Entry) (update : Update) : (entry.update update).key = entry.key := by
  cases update <;> rfl

theorem key_foldl_update (entry : Entry) (updates : List Update) :
    (updates.foldl update entry).key = entry.key := by
  induction updates generalizing entry with
  | nil => rfl
  | cons next rest ih => exact (ih _).trans (entry.key_update next)

/-- Updates one after the other leave the values written last. -/
theorem position_foldl_update (entry : Entry) (updates : List Update) :
    (updates.foldl update entry).position = entry.position.updated updates := by
  induction updates using List.reverseRecOn with
  | nil => rfl
  | append_singleton updates last ih =>
      rw [List.foldl_append, List.foldl_cons, List.foldl_nil]
      have later (next : Entry) : (next.update last).position = next.position.updated [last] := by
        cases last <;> rfl
      rw [later, ih]
      unfold Position.updated lastRif lastPif lastLiveShares
      cases last with
      | rif rif => simp
      | pif pif => simp
      | liveShares buyLive sellLive total => simp

end Entry

namespace RedisWriter

/-- The store is in use and has a value of the entry, in whatever form. -/
structure Decodes (writer : RedisWriter) (entry : Entry) : Prop where
  enabled : writer.isRedisEnabled = true
  exists_value : writer.readKeyFromRedis entry.key ≠ nonexistentKey
  decodes : parseStem1Value (writer.readKeyFromRedis entry.key) = some entry.position

theorem Holds.decodes {writer : RedisWriter} {entry : Entry} (holds : writer.Holds entry) :
    writer.Decodes entry := by
  constructor
  · exact holds.enabled
  · rw [holds.readKeyFromRedis]
    exact entry.text_ne_nonexistentKey
  · rw [holds.readKeyFromRedis]
    exact entry.parseStem1Value_text

namespace Decodes

variable {writer : RedisWriter} {entry : Entry} (decodes : writer.Decodes entry)

include decodes

theorem rewrite (replace : Position → Position) (next : Entry)
    (replaces : replace entry.position = next.position) :
    writer.rewrite entry.key replace = some (writer.put next) := by
  rw [RedisWriter.rewrite, decodes.decodes, Option.map_some, replaces, writeToRedis,
    if_pos decodes.enabled]
  rfl

/-- An update puts the updated entry. -/
theorem update (update : Update) :
    writer.update entry.key update = some (writer.put (entry.update update)) := by
  have used : (!writer.isRedisEnabled) = false := by rw [decodes.enabled]; rfl
  cases update with
  | rif rif =>
      change writer.writeRIFToRedis _ _ = _
      rw [writeRIFToRedis, used, Bool.false_or, if_neg (by simpa using decodes.exists_value)]
      exact decodes.rewrite _ _ rfl
  | pif pif =>
      change writer.writePIFToRedis _ _ = _
      rw [writePIFToRedis, used, Bool.false_or, if_neg (by simpa using decodes.exists_value)]
      exact decodes.rewrite _ _ rfl
  | liveShares buyLive sellLive total =>
      change writer.writeLiveSharesInfo _ _ _ _ = _
      rw [writeLiveSharesInfo, used, if_neg Bool.false_ne_true, if_neg decodes.exists_value]
      exact decodes.rewrite _ _ rfl

/-- Updates leave the updated entry and every other key as it was. -/
theorem updateAll (updates : List Update) :
    ∃ last, writer.updateAll entry.key updates = some last ∧
      last.Decodes (updates.foldl Entry.update entry) ∧
      ∀ other, other ≠ entry.key → last.store other = writer.store other := by
  induction updates generalizing writer entry with
  | nil => exact ⟨writer, rfl, decodes, fun _ _ => rfl⟩
  | cons update rest ih =>
      have put := (holds_put decodes.enabled (entry.update update)).decodes
      obtain ⟨last, runs, after, others⟩ := ih put
      rw [entry.key_update] at runs others
      refine ⟨last, ?_, after, fun other different => ?_⟩
      · rw [RedisWriter.updateAll, decodes.update, Option.bind_some, runs]
      · rw [others other different]
        exact put_store_of_ne _ (entry.key_update update ▸ different)

end Decodes

/-- `writeToRedis` with the fields of an entry. -/
def writeEntry (writer : RedisWriter) (entry : Entry) : RedisWriter :=
  writer.writeToRedis entry.user entry.symbol entry.quantity entry.averagePrice entry.rif
    entry.pif entry.liveBuy entry.liveSell entry.totalExecuted

theorem writeEntry_eq_put {writer : RedisWriter} (enabled : writer.isRedisEnabled = true)
    (entry : Entry) : writer.writeEntry entry = writer.put entry :=
  if_pos enabled

end RedisWriter

/-- What is written is read back; and updates of a stored value, whichever of
the three forms it has, change what was written last of the round and price in
force and of the live shares, and nothing else. -/
theorem positions_read_back {writer : RedisWriter} (enabled : writer.isRedisEnabled = true) :
    (∀ entry : Entry,
      parseStem1Value ((writer.writeEntry entry).readKeyFromRedis entry.key) =
        some entry.position) ∧
      ∀ user symbol value, writer.store (positionKey user symbol) = some value →
        IsPositionValue user symbol value → ∀ updates,
          ∃ initial last, parseStem1Value value = some initial ∧
            writer.updateAll (positionKey user symbol) updates = some last ∧
            parseStem1Value (last.readKeyFromRedis (positionKey user symbol)) =
              some (initial.updated updates) ∧
            ∀ other, other ≠ positionKey user symbol → last.store other = writer.store other := by
  constructor
  · intro entry
    rw [RedisWriter.writeEntry_eq_put enabled]
    exact (RedisWriter.holds_put enabled entry).decodes.decodes
  · intro user symbol value stored isValue updates
    obtain ⟨entry, rfl, rfl, parses⟩ := isValue.entry
    have reads : writer.readKeyFromRedis entry.key = value := by
      rw [RedisWriter.readKeyFromRedis, if_pos enabled]
      exact congrArg (Option.getD · nonexistentKey) stored
    have decodes : writer.Decodes entry := by
      refine ⟨enabled, ?_, reads ▸ parses⟩
      rw [reads]
      rintro rfl
      exact Option.some_ne_none _ (parses.symm.trans parseStem1Value_nonexistentKey)
    obtain ⟨last, runs, after, others⟩ := decodes.updateAll updates
    refine ⟨entry.position, last, parses, runs, ?_, others⟩
    have reads := after.decodes
    rw [entry.key_foldl_update, entry.position_foldl_update] at reads
    exact reads

/-- An older value of ten columns, updated twice. -/
theorem positions_read_back_tenColumns :
    let writer : RedisWriter := { isRedisEnabled := true, store := fun _ => none }
    let value := "EQUITY,,L,X,X,,,10,,5.25".toList
    ∃ initial last, parseStem1Value value = some initial ∧
      (writer.set (positionKey ['L'] ['X']) value).updateAll (positionKey ['L'] ['X'])
        [.rif ⟨['1'], by decide⟩, .rif ⟨['2'], by decide⟩] = some last ∧
      parseStem1Value (last.readKeyFromRedis (positionKey ['L'] ['X'])) =
        some { initial with rif := ['2'] } := by
  intro writer value
  have isValue : IsPositionValue ['L'] ['X'] value :=
    ⟨['1', '0'], ['5', '.', '2', '5'], .none, by decide +kernel⟩
  have enabled : (writer.set (positionKey ['L'] ['X']) value).isRedisEnabled = true := rfl
  obtain ⟨initial, last, parses, runs, reads, _⟩ :=
    (positions_read_back enabled).2 ['L'] ['X'] value
    (writer.set_store_self _ _) isValue [.rif ⟨['1'], by decide⟩, .rif ⟨['2'], by decide⟩]
  exact ⟨initial, last, parses, runs, reads⟩

end TradingApp.Redis

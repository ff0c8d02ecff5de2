import TradingApp.Text.Decimal

/-!
# The position store

Positions are kept in a key-value store as lines of comma-separated fields.
The store's client answers a key it does not have with a text of its own, and
updating one field of a value means reading, splitting and rewriting it.

Updates that would read a field the value does not have give `none`.
-/

namespace TradingApp.Redis

/-- The store, as far as it holds strings, and whether it is used. -/
structure RedisWriter where
  isRedisEnabled : Bool
  store : Text → Option Text

/-- The fields of a stored position. -/
structure Position where
  type : Text
  reserved : Text
  account : Text
  underlier : Text
  root : Text
  expiration : Text
  strike : Text
  quantity : Text
  putOrCall : Text
  price : Text
  rif : Text
  pif : Text
  liveSharesBuy : Text
  liveSharesSell : Text
  totalExecutedShares : Text
deriving DecidableEq

/-- What the client returns for a key that is not in the store. -/
def nonexistentKey : Text :=
  "**nonexistent-key**".toList

/-- The type of every stored position. -/
def equity : Text :=
  ['E', 'Q', 'U', 'I', 'T', 'Y']

/-- The key of a user's position in a symbol. -/
def positionKey (user symbol : Text) : Text :=
  user ++ ':' :: symbol

/-- The value of a position. -/
def positionValue
    (user symbol quantity averagePrice rif pif liveBuy liveSell totalExecuted : Text) : Text :=
  [','].intercalate
    [equity, [], user, symbol, symbol, [], [], quantity, [], averagePrice, rif, pif,
      liveBuy, liveSell, totalExecuted]

/-- Split a value into the fields of a position.  Values of 10 and 12 fields
are older forms; any other value is read as one of 15. -/
def parseStem1Value (value : Text) : Option Position :=
  match value.splitOn ',' with
  | [type, reserved, account, underlier, root, expiration, strike, quantity, putOrCall, price] =>
      some
        { type, reserved, account, underlier, root, expiration, strike, quantity, putOrCall, price
          rif := []
          pif := []
          liveSharesBuy := ['0']
          liveSharesSell := ['0']
          totalExecutedShares := ['0'] }
  | [type, reserved, account, underlier, root, expiration, strike, quantity, putOrCall, price,
      rif, pif] =>
      some
        { type, reserved, account, underlier, root, expiration, strike, quantity, putOrCall, price
          rif, pif
          liveSharesBuy := ['0']
          liveSharesSell := ['0']
          totalExecutedShares := ['0'] }
  | type :: reserved :: account :: underlier :: root :: expiration :: strike :: quantity ::
      putOrCall :: price :: rif :: pif :: liveSharesBuy :: liveSharesSell ::
      totalExecutedShares :: _ =>
      some
        { type, reserved, account, underlier, root, expiration, strike, quantity, putOrCall, price
          rif, pif, liveSharesBuy, liveSharesSell, totalExecutedShares }
  | _ => none

namespace RedisWriter

/-- The client's `set`. -/
def set (writer : RedisWriter) (key value : Text) : RedisWriter :=
  { writer with store := fun other => if other = key then some value else writer.store other }

/-- The text for a key that does not exist is also the answer of a store that is
not used. -/
def readKeyFromRedis (writer : RedisWriter) (key : Text) : Text :=
  if writer.isRedisEnabled then (writer.store key).getD nonexistentKey else nonexistentKey

/-- The whole position is stored. -/
def writeToRedis (writer : RedisWriter)
    (user symbol quantity averagePrice rif pif liveBuy liveSell totalExecuted : Text) :
    RedisWriter :=
  if writer.isRedisEnabled then
    writer.set (positionKey user symbol)
      (positionValue user symbol quantity averagePrice rif pif liveBuy liveSell totalExecuted)
  else writer

/-- Rewrite the value under a key with some of its fields replaced. -/
def rewrite (writer : RedisWriter) (key : Text) (replace : Position → Position) :
    Option RedisWriter :=
  (parseStem1Value (writer.readKeyFromRedis key)).map fun current =>
    let position := replace current
    writer.writeToRedis position.account position.underlier position.quantity position.price
      position.rif position.pif position.liveSharesBuy position.liveSharesSell
      position.totalExecutedShares

/-- The round in force of a position that is stored. -/
def writeRIFToRedis (writer : RedisWriter) (key rif : Text) : Option RedisWriter :=
  if !writer.isRedisEnabled || writer.readKeyFromRedis key = nonexistentKey then some writer
  else writer.rewrite key fun current => { current with rif }

/-- The price in force of a position that is stored. -/
def writePIFToRedis (writer : RedisWriter) (key pif : Text) : Option RedisWriter :=
  if !writer.isRedisEnabled || writer.readKeyFromRedis key = nonexistentKey then some writer
  else writer.rewrite key fun current => { current with pif }

/-- Unlike the other updates this one creates a missing entry. -/
def writeLiveSharesInfo (writer : RedisWriter) (key buyLive sellLive total : Text) :
    Option RedisWriter :=
  if !writer.isRedisEnabled then some writer
  else if writer.readKeyFromRedis key = nonexistentKey then
    match key.splitOn ':' with
    | user :: symbol :: _ =>
        some (writer.writeToRedis user symbol ['0'] ['0'] ['0'] ['0'] buyLive sellLive total)
    | _ => none
  else
    writer.rewrite key fun current =>
      { current with
        liveSharesBuy := buyLive
        liveSharesSell := sellLive
        totalExecutedShares := total }

end RedisWriter

/-! ## Values and fields -/

/-- The fields that `writeToRedis` puts into a value, none of them with a
comma of its own. -/
structure Entry where
  user : Text
  symbol : Text
  quantity : Text
  averagePrice : Text
  rif : Text
  pif : Text
  liveBuy : Text
  liveSell : Text
  totalExecuted : Text
  commaFree : ∀ field ∈ [user, symbol, quantity, averagePrice, rif, pif, liveBuy, liveSell,
    totalExecuted], ',' ∉ field

namespace Entry

/-- The key of the position. -/
def key (entry : Entry) : Text :=
  positionKey entry.user entry.symbol

/-- The value of the position. -/
def text (entry : Entry) : Text :=
  positionValue entry.user entry.symbol entry.quantity entry.averagePrice entry.rif entry.pif
    entry.liveBuy entry.liveSell entry.totalExecuted

/-- What reading an entry back gives. -/
def position (entry : Entry) : Position where
  type := equity
  reserved := []
  account := entry.user
  underlier := entry.symbol
  root := entry.symbol
  expiration := []
  strike := []
  quantity := entry.quantity
  putOrCall := []
  price := entry.averagePrice
  rif := entry.rif
  pif := entry.pif
  liveSharesBuy := entry.liveBuy
  liveSharesSell := entry.liveSell
  totalExecutedShares := entry.totalExecuted

/-- The fields of an entry's value. -/
def fields (entry : Entry) : List Text :=
  [equity, [], entry.user, entry.symbol, entry.symbol, [], [], entry.quantity, [],
    entry.averagePrice, entry.rif, entry.pif, entry.liveBuy, entry.liveSell, entry.totalExecuted]

theorem fields_commaFree (entry : Entry) : ∀ field ∈ entry.fields, ',' ∉ field := by
  have commaFree := entry.commaFree
  have fixedFree : ∀ field ∈ [equity, []], ',' ∉ field := by decide
  unfold fields
  simp only [List.forall_mem_cons, List.not_mem_nil, false_imp_iff, implies_true, and_true]
    at commaFree fixedFree ⊢
  tauto

theorem splitOn_text (entry : Entry) : entry.text.splitOn ',' = entry.fields :=
  List.splitOn_intercalate ',' entry.fields_commaFree (List.cons_ne_nil _ _)

/-- Splitting a value gives back the fields it was written from. -/
theorem parseStem1Value_text (entry : Entry) :
    parseStem1Value entry.text = some entry.position := by
  rw [parseStem1Value, splitOn_text]
  rfl

/-- A position value is not the answer for a missing key. -/
theorem text_ne_nonexistentKey (entry : Entry) : entry.text ≠ nonexistentKey := by
  intro same
  have inValue : ',' ∈ entry.text := by
    simp [text, positionValue]
  rw [same] at inValue
  exact absurd inValue (by decide)

/-- The entry with another price in force. -/
def withPif (entry : Entry) (pif : Text) (free : ',' ∉ pif) : Entry :=
  { entry with
    pif
    commaFree := by
      have commaFree := entry.commaFree
      simp only [List.forall_mem_cons] at commaFree ⊢
      tauto }

/-- The entry with another round in force. -/
def withRif (entry : Entry) (rif : Text) (free : ',' ∉ rif) : Entry :=
  { entry with
    rif
    commaFree := by
      have commaFree := entry.commaFree
      simp only [List.forall_mem_cons] at commaFree ⊢
      tauto }

/-- The entry without live shares. -/
def withoutLive (entry : Entry) : Entry :=
  { entry with
    liveBuy := ['0']
    liveSell := ['0']
    commaFree := by
      have commaFree := entry.commaFree
      have zeroFree : ',' ∉ (['0'] : Text) := by decide
      simp only [List.forall_mem_cons] at commaFree ⊢
      tauto }

end Entry

namespace RedisWriter

@[simp]
theorem set_isRedisEnabled (writer : RedisWriter) (key value : Text) :
    (writer.set key value).isRedisEnabled = writer.isRedisEnabled :=
  rfl

@[simp]
theorem set_store_self (writer : RedisWriter) (key value : Text) :
    (writer.set key value).store key = some value :=
  if_pos rfl

@[simp]
theorem set_store_of_ne (writer : RedisWriter) {key other : Text} (value : Text)
    (different : other ≠ key) : (writer.set key value).store other = writer.store other :=
  if_neg different

/-- Store a position. -/
def put (writer : RedisWriter) (entry : Entry) : RedisWriter :=
  writer.set entry.key entry.text

theorem put_store_of_ne (writer : RedisWriter) {entry : Entry} {other : Text}
    (different : other ≠ entry.key) : (writer.put entry).store other = writer.store other :=
  if_neg different

/-- The store is in use and has the entry under the entry's own key. -/
structure Holds (writer : RedisWriter) (entry : Entry) : Prop where
  enabled : writer.isRedisEnabled = true
  stored : writer.store entry.key = some entry.text

theorem holds_put {writer : RedisWriter} (enabled : writer.isRedisEnabled = true)
    (entry : Entry) : (writer.put entry).Holds entry :=
  ⟨enabled, set_store_self _ _ _⟩

namespace Holds

variable {writer : RedisWriter} {entry : Entry} (holds : writer.Holds entry)

include holds

theorem readKeyFromRedis : writer.readKeyFromRedis entry.key = entry.text := by
  rw [RedisWriter.readKeyFromRedis, if_pos holds.enabled, holds.stored]
  rfl

/-- Rewriting reads the entry's fields and puts the new ones. -/
theorem rewrite (replace : Position → Position) (next : Entry)
    (replaces : replace entry.position = next.position) :
    writer.rewrite entry.key replace = some (writer.put next) := by
  rw [RedisWriter.rewrite, holds.readKeyFromRedis, entry.parseStem1Value_text, Option.map_some,
    replaces, writeToRedis, if_pos holds.enabled]
  rfl

theorem writePIFToRedis (pif : Text) (free : ',' ∉ pif) :
    writer.writePIFToRedis entry.key pif = some (writer.put (entry.withPif pif free)) := by
  rw [RedisWriter.writePIFToRedis, holds.readKeyFromRedis, if_neg,
    holds.rewrite _ (entry.withPif pif free) rfl]
  simp [holds.enabled, entry.text_ne_nonexistentKey]

theorem writeRIFToRedis (rif : Text) (free : ',' ∉ rif) :
    writer.writeRIFToRedis entry.key rif = some (writer.put (entry.withRif rif free)) := by
  rw [RedisWriter.writeRIFToRedis, holds.readKeyFromRedis, if_neg,
    holds.rewrite _ (entry.withRif rif free) rfl]
  simp [holds.enabled, entry.text_ne_nonexistentKey]

theorem writeLiveSharesInfo :
    writer.writeLiveSharesInfo entry.key ['0'] ['0'] entry.totalExecuted =
      some (writer.put entry.withoutLive) := by
  rw [RedisWriter.writeLiveSharesInfo, if_neg, holds.readKeyFromRedis,
    if_neg entry.text_ne_nonexistentKey, holds.rewrite _ entry.withoutLive rfl]
  simp [holds.enabled]

end Holds

end RedisWriter

end TradingApp.Redis

import TradingApp.Account.TradeAccount
import TradingApp.Redis.RedisWriter

/-!
# Constructing a trade instance

The settings of a trade instance and the part of its constructor that looks
up the two accounts' stored positions.  Both accounts restore their position
in one way; the short one keeps the stored quantity with its sign changed.

A field that cannot be read throws in the source, and here gives `none`.
-/

namespace TradingApp.Instance

open TradingApp.Account TradingApp.Decimal TradingApp.Redis

/-- A round: how many shares it adds, and the position it leads to. -/
structure ShareRound where
  increments : ℕ
  position : ℕ
deriving DecidableEq, Repr

/-- The settings of a trade account and of one of its symbols. -/
structure Config where
  longAccountName : Text
  shortAccountName : Text
  maximumLive : ℕ
  symbolName : Text
  divisor : ℕ
  shareRounds : List ShareRound
  tranchValue : ℕ
  mpvValue : ℚ
  mpvMultiplier : ℕ
  baseQty : ℕ
  cancelOnTrigger : Bool
  multiplier : ℚ
  instrumentSkew : ℚ
deriving DecidableEq

namespace Config

/-- The positions of all rounds. -/
def maxPos (config : Config) : ℕ :=
  (config.shareRounds.map (·.position)).sum

/-- The name of a side's account. -/
def accountName (config : Config) : OrderAccountType → Text
  | .long => config.longAccountName
  | .short => config.shortAccountName

/-- One symbol traded in lots of 100 shares, one round of four lots. -/
def roundLots : Config where
  longAccountName := ['L']
  shortAccountName := ['S']
  maximumLive := 5
  symbolName := ['X']
  divisor := 100
  shareRounds := [{ increments := 100, position := 400 }]
  tranchValue := 1
  mpvValue := 1 / 100
  mpvMultiplier := 1
  baseQty := 100
  cancelOnTrigger := false
  multiplier := 1
  instrumentSkew := 0

end Config

/-! ## Restoring one account -/

/-- The key of the account's stored position. -/
def keyToRead (account : TradeAccount) : Text :=
  positionKey account.accountName account.symbol

/-- The setter also writes the stored price in force, if there is one. -/
def setPriceInForce (account : TradeAccount) (writer : RedisWriter) (pif : ℚ) :
    Option (TradeAccount × RedisWriter) :=
  (writer.writePIFToRedis (keyToRead account) (ostreamText pif)).map fun writer =>
    ({ account with pif }, writer)

/-- The setter also writes the stored round in force, if there is one. -/
def setRoundInForce (account : TradeAccount) (writer : RedisWriter) (rif : ℕ) :
    Option (TradeAccount × RedisWriter) :=
  (writer.writeRIFToRedis (keyToRead account) (natText rif)).map fun writer =>
    ({ account with rif }, writer)

/-- An empty text leaves the price in force as it is. -/
def restorePIF (account : TradeAccount) (writer : RedisWriter) (pif : Text) :
    Option (TradeAccount × RedisWriter) :=
  if pif = [] then some (account, writer)
  else (readDouble pif).bind (setPriceInForce account writer)

/-- An empty text leaves the round in force as it is. -/
def restoreRIF (account : TradeAccount) (writer : RedisWriter) (rif : Text) :
    Option (TradeAccount × RedisWriter) :=
  if rif = [] then some (account, writer)
  else (readUint32 rif).bind (setRoundInForce account writer)

/-- What a stored quantity is on the account's side. -/
def signedQuantity : OrderAccountType → ℤ → ℤ
  | .long, quantity => quantity
  | .short, quantity => -1 * quantity

/-- Restore the fields of a parsed position. -/
def restorePosition (account : TradeAccount) (writer : RedisWriter) (currentPosition : Position) :
    Option (TradeAccount × RedisWriter) := do
  let average ← readDouble currentPosition.price
  let (account, writer) ← restorePIF { account with average } writer currentPosition.pif
  let (account, writer) ← restoreRIF account writer currentPosition.rif
  let quantity ← readInt64 currentPosition.quantity
  let totalExecuted ← readInt64 currentPosition.totalExecutedShares
  -- reset live buy and sell at the beginning
  let writer ← writer.writeLiveSharesInfo (keyToRead account) ['0'] ['0']
    currentPosition.totalExecutedShares
  pure
    ({ account with total := signedQuantity account.accountType quantity, totalExecuted }, writer)

/-- The constructor's block for one account. -/
def restore (account : TradeAccount) (writer : RedisWriter) :
    Option (TradeAccount × RedisWriter) :=
  if writer.readKeyFromRedis (keyToRead account) = nonexistentKey then some (account, writer)
  else
    (parseStem1Value (writer.readKeyFromRedis (keyToRead account))).bind
      (restorePosition account writer)

/-! ## Constructing both -/

/-- An account as the constructor sets it up before it reads the store. -/
def newAccount (config : Config) (lastOpenPrice : ℚ) (side : OrderAccountType) : TradeAccount :=
  { TradeAccount.init side (config.accountName side) config.symbolName config.divisor
      lastOpenPrice with
    maxPos := config.maxPos
    tranchValue := config.tranchValue }

/-- The accounts of a new instance: first the long one is restored, then the
short one.  The last open prices are uninitialized in the source. -/
def restoreAccounts (config : Config) (lastOpenPrice : OrderAccountType → ℚ)
    (writer : RedisWriter) : Option (TradeAccounts × RedisWriter) := do
  let (longAcc, writer) ← restore (newAccount config (lastOpenPrice .long) .long) writer
  let (shortAcc, writer) ← restore (newAccount config (lastOpenPrice .short) .short) writer
  pure ({ longAcc, shortAcc }, writer)

/-- No position is stored. -/
def nothingStored : RedisWriter where
  isRedisEnabled := true
  store _ := none

/-- A store that holds ten lots at 5.25 for the long account. -/
def tenLongLots : RedisWriter :=
  RedisWriter.set { isRedisEnabled := true, store := fun _ => none } (positionKey ['L'] ['X'])
    (positionValue ['L'] ['X'] ['1', '0'] ['5', '.', '2', '5'] ['0'] ['0'] ['0'] ['0'] ['0'])

/-- The accounts of an instance that finds ten long lots stored. -/
def tenLongLotsAccounts : TradeAccounts where
  longAcc := { newAccount .roundLots 0 .long with total := 10, average := 21 / 4 }
  shortAcc := newAccount .roundLots 0 .short

theorem restoreAccounts_tenLongLots :
    ∃ after, restoreAccounts .roundLots (fun _ => 0) tenLongLots =
      some (tenLongLotsAccounts, after) := by
  have restored : (restoreAccounts .roundLots (fun _ => 0) tenLongLots).map Prod.fst =
      some tenLongLotsAccounts := by
    decide +kernel
  obtain ⟨⟨_, after⟩, restores, rfl⟩ := Option.map_eq_some_iff.mp restored
  exact ⟨after, restores⟩

/-! ## What a restored account keeps -/

/-- Restoring an account leaves its lots, its side, its names and its divisor
alone. -/
structure SameBook (account restored : TradeAccount) : Prop where
  positionTable : restored.positionTable = account.positionTable
  accountType : restored.accountType = account.accountType
  accountName : restored.accountName = account.accountName
  symbol : restored.symbol = account.symbol
  divisor : restored.divisor = account.divisor

theorem SameBook.trans {first second third : TradeAccount} (one : SameBook first second)
    (two : SameBook second third) : SameBook first third where
  positionTable := two.positionTable.trans one.positionTable
  accountType := two.accountType.trans one.accountType
  accountName := two.accountName.trans one.accountName
  symbol := two.symbol.trans one.symbol
  divisor := two.divisor.trans one.divisor

theorem setPriceInForce_sameBook {account restored : TradeAccount} {writer after : RedisWriter}
    {pif : ℚ} (sets : setPriceInForce account writer pif = some (restored, after)) :
    SameBook account restored := by
  simp only [setPriceInForce, Option.map_eq_some_iff, Prod.mk.injEq] at sets
  obtain ⟨_, _, rfl, _⟩ := sets
  constructor <;> rfl

theorem setRoundInForce_sameBook {account restored : TradeAccount} {writer after : RedisWriter}
    {rif : ℕ} (sets : setRoundInForce account writer rif = some (restored, after)) :
    SameBook account restored := by
  simp only [setRoundInForce, Option.map_eq_some_iff, Prod.mk.injEq] at sets
  obtain ⟨_, _, rfl, _⟩ := sets
  constructor <;> rfl

theorem restorePIF_sameBook {account restored : TradeAccount} {writer after : RedisWriter}
    {pif : Text} (restores : restorePIF account writer pif = some (restored, after)) :
    SameBook account restored := by
  unfold restorePIF at restores
  split at restores
  · cases restores
    constructor <;> rfl
  · obtain ⟨_, _, sets⟩ := Option.bind_eq_some_iff.mp restores
    exact setPriceInForce_sameBook sets

theorem restoreRIF_sameBook {account restored : TradeAccount} {writer after : RedisWriter}
    {rif : Text} (restores : restoreRIF account writer rif = some (restored, after)) :
    SameBook account restored := by
  unfold restoreRIF at restores
  split at restores
  · cases restores
    constructor <;> rfl
  · obtain ⟨_, _, sets⟩ := Option.bind_eq_some_iff.mp restores
    exact setRoundInForce_sameBook sets

theorem restorePosition_sameBook {account restored : TradeAccount} {writer after : RedisWriter}
    {currentPosition : Position}
    (restores : restorePosition account writer currentPosition = some (restored, after)) :
    SameBook account restored := by
  simp only [restorePosition, Option.bind_eq_bind, Option.pure_def, Option.bind_eq_some_iff,
    Option.some.injEq, Prod.mk.injEq, Prod.exists] at restores
  obtain ⟨average, _, _, _, restoresPIF, _, _, restoresRIF, _, _, _, _, _, _, rfl, _⟩ := restores
  have averaged : SameBook account { account with average } := by constructor <;> rfl
  have counted := averaged.trans
    ((restorePIF_sameBook restoresPIF).trans (restoreRIF_sameBook restoresRIF))
  exact ⟨counted.positionTable, counted.accountType, counted.accountName, counted.symbol,
    counted.divisor⟩

theorem restore_sameBook {account restored : TradeAccount} {writer after : RedisWriter}
    (restores : restore account writer = some (restored, after)) : SameBook account restored := by
  unfold restore at restores
  split at restores
  · cases restores
    constructor <;> rfl
  · obtain ⟨_, _, restoresPosition⟩ := Option.bind_eq_some_iff.mp restores
    exact restorePosition_sameBook restoresPosition

/-- Whatever is stored, a new instance starts with empty tables. -/
theorem restoreAccounts_get {config : Config} {lastOpenPrice : OrderAccountType → ℚ}
    {writer after : RedisWriter} {accounts : TradeAccounts}
    (restores : restoreAccounts config lastOpenPrice writer = some (accounts, after))
    (side : OrderAccountType) :
    SameBook (newAccount config (lastOpenPrice side) side) (accounts.get side) := by
  simp only [restoreAccounts, Option.bind_eq_bind, Option.pure_def, Option.bind_eq_some_iff,
    Option.some.injEq, Prod.mk.injEq, Prod.exists] at restores
  obtain ⟨_, _, restoresLong, _, _, restoresShort, rfl, _⟩ := restores
  cases side with
  | long => exact restore_sameBook restoresLong
  | short => exact restore_sameBook restoresShort

end TradingApp.Instance

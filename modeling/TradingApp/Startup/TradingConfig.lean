import TradingApp.Account.TradeAccount
import TradingApp.Startup.Tree

/-!
# The configuration of the trade accounts

An account trades for one user or for a pair of them.  Which names it has depends
on that, and so does which of them must not be empty.
-/

namespace TradingApp.Startup

open TradingApp.Account TradingApp.Machine

/-- `TradeAccount::TradeAccountType`. -/
inductive TradeAccountType where
  | single
  | pair
deriving DecidableEq, Repr

/-- The settings of an estimator. -/
structure AvicennaConfiguration where
  dllTimer1 : Int32
  dllIp : Text
  dllInput : Bool
  dllStr1 : Text
  dllStr2 : Text
  dllStr3 : Text
  dllStr4 : Text
  dllStr5 : Text
deriving DecidableEq

/-- The settings of a trade account. -/
structure AccountSettings where
  id : Text
  type : TradeAccountType
  username : Text
  longAcc : Text
  shortAcc : Text
  maximumOrder : UInt32
  maximumLive : UInt32
  legacyTimer : Int32
  legacyTraderTimer : Int32
  legacyPitTimer : Int32
  avicenna1 : AvicennaConfiguration
  avicenna2 : AvicennaConfiguration
  attempts : UInt8
  venues : List Text
deriving DecidableEq

/-- The names of an account, as its type has them. -/
structure AccountNames where
  type : TradeAccountType
  username : Text
  longAcc : Text
  shortAcc : Text

section Parse

variable (translator : Translator)

/-- The part of `TradeAccount::TradeAccount` that reads the names. -/
def parseNames (tree : PTree) (type : Text) : Except ConfigError AccountNames :=
  if type = "single".toList then do
    let username := (← tree.getChild "username".toList).data
    if username = [] then
      throw (.configInfo "single account must have username".toList)
    else return { type := .single, username, longAcc := [], shortAcc := [] }
  else if type = "pair".toList then do
    let longAcc := (← tree.getChild "long_account".toList).data
    let shortAcc := (← tree.getChild "short_account".toList).data
    if longAcc = [] ∨ shortAcc = [] then
      throw (.configInfo "pair account must have long and short account ID's".toList)
    else return { type := .pair, username := [], longAcc, shortAcc }
  else throw (.configInfo "type must be define for account either single or pair".toList)

/-- A timer must not be zero. -/
def parseTimer (tree : PTree) (name : Text) : Except ConfigError Int32 := do
  let timer ← (← tree.getChild name).getValue translator.int
  if timer = 0 then throw (.configInfo (name ++ " definition missing".toList))
  else return timer

/-- The settings of one estimator. -/
def parseAvicenna (tree : PTree) : Except ConfigError AvicennaConfiguration := do
  let dllTimer1 ← (← tree.getChild "dll_timer1".toList).getValue translator.int
  let dllIp := (← tree.getChild "ip".toList).data
  let dllInput := decide ((← tree.getChild "dll_input".toList).data = "true".toList)
  let dllStr1 := (← tree.getChild "dll_str1".toList).data
  let dllStr2 := (← tree.getChild "dll_str2".toList).data
  let dllStr3 := (← tree.getChild "dll_str3".toList).data
  let dllStr4 := (← tree.getChild "dll_str4".toList).data
  let dllStr5 := (← tree.getChild "dll_str5".toList).data
  return { dllTimer1, dllIp, dllInput, dllStr1, dllStr2, dllStr3, dllStr4, dllStr5 }

/-- `TradeAccount::TradeAccount`. -/
def parseTradeAccount (tree : PTree) : Except ConfigError AccountSettings := do
  let attr ← tree.getChild PTree.xmlattr
  let id := (← attr.getChild "id".toList).data
  let names ← parseNames tree (← attr.getChild "type".toList).data
  let maximumOrder ← (← tree.getChild "maximum_order".toList).getValue translator.uint32
  let maximumLive ← (← tree.getChild "maximum_live".toList).getValue translator.uint32
  let legacyTimer ← parseTimer translator tree "legacy_timer".toList
  let legacyTraderTimer ← parseTimer translator tree "legacy_trader_timer".toList
  let legacyPitTimer ← parseTimer translator tree "legacy_pit_timer".toList
  let avicenna1 ← parseAvicenna translator (← tree.getChild "avicenna1".toList)
  let avicenna2 ← parseAvicenna translator (← tree.getChild "avicenna2".toList)
  let venues ← tree.getChild "venues".toList
  let venuesAttr ← venues.getChild PTree.xmlattr
  let attempts ← (← venuesAttr.getChild "attempts".toList).getValue translator.int
  return {
    id, maximumOrder, maximumLive, legacyTimer, legacyTraderTimer, legacyPitTimer, avicenna1,
    avicenna2
    type := names.type
    username := names.username
    longAcc := names.longAcc
    shortAcc := names.shortAcc
    attempts := attempts.toInt8.toUInt8
    venues := (venues.children.filter (·.1 = "venue".toList)).map (·.2.data) }

/-- `TradeAccountMap::TradeAccountMap`. -/
def parseTradeAccountMap (tree : PTree) : Except ConfigError (Table AccountSettings) :=
  tree.children.foldlM
    (fun table child =>
      if child.1 = "account".toList then do
        let account ← parseTradeAccount translator child.2
        return table.emplace account.id account
      else return table)
    .empty

/-- `TradingConfig::parse`, for the file's tree. -/
def parseTradingConfig (file : PTree) : Except ConfigError (Table AccountSettings) :=
  if file.count "trading".toList = 0 then
    throw (.configInfo "Missing <trading> tag".toList)
  else if 1 < file.count "trading".toList then
    throw (.configInfo "More than one definition of <trading>".toList)
  else do parseTradeAccountMap translator (← file.getChild "trading".toList)

end Parse

/-! ## What is accepted -/

/-- The names an account has, as its type wants them. -/
def AccountNames.WellFormed (names : AccountNames) : Prop :=
  match names.type with
  | .single => names.username ≠ [] ∧ names.longAcc = [] ∧ names.shortAcc = []
  | .pair => names.username = [] ∧ names.longAcc ≠ [] ∧ names.shortAcc ≠ []

namespace AccountSettings

/-- The names among the settings of an account. -/
def names (account : AccountSettings) : AccountNames where
  type := account.type
  username := account.username
  longAcc := account.longAcc
  shortAcc := account.shortAcc

/-- The name of the order account of a side. -/
def accountName (account : AccountSettings) : OrderAccountType → Text
  | .long => account.longAcc
  | .short => account.shortAcc

/-- An account that the program accepts. -/
structure WellFormed (account : AccountSettings) : Prop where
  names : account.names.WellFormed
  legacyTimer : account.legacyTimer ≠ 0
  legacyTraderTimer : account.legacyTraderTimer ≠ 0
  legacyPitTimer : account.legacyPitTimer ≠ 0

/-- An account of a single user has one name for both sides. -/
theorem WellFormed.pair {account : AccountSettings} (wellFormed : account.WellFormed)
    (different : account.longAcc ≠ account.shortAcc) : account.type = .pair := by
  have names := wellFormed.names
  unfold AccountNames.WellFormed at names
  cases isType : account.type with
  | pair => rfl
  | single =>
      rw [AccountSettings.names, isType] at names
      exact absurd (names.2.1.trans names.2.2.symm) different

end AccountSettings

section Accepted

variable {translator : Translator}

theorem parseNames_wellFormed {tree : PTree} {type : Text} {names : AccountNames}
    (parses : parseNames tree type = .ok names) : names.WellFormed := by
  unfold parseNames at parses
  split at parses
  · obtain ⟨username, _, parses⟩ := bind_eq_ok_iff.mp parses
    dsimp only at parses
    split at parses
    · cases parses
    · rename_i named
      rw [← Except.ok.inj parses]
      exact ⟨named, rfl, rfl⟩
  · split at parses
    · obtain ⟨longAcc, _, parses⟩ := bind_eq_ok_iff.mp parses
      obtain ⟨shortAcc, _, parses⟩ := bind_eq_ok_iff.mp parses
      dsimp only at parses
      split at parses
      · cases parses
      · rename_i named
        rw [← Except.ok.inj parses]
        exact ⟨rfl, not_or.mp named⟩
    · cases parses

theorem parseTimer_ne_zero {tree : PTree} {name : Text} {timer : Int32}
    (parses : parseTimer translator tree name = .ok timer) : timer ≠ 0 := by
  unfold parseTimer at parses
  obtain ⟨_, _, parses⟩ := bind_eq_ok_iff.mp parses
  obtain ⟨value, _, parses⟩ := bind_eq_ok_iff.mp parses
  split at parses
  · cases parses
  · rename_i notZero
    rw [← Except.ok.inj parses]
    exact notZero

theorem parseTradeAccount_wellFormed {tree : PTree} {account : AccountSettings}
    (parses : parseTradeAccount translator tree = .ok account) : account.WellFormed := by
  unfold parseTradeAccount at parses
  obtain ⟨attr, _, parses⟩ := bind_eq_ok_iff.mp parses
  obtain ⟨id, _, parses⟩ := bind_eq_ok_iff.mp parses
  obtain ⟨type, _, parses⟩ := bind_eq_ok_iff.mp parses
  obtain ⟨names, isNames, parses⟩ := bind_eq_ok_iff.mp parses
  iterate 4 obtain ⟨_, _, parses⟩ := bind_eq_ok_iff.mp parses
  obtain ⟨legacyTimer, isTimer, parses⟩ := bind_eq_ok_iff.mp parses
  obtain ⟨legacyTraderTimer, isTraderTimer, parses⟩ := bind_eq_ok_iff.mp parses
  obtain ⟨legacyPitTimer, isPitTimer, parses⟩ := bind_eq_ok_iff.mp parses
  iterate 8 obtain ⟨_, _, parses⟩ := bind_eq_ok_iff.mp parses
  rw [← Except.ok.inj parses]
  constructor
  · exact parseNames_wellFormed isNames
  · exact parseTimer_ne_zero isTimer
  · exact parseTimer_ne_zero isTraderTimer
  · exact parseTimer_ne_zero isPitTimer

/-- Every account is well-formed, and filed under its identifier. -/
theorem parseTradingConfig_filed {file : PTree} {table : Table AccountSettings}
    (parses : parseTradingConfig translator file = .ok table) :
    ∀ entry ∈ table.entries, entry.2.id = entry.1 ∧ entry.2.WellFormed := by
  unfold parseTradingConfig at parses
  split at parses
  · cases parses
  · split at parses
    · cases parses
    · obtain ⟨tree, _, parses⟩ := bind_eq_ok_iff.mp parses
      refine foldlM_keeps
        (P := fun table => ∀ entry ∈ table.entries, entry.2.id = entry.1 ∧ entry.2.WellFormed)
        (fun table child next filed parses => ?_) (List.forall_mem_nil _) parses
      split at parses
      · obtain ⟨account, isAccount, parses⟩ := bind_eq_ok_iff.mp parses
        rw [← Except.ok.inj parses]
        exact Table.forall_emplace filed ⟨rfl, parseTradeAccount_wellFormed isAccount⟩
      · rw [← Except.ok.inj parses]
        exact filed

end Accepted

end TradingApp.Startup

import TradingApp.Command.Control
import TradingApp.Instance.SharedStore
import TradingApp.Redis.Keyspace
import TradingApp.Startup.SymbolConfig
import TradingApp.Startup.TradingConfig

/-!
# Starting the program

The manager of the trade accounts opens the order accounts of each account on all
its venues, and constructs an instance for each symbol of the user with the
account's identifier.  It does not survive an account without venues or without
such a user, nor a symbol without share quantities.

An account of a single user leaves the names of its long and its short account
empty.  So both have one position in the store, which is that of every other such
account, too.
-/

namespace TradingApp.Startup

open TradingApp.Account TradingApp.Command TradingApp.Instance TradingApp.Machine
open TradingApp.Market TradingApp.Redis

/-! ## The manager -/

/-- What the constructor of an instance takes from both configurations; the skew
is what the market data have made of it. -/
def instanceConfig (account : AccountSettings) (symbol : SymbolSettings) (skew : ℚ) :
    Config where
  longAccountName := account.longAcc
  shortAccountName := account.shortAcc
  maximumLive := account.maximumLive.toNat
  symbolName := symbol.name
  divisor := symbol.divisor.toNat
  shareRounds := symbol.shareRounds
  tranchValue := symbol.tranchValue.toNat
  mpvValue := symbol.mpv.value
  mpvMultiplier := symbol.mpv.multiplier.toNat
  baseQty := symbol.baseQty.toNat
  cancelOnTrigger := symbol.cancelOnTrigger
  multiplier := symbol.multiplier
  instrumentSkew := skew

/-- The order accounts of a user: one for each venue, and there must be one.  A
connection that fails is an exception. -/
def opensOrderAccounts (connects : Text → Text → Bool) (username : Text) (venues : List Text) :
    Bool :=
  venues ≠ [] && venues.all (connects username)

section Manager

variable (connects : Text → Text → Bool) (skew : Key → ℚ) (symbols : Table (Table SymbolSettings))

/-- The instance of an account and a symbol, under the symbol's own name. -/
def instanceOf (account : AccountSettings) (symbol : Text × SymbolSettings) : Key × Config :=
  ⟨⟨account.id, symbol.1⟩, instanceConfig account symbol.2 (skew ⟨account.id, symbol.1⟩)⟩

/-- It needs rounds. -/
def startInstance (account : AccountSettings) (symbol : Text × SymbolSettings) :
    Option (Key × Config) :=
  if symbol.2.shareRounds = [] then none else some (instanceOf skew account symbol)

/-- What the manager does for one account. -/
def startAccount (account : AccountSettings) : Option (List (Key × Config)) :=
  if opensOrderAccounts connects account.shortAcc account.venues &&
      opensOrderAccounts connects account.longAcc account.venues then do
    let symbolMap ← symbols.find account.id
    symbolMap.entries.mapM (startInstance skew account)
  else none

/-- `TradeAccountManager::TradeAccountManager`, up to the constructors of the
instances. -/
def startManager (accounts : Table AccountSettings) : Option (List (Key × Config)) :=
  (accounts.entries.mapM fun account => startAccount connects skew symbols account.2).map
    List.flatten

end Manager

/-! ## What is started -/

section Started

variable {connects : Text → Text → Bool} {skew : Key → ℚ}
  {symbols : Table (Table SymbolSettings)} {accounts : Table AccountSettings}
  {started : List (Key × Config)}

theorem startInstance_eq {account : AccountSettings} {symbol : Text × SymbolSettings}
    {made : Key × Config} (starts : startInstance skew account symbol = some made) :
    made = instanceOf skew account symbol := by
  unfold startInstance at starts
  split at starts
  · cases starts
  · exact (Option.some.inj starts).symm

/-- The manager starts what an account has symbols for, and all of it. -/
theorem startAccount_eq {account : AccountSettings} {made : List (Key × Config)}
    (starts : startAccount connects skew symbols account = some made) :
    ∃ symbolMap, symbols.find account.id = some symbolMap ∧
      made = symbolMap.entries.map (instanceOf skew account) := by
  unfold startAccount at starts
  split at starts
  · obtain ⟨symbolMap, found, starts⟩ := Option.bind_eq_some_iff.mp starts
    refine ⟨symbolMap, found, ?_⟩
    have same := map_mapM (g := id) (fun _ _ => startInstance_eq) starts
    rwa [List.map_id] at same
  · cases starts

/-- The symbols of an account. -/
def symbolsOf (symbols : Table (Table SymbolSettings)) (account : AccountSettings) :
    List (Text × SymbolSettings) :=
  ((symbols.find account.id).map Table.entries).getD []

theorem mem_symbolsOf {account : AccountSettings} {symbol : Text × SymbolSettings}
    (member : symbol ∈ symbolsOf symbols account) :
    ∃ symbolMap, (account.id, symbolMap) ∈ symbols.entries ∧ symbol ∈ symbolMap.entries := by
  unfold symbolsOf at member
  cases found : symbols.find account.id with
  | none =>
      rw [found] at member
      exact absurd member List.not_mem_nil
  | some symbolMap =>
      rw [found] at member
      exact ⟨symbolMap, (symbols.find_eq_some_iff _ _).mp found, member⟩

theorem startManager_eq (starts : startManager connects skew symbols accounts = some started) :
    started = accounts.entries.flatMap fun account =>
      (symbolsOf symbols account.2).map (instanceOf skew account.2) := by
  obtain ⟨made, maps, rfl⟩ := Option.map_eq_some_iff.mp starts
  rw [List.flatMap, ← map_mapM (g := id) (fun account made starts => ?_) maps, List.map_id]
  obtain ⟨symbolMap, found, rfl⟩ := startAccount_eq starts
  rw [symbolsOf, found]
  rfl

/-! ## The console and the market data -/

theorem symbolsOf_nodup (symbols : Table (Table SymbolSettings)) (account : AccountSettings) :
    ((symbolsOf symbols account).map Prod.fst).Nodup := by
  unfold symbolsOf
  cases symbols.find account.id with
  | none => exact List.nodup_nil
  | some symbolMap => exact symbolMap.distinct

/-- The accounts and their instances, as the commands of the console find them. -/
def tradeAccountMap (symbols : Table (Table SymbolSettings)) (accounts : Table AccountSettings)
    (filed : ∀ entry ∈ accounts.entries, entry.2.id = entry.1) : TradeAccountMap where
  accounts := accounts.entries.map fun entry =>
    { id := entry.2.id
      symbols := (symbolsOf symbols entry.2).map Prod.fst
      distinct := symbolsOf_nodup symbols entry.2 }
  distinct := by
    rw [List.map_map]
    exact List.map_congr_left filed ▸ accounts.distinct

/-- The symbols of all users, as the market data find them: a symbol is an object of
its user's own. -/
def userSymbolsMap (symbols : Table (Table SymbolSettings)) : UserSymbolsMap Key where
  users := symbols.entries.map fun user =>
    (user.1, user.2.entries.map fun symbol =>
      { name := symbol.1, exchange := symbol.2.exchange, symbol := ⟨user.1, symbol.1⟩ })
  names user member := by
    obtain ⟨entry, _, rfl⟩ := List.mem_map.mp member
    rw [List.map_map]
    exact entry.2.distinct
  symbols := by
    rw [List.flatMap_map, List.map_flatMap, List.nodup_flatMap]
    constructor
    · intro user _
      rw [List.map_map]
      have keys := user.2.distinct.map
        (f := fun name => (⟨user.1, name⟩ : Key)) fun _ _ same => congrArg Key.symbol same
      rwa [List.map_map] at keys
    · refine (List.pairwise_map.mp symbols.distinct).imp fun {one other} different => ?_
      rw [Function.onFun, List.disjoint_left]
      intro key inOne inOther
      obtain ⟨_, _, rfl⟩ := List.mem_map.mp (List.map_map ▸ inOne)
      obtain ⟨_, _, same⟩ := List.mem_map.mp (List.map_map ▸ inOther)
      exact different (congrArg Key.account same).symm

/-- The commands find the instances that were started. -/
theorem started_keys (filed : ∀ entry ∈ accounts.entries, entry.2.id = entry.1)
    (starts : startManager connects skew symbols accounts = some started) :
    started.map Prod.fst = (tradeAccountMap symbols accounts filed).tradeInstances := by
  rw [startManager_eq starts, List.map_flatMap, TradeAccountMap.tradeInstances, tradeAccountMap,
    List.flatMap_map]
  refine congrArg (List.flatMap · accounts.entries) (funext fun entry => ?_)
  rw [TradingApp.Command.TradeAccount.tradeInstances, List.map_map, List.map_map]
  rfl

/-- Every instance has a key of its own. -/
theorem keys_nodup (filed : ∀ entry ∈ accounts.entries, entry.2.id = entry.1)
    (starts : startManager connects skew symbols accounts = some started) :
    (started.map Prod.fst).Nodup := by
  rw [started_keys filed starts]
  exact TradeAccountMap.nodup_tradeInstances _

/-- Every instance has a symbol of its own that the market data are registered for. -/
theorem started_registered (starts : startManager connects skew symbols accounts = some started)
    {made : Key × Config} (member : made ∈ started) :
    made.1 ∈ registered (userSymbolsMap symbols).configured made.1.symbol := by
  rw [startManager_eq starts] at member
  obtain ⟨entry, _, member⟩ := List.mem_flatMap.mp member
  obtain ⟨symbol, isSymbol, rfl⟩ := List.mem_map.mp member
  obtain ⟨symbolMap, isUser, isSymbol⟩ := mem_symbolsOf isSymbol
  let configured : ConfiguredSymbol Key :=
    { name := symbol.1, exchange := symbol.2.exchange, symbol := ⟨entry.2.id, symbol.1⟩ }
  have isConfigured : configured ∈ (userSymbolsMap symbols).configured :=
    List.mem_flatMap.mpr ⟨_, List.mem_map_of_mem isUser, List.mem_map_of_mem isSymbol⟩
  exact (SymbolManager.mem_registered_iff isConfigured symbol.1).mpr rfl

/-! ## Positions of their own -/

/-- An account trades a symbol. -/
def Trades (symbols : Table (Table SymbolSettings)) (accounts : Table AccountSettings)
    (account : AccountSettings) (symbol : Text) : Prop :=
  (account.id, account) ∈ accounts.entries ∧ symbol ∈ (symbolsOf symbols account).map Prod.fst

/-- No two accounts have one position in the store. -/
def Apart (symbols : Table (Table SymbolSettings)) (accounts : Table AccountSettings) : Prop :=
  ∀ account symbol, Trades symbols accounts account symbol →
    account.type = .pair ∧ account.longAcc ≠ account.shortAcc ∧
      ∀ other, Trades symbols accounts other symbol → other.id ≠ account.id →
        ∀ side otherSide, account.accountName side ≠ other.accountName otherSide

/-- What is assumed of the names: they do not split where the store splits. -/
structure PlainNames (symbols : Table (Table SymbolSettings))
    (accounts : Table AccountSettings) : Prop where
  account : ∀ entry ∈ accounts.entries, ∀ side,
    ',' ∉ entry.2.accountName side ∧ ':' ∉ entry.2.accountName side
  symbol : ∀ user ∈ symbols.entries, ∀ entry ∈ user.2.entries, ',' ∉ entry.1

/-- What is known of both configurations once they are read. -/
structure Filed (symbols : Table (Table SymbolSettings))
    (accounts : Table AccountSettings) : Prop where
  account : ∀ entry ∈ accounts.entries, entry.2.id = entry.1 ∧ entry.2.WellFormed
  symbol : ∀ user ∈ symbols.entries, ∀ entry ∈ user.2.entries,
    entry.2.name = entry.1 ∧ entry.1 ≠ []

/-- The instances are those of the accounts and the symbols that they trade. -/
theorem mem_started (filed : Filed symbols accounts)
    (starts : startManager connects skew symbols accounts = some started)
    {instance_ : Key × Config} (member : instance_ ∈ started) :
    ∃ account, Trades symbols accounts account instance_.1.symbol ∧
      instance_.1.account = account.id ∧ instance_.2.symbolName = instance_.1.symbol ∧
        ∀ side, instance_.2.accountName side = account.accountName side := by
  rw [startManager_eq starts] at member
  obtain ⟨entry, isAccount, member⟩ := List.mem_flatMap.mp member
  obtain ⟨symbol, isSymbol, rfl⟩ := List.mem_map.mp member
  obtain ⟨_, isUser, ofUser⟩ := mem_symbolsOf isSymbol
  refine ⟨entry.2, ⟨?_, List.mem_map_of_mem isSymbol⟩, rfl, ?_, fun side => ?_⟩
  · rw [(filed.account entry isAccount).1]
    exact isAccount
  · exact (filed.symbol _ isUser symbol ofUser).1
  · cases side <;> rfl

theorem exists_started (filed : Filed symbols accounts)
    (starts : startManager connects skew symbols accounts = some started)
    {account : AccountSettings} {symbol : Text} (trades : Trades symbols accounts account symbol) :
    ∃ config, (⟨account.id, symbol⟩, config) ∈ started ∧ config.symbolName = symbol ∧
      ∀ side, config.accountName side = account.accountName side := by
  obtain ⟨entry, isSymbol, rfl⟩ := List.mem_map.mp trades.2
  obtain ⟨_, isUser, ofUser⟩ := mem_symbolsOf isSymbol
  refine ⟨(instanceOf skew account entry).2, ?_, ?_, fun side => ?_⟩
  · rw [startManager_eq starts, List.mem_flatMap]
    exact ⟨_, trades.1, List.mem_map_of_mem (f := instanceOf skew account) isSymbol⟩
  · exact (filed.symbol _ isUser entry ofUser).1
  · cases side <;> rfl

/-- Of one account there is one. -/
theorem Trades.eq {account other : AccountSettings} {symbol otherSymbol : Text}
    (one : Trades symbols accounts account symbol)
    (two : Trades symbols accounts other otherSymbol) (same : account.id = other.id) :
    account = other :=
  accounts.eq_of_mem one.1 (same ▸ two.1)

/-- A key is that of one name and one symbol. -/
theorem positionKey_inj {name other symbol otherSymbol : Text} (plain : ':' ∉ name)
    (otherPlain : ':' ∉ other) :
    positionKey name symbol = positionKey other otherSymbol ↔
      name = other ∧ symbol = otherSymbol := by
  constructor
  · intro same
    have ends := append_cons_inj (p := fun c => c ≠ ':')
      (fun _ member => ne_of_mem_of_not_mem member plain)
      (fun _ member => ne_of_mem_of_not_mem member otherPlain) (not_not.mpr rfl)
      (not_not.mpr rfl) same
    exact ⟨ends.1, ends.2.2⟩
  · rintro ⟨rfl, rfl⟩
    rfl

/-- If the accounts are apart, a name and a symbol tell the account and its side. -/
theorem Apart.eq (apart : Apart symbols accounts) {account other : AccountSettings}
    {symbol : Text} {side otherSide : OrderAccountType}
    (trades : Trades symbols accounts account symbol)
    (otherTrades : Trades symbols accounts other symbol)
    (same : account.accountName side = other.accountName otherSide) :
    account.id = other.id ∧ side = otherSide := by
  obtain ⟨_, different, disjoint⟩ := apart account symbol trades
  by_cases sameId : other.id = account.id
  · obtain rfl := trades.eq otherTrades sameId.symm
    refine ⟨rfl, ?_⟩
    cases side with
    | long =>
        cases otherSide with
        | long => rfl
        | short => exact absurd same different
    | short =>
        cases otherSide with
        | long => exact absurd same.symm different
        | short => rfl
  · exact absurd same (disjoint other otherTrades sameId side otherSide)

/-- The instances of accounts that are apart, as the program has them. -/
def settingsOf (filed : Filed symbols accounts) (plain : PlainNames symbols accounts)
    (apart : Apart symbols accounts)
    (starts : startManager connects skew symbols accounts = some started) :
    Settings (Fin started.length) where
  config i := (started.get i).2
  nameFree i side := by
    obtain ⟨account, trades, _, _, names⟩ := mem_started filed starts (started.get_mem i)
    rw [names side]
    exact (plain.account _ trades.1 side).1
  symbolFree i := by
    obtain ⟨account, trades, _, isSymbol, _⟩ := mem_started filed starts (started.get_mem i)
    obtain ⟨entry, member, isEntry⟩ := List.mem_map.mp trades.2
    obtain ⟨_, isUser, ofUser⟩ := mem_symbolsOf member
    rw [isSymbol, ← isEntry]
    exact plain.symbol _ isUser entry ofUser
  key_injective := by
    rintro ⟨i, side⟩ ⟨j, otherSide⟩ same
    obtain ⟨account, trades, isAccount, isSymbol, names⟩ :=
      mem_started filed starts (started.get_mem i)
    obtain ⟨other, otherTrades, isOther, isOtherSymbol, otherNames⟩ :=
      mem_started filed starts (started.get_mem j)
    change positionKey _ _ = positionKey _ _ at same
    rw [names side, otherNames otherSide, isSymbol, isOtherSymbol] at same
    obtain ⟨sameName, sameSymbol⟩ := (positionKey_inj (plain.account _ trades.1 side).2
      (plain.account _ otherTrades.1 otherSide).2).mp same
    rw [← sameSymbol] at otherTrades
    obtain ⟨sameAccount, rfl⟩ := apart.eq trades otherTrades sameName
    have keys := keys_nodup (fun entry member => (filed.account entry member).1) starts
    have sameKey : (started.get i).1 = (started.get j).1 := by
      rw [← isAccount, ← isOther] at sameAccount
      exact congrArg₂ Key.mk sameAccount sameSymbol
    have sameInstance := List.inj_on_of_nodup_map keys (started.get_mem i) (started.get_mem j)
      sameKey
    rw [(List.Nodup.of_map _ keys).injective_get sameInstance]

/-- The instances of a single user have one name for both accounts. -/
theorem instanceConfig_shared {account : AccountSettings} (wellFormed : account.WellFormed)
    (single : account.type = .single) (symbol : SymbolSettings) (skew : ℚ) :
    (instanceConfig account symbol skew).longAccountName =
      (instanceConfig account symbol skew).shortAccountName := by
  by_contra different
  have pair := wellFormed.pair different
  rw [single] at pair
  cases pair

/-- Instances that share no position are of accounts that are apart. -/
theorem apart_of_settings (filed : Filed symbols accounts)
    (starts : startManager connects skew symbols accounts = some started)
    (settings : Settings (Fin started.length))
    (same : ∀ i, settings.config i = (started.get i).2) : Apart symbols accounts := by
  have isApart : ∀ side otherSide {account other : AccountSettings} {symbol : Text},
      Trades symbols accounts account symbol → Trades symbols accounts other symbol →
      account.accountName side = other.accountName otherSide →
      account.id = other.id ∧ side = otherSide := by
    intro side otherSide account other symbol trades otherTrades sameName
    obtain ⟨config, member, isSymbol, names⟩ := exists_started filed starts trades
    obtain ⟨otherConfig, otherMember, isOtherSymbol, otherNames⟩ :=
      exists_started filed starts otherTrades
    obtain ⟨i, isConfig⟩ := List.mem_iff_get.mp member
    obtain ⟨j, isOtherConfig⟩ := List.mem_iff_get.mp otherMember
    have sameKey : (settings.config i).key side = (settings.config j).key otherSide := by
      rw [same, same, isConfig, isOtherConfig, Config.key, Config.key, names, otherNames,
        isSymbol, isOtherSymbol, sameName]
    obtain ⟨rfl, sameSide⟩ :=
      Prod.mk.inj (@settings.key_injective (i, side) (j, otherSide) sameKey)
    exact ⟨congrArg (fun made => made.1.account) (isConfig.symm.trans isOtherConfig), sameSide⟩
  intro account symbol trades
  have different : account.longAcc ≠ account.shortAcc := fun sameName =>
    absurd (isApart .long .short trades trades sameName).2 (by decide)
  refine ⟨(filed.account _ trades.1).2.pair different, different, ?_⟩
  intro other otherTrades otherId side otherSide sameName
  exact otherId (isApart side otherSide trades otherTrades sameName).1.symm

section Parsed

variable {translator : Translator} {conversion : Conversion} {accountFile symbolFile : PTree}

theorem filed_of_parsed (isAccounts : parseTradingConfig translator accountFile = .ok accounts)
    (isSymbols : parseSymbolConfig translator conversion symbolFile = .ok symbols) :
    Filed symbols accounts where
  account := parseTradingConfig_filed isAccounts
  symbol := parseSymbolConfig_filed isSymbols

/-- No two of the started instances share a position exactly when every account that
trades is one of a pair of users, its long and its short name differ, and it shares
neither with another account that trades one of its symbols. -/
theorem startManager_settings_iff
    (isAccounts : parseTradingConfig translator accountFile = .ok accounts)
    (isSymbols : parseSymbolConfig translator conversion symbolFile = .ok symbols)
    (plain : PlainNames symbols accounts)
    (starts : startManager connects skew symbols accounts = some started) :
    (∃ settings : Settings (Fin started.length), ∀ i, settings.config i = (started.get i).2) ↔
      Apart symbols accounts := by
  have filed := filed_of_parsed isAccounts isSymbols
  constructor
  · rintro ⟨settings, same⟩
    exact apart_of_settings filed starts settings same
  · intro apart
    exact ⟨settingsOf filed plain apart starts, fun _ => rfl⟩

end Parsed

end Started

/-! ## Two pairs of users -/

/-- A node without children. -/
def leaf (name value : String) : Text × PTree :=
  (name.toList, .node value.toList [])

/-- The node that holds the attributes of another one. -/
def attributes (children : List (Text × PTree)) : Text × PTree :=
  (PTree.xmlattr, .node [] children)

/-- The values of the files below: all numbers are one. -/
def ones : Translator where
  int := fun text => if text = ['1'] then some 1 else none
  uint32 := fun text => if text = ['1'] then some 1 else none
  double := fun text => if text = ['1'] then some 1 else none
  bool := fun text => if text = ['1'] then some true else none

/-- The settings of an estimator. -/
def estimator : PTree :=
  .node [] [leaf "dll_timer1" "1", leaf "ip" "", leaf "dll_input" "true", leaf "dll_str1" "",
    leaf "dll_str2" "", leaf "dll_str3" "", leaf "dll_str4" "", leaf "dll_str5" ""]

/-- A pair of a long and a short account. -/
def pairOf (id long short : String) : Text × PTree :=
  ("account".toList, .node []
    [attributes [leaf "id" id, leaf "type" "pair"], leaf "long_account" long,
      leaf "short_account" short, leaf "maximum_order" "1", leaf "maximum_live" "1",
      leaf "legacy_timer" "1", leaf "legacy_trader_timer" "1", leaf "legacy_pit_timer" "1",
      ("avicenna1".toList, estimator), ("avicenna2".toList, estimator),
      ("venues".toList, .node [] [attributes [leaf "attempts" "1"], leaf "venue" "V"])])

/-- The tree of two pairs, on accounts of their own. -/
def twoPairs : PTree :=
  .node [] [("trading".toList, .node [] [pairOf "A" "L" "S", pairOf "B" "M" "T"])]

/-- A user who trades one symbol. -/
def userOf (id name : String) : Text × PTree :=
  ("user".toList, .node []
    [attributes [leaf "id" id], ("sym".toList, .node []
      [attributes [leaf "name" name, leaf "exchange" "E", leaf "multiplier" "1",
        leaf "divisor" "1", leaf "max" "1", leaf "cancel_on_trigger" "1", leaf "mmf" "1",
        leaf "base_qty" "1", leaf "tranch_value" "1"],
       ("share_quantity".toList, .node []
        [attributes [leaf "value" "1", leaf "increments" "1"]])])])

/-- Both trade the symbol. -/
def oneSymbol : PTree :=
  .node [] [("symbols".toList, .node [] [userOf "A" "X", userOf "B" "X"])]

theorem plainNames_twoPairs {accounts : Table AccountSettings}
    {symbols : Table (Table SymbolSettings)}
    (isAccounts : parseTradingConfig ones twoPairs = .ok accounts)
    (isSymbols : parseSymbolConfig ones .smallest oneSymbol = .ok symbols) :
    PlainNames symbols accounts := by
  have parsesAccounts : (parseTradingConfig ones twoPairs).toOption.map (fun accounts =>
      accounts.entries.map fun entry => (entry.2.longAcc, entry.2.shortAcc)) =
        some [(['L'], ['S']), (['M'], ['T'])] := by
    decide +kernel
  have parsesSymbols : (parseSymbolConfig ones .smallest oneSymbol).toOption.map (fun symbols =>
      symbols.entries.map fun user => user.2.entries.map Prod.fst) =
        some [[['X']], [['X']]] := by
    decide +kernel
  rw [isAccounts] at parsesAccounts
  rw [isSymbols] at parsesSymbols
  have accountNames : accounts.entries.map (fun entry => (entry.2.longAcc, entry.2.shortAcc)) =
      [(['L'], ['S']), (['M'], ['T'])] :=
    Option.some.inj parsesAccounts
  have symbolNames : symbols.entries.map (fun user => user.2.entries.map Prod.fst) =
      [[['X']], [['X']]] :=
    Option.some.inj parsesSymbols
  constructor
  · intro entry member side
    have names := List.mem_map_of_mem
      (f := fun entry : Text × AccountSettings => (entry.2.longAcc, entry.2.shortAcc)) member
    rw [accountNames] at names
    have plain : ∀ names ∈ [(['L'], ['S']), (['M'], ['T'])],
        (',' ∉ names.1 ∧ ':' ∉ names.1) ∧ (',' ∉ names.2 ∧ ':' ∉ names.2) := by
      decide
    cases side with
    | long => exact (plain _ names).1
    | short => exact (plain _ names).2
  · intro user isUser entry member
    have names := List.mem_map_of_mem
      (f := fun user : Text × Table SymbolSettings => user.2.entries.map Prod.fst) isUser
    rw [symbolNames] at names
    have name := List.mem_map_of_mem (f := Prod.fst) member
    have plain : ∀ names ∈ [[['X']], [['X']]], ∀ name ∈ names, ',' ∉ name := by
      decide
    exact plain _ names _ name

theorem startManager_settings_iff_twoPairs : ∃ accounts symbols started,
    startManager (fun _ _ => true) (fun _ => 0) symbols accounts = some started ∧
      started.length = 2 ∧
      ((∃ settings : Settings (Fin started.length),
        ∀ i, settings.config i = (started.get i).2) ↔ Apart symbols accounts) := by
  have started : ((parseTradingConfig ones twoPairs).toOption.bind fun accounts =>
      (parseSymbolConfig ones .smallest oneSymbol).toOption.bind fun symbols =>
        startManager (fun _ _ => true) (fun _ => 0) symbols accounts).map List.length =
          some 2 := by
    decide +kernel
  cases isAccounts : parseTradingConfig ones twoPairs with
  | error =>
      rw [isAccounts] at started
      cases started
  | ok accounts =>
      cases isSymbols : parseSymbolConfig ones .smallest oneSymbol with
      | error =>
          rw [isAccounts, isSymbols] at started
          cases started
      | ok symbols =>
          rw [isAccounts, isSymbols] at started
          obtain ⟨instances, starts, two⟩ := Option.map_eq_some_iff.mp started
          exact ⟨accounts, symbols, instances, starts, two,
            startManager_settings_iff isAccounts isSymbols
              (plainNames_twoPairs isAccounts isSymbols) starts⟩

end TradingApp.Startup

import TradingApp.Instance.Restore
import TradingApp.Market.SymbolManager
import TradingApp.Startup.Tree

/-!
# The configuration of the symbols

Every user has symbols with settings of their own.  Numbers are read as signed
integers and kept in unsigned types.  Of two users with one identifier the first
counts, and of two symbols of a user with one name.
-/

namespace TradingApp.Startup

open TradingApp.Instance TradingApp.Machine

/-- The smallest differences of a symbol's prices. -/
structure Mpv where
  value : ℚ
  limit : ℚ
  multiplier : UInt32
deriving DecidableEq

/-- The settings of a symbol. -/
structure SymbolSettings where
  name : Text
  exchange : Text
  multiplier : ℚ
  divisor : UInt32
  maxPos : UInt64
  cancelOnTrigger : Bool
  mmf : Bool
  baseQty : UInt32
  tranchValue : UInt32
  mpv : Mpv
  shareRounds : List ShareRound
deriving DecidableEq

section Parse

variable (translator : Translator) (conversion : Conversion)

/-- One child of a symbol's element. -/
def parseSymbolChild (settings : SymbolSettings) (child : Text × PTree) :
    Except ConfigError SymbolSettings :=
  if child.1 = PTree.xmlattr then return settings
  else if child.1 = "mpv".toList then do
    let attr ← child.2.getChild PTree.xmlattr
    let value ← (← attr.getChild "value".toList).getValue translator.double
    let limit ← (← attr.getChild "limit".toList).getValue translator.double
    let multiplier ← (← attr.getChild "multiplier".toList).getValue translator.double
    return { settings with mpv := { value, limit, multiplier := conversion.toUInt32 multiplier } }
  else if child.1 = "share_quantity".toList then do
    let attr ← child.2.getChild PTree.xmlattr
    let position ← (← attr.getChild "value".toList).getValue translator.int
    let attr ← child.2.getChild PTree.xmlattr
    let increments ← (← attr.getChild "increments".toList).getValue translator.int
    let round : ShareRound :=
      { increments := increments.toInt64.toUInt64.toNat
        position := position.toInt64.toUInt64.toNat }
    return { settings with shareRounds := settings.shareRounds ++ [round] }
  else return settings

/-- `Symbol::Symbol`. -/
def parseSymbol (tree : PTree) : Except ConfigError SymbolSettings := do
  let attr ← tree.getChild PTree.xmlattr
  let name := (← attr.getChild "name".toList).data
  let exchange := (← attr.getChild "exchange".toList).data
  if name = [] then
    throw (.configInfo "Symbol definition must include name attribute".toList)
  else
    let multiplier ← (← attr.getChild "multiplier".toList).getValue translator.double
    let divisor ← (← attr.getChild "divisor".toList).getValue translator.int
    let maxPos ← (← attr.getChild "max".toList).getValue translator.int
    let cancelOnTrigger ← (← attr.getChild "cancel_on_trigger".toList).getValue translator.bool
    let mmf ← (← attr.getChild "mmf".toList).getValue translator.bool
    let baseQty ← (← attr.getChild "base_qty".toList).getValue translator.int
    let tranchValue ← (← attr.getChild "tranch_value".toList).getValue translator.int
    tree.children.foldlM (parseSymbolChild translator conversion)
      { name, exchange, multiplier, cancelOnTrigger, mmf
        divisor := divisor.toUInt32
        maxPos := maxPos.toInt64.toUInt64
        baseQty := baseQty.toUInt32
        tranchValue := tranchValue.toUInt32
        mpv := { value := 0, limit := 0, multiplier := 1 }
        shareRounds := [] }

/-- `SymbolMap::SymbolMap`. -/
def parseSymbolMap (tree : PTree) : Except ConfigError (Table SymbolSettings) :=
  tree.children.foldlM
    (fun table child =>
      if child.1 = "sym".toList then do
        let symbol ← parseSymbol translator conversion child.2
        return table.emplace symbol.name symbol
      else return table)
    .empty

/-- `UserSymbolsMap::UserSymbolsMap`. -/
def parseUserSymbolsMap (tree : PTree) : Except ConfigError (Table (Table SymbolSettings)) :=
  tree.children.foldlM
    (fun table child =>
      if child.1 = "user".toList then do
        let attr ← child.2.getChild PTree.xmlattr
        let id := (← attr.getChild "id".toList).data
        let symbols ← parseSymbolMap translator conversion child.2
        return table.emplace id symbols
      else return table)
    .empty

/-- `SymbolConfig::parse`, for the file's tree. -/
def parseSymbolConfig (file : PTree) : Except ConfigError (Table (Table SymbolSettings)) :=
  if file.count "symbols".toList = 0 then
    throw (.configInfo "Missing <symbols> tag".toList)
  else if 1 < file.count "symbols".toList then
    throw (.configInfo "More than one definition of <symbols>".toList)
  else do parseUserSymbolsMap translator conversion (← file.getChild "symbols".toList)

end Parse

/-! ## What is accepted -/

section Accepted

variable {translator : Translator} {conversion : Conversion}

/-- The children of a symbol do not change its name. -/
theorem parseSymbolChild_name {settings next : SymbolSettings} {child : Text × PTree}
    (parses : parseSymbolChild translator conversion settings child = .ok next) :
    next.name = settings.name := by
  unfold parseSymbolChild at parses
  split at parses
  · rw [Except.ok.inj parses]
  · split at parses
    · obtain ⟨attr, _, parses⟩ := bind_eq_ok_iff.mp parses
      obtain ⟨_, _, parses⟩ := bind_eq_ok_iff.mp parses
      obtain ⟨value, _, parses⟩ := bind_eq_ok_iff.mp parses
      obtain ⟨_, _, parses⟩ := bind_eq_ok_iff.mp parses
      obtain ⟨limit, _, parses⟩ := bind_eq_ok_iff.mp parses
      obtain ⟨_, _, parses⟩ := bind_eq_ok_iff.mp parses
      obtain ⟨multiplier, _, parses⟩ := bind_eq_ok_iff.mp parses
      rw [← Except.ok.inj parses]
    · split at parses
      · obtain ⟨attr, _, parses⟩ := bind_eq_ok_iff.mp parses
        obtain ⟨_, _, parses⟩ := bind_eq_ok_iff.mp parses
        obtain ⟨position, _, parses⟩ := bind_eq_ok_iff.mp parses
        obtain ⟨_, _, parses⟩ := bind_eq_ok_iff.mp parses
        obtain ⟨_, _, parses⟩ := bind_eq_ok_iff.mp parses
        obtain ⟨increments, _, parses⟩ := bind_eq_ok_iff.mp parses
        rw [← Except.ok.inj parses]
      · rw [Except.ok.inj parses]

/-- A symbol has a name. -/
theorem parseSymbol_name {tree : PTree} {settings : SymbolSettings}
    (parses : parseSymbol translator conversion tree = .ok settings) : settings.name ≠ [] := by
  unfold parseSymbol at parses
  obtain ⟨attr, _, parses⟩ := bind_eq_ok_iff.mp parses
  obtain ⟨name, _, parses⟩ := bind_eq_ok_iff.mp parses
  obtain ⟨exchange, _, parses⟩ := bind_eq_ok_iff.mp parses
  dsimp only at parses
  split at parses
  · cases parses
  · rename_i named
    iterate 14 obtain ⟨_, _, parses⟩ := bind_eq_ok_iff.mp parses
    refine foldlM_keeps (P := fun settings => settings.name ≠ [])
      (fun _ child next kept parses => ?_) named parses
    rw [parseSymbolChild_name parses]
    exact kept

/-- Every symbol is filed under its own name. -/
theorem parseSymbolMap_filed {tree : PTree} {table : Table SymbolSettings}
    (parses : parseSymbolMap translator conversion tree = .ok table) :
    ∀ entry ∈ table.entries, entry.2.name = entry.1 ∧ entry.1 ≠ [] := by
  refine foldlM_keeps
    (P := fun table => ∀ entry ∈ table.entries, entry.2.name = entry.1 ∧ entry.1 ≠ [])
    (fun table child next filed parses => ?_) (List.forall_mem_nil _) parses
  split at parses
  · obtain ⟨symbol, isSymbol, parses⟩ := bind_eq_ok_iff.mp parses
    rw [← Except.ok.inj parses]
    exact Table.forall_emplace filed ⟨rfl, parseSymbol_name isSymbol⟩
  · rw [← Except.ok.inj parses]
    exact filed

/-- So are all symbols of all users. -/
theorem parseSymbolConfig_filed {file : PTree} {table : Table (Table SymbolSettings)}
    (parses : parseSymbolConfig translator conversion file = .ok table) :
    ∀ user ∈ table.entries, ∀ entry ∈ user.2.entries, entry.2.name = entry.1 ∧ entry.1 ≠ [] := by
  unfold parseSymbolConfig at parses
  split at parses
  · cases parses
  · split at parses
    · cases parses
    · obtain ⟨tree, _, parses⟩ := bind_eq_ok_iff.mp parses
      refine foldlM_keeps
        (P := fun table => ∀ user ∈ table.entries, ∀ entry ∈ user.2.entries,
          entry.2.name = entry.1 ∧ entry.1 ≠ [])
        (fun table child next filed parses => ?_) (List.forall_mem_nil _) parses
      split at parses
      · obtain ⟨attr, _, parses⟩ := bind_eq_ok_iff.mp parses
        obtain ⟨id, _, parses⟩ := bind_eq_ok_iff.mp parses
        obtain ⟨symbols, isMap, parses⟩ := bind_eq_ok_iff.mp parses
        rw [← Except.ok.inj parses]
        exact Table.forall_emplace filed (parseSymbolMap_filed isMap)
      · rw [← Except.ok.inj parses]
        exact filed

end Accepted

end TradingApp.Startup

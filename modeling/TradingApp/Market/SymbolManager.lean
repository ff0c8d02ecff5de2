import Mathlib.Data.List.Nodup
import Mathlib.Tactic.Linarith
import TradingApp.Market.Symbol
import TradingApp.Text.Decimal

/-!
# Symbols and their market data

The symbol manager files the symbols of all users under their names and
subscribes every name, with its exchange behind a dot, once.  A message comes
back with that text, and the name is taken to be what stands before the first
dot of it.

So a name with a dot of its own is cut short.  What is left of it is the name of
other symbols, or of none; then the look-up leaves an entry without symbols, and
the program does not survive its use.
-/

namespace TradingApp.Market

open TradingApp.Transition

/-- A symbol of one user's configuration. -/
structure ConfiguredSymbol (ι : Type) where
  name : Text
  exchange : Text
  symbol : ι

/-- The symbols of every user, each map in the order it is gone through.  A
user's symbols have different names, and no two are the same object. -/
structure UserSymbolsMap (ι : Type) where
  users : List (Text × List (ConfiguredSymbol ι))
  names : ∀ user ∈ users, (user.2.map (·.name)).Nodup
  symbols : ((users.flatMap (·.2)).map (·.symbol)).Nodup

/-- The entry of a name: the symbols of all users, and whether updates are let
through. -/
structure SymbolInfo (ι : Type) where
  name : Text
  symbols : List ι
  thisEnable : Bool
deriving DecidableEq, Repr

/-- The manager, and what the objects are. -/
structure SymbolManager (ι : Type) where
  allEnable : Bool
  /-- nothing, a null pointer, or an entry -/
  symbolHash : Text → Option (Option (SymbolInfo ι))
  subscribed : List Text
  symbol : ι → Symbol

/-- A message of the market data feed about the ticker with a text. -/
inductive MarketMessage where
  | tradeList (ticker : Text) (price : ℚ)
  | quote (ticker : Text) (bidSize : ℕ) (bid : ℚ) (askSize : ℕ) (ask : ℚ)
deriving DecidableEq, Repr

/-- The text a symbol is subscribed with. -/
def ConfiguredSymbol.ticker {ι : Type} (configured : ConfiguredSymbol ι) : Text :=
  configured.name ++ '.' :: configured.exchange

/-- The name that `OnTradeList` and `OnQuote` take from a ticker. -/
def symbolOf (ticker : Text) : Text :=
  ticker.takeWhile (· ≠ '.')

namespace UserSymbolsMap

variable {ι : Type}

/-- All symbols, in the order they are loaded. -/
def configured (map : UserSymbolsMap ι) : List (ConfiguredSymbol ι) :=
  map.users.flatMap (·.2)

end UserSymbolsMap

/-- The objects among some symbols that have a name. -/
def registered {ι : Type} (configured : List (ConfiguredSymbol ι)) (name : Text) : List ι :=
  (configured.filter (·.name = name)).map (·.symbol)

namespace SymbolManager

variable {ι : Type}

/-- No symbol is loaded yet. -/
def empty (symbol : ι → Symbol) : SymbolManager ι where
  allEnable := true
  symbolHash _ := none
  subscribed := []
  symbol := symbol

/-- A further symbol of a name that has an entry. -/
def registerSymbol (manager : SymbolManager ι) (name : Text) (symbol : ι) : SymbolManager ι :=
  match manager.symbolHash name with
  | some (some info) =>
      { manager with
        symbolHash := Function.update manager.symbolHash name
          (some (some { info with symbols := info.symbols ++ [symbol] })) }
  | _ => manager

/-- What the constructor does for a symbol. -/
def load (manager : SymbolManager ι) (configured : ConfiguredSymbol ι) : SymbolManager ι :=
  let added :=
    match manager.symbolHash configured.name with
    | none =>
        { manager with
          symbolHash := Function.update manager.symbolHash configured.name
            (some (some { name := configured.name, symbols := [], thisEnable := true }))
          subscribed := manager.subscribed ++ [configured.ticker] }
    | some _ => manager
  added.registerSymbol configured.name configured.symbol

/-- The constructor goes through the configured symbols. -/
def new (map : UserSymbolsMap ι) (symbol : ι → Symbol) : SymbolManager ι :=
  map.configured.foldl load (empty symbol)

/-- `symbol_hash[symbol]`, which adds a null pointer where there is nothing. -/
def index (manager : SymbolManager ι) (symbol : Text) : SymbolManager ι :=
  match manager.symbolHash symbol with
  | some _ => manager
  | none => { manager with symbolHash := Function.update manager.symbolHash symbol (some none) }

variable [DecidableEq ι]

/-- Update some objects one after the other. -/
def forSymbols (manager : SymbolManager ι) (symbols : List ι) (update : Symbol → Symbol) :
    SymbolManager ι :=
  { manager with
    symbol := symbols.foldl
      (fun symbol i => Function.update symbol i (update (symbol i))) manager.symbol }

/-- What `updatePrice` and `updateQuote` have in common.  The program ends where
a null pointer is used, which is not looked into while all updates are stopped. -/
def updateSymbols (manager : SymbolManager ι) (symbol : Text) (update : Symbol → Symbol) :
    Option (SymbolManager ι) :=
  let manager := manager.index symbol
  if !manager.allEnable then some manager
  else
    match manager.symbolHash symbol with
    | some (some info) =>
        if !info.thisEnable then some manager
        else some (manager.forSymbols info.symbols update)
    | _ => none

/-- The price goes to the symbols of the name. -/
def updatePrice (manager : SymbolManager ι) (symbol : Text) (price : ℚ) :
    Option (SymbolManager ι) :=
  manager.updateSymbols symbol (·.updatePrice price)

/-- The quote goes to the symbols of the name. -/
def updateQuote (manager : SymbolManager ι) (symbol : Text) (bidSize : ℕ) (bid : ℚ) (askSize : ℕ)
    (ask : ℚ) : Option (SymbolManager ι) :=
  manager.updateSymbols symbol (·.updateQuoteData bidSize bid askSize ask)

/-- `OnTradeList` and `OnQuote`, with the manager's slot. -/
def receive (manager : SymbolManager ι) : MarketMessage → Option (SymbolManager ι)
  | .tradeList ticker price => manager.updatePrice (symbolOf ticker) price
  | .quote ticker bidSize bid askSize ask =>
      manager.updateQuote (symbolOf ticker) bidSize bid askSize ask

/-- The objects after an update of some of them. -/
def updated (symbols : List ι) (update : Symbol → Symbol) (symbol : ι → Symbol) : ι → Symbol :=
  fun i => if i ∈ symbols then update (symbol i) else symbol i

/-- Messages with the text a symbol is subscribed with find an entry, and update
the objects of that name once and no others. -/
structure Reaches (manager : SymbolManager ι) (map : UserSymbolsMap ι)
    (configured : ConfiguredSymbol ι) : Prop where
  key : ∃ info, manager.symbolHash (symbolOf configured.ticker) = some (some info)
  trade : ∀ price, ∃ after, manager.receive (.tradeList configured.ticker price) = some after ∧
    after.symbol =
      updated (registered map.configured configured.name) (·.updatePrice price) manager.symbol
  quote : ∀ bidSize bid askSize ask, ∃ after,
    manager.receive (.quote configured.ticker bidSize bid askSize ask) = some after ∧
      after.symbol =
        updated (registered map.configured configured.name)
          (·.updateQuoteData bidSize bid askSize ask) manager.symbol

/-! ## Names -/

omit [DecidableEq ι] in
/-- Exactly the names without a dot are recovered. -/
theorem symbolOf_ticker_iff (configured : ConfiguredSymbol ι) :
    symbolOf configured.ticker = configured.name ↔ '.' ∉ configured.name := by
  unfold symbolOf ConfiguredSymbol.ticker
  constructor
  · intro recovered dotted
    rw [← recovered] at dotted
    have noDot := List.all_eq_true.mp List.all_takeWhile '.' dotted
    simp at noDot
  · intro noDot
    rw [List.takeWhile_append_of_pos, List.takeWhile_cons_of_neg (by simp), List.append_nil]
    intro c isLetter
    simpa using fun dot : c = '.' => noDot (dot ▸ isLetter)

/-! ## Loading -/

section Load

omit [DecidableEq ι]

variable {manager : SymbolManager ι}

/-- The entries under the names of some symbols. -/
def hashOf (configured : List (ConfiguredSymbol ι)) (name : Text) :
    Option (Option (SymbolInfo ι)) :=
  if registered configured name = [] then none
  else some (some { name, symbols := registered configured name, thisEnable := true })

theorem registered_concat (loaded : List (ConfiguredSymbol ι)) (configured : ConfiguredSymbol ι)
    (name : Text) :
    registered (loaded ++ [configured]) name =
      registered loaded name ++ if configured.name = name then [configured.symbol] else [] := by
  unfold registered
  rw [List.filter_append, List.map_append, List.filter_singleton]
  by_cases same : configured.name = name <;> simp [same]

/-- A symbol is added to the entry under its name. -/
theorem load_symbolHash {loaded : List (ConfiguredSymbol ι)}
    (hash : manager.symbolHash = hashOf loaded) (configured : ConfiguredSymbol ι) :
    (manager.load configured).symbolHash = hashOf (loaded ++ [configured]) := by
  have entry : manager.symbolHash configured.name = hashOf loaded configured.name :=
    congrFun hash _
  have added : (manager.load configured).symbolHash =
      Function.update manager.symbolHash configured.name
        (some (some
          { name := configured.name
            symbols := registered loaded configured.name ++ [configured.symbol]
            thisEnable := true })) := by
    unfold hashOf at entry
    unfold load registerSymbol
    split at entry
    · rename_i first
      simp only [entry, Function.update_self, Function.update_idem, first]
    · simp only [entry]
  rw [added, hash]
  funext name
  by_cases same : name = configured.name
  · subst same
    rw [Function.update_self, hashOf, registered_concat, if_pos rfl, if_neg (by simp)]
  · rw [Function.update_of_ne same, hashOf, hashOf, registered_concat, if_neg (Ne.symm same),
      List.append_nil]

theorem load_subscribed (manager : SymbolManager ι) (configured : ConfiguredSymbol ι) :
    (manager.load configured).subscribed =
      manager.subscribed ++
        if manager.symbolHash configured.name = none then [configured.ticker] else [] := by
  unfold load registerSymbol
  cases entry : manager.symbolHash configured.name with
  | none => simp
  | some info => cases info <;> simp [entry]

theorem load_allEnable (manager : SymbolManager ι) (configured : ConfiguredSymbol ι) :
    (manager.load configured).allEnable = manager.allEnable := by
  unfold load registerSymbol
  dsimp only
  split <;> split <;> rfl

/-- After the constructor every name has its entry, with all its objects. -/
theorem new_loaded (map : UserSymbolsMap ι) (symbol : ι → Symbol) :
    (new map symbol).symbolHash = hashOf map.configured ∧ (new map symbol).allEnable = true := by
  unfold new
  generalize map.configured = configured
  induction configured using List.reverseRecOn with
  | nil => exact ⟨rfl, rfl⟩
  | append_singleton loaded configured ih =>
      rw [List.foldl_append]
      exact ⟨load_symbolHash ih.1 configured, (load_allEnable _ _).trans ih.2⟩

theorem mem_of_registered_ne_nil {configured : List (ConfiguredSymbol ι)} {name : Text}
    (known : registered configured name ≠ []) : ∃ first ∈ configured, first.name = name := by
  obtain ⟨symbol, isRegistered⟩ := List.exists_mem_of_ne_nil _ known
  obtain ⟨first, named, -⟩ := List.mem_map.mp isRegistered
  obtain ⟨member, named⟩ := List.mem_filter.mp named
  exact ⟨first, member, by simpa using named⟩

/-- Every name is subscribed, with the exchange of one of its symbols. -/
theorem new_subscribed (map : UserSymbolsMap ι) (symbol : ι → Symbol) :
    ∀ configured ∈ map.configured, ∃ first ∈ map.configured,
      first.name = configured.name ∧ first.ticker ∈ (new map symbol).subscribed := by
  suffices loads : ∀ all : List (ConfiguredSymbol ι),
      (all.foldl load (empty symbol)).symbolHash = hashOf all ∧
        ∀ configured ∈ all, ∃ first ∈ all, first.name = configured.name ∧
          first.ticker ∈ (all.foldl load (empty symbol)).subscribed from
    (loads map.configured).2
  intro all
  induction all using List.reverseRecOn with
  | nil => exact ⟨rfl, fun configured member => nomatch member⟩
  | append_singleton loaded next ih =>
      obtain ⟨hash, subscribed⟩ := ih
      rw [List.foldl_append, List.foldl_cons, List.foldl_nil, load_subscribed]
      refine ⟨load_symbolHash hash next, fun configured member => ?_⟩
      have earlier : ∀ configured ∈ loaded, ∃ first ∈ loaded ++ [next],
          first.name = configured.name ∧ first.ticker ∈
            (loaded.foldl load (empty symbol)).subscribed ++
              if (loaded.foldl load (empty symbol)).symbolHash next.name = none then [next.ticker]
              else [] := by
        intro configured member
        obtain ⟨first, isLoaded, named, isSubscribed⟩ := subscribed configured member
        exact ⟨first, List.mem_append_left _ isLoaded, named, List.mem_append_left _ isSubscribed⟩
      rcases List.mem_append.mp member with old | new
      · exact earlier configured old
      · obtain rfl := List.mem_singleton.mp new
        by_cases unknown : (loaded.foldl load (empty symbol)).symbolHash configured.name = none
        · refine ⟨configured, List.mem_append_right _ (List.mem_singleton_self _), rfl, ?_⟩
          rw [if_pos unknown]
          exact List.mem_append_right _ (List.mem_singleton_self _)
        · have known : registered loaded configured.name ≠ [] := by
            rw [hash, hashOf] at unknown
            exact fun none => unknown (if_pos none)
          obtain ⟨first, isLoaded, named⟩ := mem_of_registered_ne_nil known
          obtain ⟨other, isOther, same, isSubscribed⟩ := earlier first isLoaded
          exact ⟨other, isOther, same.trans named, isSubscribed⟩

end Load

/-! ## Messages -/

section Messages

variable {manager after : SymbolManager ι}

/-- Every name keeps its entry, and updates are not stopped. -/
structure Loaded (manager : SymbolManager ι) (map : UserSymbolsMap ι) : Prop where
  hash : manager.symbolHash = hashOf map.configured
  allEnable : manager.allEnable = true

omit [DecidableEq ι] in
theorem index_of_some {name : Text} {info : Option (SymbolInfo ι)}
    (entry : manager.symbolHash name = some info) : manager.index name = manager := by
  unfold index
  rw [entry]

omit [DecidableEq ι] in
@[simp]
theorem index_allEnable (manager : SymbolManager ι) (name : Text) :
    (manager.index name).allEnable = manager.allEnable := by
  unfold index
  split <;> rfl

omit [DecidableEq ι] in
@[simp]
theorem index_symbol (manager : SymbolManager ι) (name : Text) :
    (manager.index name).symbol = manager.symbol := by
  unfold index
  split <;> rfl

/-- An update goes to the entry's objects, or the program ends. -/
theorem Loaded.updateSymbols {map : UserSymbolsMap ι} (loaded : manager.Loaded map) (name : Text)
    (update : Symbol → Symbol) :
    manager.updateSymbols name update =
      if registered map.configured name = [] then none
      else some (manager.forSymbols (registered map.configured name) update) := by
  have entry := congrFun loaded.hash name
  unfold hashOf at entry
  unfold SymbolManager.updateSymbols
  dsimp only
  rw [index_allEnable, loaded.allEnable, if_neg (by decide)]
  split at entry
  · rename_i unknown
    rw [if_pos unknown]
    unfold index
    rw [entry]
    simp only [Function.update_self]
  · rename_i known
    rw [if_neg known, index_of_some entry, entry]
    rfl

/-- The objects are updated one after the other. -/
theorem forSymbols_symbol (manager : SymbolManager ι) {symbols : List ι} (distinct : symbols.Nodup)
    (update : Symbol → Symbol) :
    (manager.forSymbols symbols update).symbol = updated symbols update manager.symbol := by
  unfold forSymbols
  dsimp only
  generalize manager.symbol = symbol
  induction symbols generalizing symbol with
  | nil =>
      funext i
      simp [updated]
  | cons first rest ih =>
      obtain ⟨fresh, distinct⟩ := List.nodup_cons.mp distinct
      rw [List.foldl_cons, ih distinct]
      funext i
      unfold updated
      by_cases same : i = first
      · subst same
        simp [fresh]
      · simp [same]

/-- Each name has its objects once. -/
theorem registered_nodup {ι : Type} (map : UserSymbolsMap ι) (name : Text) :
    (registered map.configured name).Nodup :=
  map.symbols.sublist (List.filter_sublist.map _)

omit [DecidableEq ι] in
/-- An object belongs to its own name only. -/
theorem mem_registered_iff {map : UserSymbolsMap ι} {configured : ConfiguredSymbol ι}
    (member : configured ∈ map.configured) (name : Text) :
    configured.symbol ∈ registered map.configured name ↔ configured.name = name := by
  unfold registered
  constructor
  · intro isRegistered
    obtain ⟨other, named, same⟩ := List.mem_map.mp isRegistered
    obtain ⟨otherMember, named⟩ := List.mem_filter.mp named
    obtain rfl := List.inj_on_of_nodup_map map.symbols otherMember member same
    simpa using named
  · rintro rfl
    exact List.mem_map.mpr ⟨configured, List.mem_filter.mpr ⟨member, by simp⟩, rfl⟩

/-- A message that the program survives leaves the entries. -/
theorem Loaded.receive {map : UserSymbolsMap ι} (loaded : manager.Loaded map)
    (message : MarketMessage) (received : manager.receive message = some after) :
    after.Loaded map := by
  have kept (name : Text) (update : Symbol → Symbol)
      (updates : manager.updateSymbols name update = some after) : after.Loaded map := by
    rw [loaded.updateSymbols] at updates
    split at updates
    · cases updates
    · cases updates
      exact ⟨loaded.hash, loaded.allEnable⟩
  cases message with
  | tradeList => exact kept _ _ received
  | quote => exact kept _ _ received

/-- So does any number of them. -/
theorem Loaded.receives {map : UserSymbolsMap ι} (loaded : manager.Loaded map)
    (messages : List MarketMessage)
    (received : messages.foldlM SymbolManager.receive manager = some after) :
    after.Loaded map := by
  induction messages generalizing manager with
  | nil =>
      cases received
      exact loaded
  | cons message rest ih =>
      rw [List.foldlM_cons, Option.bind_eq_bind, Option.bind_eq_some_iff] at received
      obtain ⟨next, first, later⟩ := received
      exact ih (loaded.receive message first) later

omit [DecidableEq ι] in
theorem updatePrice_closePrice (symbol : Symbol) (price : ℚ) :
    (symbol.updatePrice price).bar.closePrice = price := by
  unfold Symbol.updatePrice
  split <;> rfl

/-- A trade at another price than the last one shows which objects it reached. -/
theorem Loaded.recovers {map : UserSymbolsMap ι} (loaded : manager.Loaded map)
    {configured : ConfiguredSymbol ι} (member : configured ∈ map.configured)
    (reaches : manager.Reaches map configured) : symbolOf configured.ticker = configured.name := by
  by_contra cut
  obtain ⟨after, received, same⟩ :=
    reaches.trade ((manager.symbol configured.symbol).bar.closePrice + 1)
  have missed : configured.symbol ∉ registered map.configured (symbolOf configured.ticker) :=
    fun hit => cut ((mem_registered_iff member _).mp hit).symm
  have updates := loaded.updateSymbols (symbolOf configured.ticker)
    (·.updatePrice ((manager.symbol configured.symbol).bar.closePrice + 1))
  rw [show manager.updateSymbols _ _ = some after from received] at updates
  split at updates
  · cases updates
  · cases updates
    rw [forSymbols_symbol manager (registered_nodup map _)] at same
    have price := congrArg (fun symbol : Symbol => symbol.bar.closePrice)
      (congrFun same configured.symbol)
    unfold updated at price
    rw [if_neg missed, if_pos ((mem_registered_iff member _).mpr rfl)] at price
    dsimp only at price
    rw [updatePrice_closePrice] at price
    linarith

/-- A message that is looked up under the configured name reaches what is
registered there. -/
theorem Loaded.reaches {map : UserSymbolsMap ι} (loaded : manager.Loaded map)
    {configured : ConfiguredSymbol ι} (member : configured ∈ map.configured)
    (recovered : symbolOf configured.ticker = configured.name) :
    manager.Reaches map configured := by
  have known : registered map.configured configured.name ≠ [] :=
    List.ne_nil_of_mem ((mem_registered_iff member _).mpr rfl)
  have updates (update : Symbol → Symbol) : ∃ after,
      manager.updateSymbols (symbolOf configured.ticker) update = some after ∧
        after.symbol =
          updated (registered map.configured configured.name) update manager.symbol := by
    rw [recovered, loaded.updateSymbols, if_neg known]
    exact ⟨_, rfl, forSymbols_symbol manager (registered_nodup map _) update⟩
  have entry := congrFun loaded.hash configured.name
  rw [hashOf, if_neg known, ← recovered] at entry
  exact ⟨⟨_, entry⟩, fun price => updates _, fun bidSize bid askSize ask => updates _⟩

/-- Market data reaches a configured symbol, after any messages that the program
survived, exactly if its name has no dot. -/
theorem reaches_iff (map : UserSymbolsMap ι) (symbol : ι → Symbol) (messages : List MarketMessage)
    (received : messages.foldlM receive (new map symbol) = some manager)
    {configured : ConfiguredSymbol ι} (member : configured ∈ map.configured) :
    manager.Reaches map configured ↔ '.' ∉ configured.name := by
  have start := new_loaded map symbol
  have loaded := Loaded.receives ⟨start.1, start.2⟩ messages received
  rw [← symbolOf_ticker_iff]
  exact ⟨loaded.recovers member, loaded.reaches member⟩

/-- Two users trade one share, on different exchanges. -/
def shared : UserSymbolsMap Bool where
  users :=
    [(['A'], [{ name := ['I', 'B', 'M'], exchange := ['N'], symbol := true }]),
      (['B'], [{ name := ['I', 'B', 'M'], exchange := ['Q'], symbol := false }])]
  names := by decide
  symbols := by decide

/-- A quote of the first user's exchange reaches both. -/
theorem reaches_shared :
    (new shared fun _ => .new ⟨0, 0, 0, 0⟩).Reaches shared
      { name := ['I', 'B', 'M'], exchange := ['N'], symbol := true } :=
  (reaches_iff shared _ [] rfl (List.mem_cons_self ..)).mpr (by decide)

/-- A share of the second class. -/
def secondClass : UserSymbolsMap Unit where
  users := [(['A'], [{ name := ['B', 'R', 'K', '.', 'B'], exchange := ['N'], symbol := () }])]
  names := by decide
  symbols := by decide

/-- Its messages are looked up under `BRK`, where there is nothing. -/
theorem not_reaches_secondClass :
    ¬ ∀ (map : UserSymbolsMap Unit) (symbol : Unit → Symbol) (messages : List MarketMessage)
        (manager : SymbolManager Unit), messages.foldlM receive (new map symbol) = some manager →
          ∀ configured ∈ map.configured, manager.Reaches map configured := by
  intro all
  have reaches := all secondClass (fun _ => .new ⟨0, 0, 0, 0⟩) [] _ rfl
    { name := ['B', 'R', 'K', '.', 'B'], exchange := ['N'], symbol := () } (List.mem_cons_self ..)
  obtain ⟨info, entry⟩ := reaches.key
  have nothing : hashOf secondClass.configured ['B', 'R', 'K'] = none := by decide
  rw [(new_loaded secondClass _).1] at entry
  exact absurd (nothing.symm.trans entry) nofun

end Messages

end SymbolManager

end TradingApp.Market

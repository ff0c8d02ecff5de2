import TradingApp.Command.CommandLine
import TradingApp.Instance.Switches
import TradingApp.Transition.Components

/-!
# Commands and the trade instances

Every account has an instance for each of its symbols, with a thread of its own.
The manager of the trade accounts goes through the accounts and their instances
and calls those that a command names; an empty text names all of them.

What an instance does in a run is what it would do alone, with the commands that
name it.  Its switches are as the last of these left them.

An instance that crashes ends the program.  Here the others go on, so that their
runs are all those of the program, and more.
-/

namespace TradingApp.Command

open TradingApp.Instance TradingApp.Transition

/-- An account's identifier and the symbols of its instances. -/
structure TradeAccount where
  id : Text
  symbols : List Text
  distinct : symbols.Nodup

/-- The accounts, in the order they are gone through. -/
structure TradeAccountMap where
  accounts : List TradeAccount
  distinct : (accounts.map (·.id)).Nodup

/-- The instance of an account and a symbol. -/
structure Key where
  account : Text
  symbol : Text
deriving DecidableEq, Repr

/-- The instances of all accounts. -/
abbrev Instances : Type :=
  Key → Context

/-- The replies that a stop gets for the orders of each instance. -/
abbrev Replies : Type :=
  Key → List Reply

namespace TradeAccount

variable (account : TradeAccount)

/-- The instances of the account. -/
def tradeInstances : List Key :=
  account.symbols.map fun symbol => ⟨account.id, symbol⟩

instance (symbol : Text) : Decidable (symbol ∈ account.symbols) :=
  decidable_of_iff (account.symbols.any (· = symbol) = true) (by simp)

/-- Go through the instances of an account and call those whose symbol passes a
test. -/
def forInstances (p : Text → Prop) [DecidablePred p] (label : Key → Label) :
    Instances → Instances :=
  visit (fun key => p key.symbol) (fun key context => context.step (label key))
    account.tradeInstances

/-- Look up the instance of a symbol and call it. -/
def forSymbol (symbol : Text) (label : Key → Label) (instances : Instances) : Instances :=
  if symbol ∈ account.symbols then
    Function.update instances ⟨account.id, symbol⟩
      ((instances ⟨account.id, symbol⟩).step (label ⟨account.id, symbol⟩))
  else instances

/-- Every instance of the account is stopped. -/
def stop (replies : Replies) : Instances → Instances :=
  account.forInstances (fun _ => True) fun key => .stopAction (replies key)

/-- Every instance of the account is started again. -/
def start : Instances → Instances :=
  account.forInstances (fun _ => True) fun _ => .resume

/-- The instance of a symbol is stopped. -/
def stopSymbol (symbol : Text) (replies : Replies) : Instances → Instances :=
  account.forSymbol symbol fun key => .stopAction (replies key)

/-- The instance of a symbol is started again. -/
def startSymbol (symbol : Text) : Instances → Instances :=
  account.forSymbol symbol fun _ => .resume

/-- An empty symbol stands for all of them. -/
def enablePanicClose (symbol : Text) : Instances → Instances :=
  account.forInstances (fun other => symbol = [] ∨ symbol = other) fun _ => .enablePanicClose

/-- An empty symbol stands for all of them. -/
def disablePanicClose (symbol : Text) : Instances → Instances :=
  account.forInstances (fun other => symbol = [] ∨ symbol = other) fun _ => .disablePanicClose

/-- An empty symbol stands for all of them. -/
def enableSoftClose (symbol : Text) : Instances → Instances :=
  account.forInstances (fun other => symbol = [] ∨ symbol = other) fun _ => .enableSoftClose

/-- An empty symbol stands for all of them. -/
def disableSoftClose (symbol : Text) : Instances → Instances :=
  account.forInstances (fun other => symbol = [] ∨ symbol = other) fun _ => .disableSoftClose

/-- Every instance takes the other of its two estimates. -/
def avicennaToggle : Instances → Instances :=
  account.forInstances (fun _ => True) fun _ => .avicennaToggle

end TradeAccount

namespace TradeAccountMap

variable (map : TradeAccountMap)

/-- The instances of all accounts, in the order they are gone through. -/
def tradeInstances : List Key :=
  map.accounts.flatMap (·.tradeInstances)

/-- Go through the accounts whose identifier passes a test. -/
def forAccounts (p : Text → Prop) [DecidablePred p]
    (body : TradeAccount → Instances → Instances) (instances : Instances) : Instances :=
  map.accounts.foldl
    (fun instances account => if p account.id then body account instances else instances) instances

/-- Look up an account; an identifier that nobody has is reported. -/
def forAccount (id : Text) (body : TradeAccount → Instances → Instances) (instances : Instances) :
    Instances :=
  match map.accounts.find? (·.id = id) with
  | some account => body account instances
  | none => instances

/-- `TradeAccountManager::panicClose`. -/
def panicClose (id symbol : Text) (enable : Bool) : Instances → Instances :=
  map.forAccounts (fun other => id = [] ∨ id = other) fun account =>
    if enable then account.enablePanicClose symbol else account.disablePanicClose symbol

/-- `TradeAccountManager::softClose`. -/
def softClose (id symbol : Text) (enable : Bool) : Instances → Instances :=
  map.forAccounts (fun other => id = [] ∨ id = other) fun account =>
    if enable then account.enableSoftClose symbol else account.disableSoftClose symbol

/-- `TradeAccountManager::avicennaToggle`. -/
def avicennaToggle (id : Text) : Instances → Instances :=
  if id = [] then map.forAccounts (fun _ => True) (·.avicennaToggle)
  else map.forAccount id (·.avicennaToggle)

/-- `TradeAccountManager::operator()`, for a command that was understood. -/
def operator (replies : Replies) : AccountRequest → Instances → Instances
  | .stopAll => map.forAccounts (fun _ => True) (·.stop replies)
  | .stop id none => map.forAccount id (·.stop replies)
  | .stop id (some symbol) => map.forAccount id (·.stopSymbol symbol replies)
  | .startAll => map.forAccounts (fun _ => True) (·.start)
  | .start id none => map.forAccount id (·.start)
  | .start id (some symbol) => map.forAccount id (·.startSymbol symbol)
  | .panicClose id symbol enable => map.panicClose id symbol enable
  | .softClose id symbol enable => map.softClose id symbol enable
  | .avicennaToggle id => map.avicennaToggle id

end TradeAccountMap

/-- A command line, or what the thread of an instance does: it makes a pass, or
it is called back by its orders. -/
inductive ControlLabel where
  | line (command : { command : Text // StaysInside command }) (replies : Replies)
  | pass (key : Key) (quote : Quote) (replies : List Reply)
  | callback (key : Key) (call : Instance.Callback)

/-- What a command asks of the manager of the trade accounts. -/
def accountRequest (command : Text) : Option AccountRequest :=
  match dispatch command with
  | .ok (some (.account request)) => some request
  | _ => none

namespace TradeAccountMap

/-- A command goes through the accounts; a pass or a callback is one instance's
own. -/
def step (map : TradeAccountMap) (instances : Instances) : ControlLabel → Instances
  | .line command replies =>
      match accountRequest command.val with
      | some request => map.operator replies request instances
      | none => instances
  | .pass key quote replies =>
      Function.update instances key ((instances key).step (.pass quote replies))
  | .callback key call =>
      Function.update instances key ((instances key).step (.callback call))

end TradeAccountMap

/-! ## What an instance is told -/

/-- What a command makes of the instance of an account and a symbol. -/
def AccountRequest.told (key : Key) (replies : Replies) : AccountRequest → Option Label
  | stopAll => some (.stopAction (replies key))
  | stop id none => if id = key.account then some (.stopAction (replies key)) else none
  | stop id (some symbol) =>
      if id = key.account ∧ symbol = key.symbol then some (.stopAction (replies key)) else none
  | startAll => some .resume
  | start id none => if id = key.account then some .resume else none
  | start id (some symbol) => if id = key.account ∧ symbol = key.symbol then some .resume else none
  | panicClose id symbol enable =>
      if (id = [] ∨ id = key.account) ∧ (symbol = [] ∨ symbol = key.symbol) then
        some (if enable then .enablePanicClose else .disablePanicClose)
      else none
  | softClose id symbol enable =>
      if (id = [] ∨ id = key.account) ∧ (symbol = [] ∨ symbol = key.symbol) then
        some (if enable then .enableSoftClose else .disableSoftClose)
      else none
  | avicennaToggle id => if id = [] ∨ id = key.account then some .avicennaToggle else none

/-- What a label of the system is for the instance of an account and a symbol. -/
def ControlLabel.own (key : Key) : ControlLabel → Option Label
  | line command replies => (accountRequest command.val).bind (·.told key replies)
  | pass other quote replies => if other = key then some (.pass quote replies) else none
  | callback other call => if other = key then some (.callback call) else none

/-! ## Loops over the accounts -/

section Loops

theorem TradeAccount.nodup_tradeInstances (account : TradeAccount) :
    account.tradeInstances.Nodup :=
  account.distinct.map fun _ _ same => congrArg Key.symbol same

theorem TradeAccount.mem_tradeInstances {account : TradeAccount} {key : Key} :
    key ∈ account.tradeInstances ↔ key.account = account.id ∧ key.symbol ∈ account.symbols := by
  unfold TradeAccount.tradeInstances
  constructor
  · intro member
    obtain ⟨symbol, listed, rfl⟩ := List.mem_map.mp member
    exact ⟨rfl, listed⟩
  · rintro ⟨own, listed⟩
    exact List.mem_map.mpr ⟨key.symbol, listed, by rw [← own]⟩

variable {map : TradeAccountMap} {instances : Instances} {key : Key}

theorem TradeAccountMap.nodup_tradeInstances (map : TradeAccountMap) :
    map.tradeInstances.Nodup := by
  unfold TradeAccountMap.tradeInstances
  rw [List.nodup_flatMap]
  refine ⟨fun account _ => account.nodup_tradeInstances, ?_⟩
  refine (List.pairwise_map.mp map.distinct).imp fun {first second} different => ?_
  intro key inFirst inSecond
  rw [TradeAccount.mem_tradeInstances] at inFirst inSecond
  exact different (inFirst.1.symm.trans inSecond.1)

/-- The loop over the accounts and theirs over the instances are one. -/
theorem forAccounts_eq_visit (p q : Text → Prop) [DecidablePred p] [DecidablePred q]
    (label : Key → Label) :
    map.forAccounts p (fun account => account.forInstances q label) instances =
      visit (fun key => p key.account ∧ q key.symbol) (fun key context => context.step (label key))
        map.tradeInstances instances := by
  unfold TradeAccountMap.forAccounts TradeAccountMap.tradeInstances
  induction map.accounts generalizing instances with
  | nil => rfl
  | cons account rest ih =>
      rw [List.foldl_cons, ih, List.flatMap_cons, visit_append]
      congr 1
      unfold TradeAccount.forInstances
      split
      · rename_i selected
        refine visit_congr _ _ _ _ fun key member => ?_
        rw [(TradeAccount.mem_tradeInstances.mp member).1]
        exact (and_iff_right selected).symm
      · rename_i notSelected
        refine (visit_of_forall_not _ _ _ fun key member both => ?_).symm
        exact notSelected ((TradeAccount.mem_tradeInstances.mp member).1 ▸ both.1)

/-- An instance makes the call if its account and its symbol pass the tests. -/
theorem forAccounts_apply (member : key ∈ map.tradeInstances) (p q : Text → Prop)
    [DecidablePred p] [DecidablePred q] (label : Key → Label) :
    map.forAccounts p (fun account => account.forInstances q label) instances key =
      if p key.account ∧ q key.symbol then (instances key).step (label key) else instances key := by
  rw [forAccounts_eq_visit, visit_apply _ _ _ map.nodup_tradeInstances]
  simp only [member, true_and]

/-- A look-up finds the account of an instance. -/
theorem find_account (member : key ∈ map.tradeInstances) :
    ∃ account, map.accounts.find? (·.id = key.account) = some account ∧ account.id = key.account ∧
      key ∈ account.tradeInstances := by
  obtain ⟨account, listed, own⟩ := List.mem_flatMap.mp member
  have named : account.id = key.account := (TradeAccount.mem_tradeInstances.mp own).1.symm
  refine ⟨account, ?_, named, own⟩
  rcases found : map.accounts.find? (·.id = key.account) with _ | other
  · have missed := List.find?_eq_none.mp found account listed
    simp [named] at missed
  · have same : other.id = account.id := by
      simpa [named] using List.find?_some found
    refine found.trans (congrArg some ?_)
    exact List.inj_on_of_nodup_map map.distinct (List.mem_of_find?_eq_some found) listed same

/-- Another account does not touch an instance. -/
theorem forAccount_apply (member : key ∈ map.tradeInstances) {id : Text}
    {body : TradeAccount → Instances → Instances} (label : Label) (p : Prop) [Decidable p]
    (own : ∀ account : TradeAccount, key ∈ account.tradeInstances →
      body account instances key = if p then (instances key).step label else instances key)
    (other : ∀ account : TradeAccount, account.id ≠ key.account →
      body account instances key = instances key) :
    map.forAccount id body instances key =
      if id = key.account ∧ p then (instances key).step label else instances key := by
  unfold TradeAccountMap.forAccount
  by_cases same : id = key.account
  · subst same
    obtain ⟨account, found, _, inside⟩ := find_account member
    rw [found]
    dsimp only
    rw [own account inside]
    simp only [true_and]
  · rw [if_neg fun both => same both.1]
    cases found : map.accounts.find? (·.id = id) with
    | none => rfl
    | some account =>
        have named : account.id = id := by
          simpa using List.find?_some found
        exact other account fun own => same (named.symm.trans own)

/-- A call of all instances of an account. -/
theorem forInstances_apply (account : TradeAccount) (p : Text → Prop) [DecidablePred p]
    (label : Key → Label) :
    account.forInstances p label instances key =
      if key ∈ account.tradeInstances ∧ p key.symbol then (instances key).step (label key)
      else instances key :=
  visit_apply _ _ _ account.nodup_tradeInstances key

/-- A call of all instances of the account that has the identifier. -/
theorem forAccount_forInstances_apply (member : key ∈ map.tradeInstances) (id : Text)
    (label : Key → Label) :
    map.forAccount id (fun account => account.forInstances (fun _ => True) label) instances key =
      if id = key.account then (instances key).step (label key) else instances key := by
  rw [forAccount_apply member (label key) True]
  · simp only [and_true]
  · intro account inside
    rw [forInstances_apply]
    simp only [inside, true_and]
  · intro account different
    rw [forInstances_apply, if_neg]
    exact fun both => different (TradeAccount.mem_tradeInstances.mp both.1).1.symm

/-- A call of one instance of it. -/
theorem forAccount_forSymbol_apply (member : key ∈ map.tradeInstances) (id symbol : Text)
    (label : Key → Label) :
    map.forAccount id (fun account => account.forSymbol symbol label) instances key =
      if id = key.account ∧ symbol = key.symbol then (instances key).step (label key)
      else instances key := by
  apply forAccount_apply member (label key) (symbol = key.symbol)
  · intro account inside
    obtain ⟨named, listed⟩ := TradeAccount.mem_tradeInstances.mp inside
    unfold TradeAccount.forSymbol
    by_cases same : symbol = key.symbol
    · subst same
      have whole : (⟨account.id, key.symbol⟩ : Key) = key := by rw [← named]
      rw [if_pos listed, whole, Function.update_self, if_pos rfl]
    · rw [if_neg same]
      split
      · exact Function.update_of_ne (fun whole => same (congrArg Key.symbol whole).symm) _ _
      · rfl
  · intro account different
    unfold TradeAccount.forSymbol
    split
    · exact Function.update_of_ne (fun whole => different (congrArg Key.account whole).symm) _ _
    · rfl

end Loops

/-! ## Runs of the system -/

section Runs

variable {map : TradeAccountMap} {instances : Instances} {key : Key}

theorem closing_apply (member : key ∈ map.tradeInstances) (id symbol : Text) (enable : Bool)
    (on off : Label) :
    map.forAccounts (fun other => id = [] ∨ id = other)
        (fun account =>
          if enable then
            account.forInstances (fun other => symbol = [] ∨ symbol = other) fun _ => on
          else account.forInstances (fun other => symbol = [] ∨ symbol = other) fun _ => off)
        instances key =
      if (id = [] ∨ id = key.account) ∧ (symbol = [] ∨ symbol = key.symbol) then
        (instances key).step (if enable then on else off)
      else instances key := by
  have calls (label : Label) :
      map.forAccounts (fun other => id = [] ∨ id = other)
          (fun account =>
            account.forInstances (fun other => symbol = [] ∨ symbol = other) fun _ => label)
          instances key =
        if (id = [] ∨ id = key.account) ∧ (symbol = [] ∨ symbol = key.symbol) then
          (instances key).step label
        else instances key :=
    forAccounts_apply member (fun other => id = [] ∨ id = other)
      (fun other => symbol = [] ∨ symbol = other) fun _ => label
  cases enable with
  | true => exact calls on
  | false => exact calls off

/-- A command makes one call of an instance that it names, and leaves the others
alone. -/
theorem operator_apply (member : key ∈ map.tradeInstances) (replies : Replies)
    (request : AccountRequest) :
    map.operator replies request instances key =
      ((request.told key replies).map (instances key).step).getD (instances key) := by
  have told (p : Prop) [Decidable p] (label : Label) :
      (if p then (instances key).step label else instances key) =
        ((if p then some label else none).map (instances key).step).getD (instances key) := by
    split <;> rfl
  have all (label : Key → Label) :
      map.forAccounts (fun _ => True)
          (fun account => account.forInstances (fun _ => True) label) instances key =
        (instances key).step (label key) := by
    rw [forAccounts_apply member, if_pos ⟨trivial, trivial⟩]
  cases request with
  | stopAll => exact all _
  | startAll => exact all _
  | stop id symbol =>
      cases symbol with
      | none => exact (forAccount_forInstances_apply member id _).trans (told _ _)
      | some symbol => exact (forAccount_forSymbol_apply member id symbol _).trans (told _ _)
  | start id symbol =>
      cases symbol with
      | none => exact (forAccount_forInstances_apply member id _).trans (told _ _)
      | some symbol => exact (forAccount_forSymbol_apply member id symbol _).trans (told _ _)
  | panicClose id symbol enable =>
      exact (closing_apply member id symbol enable _ _).trans (told _ _)
  | softClose id symbol enable =>
      exact (closing_apply member id symbol enable _ _).trans (told _ _)
  | avicennaToggle id =>
      change (if id = [] then _ else _ : Instances → Instances) instances key = _
      by_cases empty : id = []
      · subst empty
        exact all _
      · rw [if_neg empty]
        refine (forAccount_forInstances_apply member id _).trans ?_
        rw [AccountRequest.told]
        simp only [empty, false_or]
        exact told _ _

/-- A label of the system is one label of an instance, or none. -/
theorem step_apply (member : key ∈ map.tradeInstances) (label : ControlLabel) :
    map.step instances label key =
      ((label.own key).map (instances key).step).getD (instances key) := by
  have update (other : Key) (label : Label) :
      Function.update instances other ((instances other).step label) key =
        ((if other = key then some label else none).map (instances key).step).getD
          (instances key) := by
    by_cases same : other = key
    · subst same
      rw [Function.update_self, if_pos rfl]
      rfl
    · rw [Function.update_of_ne (Ne.symm same), if_neg same]
      rfl
  cases label with
  | line command replies =>
      unfold TradeAccountMap.step ControlLabel.own
      dsimp only
      cases accountRequest command.val with
      | none => rfl
      | some request => exact operator_apply member replies request
  | pass other quote replies => exact update other _
  | callback other call => exact update other _

/-- In every run of the system an instance does what it would do alone with the
labels that are for it. -/
theorem run_instance (map : TradeAccountMap) (instances : Instances)
    (labels : List ControlLabel) :
    ∀ key ∈ map.tradeInstances, run map.step instances labels key =
      run Context.step (instances key) (labels.filterMap (ControlLabel.own key)) :=
  fun _ member => run_component (fun _ => step_apply member) instances labels

/-- A pair of accounts with two symbols. -/
def twoSymbols : TradeAccountMap where
  accounts := [⟨['p'], [['A'], ['B']], by decide⟩]
  distinct := by decide

/-- A pass, and a panic close of the first symbol alone. -/
def oneClosed : List ControlLabel :=
  [.pass ⟨['p'], ['A']⟩ (.around 10) [],
    .line ⟨['p', 'c', ' ', 'p', ' ', 'A'], fun _ => by rintro ⟨⟩⟩ fun _ => [],
    .pass ⟨['p'], ['B']⟩ (.around 10) []]

theorem run_instance_oneClosed : ∃ inst,
    TradeInstance.construct .roundLots .zero nothingStored = some inst ∧
      run twoSymbols.step (fun _ => { inst, replies := [], log := [] }) oneClosed
          ⟨['p'], ['A']⟩ =
        run Context.step { inst, replies := [], log := [] }
          (oneClosed.filterMap (ControlLabel.own ⟨['p'], ['A']⟩)) := by
  have isSome : (TradeInstance.construct .roundLots .zero nothingStored).isSome = true := by
    decide +kernel
  obtain ⟨inst, constructs⟩ := Option.isSome_iff_exists.mp isSome
  exact ⟨inst, constructs, run_instance twoSymbols _ _ ⟨['p'], ['A']⟩ (by decide)⟩

/-- In every run of the system the switches of an instance that has not crashed are as
the commands that named it, and for the panic close its own passes, left them. -/
theorem run_switches (map : TradeAccountMap) (instances : Instances)
    (labels : List ControlLabel) :
    ∀ key ∈ map.tradeInstances, (run map.step instances labels key).inst.crashed = false →
      Commanded (instances key) (labels.filterMap (ControlLabel.own key))
        (run map.step instances labels key).inst := by
  intro key member alive
  rw [run_component (fun _ => step_apply member)] at alive ⊢
  exact run_commanded alive

theorem run_switches_oneClosed : ∃ inst,
    TradeInstance.construct .roundLots .zero nothingStored = some inst ∧
      Commanded { inst, replies := [], log := [] }
        (oneClosed.filterMap (ControlLabel.own ⟨['p'], ['B']⟩))
        (run twoSymbols.step (fun _ => { inst, replies := [], log := [] }) oneClosed
          ⟨['p'], ['B']⟩).inst := by
  have runs : (TradeInstance.construct .roundLots .zero nothingStored).map (fun inst =>
      (run twoSymbols.step (fun _ => { inst, replies := [], log := [] }) oneClosed
        ⟨['p'], ['B']⟩).inst.crashed) = some false := by
    decide +kernel
  obtain ⟨inst, constructs, alive⟩ := Option.map_eq_some_iff.mp runs
  exact ⟨inst, constructs, run_switches twoSymbols
    (fun _ => { inst, replies := [], log := [] }) oneClosed ⟨['p'], ['B']⟩ (by decide) alive⟩

end Runs

end TradingApp.Command

import TradingApp.Command.CommandLine
import TradingApp.Market.SymbolManager
import TradingApp.Transition.LastWrite

/-!
# Stopping and restarting updates

The commands `ss` and `rs` stop the updates of all symbols or of those with a
name, and let them through again.  A message that is stopped is lost: nothing
keeps it for the restart.

So a symbol hears the messages about its name that came while both switches were
on, in their order, and all users of a name hear the same.  A message about a
name that nobody has ends the program, unless all updates are stopped: then it only
leaves an entry, and a later command for that name ends the program instead.
-/

namespace TradingApp.Market

open TradingApp.Command TradingApp.Transition

/-- What reaches the symbols: messages, commands, and the calls of a symbol's
timer threads and of the thread that trades it. -/
inductive GateLabel (ι : Type) where
  | message (message : MarketMessage)
  | command (request : SymbolRequest)
  | own (symbol : ι) (call : Symbol.Call)

namespace MarketMessage

/-- The name a message is looked up under. -/
def name : MarketMessage → Text
  | tradeList ticker _ => symbolOf ticker
  | quote ticker _ _ _ _ => symbolOf ticker

/-- What it makes of a symbol. -/
def call : MarketMessage → Symbol.Call
  | tradeList _ price => .trade price
  | quote _ bidSize bid askSize ask => .quote bidSize bid askSize ask

end MarketMessage

namespace SymbolManager

variable {ι : Type}

/-- The name is looked up with `find`; what is found is used. -/
def setEnable (manager : SymbolManager ι) (symbol : Text) (enable : Bool) :
    Option (SymbolManager ι) :=
  match manager.symbolHash symbol with
  | none => some manager
  | some none => none
  | some (some info) =>
      some
        { manager with
          symbolHash := Function.update manager.symbolHash symbol
            (some (some { info with thisEnable := enable })) }

/-- `SymbolManager::operator()`, for a command that was understood. -/
def operator (manager : SymbolManager ι) : SymbolRequest → Option (SymbolManager ι)
  | .enableAll enable => some { manager with allEnable := enable }
  | .enable symbol enable => manager.setEnable symbol enable

variable [DecidableEq ι]

/-- The program ends where a null pointer is used. -/
def step (manager : SymbolManager ι) : GateLabel ι → Option (SymbolManager ι)
  | .message message => manager.receive message
  | .command request => manager.operator request
  | .own symbol call =>
      some
        { manager with
          symbol := Function.update manager.symbol symbol ((manager.symbol symbol).step call) }

/-- Trades and quotes are handled alike. -/
theorem receive_eq (manager : SymbolManager ι) (message : MarketMessage) :
    manager.receive message = manager.updateSymbols message.name (·.step message.call) := by
  cases message <;> rfl

end SymbolManager

/-! ## The switches -/

section Switches

variable {ι : Type}

/-- What a label writes to the switch for all symbols. -/
def allSwitch : GateLabel ι → Option Bool
  | .command (.enableAll enable) => some enable
  | _ => none

/-- What it writes to the switch of a name. -/
def nameSwitch (name : Text) : GateLabel ι → Option Bool
  | .command (.enable symbol enable) => if symbol = name then some enable else none
  | _ => none

/-- After these labels messages about a name are let through. -/
def LetThrough (name : Text) (before : List (GateLabel ι)) : Prop :=
  lastWrite allSwitch true before = true ∧ lastWrite (nameSwitch name) true before = true

instance (name : Text) (before : List (GateLabel ι)) : Decidable (LetThrough name before) :=
  inferInstanceAs (Decidable (_ ∧ _))

/-- What a symbol with a name hears of a label. -/
def hears [DecidableEq ι] (name : Text) (symbol : ι) (before : List (GateLabel ι)) :
    GateLabel ι → List Symbol.Call
  | .message message =>
      if message.name = name ∧ LetThrough name before then [message.call] else []
  | .command _ => []
  | .own other call => if other = symbol then [call] else []

/-- The label is a message about the name. -/
def IsAbout (name : Text) : GateLabel ι → Prop
  | .message message => message.name = name
  | _ => False

instance (name : Text) : DecidablePred (IsAbout (ι := ι) name)
  | .message message => inferInstanceAs (Decidable (message.name = name))
  | .command _ => inferInstanceAs (Decidable False)
  | .own _ _ => inferInstanceAs (Decidable False)

/-- After these labels, the next one uses the null pointer of a name that nobody has:
a message, unless all updates are stopped, or a command, if a message has left the
pointer before. -/
def Ends (map : UserSymbolsMap ι) (before : List (GateLabel ι)) : GateLabel ι → Prop
  | .message message =>
      registered map.configured message.name = [] ∧ lastWrite allSwitch true before = true
  | .command (.enable symbol _) =>
      registered map.configured symbol = [] ∧ ∃ label ∈ before, IsAbout symbol label
  | _ => False

instance (map : UserSymbolsMap ι) (before : List (GateLabel ι)) : DecidablePred (Ends map before)
  | .message _ => inferInstanceAs (Decidable (_ ∧ _))
  | .command (.enable _ _) => inferInstanceAs (Decidable (_ ∧ _))
  | .command (.enableAll _) => inferInstanceAs (Decidable False)
  | .own _ _ => inferInstanceAs (Decidable False)

/-- None of the labels uses a null pointer. -/
def Survives (map : UserSymbolsMap ι) (before labels : List (GateLabel ι)) : Prop :=
  EveryStep (fun before label => before ++ [label]) (fun before label => ¬ Ends map before label)
    before labels

instance (map : UserSymbolsMap ι) (before labels : List (GateLabel ι)) :
    Decidable (Survives map before labels) :=
  EveryStep.decidable before labels

end Switches

namespace SymbolManager

variable {ι : Type} {map : UserSymbolsMap ι} {start : ι → Symbol} {before : List (GateLabel ι)}
  {manager : SymbolManager ι}

/-- The entries after some labels: those of the configured symbols, with the switches
of their names, and a null pointer under every other name that was looked up. -/
def hashAfter (map : UserSymbolsMap ι) (before : List (GateLabel ι)) (name : Text) :
    Option (Option (SymbolInfo ι)) :=
  if registered map.configured name = [] then
    if ∃ label ∈ before, IsAbout name label then some none else none
  else some (some
    { name
      symbols := registered map.configured name
      thisEnable := lastWrite (nameSwitch name) true before })

variable [DecidableEq ι]

/-- The manager and the symbols after some labels. -/
structure After (map : UserSymbolsMap ι) (start : ι → Symbol) (before : List (GateLabel ι))
    (manager : SymbolManager ι) : Prop where
  hash : manager.symbolHash = hashAfter map before
  allEnable : manager.allEnable = lastWrite allSwitch true before
  symbol : ∀ configured ∈ map.configured, manager.symbol configured.symbol =
    run Symbol.step (start configured.symbol)
      (heard (hears configured.name configured.symbol) [] before)

omit [DecidableEq ι] in
theorem load_symbol (manager : SymbolManager ι) (configured : ConfiguredSymbol ι) :
    (manager.load configured).symbol = manager.symbol := by
  unfold load registerSymbol
  dsimp only
  split <;> split <;> rfl

omit [DecidableEq ι] in
/-- Loading leaves the symbols alone. -/
theorem new_symbol (map : UserSymbolsMap ι) (start : ι → Symbol) :
    (new map start).symbol = start := by
  unfold new
  generalize map.configured = all
  induction all using List.reverseRecOn with
  | nil => rfl
  | append_singleton loaded next ih =>
      rw [List.foldl_append]
      exact (load_symbol _ next).trans ih

theorem after_new (map : UserSymbolsMap ι) (start : ι → Symbol) :
    After map start [] (new map start) := by
  obtain ⟨hash, allEnable⟩ := new_loaded map start
  refine ⟨hash, allEnable, fun configured _ => ?_⟩
  rw [new_symbol]
  rfl

/-- A symbol that hears nothing of a label stays. -/
theorem After.silent (after : After map start before manager) {label : GateLabel ι}
    {configured : ConfiguredSymbol ι} (member : configured ∈ map.configured)
    (silent : hears configured.name configured.symbol before label = []) :
    manager.symbol configured.symbol =
      run Symbol.step (start configured.symbol)
        (heard (hears configured.name configured.symbol) [] (before ++ [label])) := by
  rw [heard_concat, List.nil_append, silent, List.append_nil]
  exact after.symbol configured member

/-- A symbol that hears a call makes it. -/
theorem After.call (after : After map start before manager) {label : GateLabel ι}
    {configured : ConfiguredSymbol ι} (member : configured ∈ map.configured) {call : Symbol.Call}
    (hearsCall : hears configured.name configured.symbol before label = [call]) :
    (manager.symbol configured.symbol).step call =
      run Symbol.step (start configured.symbol)
        (heard (hears configured.name configured.symbol) [] (before ++ [label])) := by
  rw [heard_concat, List.nil_append, hearsCall, run_append, ← after.symbol configured member]
  rfl

omit [DecidableEq ι] in
/-- A label that is no message about a name and no switch of it leaves its entry. -/
theorem hashAfter_concat (name : Text) (label : GateLabel ι)
    (noSwitch : nameSwitch name label = none)
    (notAbout : ¬ IsAbout name label) :
    hashAfter map (before ++ [label]) name = hashAfter map before name := by
  have heard : (∃ other ∈ before ++ [label], IsAbout name other) ↔
      ∃ other ∈ before, IsAbout name other := by
    simp [or_and_right, exists_or, notAbout]
  unfold hashAfter
  rw [lastWrite_concat_of_none _ _ noSwitch]
  simp only [heard]

omit [DecidableEq ι] in
/-- A message leaves an entry for the name it is looked up under. -/
theorem index_hashAfter (hash : manager.symbolHash = hashAfter map before)
    (message : MarketMessage) :
    (manager.index message.name).symbolHash = hashAfter map (before ++ [.message message]) := by
  have others {name : Text} (different : message.name ≠ name) :
      manager.symbolHash name = hashAfter map (before ++ [.message message]) name :=
    (congrFun hash name).trans (hashAfter_concat name (.message message) rfl different).symm
  have own : hashAfter map (before ++ [.message message]) message.name =
      if registered map.configured message.name = [] then some none
      else hashAfter map before message.name := by
    have heard : ∃ label ∈ before ++ [.message message], IsAbout message.name label :=
      ⟨.message message, by simp, rfl⟩
    unfold hashAfter
    rw [lastWrite_concat_of_none _ _ rfl, if_pos heard]
    split <;> rfl
  have entry := congrFun hash message.name
  unfold index
  split
  · rename_i info found
    funext name
    by_cases same : message.name = name
    · subst same
      rw [own, found]
      rw [found, hashAfter] at entry
      split at entry
      · rename_i unknown
        rw [if_pos unknown]
        split at entry
        · exact entry
        · cases entry
      · rename_i known
        rw [if_neg known, hashAfter, if_neg known, entry]
    · exact others same
  · rename_i missing
    have unknown : registered map.configured message.name = [] := by
      by_contra known
      rw [missing, hashAfter, if_neg known] at entry
      cases entry
    funext name
    dsimp only
    by_cases same : message.name = name
    · subst same
      rw [Function.update_self, own, if_pos unknown]
    · rw [Function.update_of_ne (Ne.symm same)]
      exact others same

theorem After.own (after : After map start before manager) (symbol : ι) (call : Symbol.Call) :
    ∃ next, manager.step (.own symbol call) = some next ∧
      After map start (before ++ [.own symbol call]) next := by
  refine ⟨_, rfl, ?_, ?_, fun configured member => ?_⟩
  · exact after.hash.trans (funext fun name => (hashAfter_concat name _ rfl id).symm)
  · exact after.allEnable.trans (lastWrite_concat_of_none _ _ rfl).symm
  · dsimp only
    by_cases same : symbol = configured.symbol
    · subst same
      rw [Function.update_self]
      exact after.call member (if_pos rfl)
    · rw [Function.update_of_ne (Ne.symm same)]
      exact after.silent member (if_neg same)

/-- A switch of a name that somebody has is in its entry; other names have no
switch. -/
theorem After.setEnable (after : After map start before manager) {symbol : Text} {enable : Bool}
    (survives : ¬ Ends map before (.command (.enable symbol enable))) :
    ∃ next, manager.setEnable symbol enable = some next ∧
      After map start (before ++ [.command (.enable symbol enable)]) next := by
  have others {name : Text} (different : symbol ≠ name) :
      manager.symbolHash name =
        hashAfter map (before ++ [.command (.enable symbol enable)]) name :=
    (congrFun after.hash name).trans
      (hashAfter_concat name (.command (.enable symbol enable)) (if_neg different) id).symm
  have all : manager.allEnable =
      lastWrite allSwitch true (before ++ [.command (.enable symbol enable)]) := by
    rw [after.allEnable, lastWrite_concat_of_none _ _ rfl]
  have entry := congrFun after.hash symbol
  unfold SymbolManager.setEnable
  by_cases unknown : registered map.configured symbol = []
  · have notHeard : ¬ ∃ label ∈ before, IsAbout symbol label :=
      fun heard => survives ⟨unknown, heard⟩
    rw [hashAfter, if_pos unknown, if_neg notHeard] at entry
    rw [entry]
    refine ⟨manager, rfl, funext fun name => ?_, all, ?_⟩
    swap
    · exact fun configured member => after.silent member rfl
    by_cases same : symbol = name
    · subst same
      have stillNot : ¬ ∃ label ∈ before ++ [.command (.enable symbol enable)],
          IsAbout symbol label := by
        rintro ⟨label, member, about⟩
        rcases List.mem_append.mp member with old | new
        · exact notHeard ⟨label, old, about⟩
        · rw [List.mem_singleton.mp new] at about
          exact about
      rw [entry, hashAfter, if_pos unknown, if_neg stillNot]
    · exact others same
  · rw [hashAfter, if_neg unknown] at entry
    rw [entry]
    refine ⟨_, rfl, funext fun name => ?_, all, fun configured member => after.silent member rfl⟩
    dsimp only
    by_cases same : symbol = name
    · subst same
      have written : lastWrite (nameSwitch symbol) true
          (before ++ [.command (.enable symbol enable)]) = enable := by
        rw [lastWrite_concat, nameSwitch, if_pos rfl]
        rfl
      rw [Function.update_self, hashAfter, if_neg unknown, written]
    · rw [Function.update_of_ne (Ne.symm same)]
      exact others same

theorem After.enableAll (after : After map start before manager) (enable : Bool) :
    After map start (before ++ [.command (.enableAll enable)])
      { manager with allEnable := enable } := by
  constructor
  · exact after.hash.trans (funext fun name => (hashAfter_concat name _ rfl id).symm)
  · rw [lastWrite_concat]
    rfl
  · intro configured member
    exact after.silent member rfl

/-- The look-up for a message changes no symbol. -/
theorem After.index (after : After map start before manager) {message : MarketMessage}
    (stopped : ¬ LetThrough message.name before) :
    After map start (before ++ [.message message]) (manager.index message.name) := by
  refine ⟨index_hashAfter after.hash message, ?_, fun configured member => ?_⟩
  · rw [index_allEnable, after.allEnable, lastWrite_concat_of_none _ _ rfl]
  · rw [index_symbol]
    refine after.silent member (if_neg ?_)
    rintro ⟨same, passes⟩
    exact stopped (same ▸ passes)

/-- A message that the program survives reaches the symbols of its name, if it is let
through. -/
theorem After.message (after : After map start before manager) {message : MarketMessage}
    (survives : ¬ Ends map before (.message message)) :
    ∃ next, manager.step (.message message) = some next ∧
      After map start (before ++ [.message message]) next := by
  change ∃ next, manager.receive message = some next ∧ _
  rw [receive_eq]
  unfold updateSymbols
  dsimp only
  rw [index_allEnable]
  cases enabled : manager.allEnable with
  | false =>
      refine ⟨_, if_pos rfl, after.index fun passes => ?_⟩
      exact Bool.false_ne_true ((enabled.symm.trans after.allEnable).trans passes.1)
  | true =>
      have on := after.allEnable.symm.trans enabled
      have known : registered map.configured message.name ≠ [] :=
        fun unknown => survives ⟨unknown, on⟩
      have entry := congrFun after.hash message.name
      rw [hashAfter, if_neg known] at entry
      have looked := index_of_some entry
      rw [if_neg (by decide), looked, entry]
      dsimp only
      cases passes : lastWrite (nameSwitch message.name) true before with
      | false =>
          rw [if_pos (by decide)]
          have later : After map start (before ++ [.message message])
              (manager.index message.name) :=
            after.index fun both => Bool.false_ne_true (passes.symm.trans both.2)
          rw [looked] at later
          exact ⟨manager, rfl, later⟩
      | true =>
          rw [if_neg (by decide)]
          have hash := index_hashAfter after.hash message
          rw [looked] at hash
          refine ⟨_, rfl, hash, ?_, fun configured member => ?_⟩
          · exact after.allEnable.trans (lastWrite_concat_of_none _ _ rfl).symm
          · rw [forSymbols_symbol manager (registered_nodup map _), updated]
            by_cases same : message.name = configured.name
            · rw [if_pos ((mem_registered_iff member _).mpr same.symm)]
              exact after.call member (if_pos ⟨same, same ▸ ⟨on, passes⟩⟩)
            · rw [if_neg fun hit => same ((mem_registered_iff member _).mp hit).symm]
              exact after.silent member (if_neg fun both => same both.1)

/-- A label that uses a null pointer ends the program. -/
theorem After.ends (after : After map start before manager) {label : GateLabel ι}
    (ends : Ends map before label) : manager.step label = none := by
  cases label with
  | own symbol call => exact absurd ends id
  | message message =>
      obtain ⟨unknown, on⟩ := ends
      have entry := congrFun (index_hashAfter after.hash message) message.name
      rw [hashAfter, if_pos unknown, if_pos ⟨.message message, by simp, rfl⟩] at entry
      change manager.receive message = none
      rw [receive_eq]
      unfold updateSymbols
      dsimp only
      rw [index_allEnable, after.allEnable, on, if_neg (by decide), entry]
  | command request =>
      cases request with
      | enableAll enable => exact absurd ends id
      | enable symbol enable =>
          obtain ⟨unknown, heard⟩ := ends
          have entry := congrFun after.hash symbol
          rw [hashAfter, if_pos unknown, if_pos heard] at entry
          change manager.setEnable symbol enable = none
          unfold SymbolManager.setEnable
          rw [entry]

theorem After.step (after : After map start before manager) {label : GateLabel ι}
    (survives : ¬ Ends map before label) :
    ∃ next, manager.step label = some next ∧ After map start (before ++ [label]) next := by
  cases label with
  | message message => exact after.message survives
  | own symbol call => exact after.own symbol call
  | command request =>
      cases request with
      | enableAll enable => exact ⟨_, rfl, after.enableAll enable⟩
      | enable symbol enable => exact after.setEnable survives

theorem After.run (after : After map start before manager) (labels : List (GateLabel ι)) :
    if Survives map before labels then
      ∃ last, labels.foldlM SymbolManager.step manager = some last ∧
        After map start (before ++ labels) last
    else labels.foldlM SymbolManager.step manager = none := by
  induction labels generalizing before manager with
  | nil =>
      have none : Survives map before [] := everyStep_nil before
      rw [if_pos none, List.append_nil]
      exact ⟨manager, rfl, after⟩
  | cons label rest ih =>
      rw [List.foldlM_cons, Option.bind_eq_bind]
      have both : Survives map before (label :: rest) ↔
          ¬ Ends map before label ∧ Survives map (before ++ [label]) rest := Iff.rfl
      by_cases ends : Ends map before label
      · rw [after.ends ends, if_neg fun survives => (both.mp survives).1 ends]
        rfl
      · obtain ⟨next, stepped, later⟩ := after.step ends
        rw [stepped, Option.bind_some]
        have rest := ih later
        rw [List.append_assoc] at rest
        rw [List.singleton_append] at rest
        simpa only [both, ends, not_false_eq_true, true_and] using rest

/-- The program survives exactly if no label uses a null pointer, and then every symbol has
heard the messages about its name that were let through, and nothing else. -/
theorem survives_iff_and_symbols (map : UserSymbolsMap ι) (start : ι → Symbol)
    (labels : List (GateLabel ι)) :
    ((∃ last, labels.foldlM step (new map start) = some last) ↔ Survives map [] labels) ∧
    ∀ last, labels.foldlM step (new map start) = some last →
      ∀ configured ∈ map.configured, last.symbol configured.symbol =
        Transition.run Symbol.step (start configured.symbol)
          (heard (hears configured.name configured.symbol) [] labels) := by
  have runs := (after_new map start).run labels
  rw [List.nil_append] at runs
  by_cases survives : Survives map [] labels
  · rw [if_pos survives] at runs
    obtain ⟨last, ran, after⟩ := runs
    refine ⟨iff_of_true ⟨last, ran⟩ survives, fun other reached configured member => ?_⟩
    obtain rfl : last = other := Option.some_injective _ (ran.symm.trans reached)
    exact after.symbol configured member
  · rw [if_neg survives] at runs
    rw [runs]
    exact ⟨iff_of_false (fun ⟨last, ran⟩ => nomatch ran) survives, nofun⟩

end SymbolManager

end TradingApp.Market

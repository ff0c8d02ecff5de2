import TradingApp.Text.Decimal

/-!
# Command lines

A command is split at its spaces and passed to the manager registered for its
first word.  Both managers look at as many words as they need, and a word that
is not there is an access beyond the end of the vector: such an access ends the
evaluation with its index.

The manager of the trade accounts asks for two words before it looks at any,
but not for a third one after `-d`.  The manager of the symbols does not ask.
-/

namespace TradingApp.Command

/-- A word of a command line. -/
def argument (args : List Text) (index : ℕ) : Except ℕ Text :=
  match args[index]? with
  | some word => .ok word
  | none => .error index

/-- `-a`, for all accounts or symbols. -/
def allFlag : Text := ['-', 'a']

/-- `-d`, to disable. -/
def disableFlag : Text := ['-', 'd']

/-! ## The manager of the trade accounts -/

/-- What the manager of the trade accounts is asked to do. -/
inductive AccountRequest where
  | stopAll
  | stop (account : Text) (symbol : Option Text)
  | startAll
  | start (account : Text) (symbol : Option Text)
  | panicClose (account symbol : Text) (enable : Bool)
  | softClose (account symbol : Text) (enable : Bool)
  | avicennaToggle (account : Text)
deriving DecidableEq, Repr

namespace TradeAccountManager

/-- The commands that stop and restart. -/
def stopOrStart (args : List Text) (forAll : AccountRequest)
    (forAccount : Text → Option Text → AccountRequest) : Except ℕ (Option AccountRequest) := do
  let account ← argument args 1
  if account = [] then return none
  else if account = allFlag then return some forAll
  else if args.length = 3 then
    let symbol ← argument args 2
    return some (forAccount account (some symbol))
  else return some (forAccount account none)

/-- The commands that close, and that disable closing. -/
def closing (args : List Text) (request : Text → Text → Bool → AccountRequest) :
    Except ℕ (Option AccountRequest) := do
  let account ← argument args 1
  if account = [] then return none
  else if account = disableFlag then
    let disabled ← argument args 2
    if disabled = allFlag then return some (request [] [] false)
    else if args.length = 4 then
      let symbol ← argument args 3
      return some (request disabled symbol false)
    else return some (request disabled [] false)
  else if account = allFlag then return some (request [] [] true)
  else if args.length = 3 then
    let symbol ← argument args 2
    return some (request account symbol true)
  else return some (request account [] true)

/-- The first argument is the account, or `-a`. -/
def toggle (args : List Text) : Except ℕ (Option AccountRequest) := do
  let account ← argument args 1
  if account = allFlag then return some (.avicennaToggle [])
  else return some (.avicennaToggle account)

/-- `TradeAccountManager::operator()`. -/
def operator (args : List Text) : Except ℕ (Option AccountRequest) :=
  if args.length < 2 then .ok none
  else do
    let word ← argument args 0
    if word = ['s', 't'] then stopOrStart args .stopAll .stop
    else if word = ['r', 't'] then stopOrStart args .startAll .start
    else if word = ['p', 'c'] then closing args .panicClose
    else if word = ['s', 'c'] then closing args .softClose
    else if word = ['a', 'v'] then toggle args
    else return none

end TradeAccountManager

/-! ## The manager of the symbols -/

/-- What the manager of the symbols is asked to do: updates of all symbols or of
one are let through or stopped. -/
inductive SymbolRequest where
  | enableAll (enable : Bool)
  | enable (symbol : Text) (enable : Bool)
deriving DecidableEq, Repr

namespace SymbolManager

/-- The first argument is the symbol, or `-a`. -/
def enabling (args : List Text) (enable : Bool) : Except ℕ (Option SymbolRequest) := do
  let symbol ← argument args 1
  if symbol = allFlag then return some (.enableAll enable)
  else return some (.enable symbol enable)

/-- `SymbolManager::operator()`. -/
def operator (args : List Text) : Except ℕ (Option SymbolRequest) := do
  let word ← argument args 0
  if word = ['s', 's'] then enabling args false
  else if word = ['r', 's'] then enabling args true
  else return none

end SymbolManager

/-! ## The command line -/

/-- The managers that register words of the command line. -/
inductive Callback where
  | tradeAccountManager
  | symbolManager
deriving DecidableEq, Repr

/-- The words that the managers register. -/
def callbackLookup (word : Text) : Option Callback :=
  if word ∈ [['s', 't'], ['r', 't'], ['p', 'c'], ['d', 'p', 'c'], ['s', 'c'], ['d', 's', 'c'],
      ['a', 'v']] then some .tradeAccountManager
  else if word ∈ [['s', 's'], ['r', 's']] then some .symbolManager
  else none

/-- What a command line asks of a manager. -/
inductive Request where
  | account (request : AccountRequest)
  | symbol (request : SymbolRequest)
deriving DecidableEq, Repr

/-- `CLI::readCommandAndDispatch` and the same for the client, for a command
that was read. -/
def dispatch (command : Text) : Except ℕ (Option Request) :=
  if command = [] then .ok none
  else do
    let splitVector := command.splitOn ' '
    let word ← argument splitVector 0
    match callbackLookup word with
    | some .tradeAccountManager =>
        return (← TradeAccountManager.operator splitVector).map .account
    | some .symbolManager => return (← SymbolManager.operator splitVector).map .symbol
    | none => return none

/-- No word is looked at that is not there. -/
def StaysInside (command : Text) : Prop :=
  ∀ index, dispatch command ≠ .error index

/-! ## Evaluations -/

section Evaluation

variable {β γ : Type}

/-- The evaluation ends at a word that is not there. -/
def Fails (evaluation : Except ℕ β) : Prop :=
  ∃ index, evaluation = .error index

theorem not_fails_ok (value : β) : ¬ Fails (.ok value : Except ℕ β) :=
  fun ⟨_, error⟩ => nomatch error

theorem fails_error (index : ℕ) : Fails (.error index : Except ℕ β) :=
  ⟨index, rfl⟩

theorem fails_map_iff (evaluation : Except ℕ β) (f : β → γ) :
    Fails (evaluation >>= fun value => pure (f value)) ↔ Fails evaluation := by
  cases evaluation with
  | error index => exact iff_of_true (fails_error index) (fails_error index)
  | ok value => exact iff_of_false (not_fails_ok _) (not_fails_ok _)

end Evaluation

/-! ## The managers -/

section Managers

variable {first second : Text} {rest : List Text}

/-- The first two words are enough to stop or to restart. -/
theorem not_fails_stopOrStart (forAll : AccountRequest)
    (forAccount : Text → Option Text → AccountRequest) :
    ¬ Fails (TradeAccountManager.stopOrStart (first :: second :: rest) forAll forAccount) := by
  unfold TradeAccountManager.stopOrStart
  change ¬ Fails (if second = [] then Except.ok none else if second = allFlag then _ else _)
  split
  · exact not_fails_ok _
  · split
    · exact not_fails_ok _
    · cases rest with
      | nil => exact not_fails_ok _
      | cons third rest =>
          split
          · exact not_fails_ok _
          · exact not_fails_ok _

/-- To disable closing takes a third word. -/
theorem fails_closing_iff (request : Text → Text → Bool → AccountRequest) :
    Fails (TradeAccountManager.closing (first :: second :: rest) request) ↔
      second = disableFlag ∧ rest = [] := by
  unfold TradeAccountManager.closing
  change Fails (if second = [] then Except.ok none
    else if second = disableFlag then _ else if second = allFlag then _ else _) ↔ _
  split
  · rename_i empty
    exact iff_of_false (not_fails_ok _) fun both => nomatch empty.symm.trans both.1
  · split
    · rename_i disable
      cases rest with
      | nil => exact iff_of_true (fails_error 2) ⟨disable, rfl⟩
      | cons third rest =>
          refine iff_of_false ?_ fun both => nomatch both.2
          change ¬ Fails (if third = allFlag then Except.ok _ else _)
          split
          · exact not_fails_ok _
          · cases rest with
            | nil => exact not_fails_ok _
            | cons fourth rest =>
                split
                · exact not_fails_ok _
                · exact not_fails_ok _
    · rename_i enable
      refine iff_of_false ?_ fun both => enable both.1
      split
      · exact not_fails_ok _
      · cases rest with
        | nil => exact not_fails_ok _
        | cons third rest =>
            split
            · exact not_fails_ok _
            · exact not_fails_ok _

theorem not_fails_toggle : ¬ Fails (TradeAccountManager.toggle (first :: second :: rest)) := by
  unfold TradeAccountManager.toggle
  change ¬ Fails (if second = allFlag then Except.ok _ else _)
  split
  · exact not_fails_ok _
  · exact not_fails_ok _

/-- The manager of the trade accounts looks beyond the end for a close to be
disabled, and nothing else. -/
theorem fails_tradeAccountManager_iff (args : List Text) :
    Fails (TradeAccountManager.operator args) ↔
      args = [['p', 'c'], disableFlag] ∨ args = [['s', 'c'], disableFlag] := by
  unfold TradeAccountManager.operator
  rcases args with _ | ⟨first, _ | ⟨second, rest⟩⟩
  · exact iff_of_false (not_fails_ok _) (by simp)
  · exact iff_of_false (not_fails_ok _) (by simp)
  · rw [if_neg (by simp)]
    change Fails (if first = ['s', 't'] then _ else _) ↔ _
    simp only [List.cons.injEq]
    split
    · rename_i word
      exact iff_of_false (not_fails_stopOrStart _ _) (by simp [word])
    · split
      · rename_i word
        exact iff_of_false (not_fails_stopOrStart _ _) (by simp [word])
      · split
        · rename_i word
          rw [fails_closing_iff]
          simp [word]
        · split
          · rename_i word
            rw [fails_closing_iff]
            simp [word]
          · rename_i notPanic notSoft
            refine iff_of_false ?_ (by simp [notPanic, notSoft])
            split
            · exact not_fails_toggle
            · exact not_fails_ok _

/-- The manager of the symbols looks beyond the end of a single word. -/
theorem fails_symbolManager_iff (first : Text) (rest : List Text) :
    Fails (SymbolManager.operator (first :: rest)) ↔
      (first = ['s', 's'] ∨ first = ['r', 's']) ∧ rest = [] := by
  have enabling (enable : Bool) :
      Fails (SymbolManager.enabling (first :: rest) enable) ↔ rest = [] := by
    unfold SymbolManager.enabling
    cases rest with
    | nil => exact iff_of_true (fails_error 1) rfl
    | cons second rest =>
        refine iff_of_false ?_ (by simp)
        change ¬ Fails (if second = allFlag then Except.ok _ else _)
        split
        · exact not_fails_ok _
        · exact not_fails_ok _
  unfold SymbolManager.operator
  change Fails (if first = ['s', 's'] then _ else _) ↔ _
  split
  · rename_i stop
    rw [enabling, stop]
    simp
  · split
    · rename_i restart
      rw [enabling, restart]
      simp
    · rename_i notStop notRestart
      exact iff_of_false (not_fails_ok _) (by simp [notStop, notRestart])

end Managers

/-! ## Commands -/

/-- The words of a command are the given ones exactly if it is them with single
spaces between. -/
theorem splitOn_eq_iff (command : Text) {args : List Text} (some : args ≠ [])
    (words : ∀ word ∈ args, ' ' ∉ word) :
    command.splitOn ' ' = args ↔ command = [' '].intercalate args := by
  constructor
  · intro same
    rw [← same, List.intercalate_splitOn]
  · rintro rfl
    exact List.splitOn_intercalate ' ' words some

/-- Which words make a callback look beyond their end. -/
theorem fails_dispatch_iff {command first : Text} {rest : List Text} (typed : command ≠ [])
    (words : command.splitOn ' ' = first :: rest) :
    Fails (dispatch command) ↔
      first :: rest ∈ [[['s', 's']], [['r', 's']], [['p', 'c'], disableFlag],
        [['s', 'c'], disableFlag]] := by
  unfold dispatch
  rw [if_neg typed, words]
  change Fails (match callbackLookup first with
    | some .tradeAccountManager => _
    | some .symbolManager => _
    | none => _) ↔ _
  have lookup : callbackLookup first = callbackLookup first := rfl
  conv at lookup => rhs; unfold callbackLookup
  split at lookup
  · rename_i account
    rw [lookup]
    refine (fails_map_iff _ _).trans ((fails_tradeAccountManager_iff _).trans ?_)
    have other : first ≠ ['s', 's'] ∧ first ≠ ['r', 's'] := by
      constructor <;> rintro rfl <;> exact absurd account (by decide)
    simp [other]
  · rename_i notAccount
    have other : first ≠ ['p', 'c'] ∧ first ≠ ['s', 'c'] := by
      constructor <;> rintro rfl <;> exact absurd (by decide) notAccount
    split at lookup
    · rw [lookup]
      refine (fails_map_iff _ _).trans ((fails_symbolManager_iff _ _).trans ?_)
      simp [other, or_and_right]
    · rename_i notSymbol
      rw [lookup]
      refine iff_of_false (not_fails_ok _) ?_
      have last : first ≠ ['s', 's'] ∧ first ≠ ['r', 's'] := by
        constructor <;> rintro rfl <;> exact absurd (by decide) notSymbol
      simp [other, last]

/-- A command stays inside its words exactly if it is none of four. -/
theorem staysInside_iff (command : Text) :
    StaysInside command ↔
      command ≠ ['s', 's'] ∧ command ≠ ['r', 's'] ∧
        command ≠ ['p', 'c', ' ', '-', 'd'] ∧ command ≠ ['s', 'c', ' ', '-', 'd'] := by
  have stays : StaysInside command ↔ ¬ Fails (dispatch command) := not_exists.symm
  rw [stays]
  by_cases typed : command = []
  · subst typed
    exact iff_of_true (not_fails_ok none) (by decide)
  · obtain ⟨first, rest, words⟩ := List.exists_cons_of_ne_nil (List.splitOn_ne_nil ' ' command)
    have text {args : List Text} (some : args ≠ []) (noSpace : ∀ word ∈ args, ' ' ∉ word) :
        first :: rest = args ↔ command = [' '].intercalate args := by
      rw [← words]
      exact splitOn_eq_iff command some noSpace
    rw [fails_dispatch_iff typed words]
    simp only [List.mem_cons, List.not_mem_nil, or_false, not_or]
    rw [text (by decide) (by decide), text (by decide) (by decide), text (by decide) (by decide),
      text (by decide) (by decide)]
    rfl

/-- A stop command without a symbol. -/
theorem not_staysInside_stop : ¬ ∀ command : Text, command ≠ [] → StaysInside command := by
  intro all
  refine all ['s', 's'] (by decide) 1 ?_
  rfl

end TradingApp.Command

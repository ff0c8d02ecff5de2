import TradingApp.Redis.OrderRecord
import TradingApp.Redis.PositionRows
import TradingApp.Transition.Run

/-!
# The keys of the server

One server holds the positions, the orders, the trade cases and the position
tables of all users, each kind under keys with a separator of its own.  It knows
nothing of the kinds: it has strings and lists, and to append to a string is an
error that ends the call.

As long as names have no separators the kinds do not meet.  The server is then
four stores, and no call ends in an error.  Clearing everything empties three of
them; the position tables stay.
-/

namespace TradingApp.Redis

open TradingApp.Position TradingApp.Transition

/-! ## The server -/

/-- What the server keeps under a key. -/
inductive Value where
  | string (text : Text)
  | list (items : List Text)
deriving DecidableEq, Repr

/-- What the keys of the store hold. -/
abbrev Keyspace : Type :=
  Text → Option Value

namespace Keyspace

/-- `SET`, whatever the key held before. -/
def set (keyspace : Keyspace) (key value : Text) : Keyspace :=
  Function.update keyspace key (some (.string value))

/-- `DEL` of one key. -/
def del (keyspace : Keyspace) (key : Text) : Keyspace :=
  Function.update keyspace key none

/-- A string cannot be appended to. -/
def rpush (keyspace : Keyspace) (key item : Text) : Option Keyspace :=
  match keyspace key with
  | none => some (Function.update keyspace key (some (.list [item])))
  | some (.list items) => some (Function.update keyspace key (some (.list (items ++ [item]))))
  | some (.string _) => none

/-- Append items until one of them is an error. -/
def rpushAll (keyspace : Keyspace) (key : Text) : List Text → Keyspace
  | [] => keyspace
  | item :: rest =>
      match keyspace.rpush key item with
      | some next => next.rpushAll key rest
      | none => keyspace

/-- Delete the keys that a pattern matches. -/
def delMatching (keyspace : Keyspace) (p : Text → Prop) [DecidablePred p] : Keyspace :=
  fun key => if p key then none else keyspace key

end Keyspace

/-! ## The kinds -/

/-- A letter, a digit or a mark that the scripts do not interpret. -/
def IsPlain (c : Char) : Prop :=
  c.isAlphanum = true ∨ c ∈ ['.', '-', '_']

instance : DecidablePred IsPlain :=
  fun c => inferInstanceAs (Decidable (_ ∨ c ∈ _))

/-- The name of a user, of a symbol or of a request. -/
abbrev Name : Type :=
  { text : Text // ∀ c ∈ text, IsPlain c }

/-- The kinds of records that share the key space. -/
inductive Kind where
  | position
  | order
  | tradeCase
  | table
deriving DecidableEq, Repr

/-- The character between the two names of a key. -/
def Kind.separator : Kind → Char
  | position => ':'
  | order => ','
  | tradeCase => '#'
  | table => ';'

/-- The key of a record of two plain names. -/
def storeKey (kind : Kind) (user name : Name) : Text :=
  user.val ++ kind.separator :: name.val

/-- A call of the writer by one of the threads, or of the script that clears. -/
inductive StoreCall where
  | position (user symbol : Name) (value : Text)
  | order (user requestId : Name) (info : RedisOrderInfo)
  | tradeCase (user symbol : Name) (entry : Text)
  | table (user symbol : Name) (table : PositionRecordTable)
  | clearAll
  | clear (symbols : List Name)

/-- A `*:SYMBOL` pattern of the script matches. -/
def EndsIn (symbols : List Name) (key : Text) : Prop :=
  ∃ symbol ∈ symbols, ':' :: symbol.val <:+ key

instance (symbols : List Name) : DecidablePred (EndsIn symbols) :=
  fun _ => inferInstanceAs (Decidable (∃ symbol ∈ symbols, _))

/-- The commands of a call, in its order. -/
def Keyspace.step (keyspace : Keyspace) : StoreCall → Keyspace
  | .position user symbol value => keyspace.set (storeKey .position user symbol) value
  | .order user requestId info => keyspace.set (storeKey .order user requestId) info.value
  | .tradeCase user symbol entry => keyspace.rpushAll (storeKey .tradeCase user symbol) [entry]
  | .table user symbol table =>
      (keyspace.del (storeKey .table user symbol)).rpushAll (storeKey .table user symbol)
        (tableLines table)
  | .clearAll => keyspace.delMatching fun key => ':' ∈ key ∨ ',' ∈ key ∨ '#' ∈ key
  | .clear symbols => keyspace.delMatching (EndsIn symbols)

/-! ## Four stores -/

/-- What is stored, by user and symbol or request. -/
structure Stored where
  positions : Name → Name → Option Text
  orders : Name → Name → Option Text
  tradeCases : Name → Name → Option (List Text)
  tables : Name → Name → Option (List Text)

/-- Replace the entry of a user and a name. -/
def entry {α : Type} (store : Name → Name → Option α) (user name : Name) (value : α) :
    Name → Name → Option α :=
  Function.update store user (Function.update (store user) name (some value))

namespace Stored

/-- Nothing is stored. -/
def empty : Stored where
  positions _ _ := none
  orders _ _ := none
  tradeCases _ _ := none
  tables _ _ := none

/-- A call changes the map of its own kind; the scripts that clear the store
change several. -/
def step (stored : Stored) : StoreCall → Stored
  | .position user symbol value =>
      { stored with positions := entry stored.positions user symbol value }
  | .order user requestId info =>
      { stored with orders := entry stored.orders user requestId info.value }
  | .tradeCase user symbol item =>
      { stored with
        tradeCases := entry stored.tradeCases user symbol
          ((stored.tradeCases user symbol).getD [] ++ [item]) }
  | .table user symbol table =>
      { stored with tables := entry stored.tables user symbol (tableLines table) }
  | .clearAll => { empty with tables := stored.tables }
  | .clear symbols =>
      { stored with
        positions := fun user symbol =>
          if symbol ∈ symbols then none else stored.positions user symbol }

/-- What is stored under the key of a kind. -/
def value (stored : Stored) : Kind → Name → Name → Option Value
  | .position, user, symbol => (stored.positions user symbol).map .string
  | .order, user, requestId => (stored.orders user requestId).map .string
  | .tradeCase, user, symbol => (stored.tradeCases user symbol).map .list
  | .table, user, symbol => (stored.tables user symbol).map .list

end Stored

/-- The server holds what is stored, and nothing else. -/
structure Represents (keyspace : Keyspace) (stored : Stored) : Prop where
  holds : ∀ kind user name, keyspace (storeKey kind user name) = stored.value kind user name
  only : ∀ key, keyspace key ≠ none → ∃ kind user name, key = storeKey kind user name

/-! ## Keys -/

section Keys

variable {kind other : Kind} {user name : Name}

theorem not_isPlain_separator (kind : Kind) : ¬ IsPlain kind.separator := by
  cases kind <;> decide

theorem separator_not_mem (kind : Kind) (name : Name) : kind.separator ∉ name.val :=
  fun member => not_isPlain_separator kind (name.property _ member)

theorem separator_injective : Function.Injective Kind.separator := by
  intro first second same
  cases first <;> cases second <;> first | rfl | exact absurd same (by decide)

/-- Two texts that stop being plain stop at the same place. -/
theorem append_cons_inj {p : Char → Prop} {first second : Text} {x y : Char} {s t : Text}
    (firstPlain : ∀ c ∈ first, p c) (secondPlain : ∀ c ∈ second, p c) (notX : ¬ p x) (notY : ¬ p y)
    (same : first ++ x :: s = second ++ y :: t) : first = second ∧ x = y ∧ s = t := by
  induction first generalizing second with
  | nil =>
      cases second with
      | nil => exact ⟨rfl, List.cons.inj same⟩
      | cons c rest =>
          obtain ⟨rfl, _⟩ := List.cons.inj same
          exact absurd (secondPlain x (List.mem_cons_self ..)) notX
  | cons c rest ih =>
      cases second with
      | nil =>
          obtain ⟨rfl, _⟩ := List.cons.inj same
          exact absurd (firstPlain c (List.mem_cons_self ..)) notY
      | cons d others =>
          obtain ⟨rfl, later⟩ := List.cons.inj same
          obtain ⟨rfl, ends⟩ := ih (fun c member => firstPlain c (List.mem_cons_of_mem _ member))
            (fun c member => secondPlain c (List.mem_cons_of_mem _ member)) later
          exact ⟨rfl, ends⟩

/-- A key tells its kind and its names. -/
theorem storeKey_inj {user' name' : Name}
    (same : storeKey kind user name = storeKey other user' name') :
    kind = other ∧ user = user' ∧ name = name' := by
  obtain ⟨sameUser, separator, sameName⟩ := append_cons_inj user.property user'.property
    (not_isPlain_separator kind) (not_isPlain_separator other) same
  exact ⟨separator_injective separator, Subtype.ext sameUser, Subtype.ext sameName⟩

/-- A key has one separator. -/
theorem separator_mem_storeKey_iff (other : Kind) :
    other.separator ∈ storeKey kind user name ↔ kind = other := by
  unfold storeKey
  constructor
  · intro member
    rcases List.mem_append.mp member with inUser | inRest
    · exact absurd inUser (separator_not_mem other user)
    · rcases List.mem_cons.mp inRest with same | inName
      · exact separator_injective same.symm
      · exact absurd inName (separator_not_mem other name)
  · rintro rfl
    exact List.mem_append_right _ (List.mem_cons_self ..)

/-- A key ends in a colon and a symbol exactly if it is that symbol's
position. -/
theorem endsIn_storeKey_iff {symbols : List Name} :
    EndsIn symbols (storeKey kind user name) ↔ kind = .position ∧ name ∈ symbols := by
  constructor
  · rintro ⟨symbol, member, front, same⟩
    have colon : Kind.position.separator ∈ storeKey kind user name := by
      rw [← same]
      exact List.mem_append_right _ (List.mem_cons_self ..)
    obtain rfl := (separator_mem_storeKey_iff .position).mp colon
    have reversed := congrArg List.reverse same
    simp only [storeKey, List.reverse_append, List.reverse_cons, List.append_assoc,
      List.singleton_append] at reversed
    have plain (name : Name) : ∀ c ∈ name.val.reverse, IsPlain c :=
      fun c member => name.property c (List.mem_reverse.mp member)
    obtain ⟨sameName, _, _⟩ := append_cons_inj (plain symbol) (plain name)
      (not_isPlain_separator .position) (not_isPlain_separator .position) reversed
    have same : symbol = name := Subtype.ext (List.reverse_injective sameName)
    exact ⟨rfl, same ▸ member⟩
  · rintro ⟨rfl, member⟩
    exact ⟨name, member, user.val, rfl⟩

end Keys

/-! ## Calls -/

section Calls

variable {keyspace : Keyspace} {stored : Stored}

theorem entry_apply {α : Type} (store : Name → Name → Option α) (user name : Name) (value : α)
    (user' name' : Name) :
    entry store user name value user' name' =
      if user' = user ∧ name' = name then some value else store user' name' := by
  unfold entry
  by_cases sameUser : user' = user
  · subst sameUser
    rw [Function.update_self]
    by_cases sameName : name' = name
    · subst sameName
      rw [Function.update_self, if_pos ⟨rfl, rfl⟩]
    · rw [Function.update_of_ne sameName, if_neg fun both => sameName both.2]
  · rw [Function.update_of_ne sameUser, if_neg fun both => sameUser both.1]

/-- One key is given a value. -/
theorem Represents.update (represents : Represents keyspace stored) (kind : Kind)
    {user name : Name} {value : Value} {next : Stored}
    (own : next.value kind user name = some value)
    (others : ∀ kind' user' name', ¬ (kind' = kind ∧ user' = user ∧ name' = name) →
      next.value kind' user' name' = stored.value kind' user' name') :
    Represents (Function.update keyspace (storeKey kind user name) (some value)) next := by
  constructor
  · intro kind' user' name'
    by_cases same : kind' = kind ∧ user' = user ∧ name' = name
    · obtain ⟨rfl, rfl, rfl⟩ := same
      rw [Function.update_self, own]
    · have different : storeKey kind' user' name' ≠ storeKey kind user name :=
        fun sameKey => same (storeKey_inj sameKey)
      rw [Function.update_of_ne different, others _ _ _ same]
      exact represents.holds kind' user' name'
  · intro key present
    by_cases same : key = storeKey kind user name
    · exact ⟨kind, user, name, same⟩
    · rw [Function.update_of_ne same] at present
      exact represents.only key present

/-- Some keys are deleted. -/
theorem Represents.delMatching (represents : Represents keyspace stored) {p : Text → Prop}
    [DecidablePred p] {next : Stored}
    (deleted : ∀ kind user name, next.value kind user name =
      if p (storeKey kind user name) then none else stored.value kind user name) :
    Represents (keyspace.delMatching p) next := by
  constructor
  · intro kind user name
    rw [Keyspace.delMatching, deleted, represents.holds]
  · intro key present
    refine represents.only key fun missing => present ?_
    rw [Keyspace.delMatching, missing]
    exact ite_self none

/-- Appending to a list or to nothing is no error. -/
theorem rpush_list {key item : Text} (items : Option (List Text))
    (holds : keyspace key = items.map .list) :
    keyspace.rpush key item =
      some (Function.update keyspace key (some (.list (items.getD [] ++ [item])))) := by
  unfold Keyspace.rpush
  rw [holds]
  cases items <;> rfl

theorem rpushAll_list {key : Text} {items : List Text} (holds : keyspace key = some (.list items))
    (lines : List Text) :
    keyspace.rpushAll key lines =
      Function.update keyspace key (some (.list (items ++ lines))) := by
  induction lines generalizing keyspace items with
  | nil =>
      rw [List.append_nil]
      exact (Function.update_eq_self_iff.mpr holds.symm).symm
  | cons line rest ih =>
      rw [Keyspace.rpushAll, rpush_list (some items) holds]
      dsimp only [Option.getD_some]
      rw [ih (Function.update_self ..), Function.update_idem, List.append_assoc]
      rfl

/-- Deleting a key and appending to it writes a list anew. -/
theorem rpushAll_del {key first : Text} {rest : List Text} :
    (keyspace.del key).rpushAll key (first :: rest) =
      Function.update keyspace key (some (.list (first :: rest))) := by
  have missing : keyspace.del key key = Option.map Value.list none := Function.update_self ..
  rw [Keyspace.rpushAll, rpush_list none missing]
  dsimp only [Option.getD_none]
  rw [rpushAll_list (Function.update_self ..), Function.update_idem, Keyspace.del,
    Function.update_idem]
  rfl

/-- A call does to the server what it does to the store of its kind. -/
theorem Represents.step (represents : Represents keyspace stored) (call : StoreCall) :
    Represents (keyspace.step call) (stored.step call) := by
  have other {α : Type} {store : Name → Name → Option α} {user name : Name} {value : α}
      {kind kind' : Kind} {user' name' : Name} (same : kind' = kind)
      (different : ¬ (kind' = kind ∧ user' = user ∧ name' = name)) :
      entry store user name value user' name' = store user' name' := by
    rw [entry_apply, if_neg fun both => different ⟨same, both⟩]
  have own {α : Type} (store : Name → Name → Option α) (user name : Name) (value : α) :
      entry store user name value user name = some value := by
    rw [entry_apply, if_pos ⟨rfl, rfl⟩]
  cases call with
  | position user symbol value =>
      refine represents.update .position ?_ fun kind' user' name' different => ?_
      · exact congrArg (Option.map Value.string) (own stored.positions user symbol value)
      · cases kind' with
        | position => exact congrArg (Option.map Value.string) (other rfl different)
        | order | tradeCase | table => rfl
  | order user requestId info =>
      refine represents.update .order ?_ fun kind' user' name' different => ?_
      · exact congrArg (Option.map Value.string) (own stored.orders user requestId info.value)
      · cases kind' with
        | order => exact congrArg (Option.map Value.string) (other rfl different)
        | position | tradeCase | table => rfl
  | tradeCase user symbol item =>
      have holds : keyspace (storeKey .tradeCase user symbol) =
          (stored.tradeCases user symbol).map .list :=
        represents.holds .tradeCase user symbol
      change Represents (match keyspace.rpush _ item with
        | some next => next
        | none => keyspace) _
      rw [rpush_list (stored.tradeCases user symbol) holds]
      refine represents.update .tradeCase ?_ fun kind' user' name' different => ?_
      · exact congrArg (Option.map Value.list) (own stored.tradeCases user symbol _)
      · cases kind' with
        | tradeCase => exact congrArg (Option.map Value.list) (other rfl different)
        | position | order | table => rfl
  | table user symbol table =>
      change Represents ((keyspace.del _).rpushAll _ (_ :: _)) _
      rw [rpushAll_del]
      refine represents.update .table ?_ fun kind' user' name' different => ?_
      · exact congrArg (Option.map Value.list) (own stored.tables user symbol (tableLines table))
      · cases kind' with
        | table => exact congrArg (Option.map Value.list) (other rfl different)
        | position | order | tradeCase => rfl
  | clearAll =>
      refine represents.delMatching fun kind user name => ?_
      have position : ':' ∈ storeKey kind user name ↔ kind = .position :=
        separator_mem_storeKey_iff .position
      have order : ',' ∈ storeKey kind user name ↔ kind = .order :=
        separator_mem_storeKey_iff .order
      have tradeCase : '#' ∈ storeKey kind user name ↔ kind = .tradeCase :=
        separator_mem_storeKey_iff .tradeCase
      simp only [position, order, tradeCase]
      cases kind <;> rfl
  | clear symbols =>
      refine represents.delMatching fun kind user name => ?_
      simp only [endsIn_storeKey_iff]
      cases kind with
      | position =>
          simp only [true_and]
          change Option.map Value.string (if name ∈ symbols then none else _) = _
          split
          · rfl
          · rfl
      | order | tradeCase | table => rfl

end Calls

/-! ## The strings -/

/-- The server as the writer of positions and orders sees it. -/
def Keyspace.strings (keyspace : Keyspace) : RedisWriter where
  isRedisEnabled := true
  store key :=
    match keyspace key with
    | some (.string text) => some text
    | _ => none

theorem strings_set (keyspace : Keyspace) (key value : Text) :
    (keyspace.set key value).strings = keyspace.strings.set key value := by
  unfold Keyspace.strings RedisWriter.set Keyspace.set
  rw [RedisWriter.mk.injEq]
  refine ⟨rfl, ?_⟩
  funext other
  by_cases same : other = key
  · subst same
    rw [Function.update_self, if_pos rfl]
  · rw [Function.update_of_ne same, if_neg same]

/-- Storing a position is what the writer does. -/
theorem strings_position (keyspace : Keyspace) (user symbol : Name)
    (quantity averagePrice rif pif liveBuy liveSell totalExecuted : Text) :
    (keyspace.step (.position user symbol (positionValue user.val symbol.val quantity averagePrice
        rif pif liveBuy liveSell totalExecuted))).strings =
      keyspace.strings.writeToRedis user.val symbol.val quantity averagePrice rif pif liveBuy
        liveSell totalExecuted :=
  strings_set _ _ _

/-- So is storing an order. -/
theorem strings_order (keyspace : Keyspace) (user requestId : Name) (info : RedisOrderInfo) :
    (keyspace.step (.order user requestId info)).strings =
      keyspace.strings.writeOrderInfoToRedis user.val requestId.val info :=
  strings_set _ _ _

theorem rpushAll_of_ne {keyspace : Keyspace} {key other : Text} (different : other ≠ key)
    (items : List Text) : keyspace.rpushAll key items other = keyspace other := by
  induction items generalizing keyspace with
  | nil => rfl
  | cons item rest ih =>
      rw [Keyspace.rpushAll]
      cases pushed : keyspace.rpush key item with
      | none => rfl
      | some next =>
          refine ih.trans ?_
          unfold Keyspace.rpush at pushed
          split at pushed
          · rw [← Option.some_inj.mp pushed, Function.update_of_ne different]
          · rw [← Option.some_inj.mp pushed, Function.update_of_ne different]
          · cases pushed

/-- The kind of record that a call writes, unless it clears. -/
def StoreCall.kind : StoreCall → Option Kind
  | .position .. => some .position
  | .order .. => some .order
  | .tradeCase .. => some .tradeCase
  | .table .. => some .table
  | .clearAll | .clear _ => none

/-- A record of another kind leaves the writer's positions as they are. -/
theorem strings_step_position {keyspace : Keyspace} {call : StoreCall} {kind : Kind}
    (writes : call.kind = some kind) (other : kind ≠ .position) (user symbol : Name) :
    (keyspace.step call).strings.store (positionKey user.val symbol.val) =
      keyspace.strings.store (positionKey user.val symbol.val) := by
  have different (user' name : Name) :
      storeKey .position user symbol ≠ storeKey kind user' name :=
    fun same => other (storeKey_inj same).1.symm
  suffices kept : keyspace.step call (storeKey .position user symbol) =
      keyspace (storeKey .position user symbol) by
    change (match keyspace.step call (storeKey .position user symbol) with
      | some (.string text) => some text
      | _ => none) = _
    rw [kept]
    rfl
  cases call with
  | position => exact absurd (Option.some_inj.mp writes).symm other
  | order user' requestId info =>
      cases writes
      exact Function.update_of_ne (different user' requestId) ..
  | tradeCase user' symbol' entry =>
      cases writes
      exact rpushAll_of_ne (different user' symbol') _
  | table user' symbol' table =>
      cases writes
      refine (rpushAll_of_ne (different user' symbol') _).trans ?_
      exact Function.update_of_ne (different user' symbol') ..
  | clearAll | clear => cases writes

end TradingApp.Redis

import Mathlib.Data.List.Nodup
import TradingApp.Machine.Conversion
import TradingApp.Text.Decimal

/-!
# Property trees

A configuration file is read to a tree of elements.  The attributes of an element
are the children of a child of its own.  A child that is missing and a text that is
no value of its type are exceptions, and so is what the program itself objects to.

Reading values from text is the library's.
-/

namespace TradingApp.Startup

open TradingApp.Machine

/-- An element: its text, and its children under their names. -/
inductive PTree where
  | node (data : Text) (children : List (Text × PTree))

/-- What reading a configuration ends in. -/
inductive ConfigError where
  | badPath (path : Text)
  | badData (data : Text)
  | configInfo (info : Text)
deriving DecidableEq, Repr

/-- How the library reads values: a signed and an unsigned 32-bit integer, a
number and a truth value. -/
structure Translator where
  int : Text → Option Int32
  uint32 : Text → Option UInt32
  double : Text → Option ℚ
  bool : Text → Option Bool

namespace PTree

/-- The text of a node. -/
def data : PTree → Text
  | .node data _ => data

/-- The named children, in the order of the file. -/
def children : PTree → List (Text × PTree)
  | .node _ children => children

/-- The number of children with a name. -/
def count (tree : PTree) (name : Text) : ℕ :=
  tree.children.countP (·.1 = name)

/-- The first child with a name. -/
def getChild (tree : PTree) (name : Text) : Except ConfigError PTree :=
  match tree.children.find? (·.1 = name) with
  | some child => .ok child.2
  | none => .error (.badPath name)

/-- The text read as a value. -/
def getValue {α : Type} (tree : PTree) (read : Text → Option α) : Except ConfigError α :=
  match read tree.data with
  | some value => .ok value
  | none => .error (.badData tree.data)

/-- The name of the child with the attributes. -/
def xmlattr : Text :=
  "<xmlattr>".toList

end PTree

/-! ## Loops that may fail -/

section Loops

variable {ε α β : Type}

theorem bind_eq_ok_iff {m : Except ε α} {f : α → Except ε β} {b : β} :
    m >>= f = .ok b ↔ ∃ a, m = .ok a ∧ f a = .ok b := by
  constructor
  · intro binds
    cases m with
    | error e => cases binds
    | ok a => exact ⟨a, rfl, binds⟩
  · rintro ⟨a, rfl, result⟩
    exact result

/-- What a loop keeps, if it does not fail. -/
theorem foldlM_keeps {P : β → Prop} {f : β → α → Except ε β}
    (keeps : ∀ b a next, P b → f b a = .ok next → P next) {items : List α} {first last : β}
    (start : P first) (folds : items.foldlM f first = .ok last) : P last := by
  induction items generalizing first with
  | nil =>
      obtain rfl := Except.ok.inj folds
      exact start
  | cons a rest ih =>
      rw [List.foldlM_cons] at folds
      obtain ⟨next, here, later⟩ := bind_eq_ok_iff.mp folds
      exact ih (keeps first a next start here) later

variable {f : α → Option β} {items : List α} {results : List β}

theorem mapM_cons_eq_some {a : α} (maps : (a :: items).mapM f = some results) :
    ∃ b rest, f a = some b ∧ items.mapM f = some rest ∧ results = b :: rest := by
  rw [List.mapM_cons] at maps
  obtain ⟨b, here, maps⟩ := Option.bind_eq_some_iff.mp maps
  obtain ⟨rest, later, same⟩ := Option.bind_eq_some_iff.mp maps
  exact ⟨b, rest, here, later, (Option.some.inj same).symm⟩

/-- What does not depend on the results. -/
theorem map_mapM {γ : Type} {g : β → γ} {h : α → γ} (same : ∀ a b, f a = some b → g b = h a)
    (maps : items.mapM f = some results) : results.map g = items.map h := by
  induction items generalizing results with
  | nil =>
      obtain rfl := Option.some.inj maps
      rfl
  | cons a items ih =>
      obtain ⟨first, rest, here, later, rfl⟩ := mapM_cons_eq_some maps
      rw [List.map_cons, List.map_cons, same a first here, ih later]

end Loops

/-! ## Maps -/

/-- A map from names, in the order it is gone through. -/
structure Table (α : Type) where
  entries : List (Text × α)
  distinct : (entries.map Prod.fst).Nodup

namespace Table

variable {α : Type}

/-- No entry. -/
def empty : Table α where
  entries := []
  distinct := List.nodup_nil

/-- A name that is there keeps its value. -/
def emplace (table : Table α) (name : Text) (value : α) : Table α :=
  if known : table.entries.any (·.1 = name) = true then table
  else
    { entries := table.entries ++ [(name, value)]
      distinct := by
        rw [List.map_append, List.map_singleton, ← List.concat_eq_append]
        exact (List.nodup_concat _ _).mpr ⟨by simpa using known, table.distinct⟩ }

/-- The entry of a name. -/
def find (table : Table α) (name : Text) : Option α :=
  (table.entries.find? (·.1 = name)).map Prod.snd

/-- What holds of a table and of a value holds of the table with the value. -/
theorem forall_emplace {P : Text × α → Prop} {table : Table α} {name : Text} {value : α}
    (holds : ∀ entry ∈ table.entries, P entry) (here : P (name, value)) :
    ∀ entry ∈ (table.emplace name value).entries, P entry := by
  intro entry member
  unfold emplace at member
  split at member
  · exact holds entry member
  · rcases List.mem_append.mp member with before | last
    · exact holds entry before
    · rw [List.mem_singleton.mp last]
      exact here

/-- Values of one name are the same. -/
theorem eq_of_mem (table : Table α) {name : Text} {value other : α}
    (one : (name, value) ∈ table.entries) (two : (name, other) ∈ table.entries) :
    value = other :=
  congrArg Prod.snd (List.inj_on_of_nodup_map table.distinct one two rfl)

theorem find_eq_some_iff (table : Table α) (name : Text) (value : α) :
    table.find name = some value ↔ (name, value) ∈ table.entries := by
  unfold find
  constructor
  · intro found
    obtain ⟨⟨found', value'⟩, isFirst, rfl⟩ := Option.map_eq_some_iff.mp found
    have same := List.find?_some isFirst
    obtain rfl := of_decide_eq_true same
    exact List.mem_of_find?_eq_some isFirst
  · intro member
    cases isFirst : table.entries.find? (·.1 = name) with
    | none => simpa using List.find?_eq_none.mp isFirst _ member
    | some entry =>
        obtain ⟨found, other⟩ := entry
        have same := List.find?_some isFirst
        obtain rfl := of_decide_eq_true same
        rw [Option.map_some, Option.some.injEq]
        exact table.eq_of_mem (List.mem_of_find?_eq_some isFirst) member

end Table

end TradingApp.Startup

import Mathlib.Algebra.BigOperators.Group.List.Basic
import Mathlib.Algebra.Order.BigOperators.Group.List
import Mathlib.Algebra.Order.Ring.Nat

/-!
# Books of orders

A book lists the orders sent so far, newest first, under keys of any type.
An order is live until it is cancelled or replaced, and what it is filled for
is counted whether or not it is live.

The exposure of a book is what has been filled together with what may still
be.  Filling a live order within its size only moves lots from the second part
to the first; a cancellation lowers the exposure; a replacement of the same
size raises it by what the replaced order was filled for.
-/

namespace TradingApp.Orders

universe u

/-- An order with its size, what of it is filled, and whether more may be. -/
structure Order (κ : Type u) where
  key : κ
  size : ℕ
  filled : ℕ
  live : Bool
deriving DecidableEq, Repr

namespace Order

variable {κ : Type u}

/-- What the order may still be filled for. -/
def remaining (order : Order κ) : ℕ :=
  if order.live then order.size - order.filled else 0

/-- An order that takes no further fills. -/
def dead (order : Order κ) : Order κ :=
  { order with live := false }

/-- An order filled for some more. -/
def fill (order : Order κ) (size : ℕ) : Order κ :=
  { order with filled := order.filled + size }

@[simp]
theorem remaining_dead (order : Order κ) : order.dead.remaining = 0 :=
  rfl

@[simp]
theorem filled_dead (order : Order κ) : order.dead.filled = order.filled :=
  rfl

@[simp]
theorem filled_fill (order : Order κ) (size : ℕ) :
    (order.fill size).filled = order.filled + size :=
  rfl

theorem remaining_fill {order : Order κ} (live : order.live = true) (size : ℕ) :
    (order.fill size).remaining = order.size - (order.filled + size) :=
  if_pos live

end Order

/-- The orders that were accepted, the newest first. -/
abbrev Book (κ : Type u) :=
  List (Order κ)

namespace Book

variable {κ : Type u}

/-- What all orders have been filled for. -/
def filledLots (book : Book κ) : ℕ :=
  (book.map Order.filled).sum

/-- What all orders may still be filled for. -/
def liveLots (book : Book κ) : ℕ :=
  (book.map Order.remaining).sum

/-- What the orders have been and may still be filled for. -/
def exposure (book : Book κ) : ℕ :=
  book.filledLots + book.liveLots

/-- The keys of the orders. -/
def keys (book : Book κ) : List κ :=
  book.map Order.key

/-- A new order. -/
def place (book : Book κ) (key : κ) (size : ℕ) : Book κ :=
  { key, size, filled := 0, live := true } :: book

variable [DecidableEq κ]

/-- The newest order under a key. -/
def lookup (book : Book κ) (key : κ) : Option (Order κ) :=
  book.find? fun order => order.key = key

/-- Update the newest order under a key. -/
def update (key : κ) (f : Order κ → Order κ) : Book κ → Book κ
  | [] => []
  | order :: rest => if order.key = key then f order :: rest else order :: update key f rest

/-- An order is filled. -/
def fill (book : Book κ) (key : κ) (size : ℕ) : Book κ :=
  book.update key fun order => order.fill size

/-- An order is replaced by another one, of the same size if the new size is
zero. -/
def replace (book : Book κ) (key newKey : κ) (newSize : ℕ) : Book κ :=
  match book.lookup key with
  | none => book
  | some order =>
      Book.place (book.update key Order.dead) newKey (if newSize = 0 then order.size else newSize)

/-- Orders are cancelled. -/
def cancel (book : Book κ) (keys : List κ) : Book κ :=
  book.map fun order => if order.key ∈ keys then order.dead else order

/-- There is a live order under the key that has room for a fill. -/
def CanFill (book : Book κ) (key : κ) (size : ℕ) : Prop :=
  ∃ order ∈ book.lookup key, order.live = true ∧ order.filled + size ≤ order.size

/-- There is a live order under the key that has not been filled. -/
def CanReplace (book : Book κ) (key : κ) : Prop :=
  ∃ order ∈ book.lookup key, order.live = true ∧ order.filled = 0

instance (book : Book κ) (key : κ) (size : ℕ) : Decidable (book.CanFill key size) :=
  inferInstanceAs (Decidable (∃ _ ∈ _, _))

instance (book : Book κ) (key : κ) : Decidable (book.CanReplace key) :=
  inferInstanceAs (Decidable (∃ _ ∈ _, _))

/-! ## Updating an order -/

/-- An update changes a sum over the book by what it changes of one order. -/
theorem sum_update {book : Book κ} {key : κ} {order : Order κ}
    (found : book.lookup key = some order) (f : Order κ → Order κ) (g : Order κ → ℕ) :
    ((book.update key f).map g).sum + g order = (book.map g).sum + g (f order) := by
  induction book with
  | nil => cases found
  | cons head rest ih =>
      unfold lookup at found
      rw [List.find?_cons] at found
      by_cases same : head.key = key
      · simp only [same, decide_true, Option.some.injEq] at found
        subst found
        simp only [update, if_pos same, List.map_cons, List.sum_cons]
        omega
      · simp only [same, decide_false] at found
        have later := ih found
        simp only [update, if_neg same, List.map_cons, List.sum_cons]
        omega

theorem keys_update (book : Book κ) (key : κ) {f : Order κ → Order κ}
    (keeps : ∀ order, (f order).key = order.key) : (book.update key f).keys = book.keys := by
  induction book with
  | nil => rfl
  | cons head rest ih =>
      unfold keys at ih ⊢
      unfold update
      split
      · simp only [List.map_cons, keeps]
      · simp only [List.map_cons, ih]

theorem keys_fill (book : Book κ) (key : κ) (size : ℕ) : (book.fill key size).keys = book.keys :=
  keys_update book key fun _ => rfl

theorem keys_cancel (book : Book κ) (keys : List κ) : (book.cancel keys).keys = book.keys := by
  unfold Book.keys cancel
  rw [List.map_map]
  apply List.map_congr_left
  intro order _
  simp only [Function.comp_apply]
  split <;> rfl

theorem mem_keys_of_lookup {book : Book κ} {key : κ} {order : Order κ}
    (found : book.lookup key = some order) : key ∈ book.keys := by
  have same : order.key = key := by
    simpa using List.find?_some found
  exact List.mem_map.mpr ⟨order, List.mem_of_find?_eq_some found, same⟩

/-- A replacement is found only under a key of the book. -/
theorem mem_keys_replace {book : Book κ} {key newKey : κ} {newSize : ℕ} {other : κ}
    (member : other ∈ (book.replace key newKey newSize).keys) :
    other ∈ book.keys ∨ other = newKey ∧ key ∈ book.keys := by
  unfold replace at member
  split at member
  · exact Or.inl member
  · rename_i order found
    rcases List.mem_cons.mp member with same | older
    · exact Or.inr ⟨same, mem_keys_of_lookup found⟩
    · have keys := keys_update book key (f := Order.dead) fun _ => rfl
      exact Or.inl (keys ▸ older)

/-! ## Exposure -/

omit [DecidableEq κ] in
theorem exposure_place (book : Book κ) (key : κ) (size : ℕ) :
    (book.place key size).exposure = book.exposure + size := by
  simp only [exposure, filledLots, liveLots, place, Order.remaining, List.map_cons, List.sum_cons,
    if_true]
  omega

section Fill

variable {book : Book κ} {key : κ} {size : ℕ} (canFill : book.CanFill key size)

include canFill

theorem filledLots_fill : (book.fill key size).filledLots = book.filledLots + size := by
  obtain ⟨order, found, _⟩ := canFill
  have filled := sum_update found (fun order => order.fill size) Order.filled
  rw [Order.filled_fill] at filled
  unfold filledLots fill
  omega

/-- A fill within the size of its order keeps the exposure. -/
theorem exposure_fill : (book.fill key size).exposure = book.exposure := by
  have filled := filledLots_fill canFill
  obtain ⟨order, found, live, fits⟩ := canFill
  have remains := sum_update found (fun order => order.fill size) Order.remaining
  rw [Order.remaining_fill live, Order.remaining, if_pos live] at remains
  unfold exposure
  rw [filled]
  unfold liveLots fill
  omega

end Fill

/-- A replacement of the same size adds what the replaced order was filled
for to the exposure. -/
theorem exposure_replace {book : Book κ} {key newKey : κ} {order : Order κ}
    (found : book.lookup key = some order) (live : order.live = true)
    (within : order.filled ≤ order.size) :
    (book.replace key newKey 0).exposure = book.exposure + order.filled := by
  have filled := sum_update found Order.dead Order.filled
  have remains := sum_update found Order.dead Order.remaining
  rw [Order.filled_dead] at filled
  rw [Order.remaining_dead, Order.remaining, if_pos live] at remains
  rw [replace, found]
  simp only [if_true, exposure_place]
  unfold exposure filledLots liveLots
  omega

omit [DecidableEq κ] in
theorem filledLots_place (book : Book κ) (key : κ) (size : ℕ) :
    (book.place key size).filledLots = book.filledLots := by
  simp [filledLots, place]

theorem filledLots_replace (book : Book κ) (key newKey : κ) (newSize : ℕ) :
    (book.replace key newKey newSize).filledLots = book.filledLots := by
  unfold replace
  split
  · rfl
  · rename_i order found
    have filled := sum_update found Order.dead Order.filled
    rw [Order.filled_dead] at filled
    rw [filledLots_place]
    unfold filledLots
    omega

theorem filledLots_cancel (book : Book κ) (keys : List κ) :
    (book.cancel keys).filledLots = book.filledLots := by
  unfold filledLots cancel
  rw [List.map_map]
  congr 1
  apply List.map_congr_left
  intro order _
  simp only [Function.comp_apply]
  split <;> rfl

/-- A cancellation only takes away. -/
theorem liveLots_cancel_le (book : Book κ) (keys : List κ) :
    (book.cancel keys).liveLots ≤ book.liveLots := by
  unfold liveLots cancel
  rw [List.map_map]
  apply List.sum_le_sum
  intro order _
  simp only [Function.comp_apply]
  split
  · exact Nat.zero_le _
  · exact le_refl _

theorem exposure_cancel_le (book : Book κ) (keys : List κ) :
    (book.cancel keys).exposure ≤ book.exposure := by
  unfold exposure
  rw [filledLots_cancel]
  exact Nat.add_le_add_left (liveLots_cancel_le book keys) _

end Book

end TradingApp.Orders

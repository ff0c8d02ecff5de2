import Mathlib.Algebra.BigOperators.Group.Finset.Piecewise
import Mathlib.Algebra.BigOperators.Group.List.Basic
import Mathlib.Algebra.Group.Action.Defs
import Mathlib.Algebra.Order.Ring.Nat
import Mathlib.Tactic.Abel

/-!
# Consuming a quantity from a list of lots

A pass walks a list of lots and closes a given quantity: an eligible lot that
fits is closed as a whole, the first one that does not fit is split into a
part that is closed and a rest that stays open, and the pass stops when
nothing is left to close.

The pass does not assume that eligible lots are open.  What it books against
a weight on lots, and how far it may go before it touches a lot that is
already done, are computed exactly, so that a caller can decide whether
closing a done lot again can happen.
-/

namespace TradingApp.Lots

universe u v

/-- How lots are measured and closed.  The laws are what a pass relies on: a
closed lot is done, and splitting a lot loses no size. -/
structure Closing (R : Type u) where
  size : R → ℕ
  done : R → Bool
  /-- the lot closed as a whole -/
  whole : R → R
  /-- the closed part of a split lot -/
  part : R → ℕ → R
  /-- what a split leaves open -/
  rest : R → ℕ → R
  size_whole : ∀ lot, size (whole lot) = size lot
  done_whole : ∀ lot, done (whole lot) = true
  size_part : ∀ lot n, size (part lot n) = n
  done_part : ∀ lot n, done (part lot n) = true
  size_rest : ∀ lot n, size (rest lot n) = size lot - n
  done_rest : ∀ lot n, done (rest lot n) = false

attribute [simp] Closing.size_whole Closing.done_whole Closing.size_part Closing.done_part
  Closing.size_rest Closing.done_rest

namespace Closing

variable {R : Type u} (c : Closing R)

/-- Total size of a list of lots. -/
def total (lots : List R) : ℕ :=
  (lots.map c.size).sum

/-- Total size of the open lots that satisfy `q`. -/
def openTotal (q : R → Bool) (lots : List R) : ℕ :=
  c.total (lots.filter fun lot => !c.done lot && q lot)

/-- Walk the lots in order and close `left` of the eligible ones.  The result
is the new list and what could not be closed. -/
def consume (eligible : R → Bool) : List R → ℕ → List R × ℕ
  | [], left => ([], left)
  | lot :: lots, left =>
      if left = 0 then (lot :: lots, 0)
      else if eligible lot then
        if c.size lot ≤ left then
          let next := consume eligible lots (left - c.size lot)
          (c.whole lot :: next.1, next.2)
        else (c.rest lot left :: c.part lot left :: lots, 0)
      else
        let next := consume eligible lots left
        (lot :: next.1, next.2)

/-- The lots, as they were before, that a pass closes in whole or in part. -/
def touched (eligible : R → Bool) : List R → ℕ → List R
  | [], _ => []
  | lot :: lots, left =>
      if left = 0 then []
      else if eligible lot then lot :: touched eligible lots (left - c.size lot)
      else touched eligible lots left

/-- What a pass books when closing one unit of a lot books its weight. -/
def charge {M : Type v} [AddCommMonoid M] (w : R → M) (eligible : R → Bool) : List R → ℕ → M
  | [], _ => 0
  | lot :: lots, left =>
      if eligible lot then
        min (c.size lot) left • w lot + charge w eligible lots (left - c.size lot)
      else charge w eligible lots left

/-- The eligibility test that lets every lot through. -/
def anyLot : R → Bool := fun _ => true

@[simp]
theorem anyLot_apply (lot : R) : anyLot lot = true :=
  rfl

/-! ## Totals -/

@[simp]
theorem total_nil : c.total [] = 0 :=
  rfl

@[simp]
theorem total_cons (lot : R) (lots : List R) :
    c.total (lot :: lots) = c.size lot + c.total lots := by
  simp [total]

@[simp]
theorem total_append (first second : List R) :
    c.total (first ++ second) = c.total first + c.total second := by
  simp [total]

@[simp]
theorem openTotal_nil (q : R → Bool) : c.openTotal q [] = 0 :=
  rfl

theorem openTotal_cons (q : R → Bool) (lot : R) (lots : List R) :
    c.openTotal q (lot :: lots) =
      (if !c.done lot && q lot then c.size lot else 0) + c.openTotal q lots := by
  unfold openTotal
  by_cases counted : (!c.done lot && q lot) = true
  · simp [counted]
  · simp [counted]

theorem openTotal_perm (q : R → Bool) {first second : List R} (perm : first.Perm second) :
    c.openTotal q first = c.openTotal q second :=
  ((perm.filter _).map _).sum_eq

/-- The open lots are counted by counting them key by key. -/
theorem openTotal_eq_sum {K : Type v} [DecidableEq K] (key : R → K) {keys : Finset K}
    {lots : List R} (covered : ∀ lot ∈ lots, key lot ∈ keys) :
    c.openTotal (fun _ => true) lots = ∑ k ∈ keys, c.openTotal (fun lot => key lot = k) lots := by
  induction lots with
  | nil => simp
  | cons lot lots ih =>
      have later := ih fun other member => covered other (List.mem_cons_of_mem _ member)
      have here := covered lot List.mem_cons_self
      simp only [openTotal_cons, Finset.sum_add_distrib, ← later]
      cases c.done lot <;> simp [here]

/-- Lists that hold the same under every key hold the same in total. -/
theorem openTotal_congr {K : Type v} [DecidableEq K] (key : R → K) {first second : List R}
    (same : ∀ k, c.openTotal (fun lot => key lot = k) first =
      c.openTotal (fun lot => key lot = k) second) :
    c.openTotal (fun _ => true) first = c.openTotal (fun _ => true) second := by
  have inKeys : ∀ lot ∈ first ++ second, key lot ∈ ((first ++ second).map key).toFinset :=
    fun lot member => List.mem_toFinset.mpr (List.mem_map_of_mem member)
  rw [c.openTotal_eq_sum key fun lot member => inKeys lot (List.mem_append_left _ member),
    c.openTotal_eq_sum key fun lot member => inKeys lot (List.mem_append_right _ member)]
  exact Finset.sum_congr rfl fun k _ => same k

theorem total_takeWhile_le (p : R → Bool) (lots : List R) :
    c.total (lots.takeWhile p) ≤ c.total lots := by
  conv_rhs => rw [← List.takeWhile_append_dropWhile (p := p) (l := lots)]
  rw [total_append]
  exact Nat.le_add_right _ _

theorem total_filter_le (p : R → Bool) (lots : List R) :
    c.total (lots.filter p) ≤ c.total lots := by
  induction lots with
  | nil => simp
  | cons lot lots ih =>
      by_cases kept : p lot = true
      · simpa [List.filter_cons, kept] using ih
      · simp only [List.filter_cons, kept, if_false, total_cons, Bool.false_eq_true]
        omega

/-! ## What a pass leaves -/

@[simp]
theorem consume_zero (eligible : R → Bool) (lots : List R) :
    c.consume eligible lots 0 = (lots, 0) := by
  cases lots <;> simp [consume]

@[simp]
theorem touched_zero (eligible : R → Bool) (lots : List R) :
    c.touched eligible lots 0 = [] := by
  cases lots <;> simp [touched]

/-- A pass leaves over exactly what the eligible lots cannot cover. -/
theorem consume_left (eligible : R → Bool) (lots : List R) (n : ℕ) :
    (c.consume eligible lots n).2 = n - c.total (lots.filter eligible) := by
  induction lots generalizing n with
  | nil => simp [consume]
  | cons lot lots ih =>
      by_cases nothing : n = 0
      · simp [nothing]
      · by_cases taken : eligible lot = true
        · by_cases fits : c.size lot ≤ n
          · simp [consume, nothing, taken, fits, ih, Nat.sub_add_eq]
          · simp only [consume, nothing, taken, fits, if_false, if_true, List.filter_cons,
              total_cons]
            omega
        · simp [consume, nothing, taken, ih]

/-- A pass closes only lots of its list. -/
theorem mem_of_mem_touched {eligible : R → Bool} {lots : List R} {n : ℕ} {lot : R}
    (member : lot ∈ c.touched eligible lots n) : lot ∈ lots := by
  induction lots generalizing n with
  | nil => simp [touched] at member
  | cons first lots ih =>
      by_cases nothing : n = 0
      · simp [nothing] at member
      · by_cases taken : eligible first = true
        · simp only [touched, nothing, taken, if_false, if_true, List.mem_cons] at member
          rcases member with rfl | member
          · exact List.mem_cons_self
          · exact List.mem_cons_of_mem _ (ih member)
        · simp only [touched, nothing, taken, if_false, Bool.false_eq_true] at member
          exact List.mem_cons_of_mem _ (ih member)

/-- The lots a pass leaves are lots of its list, closed or open parts of them
included. -/
theorem mem_consume_cases {eligible : R → Bool} {lots : List R} {n : ℕ} {lot : R}
    (member : lot ∈ (c.consume eligible lots n).1) :
    lot ∈ lots ∨ ∃ origin ∈ lots,
      lot = c.whole origin ∨
        ∃ k, 0 < k ∧ k < c.size origin ∧ (lot = c.part origin k ∨ lot = c.rest origin k) := by
  induction lots generalizing n with
  | nil => simp [consume] at member
  | cons first lots ih =>
      have lift : (lot ∈ lots ∨ ∃ origin ∈ lots, lot = c.whole origin ∨
            ∃ k, 0 < k ∧ k < c.size origin ∧ (lot = c.part origin k ∨ lot = c.rest origin k)) →
          (lot ∈ first :: lots ∨ ∃ origin ∈ first :: lots, lot = c.whole origin ∨
            ∃ k, 0 < k ∧ k < c.size origin ∧
              (lot = c.part origin k ∨ lot = c.rest origin k)) := by
        rintro (inside | ⟨origin, inside, shape⟩)
        · exact Or.inl (List.mem_cons_of_mem _ inside)
        · exact Or.inr ⟨origin, List.mem_cons_of_mem _ inside, shape⟩
      by_cases nothing : n = 0
      · simp only [nothing, consume_zero] at member
        exact Or.inl member
      · by_cases taken : eligible first = true
        · by_cases fits : c.size first ≤ n
          · simp only [consume, nothing, taken, fits, if_false, if_true, List.mem_cons] at member
            rcases member with rfl | member
            · exact Or.inr ⟨first, List.mem_cons_self, Or.inl rfl⟩
            · exact lift (ih member)
          · simp only [consume, nothing, taken, fits, if_false, if_true, List.mem_cons] at member
            have positive : 0 < n := Nat.pos_of_ne_zero nothing
            have smaller : n < c.size first := Nat.lt_of_not_le fits
            rcases member with rfl | rfl | member
            · exact Or.inr ⟨first, List.mem_cons_self, Or.inr ⟨n, positive, smaller, Or.inr rfl⟩⟩
            · exact Or.inr ⟨first, List.mem_cons_self, Or.inr ⟨n, positive, smaller, Or.inl rfl⟩⟩
            · exact Or.inl (List.mem_cons_of_mem _ member)
        · simp only [consume, nothing, taken, if_false, List.mem_cons, Bool.false_eq_true] at member
          rcases member with rfl | member
          · exact Or.inl List.mem_cons_self
          · exact lift (ih member)

/-- A pass over lots of positive size leaves lots of positive size. -/
theorem size_pos_of_mem_consume {eligible : R → Bool} {lots : List R}
    (positive : ∀ lot ∈ lots, 0 < c.size lot) {n : ℕ} {lot : R}
    (member : lot ∈ (c.consume eligible lots n).1) : 0 < c.size lot := by
  rcases c.mem_consume_cases member with inside | ⟨origin, inside, rfl | ⟨k, low, high, rfl | rfl⟩⟩
  · exact positive lot inside
  · simpa using positive origin inside
  · simpa using low
  · simp only [size_rest]
    omega

/-- When no lot is eligible a pass changes nothing. -/
theorem consume_of_filter_eq_nil {eligible : R → Bool} {lots : List R}
    (none : lots.filter eligible = []) (n : ℕ) : c.consume eligible lots n = (lots, n) := by
  induction lots generalizing n with
  | nil => rfl
  | cons lot lots ih =>
      rw [List.filter_eq_nil_iff] at none
      have refused : eligible lot ≠ true := none lot List.mem_cons_self
      have others : lots.filter eligible = [] :=
        List.filter_eq_nil_iff.mpr fun other member => none other (List.mem_cons_of_mem _ member)
      by_cases nothing : n = 0
      · simp [nothing]
      · simp [consume, nothing, refused, ih others]

/-- A pass that never gets beyond a first part of the list changes only that
part. -/
theorem consume_append_of_le {first second : List R} {n : ℕ} (enough : n ≤ c.total first) :
    (c.consume anyLot (first ++ second) n).1 = (c.consume anyLot first n).1 ++ second := by
  induction first generalizing n with
  | nil =>
      have nothing : n = 0 := Nat.le_zero.mp enough
      simp [nothing]
  | cons lot lots ih =>
      by_cases nothing : n = 0
      · simp [nothing]
      · rw [total_cons] at enough
        by_cases fits : c.size lot ≤ n
        · simp [consume, nothing, fits, ih (n := n - c.size lot) (by omega)]
        · simp [consume, nothing, fits]

/-! ## What a pass books -/

section Charge

variable {M : Type v} [AddCommMonoid M] (w : R → M)

@[simp]
theorem charge_zero (eligible : R → Bool) (lots : List R) :
    c.charge w eligible lots 0 = 0 := by
  induction lots with
  | nil => rfl
  | cons lot lots ih => by_cases taken : eligible lot = true <;> simp [charge, taken, ih]

/-- What is booked depends on the sizes of lots, not on how they are closed. -/
theorem charge_congr {c d : Closing R} (sizes : c.size = d.size) (eligible : R → Bool)
    (lots : List R) (n : ℕ) : c.charge w eligible lots n = d.charge w eligible lots n := by
  induction lots generalizing n with
  | nil => rfl
  | cons lot lots ih => simp only [charge, ih, sizes]

/-- Only the eligible lots are charged, in their order. -/
theorem charge_eq_charge_filter (eligible : R → Bool) (lots : List R) (n : ℕ) :
    c.charge w eligible lots n = c.charge w anyLot (lots.filter eligible) n := by
  induction lots generalizing n with
  | nil => rfl
  | cons lot lots ih =>
      by_cases taken : eligible lot = true <;> simp [charge, taken, ih]

/-- The second part of a list is charged what the first part cannot cover. -/
theorem charge_append (first second : List R) (n : ℕ) :
    c.charge w anyLot (first ++ second) n =
      c.charge w anyLot first n + c.charge w anyLot second (n - c.total first) := by
  induction first generalizing n with
  | nil => simp [charge]
  | cons lot lots ih => simp [charge, ih, add_assoc, Nat.sub_add_eq]

/-- A list that is used up is charged in full, whatever is still left to
close. -/
theorem charge_eq_of_total_le {lots : List R} {m n : ℕ}
    (first : c.total lots ≤ m) (second : c.total lots ≤ n) :
    c.charge w anyLot lots m = c.charge w anyLot lots n := by
  induction lots generalizing m n with
  | nil => rfl
  | cons lot lots ih =>
      rw [total_cons] at first second
      have small : c.size lot ≤ m ∧ c.size lot ≤ n := ⟨by omega, by omega⟩
      simp [charge, min_eq_left small.1, min_eq_left small.2,
        ih (m := m - c.size lot) (n := n - c.size lot) (by omega) (by omega)]

/-- A quantity that fits in the first lot is charged to it alone. -/
theorem charge_cons_of_le (lot : R) (lots : List R) {n : ℕ} (fits : n ≤ c.size lot) :
    c.charge w anyLot (lot :: lots) n = n • w lot := by
  simp [charge, min_eq_right fits, Nat.sub_eq_zero_of_le fits]

/-- What the first part of a list cannot cover is charged to the lot after it,
if it fits there. -/
theorem charge_append_cons_of_le (first : List R) (lot : R) (lots : List R) {n : ℕ}
    (fits : n ≤ c.total first + c.size lot) :
    c.charge w anyLot (first ++ lot :: lots) n =
      c.charge w anyLot first n + (n - c.total first) • w lot := by
  rw [charge_append, c.charge_cons_of_le w lot lots (by omega)]

end Charge

/-- Charging one per unit counts what is closed. -/
theorem charge_one (eligible : R → Bool) (lots : List R) (n : ℕ) :
    c.charge (fun _ => 1) eligible lots n = min n (c.total (lots.filter eligible)) := by
  induction lots generalizing n with
  | nil => simp [charge]
  | cons lot lots ih =>
      by_cases taken : eligible lot = true
      · simp only [charge, taken, if_true, ih, List.filter_cons, total_cons, smul_eq_mul, mul_one]
        omega
      · simp [charge, taken, ih]

/-- The weight that counts the units of lots satisfying `q`. -/
def unitOf (q : R → Bool) : R → ℕ := fun lot => if q lot then 1 else 0

/-- Exact account of the open lots satisfying `q` across a pass.  What the
pass books is missing from them afterwards, except that a done lot closed
again is booked without having been open. -/
theorem openTotal_consume {q : R → Bool} (q_rest : ∀ lot k, q (c.rest lot k) = q lot)
    (eligible : R → Bool) (lots : List R) (n : ℕ) :
    c.openTotal q (c.consume eligible lots n).1 + c.charge (unitOf q) eligible lots n =
      c.openTotal q lots +
        c.total ((c.touched eligible lots n).filter fun lot => c.done lot && q lot) := by
  induction lots generalizing n with
  | nil => simp [consume, charge, touched]
  | cons lot lots ih =>
      by_cases nothing : n = 0
      · simp [nothing]
      · by_cases taken : eligible lot = true
        · by_cases fits : c.size lot ≤ n
          · have later := ih (n - c.size lot)
            simp only [consume, charge, touched, nothing, taken, fits, if_true, if_false,
              openTotal_cons, done_whole, List.filter_cons, min_eq_left fits, smul_eq_mul]
            cases c.done lot <;> cases hq : q lot <;> simp [unitOf, hq] at later ⊢ <;> omega
          · have smaller : n ≤ c.size lot := Nat.le_of_lt (Nat.lt_of_not_le fits)
            simp only [consume, charge, touched, nothing, taken, fits, if_true, if_false,
              openTotal_cons, done_rest, done_part, size_rest, q_rest, List.filter_cons,
              min_eq_right smaller, Nat.sub_eq_zero_of_le smaller, touched_zero, charge_zero,
              smul_eq_mul]
            cases c.done lot <;> cases hq : q lot <;> simp [unitOf, hq] <;> omega
        · have later := ih n
          simp only [consume, charge, touched, nothing, taken, if_false, openTotal_cons,
            Bool.false_eq_true]
          omega

/-! ## How far a pass may go -/

/-- A pass over eligible lots is the pass over all lots of the filtered list,
as far as what it touches is concerned. -/
theorem touched_eq_touched_filter (eligible : R → Bool) (lots : List R) (n : ℕ) :
    c.touched eligible lots n = c.touched anyLot (lots.filter eligible) n := by
  induction lots generalizing n with
  | nil => rfl
  | cons lot lots ih =>
      by_cases nothing : n = 0
      · simp [nothing]
      · by_cases taken : eligible lot = true <;> simp [touched, nothing, taken, ih]

/-- A pass over all lots touches only open ones exactly when there is no done
lot at all or it stops in front of the first. -/
theorem touched_open_iff (lots : List R) (n : ℕ) :
    (∀ lot ∈ c.touched anyLot lots n, c.done lot = false) ↔
      (∀ lot ∈ lots, c.done lot = false) ∨
        n ≤ c.total (lots.takeWhile fun lot => !c.done lot) := by
  induction lots generalizing n with
  | nil => simp [touched]
  | cons lot lots ih =>
      by_cases nothing : n = 0
      · simp [nothing]
      · cases isDone : c.done lot with
        | true => simp [touched, nothing, isDone]
        | false =>
            simp only [touched, nothing, if_false, anyLot_apply, if_true, List.forall_mem_cons,
              isDone, true_and, ih, List.takeWhile_cons, Bool.not_false, total_cons]
            have shift : ∀ m, n - c.size lot ≤ m ↔ n ≤ c.size lot + m := by omega
            rw [shift]

end Closing

end TradingApp.Lots

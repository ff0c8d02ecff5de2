import Mathlib.Algebra.Module.NatInt
import TradingApp.Lots.Sweep

/-!
# One sweep against two

Closing a quantity in one sweep and closing it in two consecutive sweeps
leave and book the same as long as neither of the two meets a lot that is
already done.  How far that carries depends on whether the preference looks
at the state of a lot:

* a preference for open lots skips what the first sweep closed, and only the
  pass over all lots can stumble over it;
* a preference that ignores the state stumbles over the first lot the first
  sweep has closed.
-/

namespace TradingApp.Lots.Closing

universe u v

variable {R : Type u} (c : Closing R)

/-- A value of lots that closing and splitting do not change. -/
structure Stable {β : Type v} (f : R → β) : Prop where
  whole : ∀ lot, f (c.whole lot) = f lot
  part : ∀ lot n, f (c.part lot n) = f lot
  rest : ∀ lot n, f (c.rest lot n) = f lot

/-- Preference for the open lots that pass a test. -/
def openAnd (q : R → Bool) : R → Bool := fun lot => !c.done lot && q lot

/-- The quantity two sweeps together can close like one, when open lots that
pass `q` are preferred and the first sweep closes `a`: as long as the first
sweep stays within the preferred lots the second may use all the clear ones,
afterwards only the one the first sweep stopped in. -/
def splitReachOpen (q : R → Bool) (lots : List R) (a : ℕ) : ℕ :=
  if a ≤ c.total (lots.filter (c.openAnd q)) then
    c.total (lots.filter (c.openAnd q)) + c.total (c.clear (c.openAnd q) lots)
  else c.total (lots.filter (c.openAnd q)) + c.total ((c.clear (c.openAnd q) lots).take 1)

/-- The quantity two sweeps together can close like one, when lots that pass
`q` are preferred whatever their state: what is open of the first lot
visited. -/
def splitReachAll (q : R → Bool) (lots : List R) : ℕ :=
  c.openTotal anyLot ((lots.filter q ++ lots).take 1)

/-- A sweep that its first pass covers is that pass. -/
theorem sweep_of_le {prefers : R → Bool} {lots : List R} {n : ℕ}
    (covered : n ≤ c.total (lots.filter prefers)) :
    c.sweep prefers lots n = ((c.consume prefers lots n).1, 0) := by
  have nothing : (c.consume prefers lots n).2 = 0 := by
    rw [consume_left]
    omega
  rw [sweep, nothing, consume_zero]

/-- A stable test that no lot of a list passes is passed by none of the lots
a pass leaves. -/
theorem filter_consume_eq_nil {q eligible : R → Bool} (stable : c.Stable q) {lots : List R}
    (none : ∀ lot ∈ lots, q lot = false) (n : ℕ) :
    ∀ lot ∈ (c.consume eligible lots n).1, q lot = false := by
  intro lot member
  rcases c.mem_consume_cases member with
    inside | ⟨origin, inside, rfl | ⟨k, -, -, rfl | rfl⟩⟩
  · exact none lot inside
  · rw [stable.whole, none origin inside]
  · rw [stable.part, none origin inside]
  · rw [stable.rest, none origin inside]

/-! ## Preferring open lots -/

section OpenAnd

variable {q : R → Bool}

@[simp]
theorem openAnd_whole (lot : R) : c.openAnd q (c.whole lot) = false := by
  simp [openAnd]

@[simp]
theorem openAnd_part (lot : R) (n : ℕ) : c.openAnd q (c.part lot n) = false := by
  simp [openAnd]

theorem reach_openAnd (lots : List R) :
    c.reach (c.openAnd q) lots =
      c.total (lots.filter (c.openAnd q)) + c.total (c.clear (c.openAnd q) lots) := by
  have allOpen : ((lots.filter (c.openAnd q)).all fun lot => !c.done lot) = true := by
    rw [List.all_eq_true]
    intro lot member
    have passes := (List.mem_filter.mp member).2
    simp only [openAnd, Bool.and_eq_true] at passes
    exact passes.1
  rw [reach, if_pos allOpen]

theorem splitReachOpen_le_reach (lots : List R) (a : ℕ) :
    c.splitReachOpen q lots a ≤ c.reach (c.openAnd q) lots := by
  rw [reach_openAnd, splitReachOpen]
  split
  · exact Nat.le_refl _
  · have oneOfThem := c.total_append ((c.clear (c.openAnd q) lots).take 1)
      ((c.clear (c.openAnd q) lots).drop 1)
    rw [List.take_append_drop] at oneOfThem
    omega

variable (stable : c.Stable q)

include stable

theorem openAnd_rest {lot : R} (isOpen : c.done lot = false) (n : ℕ) :
    c.openAnd q (c.rest lot n) = c.openAnd q lot := by
  simp [openAnd, stable.rest, isOpen]

/-- A pass over the preferred lots does not change which lots are clear. -/
theorem clear_consume_openAnd (lots : List R) (n : ℕ) :
    c.clear (c.openAnd q) (c.consume (c.openAnd q) lots n).1 = c.clear (c.openAnd q) lots := by
  induction lots generalizing n with
  | nil => rfl
  | cons lot lots ih =>
      by_cases nothing : n = 0
      · simp [nothing]
      · by_cases taken : c.openAnd q lot = true
        · have isOpen : c.done lot = false := by
            simp only [openAnd, Bool.and_eq_true, Bool.not_eq_true'] at taken
            exact taken.1
          by_cases fits : c.size lot ≤ n
          · simp [clear, consume, nothing, taken, fits]
          · simp [clear, consume, nothing, taken, fits, c.openAnd_rest stable isOpen]
        · cases isDone : c.done lot with
          | true => simp [clear, consume, nothing, taken, isDone]
          | false => simpa [clear, consume, nothing, taken, isDone] using ih n

/-- A pass over the preferred lots takes what it closes from their total. -/
theorem total_filter_consume_openAnd (lots : List R) (n : ℕ) :
    c.total ((c.consume (c.openAnd q) lots n).1.filter (c.openAnd q)) =
      c.total (lots.filter (c.openAnd q)) - n := by
  induction lots generalizing n with
  | nil => simp [consume]
  | cons lot lots ih =>
      by_cases nothing : n = 0
      · simp [nothing]
      · by_cases taken : c.openAnd q lot = true
        · have isOpen : c.done lot = false := by
            simp only [openAnd, Bool.and_eq_true, Bool.not_eq_true'] at taken
            exact taken.1
          by_cases fits : c.size lot ≤ n
          · have later := ih (n - c.size lot)
            simp only [consume, nothing, taken, fits, if_true, if_false, List.filter_cons,
              openAnd_whole, Bool.false_eq_true, total_cons]
            omega
          · simp only [consume, nothing, taken, fits, if_true, if_false, List.filter_cons,
              c.openAnd_rest stable isOpen, openAnd_part, Bool.false_eq_true, total_cons,
              size_rest]
            omega
        · simpa [consume, nothing, taken] using ih n

/-- Two passes over the preferred lots book together what one pass books. -/
theorem charge_consume_openAnd_add {M : Type v} [AddCommMonoid M] {w : R → M}
    (w_rest : ∀ lot n, w (c.rest lot n) = w lot) (lots : List R) (a b : ℕ) :
    c.charge w (c.openAnd q) lots a +
        c.charge w (c.openAnd q) (c.consume (c.openAnd q) lots a).1 b =
      c.charge w (c.openAnd q) lots (a + b) := by
  induction lots generalizing a b with
  | nil => simp [charge, consume]
  | cons lot lots ih =>
      by_cases nothing : a = 0
      · simp [nothing]
      · by_cases taken : c.openAnd q lot = true
        · have isOpen : c.done lot = false := by
            simp only [openAnd, Bool.and_eq_true, Bool.not_eq_true'] at taken
            exact taken.1
          by_cases fits : c.size lot ≤ a
          · have later := ih (a - c.size lot) b
            have whole : min (c.size lot) (a + b) = min (c.size lot) a := by omega
            have shift : a + b - c.size lot = a - c.size lot + b := by omega
            simp only [consume, charge, nothing, taken, fits, if_true, if_false, openAnd_whole,
              Bool.false_eq_true, whole, shift]
            rw [add_assoc, later]
          · have split : min (c.size lot) (a + b) =
                min (c.size lot) a + min (c.size lot - a) b := by omega
            have nothingLeft : a - c.size lot = 0 := by omega
            have shift : a + b - c.size lot = b - (c.size lot - a) := by omega
            simp only [consume, charge, nothing, taken, fits, if_true, if_false, openAnd_part,
              c.openAnd_rest stable isOpen, Bool.false_eq_true, size_rest, w_rest, split, shift,
              nothingLeft, charge_zero, add_zero, add_smul]
            rw [add_assoc]
        · simpa [consume, charge, nothing, taken] using ih a b

/-- A sweep that goes beyond the preferred lots leaves none of them open, and
leaves clear what it left of the first clear lot. -/
theorem sweep_beyond_openAnd {lots : List R} {a : ℕ}
    (beyond : c.total (lots.filter (c.openAnd q)) < a)
    (within : a ≤ c.reach (c.openAnd q) lots) :
    (c.sweep (c.openAnd q) lots a).1.filter (c.openAnd q) = [] ∧
      ∃ lot clearLots, c.clear (c.openAnd q) lots = lot :: clearLots ∧
        c.clear (c.openAnd q) (c.sweep (c.openAnd q) lots a).1 =
          if c.size lot ≤ a - c.total (lots.filter (c.openAnd q)) then []
          else [c.rest lot (a - c.total (lots.filter (c.openAnd q)))] := by
  obtain ⟨rest, split⟩ := c.clear_prefix_consume (c.openAnd q) lots a
  have enough := c.sub_le_total_clear within
  have left : (c.consume (c.openAnd q) lots a).2 = a - c.total (lots.filter (c.openAnd q)) :=
    c.consume_left _ _ _
  have clearFails : ∀ lot ∈ c.clear (c.openAnd q) lots, c.done lot = false ∧ q lot = false := by
    intro lot member
    have passes := List.mem_takeWhile_imp member
    simp only [openAnd, Bool.and_eq_true, Bool.not_eq_true', Bool.and_eq_false_imp] at passes
    exact ⟨passes.1, passes.2 (by simp [passes.1])⟩
  have noneLeft : rest.filter (c.openAnd q) = [] := by
    have noneAtAll : ∀ lot ∈ (c.consume (c.openAnd q) lots a).1, ¬ c.openAnd q lot = true := by
      rw [c.consume_of_total_lt beyond]
      intro lot member
      obtain ⟨origin, -, rfl⟩ := List.mem_map.mp member
      split
      · simp
      · assumption
    rw [List.filter_eq_nil_iff]
    intro lot member
    exact noneAtAll lot (by rw [split]; exact List.mem_append_right _ member)
  have leaves : (c.sweep (c.openAnd q) lots a).1 =
      (c.consume anyLot (c.clear (c.openAnd q) lots)
        (a - c.total (lots.filter (c.openAnd q)))).1 ++ rest := by
    rw [sweep, left, split, c.consume_append_of_le enough]
  refine ⟨?_, ?_⟩
  · have noneFirst : ((c.consume anyLot (c.clear (c.openAnd q) lots)
        (a - c.total (lots.filter (c.openAnd q)))).1).filter (c.openAnd q) = [] := by
      rw [List.filter_eq_nil_iff]
      intro lot member
      have fails := c.filter_consume_eq_nil stable (fun l m => (clearFails l m).2) _ lot member
      simp [openAnd, fails]
    rw [leaves, List.filter_append, noneFirst, noneLeft, List.append_nil]
  · cases isClear : c.clear (c.openAnd q) lots with
    | nil =>
        rw [isClear, total_nil] at enough
        omega
    | cons lot clearLots =>
        refine ⟨lot, clearLots, rfl, ?_⟩
        have something : a - c.total (lots.filter (c.openAnd q)) ≠ 0 := by omega
        have fails := (clearFails lot (by rw [isClear]; exact List.mem_cons_self)).2
        rw [leaves, isClear]
        by_cases fits : c.size lot ≤ a - c.total (lots.filter (c.openAnd q))
        · simp [consume, something, fits, clear]
        · simp [consume, something, fits, clear, openAnd, stable.rest, fails]

/-- After a sweep that closed `a`, a second sweep for open lots may go
exactly as far as the two together can close like one. -/
theorem le_reach_sweep_openAnd_iff {lots : List R} {a b : ℕ}
    (within : a ≤ c.reach (c.openAnd q) lots) (positive : 0 < b) :
    b ≤ c.reach (c.openAnd q) (c.sweep (c.openAnd q) lots a).1 ↔
      a + b ≤ c.splitReachOpen q lots a := by
  by_cases covered : a ≤ c.total (lots.filter (c.openAnd q))
  · rw [splitReachOpen, if_pos covered, c.sweep_of_le covered, reach_openAnd,
      c.clear_consume_openAnd stable, c.total_filter_consume_openAnd stable]
    omega
  · have beyond := Nat.lt_of_not_le covered
    obtain ⟨none, lot, clearLots, isClear, leaves⟩ := c.sweep_beyond_openAnd stable beyond within
    rw [splitReachOpen, if_neg covered, reach_openAnd, none, leaves, isClear]
    split
    · simp
      omega
    · simp
      omega

/-- Two sweeps for open lots that together stay within the split reach book
what one sweep books. -/
theorem sweepCharge_openAnd_add {M : Type v} [AddCommMonoid M] {w : R → M}
    (w_rest : ∀ lot n, w (c.rest lot n) = w lot) {lots : List R} {a b : ℕ} (positive : 0 < b)
    (together : a + b ≤ c.splitReachOpen q lots a) :
    c.sweepCharge w (c.openAnd q) lots a +
        c.sweepCharge w (c.openAnd q) (c.sweep (c.openAnd q) lots a).1 b =
      c.sweepCharge w (c.openAnd q) lots (a + b) := by
  have single := Nat.le_trans together (c.splitReachOpen_le_reach lots a)
  have first : a ≤ c.reach (c.openAnd q) lots := Nat.le_trans (Nat.le_add_right a b) single
  have second := (c.le_reach_sweep_openAnd_iff stable first positive).mpr together
  rw [c.sweepCharge_of_le w first, c.sweepCharge_of_le w second, c.sweepCharge_of_le w single]
  by_cases covered : a ≤ c.total (lots.filter (c.openAnd q))
  · rw [c.sweep_of_le covered, c.clear_consume_openAnd stable]
    have adds := c.charge_consume_openAnd_add stable w_rest lots a b
    have shift : b - (c.total (lots.filter (c.openAnd q)) - a) =
        a + b - c.total (lots.filter (c.openAnd q)) := by omega
    simp only [charge_append, Nat.sub_eq_zero_of_le covered, charge_zero, add_zero,
      c.total_filter_consume_openAnd stable, shift, ← charge_eq_charge_filter]
    rw [← adds, add_assoc]
  · have beyond := Nat.lt_of_not_le covered
    obtain ⟨none, lot, clearLots, isClear, leaves⟩ := c.sweep_beyond_openAnd stable beyond first
    rw [splitReachOpen, if_neg covered, isClear] at together
    simp only [List.take_succ_cons, List.take_zero, total_cons, total_nil, Nat.add_zero]
      at together
    have splits : ¬ c.size lot ≤ a - c.total (lots.filter (c.openAnd q)) := by omega
    have restFits : b ≤ c.size (c.rest lot (a - c.total (lots.filter (c.openAnd q)))) := by
      rw [size_rest]
      omega
    have usedUp : c.charge w anyLot (lots.filter (c.openAnd q)) a =
        c.charge w anyLot (lots.filter (c.openAnd q)) (a + b) :=
      c.charge_eq_of_total_le w (Nat.le_of_lt beyond) (by omega)
    have shift : a + b - c.total (lots.filter (c.openAnd q)) =
        a - c.total (lots.filter (c.openAnd q)) + b := by omega
    rw [none, leaves, isClear, if_neg splits, List.nil_append,
      c.charge_append_cons_of_le w _ _ _ (Nat.le_trans (Nat.le_add_right a b) together),
      c.charge_append_cons_of_le w _ _ _ together, c.charge_cons_of_le w _ _ restFits, w_rest,
      usedUp, shift, add_smul, add_assoc]

end OpenAnd

/-! ## Preferring lots whatever their state -/

section All

variable {q : R → Bool}

/-- Where the first pass finds a lot, it is the first one visited. -/
theorem splitReachAll_of_filter_eq_cons {lots : List R} {lot : R} {others : List R}
    (found : lots.filter q = lot :: others) :
    c.splitReachAll q lots = if c.done lot then 0 else c.size lot := by
  cases isDone : c.done lot <;> simp [splitReachAll, found, openTotal_cons, isDone]

/-- Where the first pass finds no lot, the first one of the list is the first
one visited. -/
theorem splitReachAll_cons_of_filter_eq_nil {lot : R} {lots : List R}
    (none : (lot :: lots).filter q = []) :
    c.splitReachAll q (lot :: lots) = if c.done lot then 0 else c.size lot := by
  cases isDone : c.done lot <;> simp [splitReachAll, none, openTotal_cons, isDone]

theorem reach_of_filter_eq_nil {lots : List R} (none : lots.filter q = []) :
    c.reach q lots = c.total (c.clear q lots) := by
  simp [reach, none]

/-- Where the lot a sweep visits first is done, the sweep may not go
anywhere. -/
theorem reach_of_filter_eq_done {lots : List R} {lot : R} {others : List R}
    (found : lots.filter q = lot :: others) (isDone : c.done lot = true) :
    c.reach q lots = 0 := by
  simp [reach, found, isDone]

theorem size_le_reach_of_filter_eq_cons {lots : List R} {lot : R} {others : List R}
    (found : lots.filter q = lot :: others) (isOpen : c.done lot = false) :
    c.size lot ≤ c.reach q lots := by
  have bounded := c.total_takeWhile_filter_le_reach q lots
  rw [found] at bounded
  simp only [List.takeWhile_cons, isOpen, Bool.not_false, if_true, total_cons] at bounded
  omega

theorem clear_cons_of_filter_eq_nil {lot : R} {lots : List R}
    (none : (lot :: lots).filter q = []) (isOpen : c.done lot = false) :
    c.clear q (lot :: lots) = lot :: c.clear q lots := by
  have refused : ¬ q lot = true := List.filter_eq_nil_iff.mp none lot List.mem_cons_self
  simp [clear, isOpen, refused]

theorem splitReachAll_le_reach (lots : List R) :
    c.splitReachAll q lots ≤ c.reach q lots := by
  cases found : lots.filter q with
  | cons lot others =>
      rw [c.splitReachAll_of_filter_eq_cons found]
      cases isDone : c.done lot with
      | true => simp
      | false => simpa using c.size_le_reach_of_filter_eq_cons found isDone
  | nil =>
      cases lots with
      | nil => simp [splitReachAll]
      | cons lot lots =>
          rw [c.splitReachAll_cons_of_filter_eq_nil found]
          cases isDone : c.done lot with
          | true => simp
          | false =>
              simp [c.reach_of_filter_eq_nil found, c.clear_cons_of_filter_eq_nil found isDone]

variable (stable : c.Stable q)

include stable

/-- A sweep that finds its first lot in the first pass finds it there closed
or split when it comes back. -/
theorem filter_sweep_of_filter_eq_cons {lots : List R} {lot : R} {others : List R} {a : ℕ}
    (found : lots.filter q = lot :: others) (positive : 0 < a) (within : a ≤ c.reach q lots) :
    ∃ later, (c.sweep q lots a).1.filter q =
      if c.size lot ≤ a then c.whole lot :: later
      else c.rest lot a :: c.part lot a :: later := by
  obtain ⟨first, second, rfl, refused, taken, -⟩ := List.filter_eq_cons_iff.mp found
  have noneFirst : first.filter q = [] := List.filter_eq_nil_iff.mpr refused
  have something : a ≠ 0 := Nat.ne_of_gt positive
  by_cases fits : c.size lot ≤ a
  · have clearFits : c.total (c.clear q (first ++ lot :: second)) ≤ c.total first := by
      have stops : c.clear q (first ++ lot :: second) = c.clear q first := by
        unfold clear
        rw [List.takeWhile_append]
        split
        · rename_i allClear
          have whole := (List.takeWhile_prefix _).eq_of_length allClear
          rw [whole]
          simp [taken]
        · rfl
      rw [stops]
      exact c.total_takeWhile_le _ _
    have enough := Nat.le_trans (c.sub_le_total_clear within) clearFits
    have leaves : (c.consume q (first ++ lot :: second) a).1 =
        first ++ c.whole lot :: (c.consume q second (a - c.size lot)).1 := by
      simp [c.consume_append_of_filter_eq_nil noneFirst, consume, something, taken, fits]
    have stillNone : ((c.consume anyLot first
        (a - c.total ((first ++ lot :: second).filter q))).1).filter q = [] := by
      rw [List.filter_eq_nil_iff]
      intro other member
      rw [c.filter_consume_eq_nil stable (fun l m => Bool.eq_false_iff.mpr (refused l m)) _ other
        member]
      simp
    refine ⟨(c.consume q second (a - c.size lot)).1.filter q, ?_⟩
    rw [if_pos fits, sweep, consume_left, leaves, c.consume_append_of_le enough,
      List.filter_append, stillNone, List.nil_append, List.filter_cons, stable.whole, if_pos taken]
  · refine ⟨second.filter q, ?_⟩
    have covered : a ≤ c.total ((first ++ lot :: second).filter q) := by
      rw [found, total_cons]
      omega
    rw [if_neg fits, c.sweep_of_le covered, c.consume_append_of_filter_eq_nil noneFirst]
    simp [consume, something, taken, fits, noneFirst, stable.rest, stable.part]

/-- A sweep that finds nothing in the first pass leaves clear what it left of
the first lot of the list. -/
theorem sweep_of_filter_eq_nil {lot : R} {lots : List R} {a : ℕ}
    (none : (lot :: lots).filter q = []) (positive : 0 < a) :
    (c.sweep q (lot :: lots) a).1.filter q = [] ∧
      c.clear q (c.sweep q (lot :: lots) a).1 =
        if c.size lot ≤ a then [] else [c.rest lot a] := by
  have refused := List.filter_eq_nil_iff.mp none
  have something : a ≠ 0 := Nat.ne_of_gt positive
  rw [sweep, c.consume_of_filter_eq_nil none]
  constructor
  · rw [List.filter_eq_nil_iff]
    intro other member
    rw [c.filter_consume_eq_nil stable (fun l m => Bool.eq_false_iff.mpr (refused l m)) _ other
      member]
    simp
  · have failsHere := refused lot List.mem_cons_self
    by_cases fits : c.size lot ≤ a
    · simp [consume, something, fits, clear]
    · simp [consume, something, fits, clear, stable.rest, failsHere]

/-- After a sweep that closed `a`, a second sweep that prefers lots whatever
their state may go exactly as far as the two together can close like one. -/
theorem le_reach_sweep_all_iff {lots : List R} {a b : ℕ} (first : 0 < a)
    (within : a ≤ c.reach q lots) (positive : 0 < b) :
    b ≤ c.reach q (c.sweep q lots a).1 ↔ a + b ≤ c.splitReachAll q lots := by
  cases found : lots.filter q with
  | cons lot others =>
      have isOpen : c.done lot = false := by
        by_contra isDone
        rw [c.reach_of_filter_eq_done found (by simpa using isDone)] at within
        omega
      obtain ⟨later, leaves⟩ := c.filter_sweep_of_filter_eq_cons stable found first within
      rw [c.splitReachAll_of_filter_eq_cons found, isOpen]
      by_cases fits : c.size lot ≤ a
      · rw [if_pos fits] at leaves
        rw [c.reach_of_filter_eq_done leaves (c.done_whole lot)]
        simp
        omega
      · rw [if_neg fits] at leaves
        simp [reach, leaves]
        omega
  | nil =>
      rw [c.reach_of_filter_eq_nil found] at within
      cases lots with
      | nil =>
          simp only [clear, List.takeWhile_nil, total_nil] at within
          omega
      | cons lot lots =>
          have isOpen : c.done lot = false := by
            cases isDone : c.done lot with
            | false => rfl
            | true =>
                simp only [clear, List.takeWhile_cons, isDone, Bool.not_true, Bool.false_and,
                  Bool.false_eq_true, if_false, total_nil] at within
                omega
          obtain ⟨none, leaves⟩ := c.sweep_of_filter_eq_nil stable found first
          rw [c.splitReachAll_cons_of_filter_eq_nil found, isOpen, c.reach_of_filter_eq_nil none,
            leaves]
          split
          · simp
            omega
          · simp
            omega

/-- Two sweeps that together stay within the first lot visited book what one
sweep books. -/
theorem sweepCharge_all_add {M : Type v} [AddCommMonoid M] {w : R → M}
    (w_rest : ∀ lot n, w (c.rest lot n) = w lot) {lots : List R} {a b : ℕ} (first : 0 < a)
    (positive : 0 < b) (together : a + b ≤ c.splitReachAll q lots) :
    c.sweepCharge w q lots a + c.sweepCharge w q (c.sweep q lots a).1 b =
      c.sweepCharge w q lots (a + b) := by
  have single := Nat.le_trans together (c.splitReachAll_le_reach lots)
  have within : a ≤ c.reach q lots := Nat.le_trans (Nat.le_add_right a b) single
  have second := (c.le_reach_sweep_all_iff stable first within positive).mpr together
  rw [c.sweepCharge_of_le w within, c.sweepCharge_of_le w second, c.sweepCharge_of_le w single]
  cases found : lots.filter q with
  | cons lot others =>
      obtain ⟨later, leaves⟩ := c.filter_sweep_of_filter_eq_cons stable found first within
      rw [c.splitReachAll_of_filter_eq_cons found] at together
      have bounded : a + b ≤ c.size lot := by
        split at together <;> omega
      have splits : ¬ c.size lot ≤ a := by omega
      have restFits : b ≤ c.size (c.rest lot a) := by
        rw [size_rest]
        omega
      rw [leaves, if_neg splits, List.cons_append, List.cons_append,
        c.charge_cons_of_le w _ _ (by omega), c.charge_cons_of_le w _ _ restFits,
        c.charge_cons_of_le w _ _ bounded, w_rest, add_smul]
  | nil =>
      cases lots with
      | nil =>
          simp only [splitReachAll, found, List.append_nil, List.take_nil, openTotal_nil]
            at together
          omega
      | cons lot lots =>
          obtain ⟨none, leaves⟩ := c.sweep_of_filter_eq_nil stable found first
          rw [c.splitReachAll_cons_of_filter_eq_nil found] at together
          cases isDone : c.done lot with
          | true =>
              simp only [isDone, if_true] at together
              omega
          | false =>
              rw [isDone, if_neg (by simp)] at together
              have splits : ¬ c.size lot ≤ a := by omega
              have restFits : b ≤ c.size (c.rest lot a) := by
                rw [size_rest]
                omega
              rw [none, leaves, if_neg splits, c.clear_cons_of_filter_eq_nil found isDone,
                List.nil_append, List.nil_append, c.charge_cons_of_le w _ _ (by omega),
                c.charge_cons_of_le w _ _ restFits, c.charge_cons_of_le w _ _ together, w_rest,
                add_smul]

end All

end TradingApp.Lots.Closing

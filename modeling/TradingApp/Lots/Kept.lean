import Mathlib.Algebra.Order.Monoid.Unbundled.Pow
import TradingApp.Lots.SplitSweep

/-!
# What a sweep keeps

A pass closes lots where they stand.  A value that closing and splitting do
not change therefore keeps its order along the list, and the lots that share
it keep their total size.  What the pass books is what its done lots gain, as
long as it meets none that is done already; and what is not preferred is
closed only when everything preferred is.
-/

namespace TradingApp.Lots.Closing

universe u v

variable {R : Type u} (c : Closing R) {β : Type v} {f : R → β} {q eligible prefers : R → Bool}
  {lots : List R} {n : ℕ}

/-! ## Passes -/

/-- The lots a pass leaves are lots of its list, and whole lots or parts of
lots that it touched. -/
theorem mem_consume_touched {lot : R} (member : lot ∈ (c.consume eligible lots n).1) :
    lot ∈ lots ∨ ∃ origin ∈ c.touched eligible lots n,
      lot = c.whole origin ∨ ∃ k, lot = c.part origin k ∨ lot = c.rest origin k := by
  induction lots generalizing n with
  | nil => exact Or.inl member
  | cons first lots ih =>
      by_cases nothing : n = 0
      · rw [nothing, consume_zero] at member
        exact Or.inl member
      · by_cases taken : eligible first = true
        · by_cases fits : c.size first ≤ n
          · simp only [consume, touched, nothing, taken, fits, if_false, if_true,
              List.mem_cons] at member ⊢
            rcases member with rfl | member
            · exact Or.inr ⟨first, Or.inl rfl, Or.inl rfl⟩
            · rcases ih member with inside | ⟨origin, inside, shape⟩
              · exact Or.inl (Or.inr inside)
              · exact Or.inr ⟨origin, Or.inr inside, shape⟩
          · simp only [consume, touched, nothing, taken, fits, if_false, if_true,
              List.mem_cons] at member ⊢
            rcases member with rfl | rfl | member
            · exact Or.inr ⟨first, Or.inl rfl, Or.inr ⟨n, Or.inr rfl⟩⟩
            · exact Or.inr ⟨first, Or.inl rfl, Or.inr ⟨n, Or.inl rfl⟩⟩
            · exact Or.inl (Or.inr member)
        · simp only [consume, touched, nothing, taken, if_false, Bool.false_eq_true,
            List.mem_cons] at member ⊢
          rcases member with rfl | member
          · exact Or.inl (Or.inl rfl)
          · rcases ih member with inside | ⟨origin, inside, shape⟩
            · exact Or.inl (Or.inr inside)
            · exact Or.inr ⟨origin, inside, shape⟩

variable {c}

/-- A stable value is the same for a lot and what a pass makes of it. -/
theorem Stable.eq_of_shape (stable : c.Stable f) {lot origin : R}
    (shape : lot = c.whole origin ∨ ∃ k, lot = c.part origin k ∨ lot = c.rest origin k) :
    f lot = f origin := by
  rcases shape with rfl | ⟨k, rfl | rfl⟩
  · exact stable.whole origin
  · exact stable.part origin k
  · exact stable.rest origin k

/-- A pass brings in no new value. -/
theorem Stable.exists_of_mem_consume (stable : c.Stable f) {lot : R}
    (member : lot ∈ (c.consume eligible lots n).1) : ∃ origin ∈ lots, f lot = f origin := by
  rcases c.mem_consume_touched member with inside | ⟨origin, inside, shape⟩
  · exact ⟨lot, inside, rfl⟩
  · exact ⟨origin, c.mem_of_mem_touched inside, stable.eq_of_shape shape⟩

/-- A pass keeps the order of a stable value. -/
theorem Stable.pairwise_consume (stable : c.Stable f) {r : β → β → Prop} (refl : ∀ b, r b b)
    (sorted : lots.Pairwise fun first second => r (f first) (f second)) :
    (c.consume eligible lots n).1.Pairwise fun first second => r (f first) (f second) := by
  induction lots generalizing n with
  | nil => exact sorted
  | cons first lots ih =>
      rcases List.pairwise_cons.mp sorted with ⟨ahead, later⟩
      have behind : ∀ m, ∀ lot ∈ (c.consume eligible lots m).1, r (f first) (f lot) := by
        intro m lot member
        rcases stable.exists_of_mem_consume member with ⟨origin, inside, same⟩
        rw [same]
        exact ahead origin inside
      by_cases nothing : n = 0
      · rw [nothing, consume_zero]
        exact sorted
      · by_cases taken : eligible first = true
        · by_cases fits : c.size first ≤ n
          · simp only [consume, nothing, taken, fits, if_false, if_true, List.pairwise_cons,
              stable.whole]
            exact ⟨behind _, ih later⟩
          · simp only [consume, nothing, taken, fits, if_false, if_true, List.pairwise_cons,
              List.forall_mem_cons, stable.rest, stable.part]
            exact ⟨⟨refl _, ahead⟩, ahead, later⟩
        · simp only [consume, nothing, taken, if_false, Bool.false_eq_true, List.pairwise_cons]
          exact ⟨behind _, ih later⟩

/-- A pass keeps the total size of the lots that pass a stable test. -/
theorem Stable.total_filter_consume (stable : c.Stable q) :
    c.total ((c.consume eligible lots n).1.filter q) = c.total (lots.filter q) := by
  induction lots generalizing n with
  | nil => rfl
  | cons first lots ih =>
      by_cases nothing : n = 0
      · rw [nothing, consume_zero]
      · by_cases taken : eligible first = true
        · by_cases fits : c.size first ≤ n
          · cases passes : q first <;>
              simp [consume, nothing, taken, fits, stable.whole, passes, ih]
          · have smaller : n ≤ c.size first := Nat.le_of_lt (Nat.lt_of_not_le fits)
            cases passes : q first with
            | true =>
                simp only [consume, nothing, taken, fits, if_false, if_true, List.filter_cons,
                  stable.rest, stable.part, passes, total_cons, size_rest, size_part]
                omega
            | false =>
                simp [consume, nothing, taken, fits, stable.rest, stable.part, passes]
        · cases passes : q first <;> simp [consume, nothing, taken, passes, ih]

/-- A pass keeps what the lots are worth in total. -/
theorem Stable.sum_consume {M : Type v} [AddCommMonoid M] {w : R → M} (stable : c.Stable w) :
    ((c.consume eligible lots n).1.map fun lot => c.size lot • w lot).sum =
      (lots.map fun lot => c.size lot • w lot).sum := by
  induction lots generalizing n with
  | nil => rfl
  | cons first lots ih =>
      by_cases nothing : n = 0
      · rw [nothing, consume_zero]
      · by_cases taken : eligible first = true
        · by_cases fits : c.size first ≤ n
          · simp [consume, nothing, taken, fits, stable.whole, ih]
          · have smaller : n ≤ c.size first := Nat.le_of_lt (Nat.lt_of_not_le fits)
            have parts : (c.size first - n) • w first + n • w first = c.size first • w first := by
              rw [← add_nsmul, Nat.sub_add_cancel smaller]
            simp only [consume, nothing, taken, fits, if_false, if_true, List.map_cons,
              List.sum_cons, size_rest, size_part, stable.rest, stable.part]
            rw [← add_assoc, parts]
        · simp [consume, nothing, taken, ih]

/-- A pass over lots with a stable property leaves the others as they are. -/
theorem Stable.filter_not_consume (stable : c.Stable q)
    (only : ∀ lot ∈ lots, eligible lot = true → q lot = true) :
    (c.consume eligible lots n).1.filter (fun lot => !q lot) =
      lots.filter fun lot => !q lot := by
  induction lots generalizing n with
  | nil => rfl
  | cons first lots ih =>
      rcases List.forall_mem_cons.mp only with ⟨here, later⟩
      by_cases nothing : n = 0
      · rw [nothing, consume_zero]
      · by_cases taken : eligible first = true
        · have passes := here taken
          by_cases fits : c.size first ≤ n
          · simp [consume, nothing, taken, fits, stable.whole, passes, ih later]
          · simp [consume, nothing, taken, fits, stable.rest, stable.part, passes]
        · cases passes : q first <;> simp [consume, nothing, taken, passes, ih later]

variable (c)

/-- A lot that is not eligible is still there after a pass. -/
theorem mem_consume_of_not_eligible {lot : R} (member : lot ∈ lots)
    (refused : eligible lot = false) : lot ∈ (c.consume eligible lots n).1 := by
  induction lots generalizing n with
  | nil => exact member
  | cons first lots ih =>
      by_cases nothing : n = 0
      · rw [nothing, consume_zero]
        exact member
      · by_cases taken : eligible first = true
        · have later : lot ∈ lots := by
            rcases List.mem_cons.mp member with rfl | later
            · rw [refused] at taken
              exact absurd taken Bool.false_ne_true
            · exact later
          by_cases fits : c.size first ≤ n
          · simp [consume, nothing, taken, fits, ih later]
          · simp [consume, nothing, taken, fits, later]
        · simp only [consume, nothing, taken, if_false, Bool.false_eq_true, List.mem_cons]
          exact (List.mem_cons.mp member).imp id ih

/-- Over lots of positive size, a pass that covers the eligible ones closes
them all. -/
theorem consume_of_total_le (positive : ∀ lot ∈ lots, 0 < c.size lot)
    (enough : c.total (lots.filter eligible) ≤ n) :
    (c.consume eligible lots n).1 =
      lots.map fun lot => if eligible lot then c.whole lot else lot := by
  induction lots generalizing n with
  | nil => rfl
  | cons first lots ih =>
      rcases List.forall_mem_cons.mp positive with ⟨here, later⟩
      by_cases taken : eligible first = true
      · rw [List.filter_cons_of_pos taken, total_cons] at enough
        have something : n ≠ 0 := by omega
        have fits : c.size first ≤ n := by omega
        simp only [consume, something, taken, fits, if_true, if_false, List.map_cons]
        rw [ih later (by omega)]
      · rw [List.filter_cons_of_neg taken] at enough
        by_cases nothing : n = 0
        · have rest := ih later enough
          rw [nothing, consume_zero] at rest
          simp only [nothing, consume_zero, List.map_cons, taken, if_false, Bool.false_eq_true]
          exact congrArg (first :: ·) rest
        · simp only [consume, nothing, taken, if_false, List.map_cons, Bool.false_eq_true]
          rw [ih later enough]

/-- A pass that uses a list up books every lot in full. -/
theorem charge_total {M : Type v} [AddCommMonoid M] (w : R → M) (lots : List R) :
    c.charge w anyLot lots (c.total lots) = (lots.map fun lot => c.size lot • w lot).sum := by
  induction lots with
  | nil => rfl
  | cons first lots ih =>
      simp only [charge, anyLot_apply, if_true, total_cons, List.map_cons, List.sum_cons,
        min_eq_left (Nat.le_add_right _ _), Nat.add_sub_cancel_left, ih]

section Order

variable {M : Type v} [AddCommMonoid M] [PartialOrder M] [IsOrderedAddMonoid M] {w : R → M}

theorem charge_nonneg (gains : ∀ lot ∈ lots, 0 ≤ w lot) : 0 ≤ c.charge w anyLot lots n := by
  induction lots generalizing n with
  | nil => exact le_refl 0
  | cons first lots ih =>
      rcases List.forall_mem_cons.mp gains with ⟨here, later⟩
      simp only [charge, anyLot_apply, if_true]
      exact add_nonneg (nsmul_nonneg here _) (ih later)

/-- Closing something of lots that all gain books a gain. -/
theorem charge_pos (gains : ∀ lot ∈ lots, 0 < w lot) (positive : ∀ lot ∈ lots, 0 < c.size lot)
    (something : 0 < n) (some : lots ≠ []) : 0 < c.charge w anyLot lots n := by
  cases lots with
  | nil => exact absurd rfl some
  | cons first lots =>
      rcases List.forall_mem_cons.mp gains with ⟨here, later⟩
      have closes : min (c.size first) n ≠ 0 := by
        have sizePos := positive first List.mem_cons_self
        omega
      simp only [charge, anyLot_apply, if_true]
      exact add_pos_of_pos_of_nonneg (nsmul_pos here closes)
        (c.charge_nonneg fun lot member => le_of_lt (later lot member))

end Order

/-- What the done lots of a list are worth. -/
def doneCharge {M : Type v} [AddCommMonoid M] (w : R → M) (lots : List R) : M :=
  ((lots.filter c.done).map fun lot => c.size lot • w lot).sum

theorem doneCharge_cons {M : Type v} [AddCommMonoid M] (w : R → M) (lot : R) (lots : List R) :
    c.doneCharge w (lot :: lots) =
      (if c.done lot then c.size lot • w lot else 0) + c.doneCharge w lots := by
  cases isDone : c.done lot <;> simp [doneCharge, isDone]

variable {c}

/-- A pass that touches only open lots books what the done lots gain. -/
theorem Stable.doneCharge_consume {M : Type v} [AddCommMonoid M] {w : R → M}
    (stable : c.Stable w) (isOpen : ∀ lot ∈ c.touched eligible lots n, c.done lot = false) :
    c.doneCharge w (c.consume eligible lots n).1 =
      c.doneCharge w lots + c.charge w eligible lots n := by
  induction lots generalizing n with
  | nil => simp [consume, charge]
  | cons first lots ih =>
      by_cases nothing : n = 0
      · rw [nothing, consume_zero, charge_zero, add_zero]
      · by_cases taken : eligible first = true
        · simp only [touched, nothing, taken, if_false, if_true, List.forall_mem_cons] at isOpen
          by_cases fits : c.size first ≤ n
          · simp only [consume, charge, nothing, taken, fits, if_false, if_true, doneCharge_cons,
              done_whole, size_whole, stable.whole, isOpen.1, Bool.false_eq_true, zero_add,
              min_eq_left fits, ih isOpen.2]
            abel
          · have smaller : n ≤ c.size first := Nat.le_of_lt (Nat.lt_of_not_le fits)
            simp only [consume, charge, nothing, taken, fits, if_false, if_true, doneCharge_cons,
              done_rest, done_part, size_part, stable.part, isOpen.1, Bool.false_eq_true,
              zero_add, min_eq_right smaller, Nat.sub_eq_zero_of_le smaller, charge_zero,
              add_zero]
            abel
        · simp only [touched, nothing, taken, if_false, Bool.false_eq_true] at isOpen
          simp only [consume, charge, nothing, taken, if_false, Bool.false_eq_true,
            doneCharge_cons, ih isOpen, add_assoc]

/-! ## Sweeps -/

theorem Stable.pairwise_sweep (stable : c.Stable f) {r : β → β → Prop} (refl : ∀ b, r b b)
    (sorted : lots.Pairwise fun first second => r (f first) (f second)) :
    (c.sweep prefers lots n).1.Pairwise fun first second => r (f first) (f second) :=
  stable.pairwise_consume refl (stable.pairwise_consume refl sorted)

theorem Stable.total_filter_sweep (stable : c.Stable q) (prefers : R → Bool) (lots : List R)
    (n : ℕ) :
    c.total ((c.sweep prefers lots n).1.filter q) = c.total (lots.filter q) :=
  stable.total_filter_consume.trans stable.total_filter_consume

variable (c)

/-- A sweep that its first pass covers books what that pass books. -/
theorem sweepCharge_of_total_le {M : Type v} [AddCommMonoid M] (w : R → M)
    (covered : n ≤ c.total (lots.filter prefers)) :
    c.sweepCharge w prefers lots n = c.charge w anyLot (lots.filter prefers) n := by
  rw [sweepCharge, consume_left, Nat.sub_eq_zero_of_le covered, charge_zero, add_zero,
    charge_eq_charge_filter]

variable {c}

/-- Within its reach a sweep books what the done lots gain. -/
theorem Stable.doneCharge_sweep {M : Type v} [AddCommMonoid M] {w : R → M}
    (stable : c.Stable w) (within : n ≤ c.reach prefers lots) :
    c.doneCharge w (c.sweep prefers lots n).1 =
      c.doneCharge w lots + c.sweepCharge w prefers lots n := by
  have isOpen := ((c.sweepTouched_open_iff prefers lots n).mpr within).1
  rw [sweepTouched, List.forall_mem_append] at isOpen
  rw [sweep, stable.doneCharge_consume isOpen.2, stable.doneCharge_consume isOpen.1, sweepCharge,
    add_assoc]

variable (c)

/-- A pass touches only eligible lots. -/
theorem eligible_of_mem_touched {lot : R} (member : lot ∈ c.touched eligible lots n) :
    eligible lot = true := by
  rw [touched_eq_touched_filter] at member
  exact (List.mem_filter.mp (c.mem_of_mem_touched member)).2

/-- When all lots are open, a sweep goes as far as the preferred lots and those
in front of the first of them. -/
theorem reach_of_open (isOpen : ∀ lot ∈ lots, c.done lot = false) :
    c.reach prefers lots =
      c.total (lots.filter prefers) + c.total (lots.takeWhile fun lot => !prefers lot) := by
  have allOpen : ((lots.filter prefers).all fun lot => !c.done lot) = true := by
    rw [List.all_eq_true]
    intro lot member
    simp [isOpen lot (List.mem_filter.mp member).1]
  have same : c.clear prefers lots = lots.takeWhile fun lot => !prefers lot := by
    unfold clear
    clear allOpen
    induction lots with
    | nil => rfl
    | cons first lots ih =>
        rw [List.forall_mem_cons] at isOpen
        simp [List.takeWhile_cons, isOpen.1, ih isOpen.2]
  rw [reach, allOpen, if_pos rfl, same]

theorem total_filter_add_not (p : R → Bool) (lots : List R) :
    c.total (lots.filter p) + c.total (lots.filter fun lot => !p lot) = c.total lots := by
  induction lots with
  | nil => rfl
  | cons first lots ih =>
      cases kept : p first <;> simp only [List.filter_cons, kept, total_cons, if_true, if_false,
        Bool.not_true, Bool.not_false, Bool.false_eq_true] <;> omega

/-- When the preferred ones of the open lots stand last, a sweep goes all the
way. -/
theorem reach_of_preferred_last (isOpen : ∀ lot ∈ lots, c.done lot = false)
    (last : lots.Pairwise fun first second => prefers first = true → prefers second = true) :
    c.reach prefers lots = c.total lots := by
  have allRefused : lots.takeWhile (fun lot => !prefers lot) =
      lots.filter fun lot => !prefers lot := by
    clear isOpen
    induction lots with
    | nil => rfl
    | cons first lots ih =>
        rcases List.pairwise_cons.mp last with ⟨ahead, later⟩
        cases preferred : prefers first with
        | true =>
            have none : lots.filter (fun lot => !prefers lot) = [] := by
              refine List.filter_eq_nil_iff.mpr fun lot member => ?_
              simp [ahead lot member preferred]
            simp [preferred, none]
        | false => simp [preferred, ih later]
  rw [c.reach_of_open isOpen, allRefused, total_filter_add_not]

/-- When they stand first, it does so only if there are none. -/
theorem reach_of_preferred_first (isOpen : ∀ lot ∈ lots, c.done lot = false)
    (positive : ∀ lot ∈ lots, 0 < c.size lot)
    (inFront : lots.Pairwise fun first second => prefers second = true → prefers first = true) :
    c.reach prefers lots =
      if c.total (lots.filter prefers) = 0 then c.total lots
      else c.total (lots.filter prefers) := by
  rw [c.reach_of_open isOpen]
  cases lots with
  | nil => rfl
  | cons first lots =>
      cases preferred : prefers first with
      | true =>
          have firstPos := positive first List.mem_cons_self
          have someTotal : c.total ((first :: lots).filter prefers) ≠ 0 := by
            rw [List.filter_cons_of_pos preferred, total_cons]
            omega
          rw [if_neg someTotal, List.takeWhile_cons_of_neg (by simp [preferred]), total_nil,
            Nat.add_zero]
      | false =>
          have refused : ∀ lot ∈ first :: lots, prefers lot = false := by
            refine List.forall_mem_cons.mpr ⟨preferred, fun lot member => ?_⟩
            by_contra isPreferred
            have before := (List.pairwise_cons.mp inFront).1 lot member (by simpa using isPreferred)
            rw [preferred] at before
            exact Bool.false_ne_true before
          have none : (first :: lots).filter prefers = [] :=
            List.filter_eq_nil_iff.mpr fun lot member => by simp [refused lot member]
          have all : (first :: lots).takeWhile (fun lot => !prefers lot) = first :: lots :=
            List.takeWhile_eq_self_iff.mpr fun lot member => by simp [refused lot member]
          rw [none, all, total_nil, if_pos rfl, Nat.zero_add]

variable {c}

/-- Within its reach, a sweep over open lots that prefers those with a stable
property closes one without it only when none with it stays open. -/
theorem Stable.preferred_first (stable : c.Stable q)
    (isOpen : ∀ lot ∈ lots, c.done lot = false) (same : ∀ lot ∈ lots, prefers lot = q lot)
    (within : n ≤ c.reach prefers lots)
    (refused : ∃ lot ∈ (c.sweep prefers lots n).1, c.done lot = true ∧ q lot = false) :
    ∀ lot ∈ (c.sweep prefers lots n).1, q lot = true → c.done lot = true := by
  rcases Nat.lt_or_ge (c.total (lots.filter prefers)) n with tooMuch | covered
  · have touchedOpen := ((c.sweepTouched_open_iff prefers lots n).mpr within).1
    rw [sweepTouched, List.forall_mem_append] at touchedOpen
    -- the first pass closes every preferred lot
    have allDone : ∀ lot ∈ (c.consume prefers lots n).1, q lot = true → c.done lot = true := by
      rw [c.consume_of_total_lt tooMuch]
      intro lot member preferred
      rcases List.mem_map.mp member with ⟨origin, inside, rfl⟩
      by_cases taken : prefers origin = true
      · rw [if_pos taken]
        exact c.done_whole origin
      · rw [if_neg taken, ← same origin inside] at preferred
        exact absurd preferred taken
    intro lot member preferred
    rcases c.mem_consume_touched member with inside | ⟨origin, inside, shape⟩
    · exact allDone lot inside preferred
    · have fromPreferred : q origin = true := stable.eq_of_shape shape ▸ preferred
      have isDone := allDone origin (c.mem_of_mem_touched inside) fromPreferred
      rw [touchedOpen.2 origin inside] at isDone
      exact absurd isDone Bool.false_ne_true
  · -- the first pass suffices, and closes nothing else
    rw [c.sweep_of_le covered] at refused
    rcases refused with ⟨lot, member, isDone, notPreferred⟩
    rcases c.mem_consume_touched member with inside | ⟨origin, inside, shape⟩
    · rw [isOpen lot inside] at isDone
      exact absurd isDone Bool.false_ne_true
    · have preferred := c.eligible_of_mem_touched inside
      rw [same origin (c.mem_of_mem_touched inside), ← stable.eq_of_shape shape,
        notPreferred] at preferred
      exact absurd preferred Bool.false_ne_true

end TradingApp.Lots.Closing

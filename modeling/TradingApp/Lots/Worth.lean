import TradingApp.Lots.Kept

/-!
# What the open lots are worth

A weight says what one unit of a lot is worth.  A sweep within its reach takes
out of the open lots what it books, at every weight that closing and splitting
do not change.  Booking at another weight, one that differs from it by the same
amount for every lot, books that amount more for each unit closed.
-/

namespace TradingApp.Lots.Closing

universe u v

variable {R : Type u} (c : Closing R) {M : Type v} [AddCommMonoid M] {w worth : R → M} {gain : M}
  {eligible prefers : R → Bool} {lots : List R} {n : ℕ}

/-- What the open lots of a list are worth. -/
def openCharge (w : R → M) (lots : List R) : M :=
  ((lots.filter fun lot => !c.done lot).map fun lot => c.size lot • w lot).sum

/-- What the lots are worth is what the open and the done ones are. -/
theorem openCharge_add_doneCharge (w : R → M) (lots : List R) :
    c.openCharge w lots + c.doneCharge w lots =
      (lots.map fun lot => c.size lot • w lot).sum := by
  induction lots with
  | nil => exact add_zero 0
  | cons lot lots ih =>
      rw [List.map_cons, List.sum_cons, ← ih, doneCharge_cons]
      cases isDone : c.done lot with
      | true =>
          simp only [openCharge, List.filter_cons, isDone, Bool.not_true, Bool.false_eq_true,
            if_false, if_true]
          abel
      | false =>
          simp only [openCharge, List.filter_cons, isDone, Bool.not_false, Bool.false_eq_true,
            if_false, if_true, List.map_cons, List.sum_cons]
          abel

variable {c}

/-- A sweep keeps what the lots are worth in total. -/
theorem Stable.sum_sweep (stable : c.Stable w) :
    ((c.sweep prefers lots n).1.map fun lot => c.size lot • w lot).sum =
      (lots.map fun lot => c.size lot • w lot).sum :=
  stable.sum_consume.trans stable.sum_consume

/-- Within its reach a sweep takes out of the open lots what it books. -/
theorem Stable.openCharge_sweep [IsCancelAdd M] (stable : c.Stable w)
    (within : n ≤ c.reach prefers lots) :
    c.openCharge w (c.sweep prefers lots n).1 + c.sweepCharge w prefers lots n =
      c.openCharge w lots := by
  have kept :
      c.openCharge w (c.sweep prefers lots n).1 + c.doneCharge w (c.sweep prefers lots n).1 =
      c.openCharge w lots + c.doneCharge w lots := by
    rw [openCharge_add_doneCharge, openCharge_add_doneCharge, stable.sum_sweep]
  rw [stable.doneCharge_sweep within] at kept
  refine add_right_cancel (b := c.doneCharge w lots) (kept.symm ▸ ?_)
  abel

variable (c)

/-- A weight that is more by the same amount for every lot books that much more
for every unit closed. -/
theorem charge_add_const (differ : ∀ lot ∈ lots, w lot = worth lot + gain) :
    c.charge w eligible lots n =
      c.charge worth eligible lots n + min n (c.total (lots.filter eligible)) • gain := by
  induction lots generalizing n with
  | nil => simp [charge]
  | cons lot lots ih =>
      obtain ⟨here, later⟩ := List.forall_mem_cons.mp differ
      by_cases taken : eligible lot = true
      · have units : min n (c.size lot + c.total (lots.filter eligible)) =
            min (c.size lot) n + min (n - c.size lot) (c.total (lots.filter eligible)) := by
          omega
        simp only [charge, taken, if_true, List.filter_cons, total_cons, here, ih later, units,
          nsmul_add, add_nsmul]
        abel
      · simp only [charge, taken, Bool.false_eq_true, if_false, List.filter_cons, ih later]

variable {c}

/-- The same for a sweep within its reach, which closes all it is asked to. -/
theorem Stable.sweepCharge_add_const (stable : c.Stable w) (worthStable : c.Stable worth)
    (differ : ∀ lot ∈ lots, w lot = worth lot + gain) (within : n ≤ c.reach prefers lots) :
    c.sweepCharge w prefers lots n = c.sweepCharge worth prefers lots n + n • gain := by
  have both : c.Stable fun lot => (w lot, worth lot) :=
    ⟨fun lot => Prod.ext (stable.whole lot) (worthStable.whole lot),
      fun lot k => Prod.ext (stable.part lot k) (worthStable.part lot k),
      fun lot k => Prod.ext (stable.rest lot k) (worthStable.rest lot k)⟩
  have later : ∀ lot ∈ (c.consume prefers lots n).1, w lot = worth lot + gain := by
    intro lot member
    obtain ⟨origin, inside, same⟩ := both.exists_of_mem_consume member
    obtain ⟨sameW, sameWorth⟩ := Prod.mk.injEq .. ▸ same
    rw [sameW, sameWorth]
    exact differ origin inside
  have covered := ((c.sweepTouched_open_iff prefers lots n).mpr within).2
  rw [sweep, consume_left] at covered
  have units : n • gain = min n (c.total (lots.filter prefers)) • gain +
      min (n - c.total (lots.filter prefers))
        (c.total ((c.consume prefers lots n).1.filter anyLot)) • gain := by
    rw [consume_left] at covered
    rw [← add_nsmul]
    refine congrArg (· • gain) ?_
    omega
  rw [sweepCharge, sweepCharge, c.charge_add_const differ, c.charge_add_const later, consume_left,
    units]
  abel

end TradingApp.Lots.Closing

import Mathlib.Data.List.TakeWhile
import TradingApp.Lots.Consume

/-!
# Closing in two passes

A sweep closes a quantity in two passes over one list: first over the lots a
test prefers, then, with what is left, over all lots.  `reach` is how far a
sweep may go before it runs out of lots or meets a done one; up to there the
sweep accounts for every unit, and what it books is what a single pass over
the preferred lots followed by the clear ones would book.
-/

namespace TradingApp.Lots.Closing

universe u v

variable {R : Type u} (c : Closing R)

/-- Close `n` over the preferred lots first and what is left over all lots. -/
def sweep (prefers : R → Bool) (lots : List R) (n : ℕ) : List R × ℕ :=
  c.consume anyLot (c.consume prefers lots n).1 (c.consume prefers lots n).2

/-- The lots a sweep closes in whole or in part, each as its pass found it. -/
def sweepTouched (prefers : R → Bool) (lots : List R) (n : ℕ) : List R :=
  c.touched prefers lots n ++
    c.touched anyLot (c.consume prefers lots n).1 (c.consume prefers lots n).2

/-- What a sweep books. -/
def sweepCharge {M : Type v} [AddCommMonoid M] (w : R → M) (prefers : R → Bool) (lots : List R)
    (n : ℕ) : M :=
  c.charge w prefers lots n +
    c.charge w anyLot (c.consume prefers lots n).1 (c.consume prefers lots n).2

/-- The lots in front of the first one that is done or preferred. -/
def clear (prefers : R → Bool) (lots : List R) : List R :=
  lots.takeWhile fun lot => !c.done lot && !prefers lot

/-- The quantity a sweep can close before it meets a done lot. -/
def reach (prefers : R → Bool) (lots : List R) : ℕ :=
  if (lots.filter prefers).all fun lot => !c.done lot then
    c.total (lots.filter prefers) + c.total (c.clear prefers lots)
  else c.total ((lots.filter prefers).takeWhile fun lot => !c.done lot)

/-! ## The first pass and the clear lots -/

/-- A pass leaves what stands before the first eligible lot as it is. -/
theorem consume_append_of_filter_eq_nil {eligible : R → Bool} {first : List R}
    (none : first.filter eligible = []) (second : List R) (n : ℕ) :
    c.consume eligible (first ++ second) n =
      (first ++ (c.consume eligible second n).1, (c.consume eligible second n).2) := by
  induction first with
  | nil => rfl
  | cons lot lots ih =>
      rw [List.filter_eq_nil_iff] at none
      have refused : eligible lot ≠ true := none lot List.mem_cons_self
      have others : lots.filter eligible = [] :=
        List.filter_eq_nil_iff.mpr fun other member => none other (List.mem_cons_of_mem _ member)
      by_cases nothing : n = 0
      · simp [nothing]
      · simp [consume, nothing, refused, ih others]

theorem filter_clear (prefers : R → Bool) (lots : List R) :
    (c.clear prefers lots).filter prefers = [] := by
  rw [List.filter_eq_nil_iff]
  intro lot member
  have kept := List.mem_takeWhile_imp member
  simp only [Bool.and_eq_true, Bool.not_eq_true'] at kept
  simp [kept.2]

theorem clear_append_drop (prefers : R → Bool) (lots : List R) :
    c.clear prefers lots ++ lots.drop (c.clear prefers lots).length = lots := by
  have isPrefix : c.clear prefers lots <+: lots := List.takeWhile_prefix _
  exact List.prefix_iff_eq_append.mp isPrefix

/-- The clear lots stand in front of the list a first pass leaves. -/
theorem clear_prefix_consume (prefers : R → Bool) (lots : List R) (n : ℕ) :
    ∃ rest, (c.consume prefers lots n).1 = c.clear prefers lots ++ rest := by
  have split := c.consume_append_of_filter_eq_nil (c.filter_clear prefers lots)
    (lots.drop (c.clear prefers lots).length) n
  rw [c.clear_append_drop] at split
  exact ⟨_, congrArg Prod.fst split⟩

/-- A first pass that does not suffice closes every preferred lot. -/
theorem consume_of_total_lt {eligible : R → Bool} {lots : List R} {n : ℕ}
    (tooMuch : c.total (lots.filter eligible) < n) :
    (c.consume eligible lots n).1 =
      lots.map fun lot => if eligible lot then c.whole lot else lot := by
  induction lots generalizing n with
  | nil => rfl
  | cons lot lots ih =>
      have something : n ≠ 0 := by omega
      by_cases taken : eligible lot = true
      · simp only [List.filter_cons, taken, if_true, total_cons] at tooMuch
        have fits : c.size lot ≤ n := by omega
        simp only [consume, something, taken, fits, if_true, if_false, List.map_cons]
        rw [ih (by omega)]
      · simp only [List.filter_cons, taken, if_false, Bool.false_eq_true] at tooMuch
        simp only [consume, something, taken, if_false, List.map_cons, Bool.false_eq_true]
        rw [ih tooMuch]

/-- After every preferred lot is closed, the lots before the first done one
are the clear ones. -/
theorem takeWhile_open_map (prefers : R → Bool) (lots : List R) :
    (lots.map fun lot => if prefers lot then c.whole lot else lot).takeWhile
        (fun lot => !c.done lot) = c.clear prefers lots := by
  induction lots with
  | nil => rfl
  | cons lot lots ih =>
      by_cases taken : prefers lot = true
      · simp [clear, taken]
      · cases isDone : c.done lot with
        | true => simp [clear, taken, isDone]
        | false => simpa [clear, taken, isDone] using ih

/-! ## How far a sweep may go -/

theorem total_takeWhile_filter_le_reach (prefers : R → Bool) (lots : List R) :
    c.total ((lots.filter prefers).takeWhile fun lot => !c.done lot) ≤ c.reach prefers lots := by
  unfold reach
  split
  · exact Nat.le_trans (c.total_takeWhile_le _ _) (Nat.le_add_right _ _)
  · exact Nat.le_refl _

/-- Within its reach a sweep has only clear lots left for its second pass. -/
theorem sub_le_total_clear {prefers : R → Bool} {lots : List R} {n : ℕ}
    (within : n ≤ c.reach prefers lots) :
    n - c.total (lots.filter prefers) ≤ c.total (c.clear prefers lots) := by
  unfold reach at within
  split at within
  · omega
  · have bounded := c.total_takeWhile_le (fun lot => !c.done lot) (lots.filter prefers)
    omega

/-- A sweep closes only open lots and leaves nothing over exactly within its
reach. -/
theorem sweepTouched_open_iff (prefers : R → Bool) (lots : List R) (n : ℕ) :
    ((∀ lot ∈ c.sweepTouched prefers lots n, c.done lot = false) ∧
        (c.sweep prefers lots n).2 = 0) ↔
      n ≤ c.reach prefers lots := by
  have firstPass : (∀ lot ∈ c.touched prefers lots n, c.done lot = false) ↔
      (∀ lot ∈ lots.filter prefers, c.done lot = false) ∨
        n ≤ c.total ((lots.filter prefers).takeWhile fun lot => !c.done lot) := by
    rw [touched_eq_touched_filter, touched_open_iff]
  have allOpen : ((lots.filter prefers).all fun lot => !c.done lot) = true ↔
      ∀ lot ∈ lots.filter prefers, c.done lot = false := by
    rw [List.all_eq_true]
    exact forall₂_congr fun lot _ => by simp
  simp only [sweepTouched, sweep, List.forall_mem_append, firstPass]
  by_cases firstSuffices : n ≤ c.total (lots.filter prefers)
  · have nothing : (c.consume prefers lots n).2 = 0 := by
      rw [consume_left]
      omega
    simp only [nothing, touched_zero, consume_zero, List.not_mem_nil, false_imp_iff,
      implies_true, and_true]
    unfold reach
    split
    · rename_i preferredOpen
      constructor
      · intro _
        omega
      · intro _
        exact Or.inl (allOpen.mp preferredOpen)
    · rename_i preferredDone
      rw [← allOpen]
      simp [preferredDone]
  · have tooMuch : c.total (lots.filter prefers) < n := Nat.lt_of_not_le firstSuffices
    have bounded := c.total_takeWhile_le (fun lot => !c.done lot) (lots.filter prefers)
    rw [touched_open_iff, consume_left, consume_left, consume_of_total_lt c tooMuch,
      takeWhile_open_map, ← allOpen]
    unfold reach
    split
    · rename_i preferredOpen
      simp only [preferredOpen, true_or, true_and]
      have whole := c.total_takeWhile_le (fun lot => !c.done lot)
        (lots.map fun lot => if prefers lot then c.whole lot else lot)
      rw [takeWhile_open_map] at whole
      have everyLot : ∀ l : List R, l.filter anyLot = l := fun l => by simp
      rw [everyLot]
      constructor
      · rintro ⟨noneDone | enough, covered⟩
        · have same : c.clear prefers lots =
              lots.map fun lot => if prefers lot then c.whole lot else lot := by
            rw [← takeWhile_open_map, List.takeWhile_eq_self_iff]
            simpa using noneDone
          rw [same]
          omega
        · omega
      · intro within
        exact ⟨Or.inr (by omega), by omega⟩
    · rename_i preferredDone
      simp only [preferredDone, false_or, Bool.false_eq_true]
      omega

/-- Exact account of the open lots satisfying `q` across a sweep. -/
theorem openTotal_sweep {q : R → Bool} (q_rest : ∀ lot k, q (c.rest lot k) = q lot)
    (prefers : R → Bool) (lots : List R) (n : ℕ) :
    c.openTotal q (c.sweep prefers lots n).1 + c.sweepCharge (unitOf q) prefers lots n =
      c.openTotal q lots +
        c.total ((c.sweepTouched prefers lots n).filter fun lot => c.done lot && q lot) := by
  have first := c.openTotal_consume q_rest prefers lots n
  have second := c.openTotal_consume q_rest anyLot (c.consume prefers lots n).1
    (c.consume prefers lots n).2
  simp only [sweep, sweepCharge, sweepTouched, List.filter_append, total_append]
  omega

/-- Within its reach a sweep takes from the open lots exactly what it
books. -/
theorem openTotal_sweep_of_le {q : R → Bool} (q_rest : ∀ lot k, q (c.rest lot k) = q lot)
    {prefers : R → Bool} {lots : List R} {n : ℕ} (within : n ≤ c.reach prefers lots) :
    c.openTotal q (c.sweep prefers lots n).1 + c.sweepCharge (unitOf q) prefers lots n =
      c.openTotal q lots := by
  have untouched := ((c.sweepTouched_open_iff prefers lots n).mpr within).1
  have noneDone :
      (c.sweepTouched prefers lots n).filter (fun lot => c.done lot && q lot) = [] := by
    rw [List.filter_eq_nil_iff]
    intro lot member
    simp [untouched lot member]
  have account := c.openTotal_sweep q_rest prefers lots n
  rw [noneDone, total_nil, Nat.add_zero] at account
  exact account

theorem sweepCharge_one_add_left (prefers : R → Bool) (lots : List R) (n : ℕ) :
    c.sweepCharge (unitOf anyLot) prefers lots n + (c.sweep prefers lots n).2 = n := by
  have unit : (unitOf anyLot : R → ℕ) = fun _ => 1 := by
    funext lot
    simp [unitOf]
  simp only [sweepCharge, sweep, unit, charge_one, consume_left]
  omega

/-- Over lots of positive size, a sweep takes from the open lots exactly what
it was asked to close if and only if it stays within its reach. -/
theorem openTotal_sweep_add_iff (prefers : R → Bool) {lots : List R}
    (positive : ∀ lot ∈ lots, 0 < c.size lot) (n : ℕ) :
    c.openTotal anyLot (c.sweep prefers lots n).1 + n = c.openTotal anyLot lots ↔
      n ≤ c.reach prefers lots := by
  have account := c.openTotal_sweep (q := anyLot) (fun _ _ => rfl) prefers lots n
  have booked := c.sweepCharge_one_add_left prefers lots n
  constructor
  · intro conserved
    refine (c.sweepTouched_open_iff prefers lots n).mp ⟨fun lot member => ?_, by omega⟩
    have noneDone : c.total ((c.sweepTouched prefers lots n).filter
        fun lot => c.done lot && anyLot lot) = 0 := by omega
    have sizePos : 0 < c.size lot := by
      rcases List.mem_append.mp member with inFirst | inSecond
      · exact positive lot (c.mem_of_mem_touched inFirst)
      · exact c.size_pos_of_mem_consume positive (c.mem_of_mem_touched inSecond)
    by_contra isDone
    have counted : lot ∈ (c.sweepTouched prefers lots n).filter
        fun lot => c.done lot && anyLot lot := by
      rw [List.mem_filter]
      exact ⟨member, by simpa using isDone⟩
    have isZero := List.sum_eq_zero_iff_forall_eq_nat.mp noneDone (c.size lot)
      (List.mem_map_of_mem counted)
    omega
  · intro within
    have nothing := ((c.sweepTouched_open_iff prefers lots n).mpr within).2
    have exact := c.openTotal_sweep_of_le (q := anyLot) (fun _ _ => rfl) within
    omega

/-- Within its reach a sweep books what one pass over the preferred lots and
then the clear ones books. -/
theorem sweepCharge_of_le {M : Type v} [AddCommMonoid M] (w : R → M) {prefers : R → Bool}
    {lots : List R} {n : ℕ} (within : n ≤ c.reach prefers lots) :
    c.sweepCharge w prefers lots n =
      c.charge w anyLot (lots.filter prefers ++ c.clear prefers lots) n := by
  obtain ⟨rest, split⟩ := c.clear_prefix_consume prefers lots n
  have enough := c.sub_le_total_clear within
  rw [sweepCharge, charge_append, charge_eq_charge_filter, split, consume_left, charge_append,
    Nat.sub_eq_zero_of_le enough, charge_zero, add_zero]

end TradingApp.Lots.Closing

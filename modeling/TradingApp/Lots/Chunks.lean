import Mathlib.Algebra.BigOperators.Group.List.Basic
import Mathlib.Algebra.Group.Action.Defs
import Mathlib.Data.Nat.ModEq

/-!
# Cutting an amount into chunks

An amount is cut into as many chunks of a given size as fit, and one for what
is left.  The chunks add up to the amount, and if the size and the amount are
whole numbers of a unit, then so are the chunks, and they add up to the amount
in units as well.
-/

namespace TradingApp.Lots

variable {bound amount unit size : ℕ}

/-- The chunks of `bound` in an amount, and the rest if there is one. -/
def chunks (bound amount : ℕ) : List ℕ :=
  List.replicate (amount / bound) bound ++
    if amount % bound = 0 then [] else [amount % bound]

@[simp]
theorem chunks_zero (bound : ℕ) : chunks bound 0 = [] := by
  simp [chunks]

/-- The last chunk is what is left. -/
theorem chunks_of_le (amountPos : 0 < amount) (le : amount ≤ bound) :
    chunks bound amount = [amount] := by
  unfold chunks
  rcases le.eq_or_lt with rfl | less
  · rw [Nat.div_self amountPos, Nat.mod_self, if_pos rfl]
    rfl
  · rw [Nat.div_eq_of_lt less, Nat.mod_eq_of_lt less, if_neg amountPos.ne']
    rfl

/-- Any other is as large as allowed. -/
theorem chunks_of_lt (boundPos : 0 < bound) (less : bound < amount) :
    chunks bound amount = bound :: chunks bound (amount - bound) := by
  obtain ⟨rest, rfl⟩ := Nat.exists_eq_add_of_lt less
  have without : bound + rest + 1 - bound = rest + 1 := by omega
  have more : bound + rest + 1 = rest + 1 + bound := by omega
  unfold chunks
  rw [without, more, Nat.add_div_right _ boundPos, Nat.add_mod_right, List.replicate_succ,
    List.cons_append]

theorem chunks_within (boundPos : 0 < bound) (member : size ∈ chunks bound amount) :
    1 ≤ size ∧ size ≤ bound := by
  rcases List.mem_append.mp member with full | rest
  · obtain rfl := List.eq_of_mem_replicate full
    exact ⟨boundPos, le_refl size⟩
  · split at rest
    · exact absurd rest List.not_mem_nil
    · rename_i positive
      obtain rfl := List.mem_singleton.mp rest
      exact ⟨Nat.one_le_iff_ne_zero.mpr positive, (Nat.mod_lt amount boundPos).le⟩

theorem chunks_sum (bound amount : ℕ) : (chunks bound amount).sum = amount := by
  have rest : (if amount % bound = 0 then [] else [amount % bound]).sum = amount % bound := by
    split
    · rename_i none
      exact none.symm
    · exact List.sum_singleton
  unfold chunks
  rw [List.sum_append, List.sum_replicate, rest, smul_eq_mul]
  exact Nat.div_add_mod' amount bound

theorem dvd_of_mem_chunks (boundUnits : unit ∣ bound) (amountUnits : unit ∣ amount)
    (member : size ∈ chunks bound amount) : unit ∣ size := by
  rcases List.mem_append.mp member with full | rest
  · obtain rfl := List.eq_of_mem_replicate full
    exact boundUnits
  · split at rest
    · exact absurd rest List.not_mem_nil
    · obtain rfl := List.mem_singleton.mp rest
      exact (Nat.dvd_mod_iff boundUnits).mpr amountUnits

/-- Dividing each of some multiples divides their sum. -/
theorem sum_map_div {sizes : List ℕ} (units : ∀ size ∈ sizes, unit ∣ size) :
    (sizes.map (· / unit)).sum = sizes.sum / unit := by
  induction sizes with
  | nil => exact (Nat.zero_div unit).symm
  | cons size rest ih =>
      have first := units size List.mem_cons_self
      have others := ih fun other member => units other (List.mem_cons_of_mem size member)
      rw [List.map_cons, List.sum_cons, List.sum_cons, others, Nat.add_div_of_dvd_right first]

/-- The chunks add up in units, too. -/
theorem chunks_sum_div (boundUnits : unit ∣ bound) (amountUnits : unit ∣ amount) :
    ((chunks bound amount).map (· / unit)).sum = amount / unit := by
  rw [sum_map_div fun _ => dvd_of_mem_chunks boundUnits amountUnits, chunks_sum]

end TradingApp.Lots

import TradingApp.Machine.Conversion

/-!
# Rounding to decimal digits

The source's `truncate`, `dceil` and `dfloor`, and the estimate that is cut to
four digits.  Powers of ten and prices are exact; what an integer type cannot
hold is converted to whatever the compiler makes of it.

`truncate` goes through a signed integer, the other two through an unsigned one
of the same width, so that the first loses half the range of the others.
-/

namespace TradingApp.Utils

open TradingApp.Machine

section Rounding

variable (conversion : Conversion) (number : ℚ) (digits : ℕ)

/-- `truncate`, through a signed integer of 32 bits. -/
def truncate : ℚ :=
  (conversion.toInt32 (number * 10 ^ digits)).toInt / 10 ^ digits

/-- `dceil`, through an unsigned integer of 32 bits. -/
def dceil : ℚ :=
  let factor := 10 ^ digits
  let d := number * factor
  let n := conversion.toUInt32 d
  let mod := d - n.toNat
  let n := if mod > 0 then n + 1 else n
  n.toNat / factor

/-- The source calls this the same as `truncate`. -/
def dfloor : ℚ :=
  let factor := 10 ^ digits
  let d := number * factor
  let n := conversion.toUInt32 d
  n.toNat / factor

end Rounding

/-- What a connection to the estimator keeps. -/
structure AvicennaConnection where
  priceEstimate : ℚ
deriving DecidableEq, Repr

/-- The estimator's result for a price is kept to four digits.  The two limits of
the source's `calculate` are not looked at. -/
def AvicennaConnection.calculate (conversion : Conversion) (superPlus : ℚ → ℚ)
    (connection : AvicennaConnection) (price : ℚ) : AvicennaConnection :=
  { connection with priceEstimate := truncate conversion (superPlus price) 4 }

section Exact

variable {conversion : Conversion} {number : ℚ} {digits : ℕ}

theorem scaled_nonneg (nonneg : 0 ≤ number) (digits : ℕ) : 0 ≤ number * 10 ^ digits :=
  mul_nonneg nonneg (pow_nonneg (by norm_num) digits)

theorem factor_pos (digits : ℕ) : (0 : ℚ) < 10 ^ digits :=
  pow_pos (by norm_num) digits

/-- `truncate` gives the floor as long as that is a signed integer. -/
theorem truncate_eq_iff (nonneg : 0 ≤ number) :
    truncate conversion number digits = ⌊number * 10 ^ digits⌋ / 10 ^ digits ↔
      number * 10 ^ digits < 2 ^ 31 := by
  unfold truncate
  rw [div_left_inj' (factor_pos digits).ne', Int.cast_inj,
    conversion.toInt32_floor_iff (scaled_nonneg nonneg digits)]

/-- `dfloor` gives it as long as it is an unsigned one. -/
theorem dfloor_eq (nonneg : 0 ≤ number) (inRange : number * 10 ^ digits < 2 ^ 32) :
    dfloor conversion number digits = ⌊number * 10 ^ digits⌋ / 10 ^ digits := by
  have floor := conversion.toUInt32_floor (scaled_nonneg nonneg digits) inRange
  unfold dfloor
  rw [← floor]
  rfl

/-- `dceil` may add one. -/
theorem dceil_eq (nonneg : 0 ≤ number) (inRange : number * 10 ^ digits < 2 ^ 32 - 1) :
    dceil conversion number digits = ⌈number * 10 ^ digits⌉ / 10 ^ digits := by
  have floor := conversion.toUInt32_floor (scaled_nonneg nonneg digits)
    (inRange.trans (by norm_num))
  unfold dceil
  dsimp only
  generalize conversion.toUInt32 (number * 10 ^ digits) = n at floor ⊢
  generalize number * 10 ^ digits = d at floor inRange ⊢
  have cast : (n.toNat : ℚ) = ⌊d⌋ := by exact_mod_cast congrArg (Int.cast : ℤ → ℚ) floor
  have most : n.toNat < 2 ^ 32 - 1 := by
    have bound : ⌊d⌋ < 2 ^ 32 - 1 := Int.floor_lt.mpr (by exact_mod_cast inRange)
    omega
  rw [ceil_eq_ite, cast]
  split
  · rw [UInt32.toNat_add, UInt32.toNat_one, Nat.mod_eq_of_lt (by omega)]
    push_cast
    rw [cast]
  · rw [cast]

end Exact

/-- Rounding brackets a price: `truncate` is `dfloor` and gives the greatest
number of `digits` digits that is not above the price, `dceil` gives the least
one that is not below it, the conversions give the integer parts, and an
estimate that shows in four digits stays positive. -/
structure Brackets (conversion : Conversion) (number : ℚ) (digits : ℕ) : Prop where
  same : truncate conversion number digits = dfloor conversion number digits
  greatest : IsGreatest {m ∈ multiples (10 ^ digits : ℚ) | m ≤ number}
    (truncate conversion number digits)
  least : IsLeast {m ∈ multiples (10 ^ digits : ℚ) | number ≤ m} (dceil conversion number digits)
  signed : (conversion.toInt32 (number * 10 ^ digits)).toInt = ⌊number * 10 ^ digits⌋
  unsigned : ((conversion.toUInt32 (number * 10 ^ digits)).toNat : ℤ) = ⌊number * 10 ^ digits⌋
  next : (conversion.toUInt32 (number * 10 ^ digits)).toNat + 1 < 2 ^ 32
  estimate : digits = 4 → 1 / 10 ^ 4 ≤ number →
    ∀ (superPlus : ℚ → ℚ) (connection : AvicennaConnection) (price : ℚ),
      superPlus price = number →
        0 < (connection.calculate conversion superPlus price).priceEstimate

section Brackets

variable {conversion : Conversion} {number : ℚ} {digits : ℕ}

/-- An estimate of at least one unit of the last digit stays positive. -/
theorem truncate_pos (unit : 1 / 10 ^ digits ≤ number)
    (inRange : number * 10 ^ digits < 2 ^ 31) : 0 < truncate conversion number digits := by
  have positive := factor_pos digits
  have nonneg : 0 ≤ number := (by positivity : (0 : ℚ) ≤ 1 / 10 ^ digits).trans unit
  rw [(truncate_eq_iff nonneg).mpr inRange]
  refine div_pos ?_ positive
  have one : (1 : ℚ) ≤ number * 10 ^ digits := (div_le_iff₀ positive).mp unit
  exact_mod_cast Int.floor_pos.mpr one

/-- Rounding brackets a price exactly as long as the scaled price is within the
signed integers. -/
theorem brackets_iff (nonneg : 0 ≤ number) (inRange : number * 10 ^ digits < 2 ^ 32 - 1) :
    Brackets conversion number digits ↔ number * 10 ^ digits < 2 ^ 31 := by
  have unsigned : number * 10 ^ digits < 2 ^ 32 := inRange.trans (by norm_num)
  constructor
  · intro brackets
    exact (truncate_eq_iff nonneg).mp (brackets.same.trans (dfloor_eq nonneg unsigned))
  · intro small
    have truncated : truncate conversion number digits = _ := (truncate_eq_iff nonneg).mpr small
    have floor := conversion.toUInt32_floor (scaled_nonneg nonneg digits) unsigned
    refine
      { same := truncated.trans (dfloor_eq nonneg unsigned).symm
        greatest := ?_
        least := ?_
        signed := conversion.toInt32_floor (scaled_nonneg nonneg digits) small
        unsigned := floor
        next := ?_
        estimate := ?_ }
    · rw [truncated]
      exact isGreatest_floor (factor_pos digits) number
    · rw [dceil_eq nonneg inRange]
      exact isLeast_ceil (factor_pos digits) number
    · have bound : ⌊number * 10 ^ digits⌋ < 2 ^ 32 - 1 :=
        Int.floor_lt.mpr (by exact_mod_cast inRange)
      omega
    · rintro rfl unit superPlus connection price rfl
      exact truncate_pos unit small

/-- A price of 21.625 in cents. -/
theorem brackets_price : Brackets .smallest (173 / 8) 2 :=
  (brackets_iff (by norm_num) (by norm_num)).mpr (by norm_num)

/-- A price of 214748.3648 in four digits is 2147483648 units, one more than a
signed integer holds. -/
theorem not_brackets_limit :
    ¬ ∀ (conversion : Conversion) (number : ℚ) (digits : ℕ), 0 ≤ number →
      number * 10 ^ digits < 2 ^ 32 - 1 → Brackets conversion number digits := by
  intro all
  have brackets := all .smallest (2147483648 / 10000) 4 (by norm_num) (by norm_num)
  have signed := brackets.signed
  have bound := (Conversion.smallest.toInt32 (2147483648 / 10000 * 10 ^ 4)).toInt_lt
  rw [signed] at bound
  norm_num at bound

end Brackets

end TradingApp.Utils

import Mathlib.Algebra.Order.Floor.Ring
import Mathlib.Data.Rat.Floor
import Mathlib.Order.Bounds.Basic
import Mathlib.Tactic.Linarith
import Mathlib.Tactic.NormNum

/-!
# Conversion of rational numbers to machine integers

A floating-point number converts to an integer type by dropping its fraction.
Where the integer is not a value of the type, the result is any value of the
type: a conversion is a function of which no more is known than that.

Scaling by a factor, converting and dividing again rounds to the multiples of
the factor's inverse.  The greatest multiple below a number and the least one
above it are those of its floor and of its ceiling.
-/

namespace TradingApp.Machine

/-! ## Multiples -/

section Multiples

variable {K : Type} [Field K] [LinearOrder K] [IsStrictOrderedRing K] [FloorRing K]

/-- The multiples of the inverse of a factor. -/
def multiples (factor : K) : Set K :=
  {m | ∃ n : ℤ, m = n / factor}

variable {factor : K}

theorem isGreatest_floor (positive : 0 < factor) (x : K) :
    IsGreatest {m ∈ multiples factor | m ≤ x} (⌊x * factor⌋ / factor) := by
  constructor
  · exact ⟨⟨_, rfl⟩, (div_le_iff₀ positive).mpr (Int.floor_le _)⟩
  · rintro m ⟨⟨n, rfl⟩, below⟩
    have scaled : (n : K) ≤ x * factor := (div_le_iff₀ positive).mp below
    have floor : (n : K) ≤ ⌊x * factor⌋ := by exact_mod_cast Int.le_floor.mpr scaled
    exact div_le_div_of_nonneg_right floor positive.le

theorem isLeast_ceil (positive : 0 < factor) (x : K) :
    IsLeast {m ∈ multiples factor | x ≤ m} (⌈x * factor⌉ / factor) := by
  constructor
  · exact ⟨⟨_, rfl⟩, (le_div_iff₀ positive).mpr (Int.le_ceil _)⟩
  · rintro m ⟨⟨n, rfl⟩, above⟩
    have scaled : x * factor ≤ (n : K) := (le_div_iff₀ positive).mp above
    have ceil : (⌈x * factor⌉ : K) ≤ n := by exact_mod_cast Int.ceil_le.mpr scaled
    exact div_le_div_of_nonneg_right ceil positive.le

/-- A ceiling is the floor, or one more if there is a fraction. -/
theorem ceil_eq_ite (x : K) : ⌈x⌉ = if x - ⌊x⌋ > 0 then ⌊x⌋ + 1 else ⌊x⌋ := by
  split
  · rename_i fraction
    refine Int.ceil_eq_iff.mpr ⟨?_, ?_⟩
    · push_cast
      linarith
    · push_cast
      exact (Int.lt_floor_add_one x).le
  · rename_i whole
    have same : x = ⌊x⌋ := le_antisymm (by linarith) (Int.floor_le x)
    conv_lhs => rw [same]
    exact Int.ceil_intCast _

end Multiples

/-! ## Conversions -/

/-- The integer part, towards zero. -/
def towardZero (x : ℚ) : ℤ :=
  if 0 ≤ x then ⌊x⌋ else ⌈x⌉

theorem towardZero_of_nonneg {x : ℚ} (nonneg : 0 ≤ x) : towardZero x = ⌊x⌋ :=
  if_pos nonneg

/-- The integer part of a number between two integers that zero is between. -/
theorem towardZero_bounds (low high : ℤ) (nonpos : low ≤ 0) (positive : 0 < high) {x : ℚ}
    (above : low - 1 < x) (below : x < high) : low ≤ towardZero x ∧ towardZero x < high := by
  unfold towardZero
  split
  · rename_i nonneg
    exact ⟨nonpos.trans (Int.floor_nonneg.mpr nonneg), Int.floor_lt.mpr below⟩
  · rename_i negative
    have ceil : ⌈x⌉ ≤ 0 := Int.ceil_le.mpr (by exact_mod_cast (not_le.mp negative).le)
    have least : low - 1 < ⌈x⌉ := Int.lt_ceil.mpr (by exact_mod_cast above)
    exact ⟨by omega, by omega⟩

/-- How a compiler converts to the signed and the unsigned 32-bit integers. -/
structure Conversion where
  toInt32 : ℚ → Int32
  toUInt32 : ℚ → UInt32
  toInt32_toInt : ∀ x, -2 ^ 31 - 1 < x → x < 2 ^ 31 → (toInt32 x).toInt = towardZero x
  toUInt32_toNat : ∀ x, -1 < x → x < 2 ^ 32 → ((toUInt32 x).toNat : ℤ) = towardZero x

namespace Conversion

variable (conversion : Conversion) {x : ℚ}

theorem toInt32_floor (nonneg : 0 ≤ x) (inRange : x < 2 ^ 31) :
    (conversion.toInt32 x).toInt = ⌊x⌋ := by
  rw [conversion.toInt32_toInt x (by linarith) inRange, towardZero_of_nonneg nonneg]

theorem toUInt32_floor (nonneg : 0 ≤ x) (inRange : x < 2 ^ 32) :
    ((conversion.toUInt32 x).toNat : ℤ) = ⌊x⌋ := by
  rw [conversion.toUInt32_toNat x (by linarith) inRange, towardZero_of_nonneg nonneg]

/-- Out of range, no conversion can give the integer part. -/
theorem toInt32_floor_iff (nonneg : 0 ≤ x) :
    (conversion.toInt32 x).toInt = ⌊x⌋ ↔ x < 2 ^ 31 := by
  constructor
  · intro floor
    have bound : ⌊x⌋ < 2 ^ 31 := floor ▸ (conversion.toInt32 x).toInt_lt
    exact_mod_cast Int.floor_lt.mp bound
  · exact conversion.toInt32_floor nonneg

/-- The conversions of a compiler that gives the smallest integer for whatever is
out of range. -/
def smallest : Conversion where
  toInt32 x := if -2 ^ 31 - 1 < x ∧ x < 2 ^ 31 then Int32.ofInt (towardZero x) else Int32.minValue
  toUInt32 x := if -1 < x ∧ x < 2 ^ 32 then UInt32.ofNat (towardZero x).toNat else 0
  toInt32_toInt x above below := by
    obtain ⟨least, most⟩ := towardZero_bounds (-2 ^ 31) (2 ^ 31) (by decide) (by decide)
      (by exact_mod_cast above) (by exact_mod_cast below)
    rw [if_pos ⟨above, below⟩]
    exact Int32.toInt_ofInt_of_le least most
  toUInt32_toNat x above below := by
    obtain ⟨least, most⟩ := towardZero_bounds 0 (2 ^ 32) le_rfl (by decide)
      (by simpa using above) (by exact_mod_cast below)
    have size : (towardZero x).toNat < UInt32.size := by
      unfold UInt32.size
      omega
    rw [if_pos ⟨above, below⟩, UInt32.toNat_ofNat_of_lt' size]
    exact Int.toNat_of_nonneg least

end Conversion

end TradingApp.Machine

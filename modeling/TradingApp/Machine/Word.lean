import Mathlib.Data.Int.ModEq
import Mathlib.Tactic.Ring

/-!
# Unsigned machine words

An unsigned machine integer is the natural number it denotes; arithmetic on it
is carried out on integers and brought back into range by `word32`.
-/

namespace TradingApp.Machine

/-- The unsigned 32-bit integer congruent to an integer. -/
def word32 (n : ℤ) : ℕ :=
  (n % 2 ^ 32).toNat

/-- The unsigned 64-bit integer congruent to an integer. -/
def word64 (n : ℤ) : ℕ :=
  (n % 2 ^ 64).toNat

theorem word32_lt (n : ℤ) : word32 n < 2 ^ 32 := by
  unfold word32
  omega

/-- In range nothing is lost. -/
@[simp]
theorem word32_natCast {n : ℕ} (inRange : n < 2 ^ 32) : word32 n = n := by
  unfold word32
  omega

theorem word32_sub {m n : ℕ} (inRange : m < 2 ^ 32) (le : n ≤ m) :
    word32 ((m : ℤ) - n) = m - n := by
  unfold word32
  omega

theorem word32_add {m n : ℕ} (inRange : m + n < 2 ^ 32) : word32 ((m : ℤ) + n) = m + n := by
  unfold word32
  omega

/-- Conversion to a word only loses. -/
theorem word32_le {n : ℕ} {m : ℤ} (same : m = n) : word32 m ≤ n := by
  unfold word32
  omega

/-- Subtracting in two steps is subtracting the sum. -/
theorem word32_sub_sub (n : ℤ) (a b : ℕ) :
    word32 (word32 (n - a) - b) = word32 (n - (a + b : ℕ)) := by
  unfold word32
  omega

/-- A sum may be brought into range at any point. -/
theorem word32_word32_add (n m : ℤ) : word32 (word32 n + m) = word32 (n + m) := by
  unfold word32
  omega

end TradingApp.Machine

import Mathlib.Data.List.Induction
import TradingApp.Text.Decimal

/-!
# Six significant digits

What an output stream prints of a number can be read, and gives the number
rounded to six significant digits.  The form does not matter: the point may stand
anywhere, zeros at the end are left out, and large and small numbers have an
exponent.

Rounding a rounded number changes nothing, so that printing and reading any number
of times is as good as once.
-/

namespace TradingApp.Decimal

/-! ## Digits -/

/-- The number that digits stand for. -/
def digitsValue (digits : Text) : ℕ :=
  Nat.ofDigitChars 10 digits 0

/-- Text of digits only. -/
def IsDigits (text : Text) : Prop :=
  ∀ c ∈ text, c.isDigit = true

theorem digitsValue_padded (width n : ℕ) : digitsValue (padded width n) = n :=
  ofDigitChars_padded width n

theorem isDigits_padded (width n : ℕ) : IsDigits (padded width n) :=
  fun _ member => isDigit_padded member

theorem isDigits_zeros (count : ℕ) : IsDigits (List.replicate count '0') := by
  intro c member
  rw [List.eq_of_mem_replicate member]
  rfl

theorem IsDigits.append {first second : Text} (one : IsDigits first) (two : IsDigits second) :
    IsDigits (first ++ second) := by
  intro c member
  rcases List.mem_append.mp member with left | right
  · exact one c left
  · exact two c right

theorem IsDigits.of_append {first second : Text} (both : IsDigits (first ++ second)) :
    IsDigits first ∧ IsDigits second :=
  ⟨fun c member => both c (List.mem_append_left _ member),
    fun c member => both c (List.mem_append_right _ member)⟩

/-- Digits contain nothing else. -/
theorem IsDigits.not_mem {text : Text} (digits : IsDigits text) {c : Char}
    (noDigit : c.isDigit = false) : c ∉ text := by
  intro member
  have isDigit := digits c member
  rw [noDigit] at isDigit
  cases isDigit

theorem readNat_digits {digits : Text} (nonempty : digits ≠ []) (isDigits : IsDigits digits) :
    readNat digits = some (digitsValue digits) := by
  rw [readNat, if_pos ⟨nonempty, List.all_eq_true.mpr isDigits⟩]
  rfl

/-- Zeros at the end are a power of ten. -/
theorem digitsValue_append_zeros (digits : Text) (count : ℕ) :
    digitsValue (digits ++ List.replicate count '0') = digitsValue digits * 10 ^ count := by
  unfold digitsValue
  rw [Nat.ofDigitChars_append, Nat.ofDigitChars_replicate_zero, Nat.mul_comm]

/-- Zeros in front are nothing. -/
theorem digitsValue_zeros_append (digits : Text) (count : ℕ) :
    digitsValue (List.replicate count '0' ++ digits) = digitsValue digits := by
  unfold digitsValue
  rw [Nat.ofDigitChars_append, Nat.ofDigitChars_replicate_zero, Nat.mul_zero]

/-! ## The point -/

theorem withPoint_nil (whole : Text) : withPoint whole [] = whole :=
  rfl

/-- A zero at the end is left out. -/
theorem withPoint_concat_zero (whole fraction : Text) :
    withPoint whole (fraction ++ ['0']) = withPoint whole fraction := by
  unfold withPoint
  rw [List.reverse_append, List.reverse_singleton, List.singleton_append,
    List.dropWhile_cons_of_pos (by decide)]

/-- Any other digit stays, with all before it. -/
theorem withPoint_concat (whole fraction : Text) {c : Char} (nonzero : c ≠ '0') :
    withPoint whole (fraction ++ [c]) = whole ++ '.' :: (fraction ++ [c]) := by
  unfold withPoint
  rw [List.reverse_append, List.reverse_singleton, List.singleton_append,
    List.dropWhile_cons_of_neg (by simpa using nonzero), List.reverse_cons, List.reverse_reverse]
  cases fraction <;> rfl

/-- A mantissa is read with all its decimals, those left out included. -/
theorem readMantissa_withPoint {whole fraction : Text} (present : whole ≠ [])
    (wholeDigits : IsDigits whole) (fractionDigits : IsDigits fraction) :
    readMantissa (withPoint whole fraction) =
      some ((digitsValue (whole ++ fraction) : ℚ) / 10 ^ fraction.length) := by
  have noPoint {digits : Text} (isDigits : IsDigits digits) : '.' ∉ digits :=
    isDigits.not_mem (by decide)
  induction fraction using List.reverseRecOn with
  | nil =>
      rw [withPoint_nil, readMantissa, List.splitOn_eq_singleton (noPoint wholeDigits)]
      simp [readNat_digits present wholeDigits]
  | append_singleton fraction c ih =>
      by_cases zero : c = '0'
      · subst zero
        rw [withPoint_concat_zero, ih fractionDigits.of_append.1, ← List.append_assoc]
        have value := digitsValue_append_zeros (whole ++ fraction) 1
        rw [List.replicate_one] at value
        rw [value, List.length_append, List.length_singleton, pow_one, pow_succ, Nat.cast_mul,
          Nat.cast_ofNat, mul_div_mul_right _ _ (by norm_num)]
      · rw [withPoint_concat whole fraction zero, readMantissa,
          List.splitOn_append_cons_self_of_not_mem (noPoint wholeDigits),
          List.splitOn_eq_singleton (noPoint fractionDigits)]
        have digits := wholeDigits.append fractionDigits
        simp only [readNat_digits (List.append_ne_nil_of_left_ne_nil present _) digits,
          Option.map_some]

/-! ## The exponent -/

theorem mem_withPoint {whole fraction : Text} {c : Char} (member : c ∈ withPoint whole fraction) :
    c ∈ whole ∨ c = '.' ∨ c ∈ fraction := by
  induction fraction using List.reverseRecOn with
  | nil => exact Or.inl member
  | append_singleton fraction d ih =>
      by_cases zero : d = '0'
      · subst zero
        rw [withPoint_concat_zero] at member
        exact (ih member).imp_right (Or.imp_right (List.mem_append_left _))
      · rw [withPoint_concat whole fraction zero, List.mem_append, List.mem_cons] at member
        exact member

/-- No digit and no point marks an exponent. -/
theorem splitOnP_mantissa {whole fraction : Text} (wholeDigits : IsDigits whole)
    (fractionDigits : IsDigits fraction) :
    (withPoint whole fraction).splitOnP (fun c => c = 'e' || c = 'E') =
      [withPoint whole fraction] := by
  apply List.splitOnP_eq_singleton
  intro c member
  have plain {digits : Text} (isDigits : IsDigits digits) (member : c ∈ digits) :
      (decide (c = 'e') || decide (c = 'E')) = false := by
    have lower : c ≠ 'e' := by
      rintro rfl
      exact isDigits.not_mem (by decide) member
    have upper : c ≠ 'E' := by
      rintro rfl
      exact isDigits.not_mem (by decide) member
    simp [lower, upper]
  rcases mem_withPoint member with inWhole | rfl | inFraction
  · exact plain wholeDigits inWhole
  · rfl
  · exact plain fractionDigits inFraction

/-- The exponent has a sign. -/
theorem readInt_exponent (exponent : ℤ) :
    readInt ((if exponent < 0 then '-' else '+') :: padded 2 exponent.natAbs) = some exponent := by
  have digits : readNat (padded 2 exponent.natAbs) = some exponent.natAbs := by
    rw [readNat_digits (padded_ne_nil _ _) (isDigits_padded _ _), digitsValue_padded]
  unfold readInt
  split
  · rename_i negative
    simp only [readSign, digits, Option.map_some, if_true, Option.some.injEq]
    omega
  · rename_i nonneg
    simp only [readSign, digits, Option.map_some, Bool.false_eq_true, if_false, Option.some.injEq]
    omega

/-- Text that starts with a number's first digit has no sign. -/
theorem readSign_withPoint {whole : Text} (fraction : Text) (present : whole ≠ [])
    (wholeDigits : IsDigits whole) (rest : Text) :
    readSign (withPoint whole fraction ++ rest) = (false, withPoint whole fraction ++ rest) := by
  apply readSign_of_isDigit
  intro c member
  apply wholeDigits c
  obtain ⟨first, others, rfl⟩ := List.exists_cons_of_ne_nil present
  have head : (withPoint (first :: others) fraction ++ rest).head? = some first := by
    unfold withPoint
    split <;> rfl
  rw [head, Option.mem_some_iff] at member
  rw [← member]
  exact List.mem_cons_self ..

/-- A number without an exponent. -/
theorem readDouble_withPoint {whole fraction : Text} (present : whole ≠ [])
    (wholeDigits : IsDigits whole) (fractionDigits : IsDigits fraction) :
    readDouble (withPoint whole fraction) =
      some ((digitsValue (whole ++ fraction) : ℚ) / 10 ^ fraction.length) := by
  have noSign := readSign_withPoint fraction present wholeDigits []
  rw [List.append_nil] at noSign
  unfold readDouble
  dsimp only
  rw [noSign]
  simp only [splitOnP_mantissa wholeDigits fractionDigits,
    readMantissa_withPoint present wholeDigits fractionDigits, Option.map_some,
    Bool.false_eq_true, if_false]

/-- A number with one. -/
theorem readDouble_scientific {whole fraction : Text} (present : whole ≠ [])
    (wholeDigits : IsDigits whole) (fractionDigits : IsDigits fraction) (exponent : ℤ) :
    readDouble (withPoint whole fraction ++
        'e' :: (if exponent < 0 then '-' else '+') :: padded 2 exponent.natAbs) =
      some ((digitsValue (whole ++ fraction) : ℚ) / 10 ^ fraction.length * 10 ^ exponent) := by
  have noSign := readSign_withPoint fraction present wholeDigits
    ('e' :: (if exponent < 0 then '-' else '+') :: padded 2 exponent.natAbs)
  have noMark : ((if exponent < 0 then '-' else '+') :: padded 2 exponent.natAbs).splitOnP
      (fun c => c = 'e' || c = 'E') =
        [(if exponent < 0 then '-' else '+') :: padded 2 exponent.natAbs] := by
    apply List.splitOnP_eq_singleton
    intro c member
    rcases List.mem_cons.mp member with rfl | inDigits
    · split <;> rfl
    · have isDigit := isDigits_padded _ _ c inDigits
      by_contra isMark
      simp only [Bool.not_eq_false, Bool.or_eq_true, decide_eq_true_eq] at isMark
      rcases isMark with rfl | rfl <;> exact absurd isDigit (by decide)
  unfold readDouble
  dsimp only
  rw [noSign, List.splitOnP_append_cons _ _ (by rfl)]
  simp only [splitOnP_mantissa wholeDigits fractionDigits, noMark, List.cons_append,
    List.nil_append, readMantissa_withPoint present wholeDigits fractionDigits, readInt_exponent,
    Option.bind_some, Option.map_some, Bool.false_eq_true, if_false]

/-- Six significant digits stand for a number times a power of ten, wherever the
point is put. -/
theorem readDouble_placePoint {digits : Text} (isDigits : IsDigits digits)
    (length : digits.length = 6) (exponent : ℤ) :
    readDouble (placePoint exponent digits) =
      some ((digitsValue digits : ℚ) * 10 ^ (exponent - 5)) := by
  have ten : (10 : ℚ) ≠ 0 := by norm_num
  have taken (count : ℕ) : IsDigits (digits.take count) :=
    fun c member => isDigits c (List.mem_of_mem_take member)
  have dropped (count : ℕ) : IsDigits (digits.drop count) :=
    fun c member => isDigits c (List.mem_of_mem_drop member)
  have present (count : ℕ) : digits.take (count + 1) ≠ [] := by
    intro empty
    have lengths := congrArg List.length empty
    rw [List.length_take, length, List.length_nil] at lengths
    omega
  unfold placePoint
  split
  · rw [readDouble_scientific (present 0) (taken 1) (dropped 1), List.take_append_drop,
      List.length_drop, length, Option.some.injEq, zpow_sub₀ ten]
    norm_num
    ring
  · rename_i near
    split
    · rename_i nonneg
      rw [readDouble_withPoint (present _) (taken _) (dropped _), List.take_append_drop,
        List.length_drop, length, Option.some.injEq, div_eq_mul_inv, ← zpow_natCast, ← zpow_neg]
      congr 2
      omega
    · rename_i negative
      have zero : IsDigits ['0'] := isDigits_zeros 1
      rw [readDouble_withPoint (List.cons_ne_nil _ _) zero ((isDigits_zeros _).append isDigits)]
      have value : digitsValue (['0'] ++
          (List.replicate ((-exponent).toNat - 1) '0' ++ digits)) = digitsValue digits := by
        have front := digitsValue_zeros_append
          (List.replicate ((-exponent).toNat - 1) '0' ++ digits) 1
        rw [List.replicate_one] at front
        rw [front, digitsValue_zeros_append]
      rw [value, List.length_append, List.length_replicate, length, Option.some.injEq,
        div_eq_mul_inv, ← zpow_natCast, ← zpow_neg]
      congr 2
      omega

theorem readSign_placePoint {digits : Text} (isDigits : IsDigits digits) (present : digits ≠ [])
    (exponent : ℤ) :
    readSign (placePoint exponent digits) = (false, placePoint exponent digits) := by
  have taken (count : ℕ) : IsDigits (digits.take count) :=
    fun c member => isDigits c (List.mem_of_mem_take member)
  have nonempty (count : ℕ) : digits.take (count + 1) ≠ [] := by
    rw [Ne, List.take_eq_nil_iff, not_or]
    exact ⟨Nat.succ_ne_zero _, present⟩
  have noRest {whole fraction : Text} (present : whole ≠ []) (wholeDigits : IsDigits whole) :
      readSign (withPoint whole fraction) = (false, withPoint whole fraction) := by
    have noSign := readSign_withPoint fraction present wholeDigits []
    rwa [List.append_nil] at noSign
  unfold placePoint
  split
  · exact readSign_withPoint _ (nonempty 0) (taken 1) _
  · split
    · exact noRest (nonempty _) (taken _)
    · exact noRest (List.cons_ne_nil _ _) (isDigits_zeros 1)

/-- A minus in front is read. -/
theorem readDouble_neg {text : Text} (noSign : readSign text = (false, text)) :
    readDouble ('-' :: text) = (readDouble text).map fun x => -x := by
  have sign : readSign ('-' :: text) = (true, text) :=
    rfl
  unfold readDouble
  dsimp only
  rw [sign, noSign]
  simp only [if_true, Bool.false_eq_true, if_false, Option.map_id']

/-! ## Rounding -/

section Rounding

variable {x : ℚ} {n : ℕ}

theorem le_roundHalfEven (le : (n : ℚ) ≤ x) : n ≤ roundHalfEven x := by
  have floor : n ≤ ⌊x⌋₊ := Nat.le_floor le
  unfold roundHalfEven
  dsimp only
  split_ifs <;> omega

theorem roundHalfEven_le (nonneg : 0 ≤ x) (lt : x < n) : roundHalfEven x ≤ n := by
  have floor : ⌊x⌋₊ < n := (Nat.floor_lt nonneg).mpr lt
  unfold roundHalfEven
  dsimp only
  split_ifs <;> omega

end Rounding

/-- A number rounded to six significant digits. -/
def roundSignificant (x : ℚ) : ℚ :=
  if x = 0 then 0
  else
    let exponent := Int.log 10 |x|
    let magnitude := (roundHalfEven (|x| * 10 ^ (5 - exponent)) : ℚ) * 10 ^ (exponent - 5)
    if x < 0 then -magnitude else magnitude

/-- The six digits of a number, before they are rounded. -/
theorem scaled_bounds {x : ℚ} (positive : 0 < x) :
    10 ^ 5 ≤ x * 10 ^ (5 - Int.log 10 x) ∧ x * 10 ^ (5 - Int.log 10 x) < 10 ^ 6 := by
  have ten : (10 : ℚ) ≠ 0 := by norm_num
  have power : (0 : ℚ) < 10 ^ (5 - Int.log 10 x) := zpow_pos (by norm_num) _
  have low : (10 : ℚ) ^ Int.log 10 x ≤ x := by
    exact_mod_cast Int.zpow_log_le_self (b := 10) (by norm_num) positive
  have high : x < (10 : ℚ) ^ (Int.log 10 x + 1) := by
    exact_mod_cast Int.lt_zpow_succ_log_self (b := 10) (by norm_num) x
  constructor
  · calc (10 : ℚ) ^ 5 = 10 ^ Int.log 10 x * 10 ^ (5 - Int.log 10 x) := by
          rw [← zpow_add₀ ten, add_sub_cancel]
          norm_num
      _ ≤ x * 10 ^ (5 - Int.log 10 x) := mul_le_mul_of_nonneg_right low power.le
  · calc x * 10 ^ (5 - Int.log 10 x)
        < 10 ^ (Int.log 10 x + 1) * 10 ^ (5 - Int.log 10 x) :=
          mul_lt_mul_of_pos_right high power
      _ = 10 ^ 6 := by
          rw [← zpow_add₀ ten, show Int.log 10 x + 1 + (5 - Int.log 10 x) = 6 by ring]
          norm_num

/-- The digits that are printed of a positive number. -/
theorem rounded_bounds {x : ℚ} (positive : 0 < x) :
    10 ^ 5 ≤ roundHalfEven (x * 10 ^ (5 - Int.log 10 x)) ∧
      roundHalfEven (x * 10 ^ (5 - Int.log 10 x)) ≤ 10 ^ 6 := by
  obtain ⟨low, high⟩ := scaled_bounds positive
  constructor
  · apply le_roundHalfEven
    exact_mod_cast low
  · apply roundHalfEven_le
    · exact le_trans (by norm_num) low
    · exact_mod_cast high

/-! ## Rounding again -/

/-- Between two powers of ten the logarithm is the lower exponent. -/
theorem log_eq {y : ℚ} {exponent : ℤ} (low : (10 : ℚ) ^ exponent ≤ y)
    (high : y < (10 : ℚ) ^ (exponent + 1)) : Int.log 10 y = exponent := by
  have positive : 0 < y := lt_of_lt_of_le (zpow_pos (by norm_num) _) low
  apply le_antisymm
  · apply Int.le_of_lt_add_one
    apply (Int.lt_zpow_iff_log_lt (by norm_num) positive).mp
    exact_mod_cast high
  · apply (Int.zpow_le_iff_le_log (by norm_num) positive).mp
    exact_mod_cast low

theorem roundSignificant_neg {x : ℚ} (positive : 0 < x) :
    roundSignificant (-x) = -roundSignificant x := by
  unfold roundSignificant
  rw [if_neg (neg_ne_zero.mpr positive.ne'), if_neg positive.ne', abs_neg, if_pos
    (neg_neg_of_pos positive), if_neg (not_lt_of_gt positive)]

/-- Six digits times a power of ten are not rounded. -/
theorem roundSignificant_digits {n : ℕ} (low : 10 ^ 5 ≤ n) (high : n < 10 ^ 6) (exponent : ℤ) :
    roundSignificant ((n : ℚ) * 10 ^ (exponent - 5)) = (n : ℚ) * 10 ^ (exponent - 5) := by
  have ten : (10 : ℚ) ≠ 0 := by norm_num
  have power : (0 : ℚ) < 10 ^ (exponent - 5) := zpow_pos (by norm_num) _
  have lowCast : (10 : ℚ) ^ (5 : ℤ) ≤ n := by exact_mod_cast low
  have highCast : (n : ℚ) < (10 : ℚ) ^ (6 : ℤ) := by exact_mod_cast high
  have positive : 0 < (n : ℚ) * 10 ^ (exponent - 5) :=
    mul_pos (lt_of_lt_of_le (by norm_num) lowCast) power
  have log : Int.log 10 ((n : ℚ) * 10 ^ (exponent - 5)) = exponent := by
    apply log_eq
    · calc (10 : ℚ) ^ exponent = 10 ^ (5 : ℤ) * 10 ^ (exponent - 5) := by
            rw [← zpow_add₀ ten, add_sub_cancel]
        _ ≤ n * 10 ^ (exponent - 5) := mul_le_mul_of_nonneg_right lowCast power.le
    · calc (n : ℚ) * 10 ^ (exponent - 5) < 10 ^ (6 : ℤ) * 10 ^ (exponent - 5) :=
            mul_lt_mul_of_pos_right highCast power
        _ = 10 ^ (exponent + 1) := by
            rw [← zpow_add₀ ten, show 6 + (exponent - 5) = exponent + 1 by ring]
  have digits : (n : ℚ) * 10 ^ (exponent - 5) * 10 ^ (5 - exponent) = n := by
    rw [mul_assoc, ← zpow_add₀ ten, show exponent - 5 + (5 - exponent) = 0 by ring, zpow_zero,
      mul_one]
  unfold roundSignificant
  rw [if_neg positive.ne', abs_of_pos positive, log]
  dsimp only
  rw [if_neg (not_lt_of_gt positive), digits, roundHalfEven_natCast]

/-- Rounding a rounded number changes nothing. -/
theorem roundSignificant_idem (x : ℚ) :
    roundSignificant (roundSignificant x) = roundSignificant x := by
  by_cases zero : x = 0
  · subst zero
    decide +kernel
  · obtain ⟨least, most⟩ := rounded_bounds (abs_pos.mpr zero)
    let exponent := Int.log 10 |x|
    let rounded := roundHalfEven (|x| * 10 ^ (5 - exponent))
    let magnitude : ℚ := rounded * 10 ^ (exponent - 5)
    have positive : 0 < magnitude := by
      apply mul_pos
      · exact_mod_cast lt_of_lt_of_le (by norm_num) least
      · exact zpow_pos (by norm_num) _
    have same : roundSignificant magnitude = magnitude := by
      by_cases carries : rounded = 10 ^ 6
      · -- all digits were nines: the carry makes one more
        have carried : magnitude = ((10 ^ 5 : ℕ) : ℚ) * 10 ^ (exponent + 1 - 5) := by
          dsimp only [magnitude]
          rw [carries, show exponent + 1 - 5 = (exponent - 5) + 1 by ring,
            zpow_add_one₀ (by norm_num)]
          push_cast
          ring
        rw [carried]
        exact roundSignificant_digits le_rfl (by norm_num) _
      · exact roundSignificant_digits least (lt_of_le_of_ne most carries) exponent
    have rounds : roundSignificant x = if x < 0 then -magnitude else magnitude :=
      if_neg zero
    rw [rounds]
    split
    · rw [roundSignificant_neg positive, same]
    · exact same

/-! ## Reading what is printed -/

/-- What a stream prints of a number is read back rounded to six significant
digits. -/
theorem readDouble_ostreamText (x : ℚ) :
    readDouble (ostreamText x) = some (roundSignificant x) := by
  unfold ostreamText roundSignificant
  by_cases zero : x = 0
  · rw [if_pos zero, if_pos zero]
    decide +kernel
  · rw [if_neg zero, if_neg zero]
    obtain ⟨_, most⟩ := rounded_bounds (abs_pos.mpr zero)
    dsimp only
    generalize Int.log 10 |x| = exponent at most ⊢
    generalize roundHalfEven (|x| * 10 ^ (5 - exponent)) = rounded at most ⊢
    let body := if rounded = 10 ^ 6 then placePoint (exponent + 1) (padded 6 (10 ^ 5))
      else placePoint exponent (padded 6 rounded)
    have present (n : ℕ) : padded 6 n ≠ [] := padded_ne_nil 6 n
    have noSign : readSign body = (false, body) := by
      dsimp only [body]
      split
      · exact readSign_placePoint (isDigits_padded _ _) (present _) _
      · exact readSign_placePoint (isDigits_padded _ _) (present _) _
    have reads : readDouble body = some ((rounded : ℚ) * 10 ^ (exponent - 5)) := by
      dsimp only [body]
      split
      · rename_i carries
        rw [readDouble_placePoint (isDigits_padded _ _) (length_padded (by norm_num) (by norm_num)),
          digitsValue_padded, carries, show exponent + 1 - 5 = (exponent - 5) + 1 by ring,
          zpow_add_one₀ (by norm_num)]
        push_cast
        ring_nf
      · rename_i fits
        have small : rounded < 10 ^ 6 := lt_of_le_of_ne most fits
        rw [readDouble_placePoint (isDigits_padded _ _) (length_padded small (by norm_num)),
          digitsValue_padded]
    change readDouble ((if x < 0 then ['-'] else []) ++ body) = _
    by_cases negative : x < 0
    · rw [if_pos negative, if_pos negative, List.singleton_append, readDouble_neg noSign, reads]
      rfl
    · rw [if_neg negative, if_neg negative, List.nil_append, reads]

end TradingApp.Decimal

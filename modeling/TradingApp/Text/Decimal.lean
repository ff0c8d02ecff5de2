import Mathlib.Algebra.Order.Floor.Semiring
import Mathlib.Data.Int.Log
import Mathlib.Data.List.Basic
import Mathlib.Data.Rat.Floor
import Mathlib.Tactic.FieldSimp
import Mathlib.Tactic.Linarith
import Mathlib.Tactic.Ring

/-!
# Decimal text

Numbers as the standard library of the source writes and reads them: integers
and fixed-point numbers as `to_string` prints them, floating-point numbers as
an output stream prints them, and `lexical_cast` back.  Floating-point numbers
are exact rationals, so there is no infinity, no NaN and no negative zero.

The main result is that reading what `to_string` printed gives the number
rounded to the printed digits.
-/

namespace TradingApp

/-- Text of the store, the files and the command line. -/
abbrev Text := List Char

namespace Decimal

/-! ## Writing -/

/-- The nearest natural number, ties to even. -/
def roundHalfEven (x : ℚ) : ℕ :=
  let low := ⌊x⌋₊
  if x - low < 1 / 2 then low
  else if 1 / 2 < x - low then low + 1
  else if low % 2 = 0 then low
  else low + 1

/-- The decimal digits of a number. -/
def natText (n : ℕ) : Text :=
  Nat.toDigits 10 n

/-- `to_string` of an integer. -/
def intText (n : ℤ) : Text :=
  if n < 0 then '-' :: natText n.natAbs else natText n.natAbs

/-- The digits of a number with zeros in front up to a width. -/
def padded (width n : ℕ) : Text :=
  List.replicate (width - (natText n).length) '0' ++ natText n

/-- A floating-point number with a fixed number of decimals. -/
def fixedText (decimals : ℕ) (x : ℚ) : Text :=
  let scaled := roundHalfEven (|x| * 10 ^ decimals)
  (if x < 0 then ['-'] else []) ++
    (natText (scaled / 10 ^ decimals) ++ '.' :: padded decimals (scaled % 10 ^ decimals))

/-- `to_string` of a floating-point number. -/
def doubleText (x : ℚ) : Text :=
  fixedText 6 x

/-- Digits after a point, without trailing zeros and without an empty part. -/
def withPoint (whole fraction : Text) : Text :=
  match (fraction.reverse.dropWhile (· = '0')).reverse with
  | [] => whole
  | digits => whole ++ '.' :: digits

/-- Significant digits with the point where the exponent puts it, in
scientific form when the exponent is below -4 or above 5. -/
def placePoint (exponent : ℤ) (digits : Text) : Text :=
  if exponent < -4 ∨ 5 < exponent then
    withPoint (digits.take 1) (digits.drop 1) ++
      'e' :: (if exponent < 0 then '-' else '+') :: padded 2 exponent.natAbs
  else if 0 ≤ exponent then
    withPoint (digits.take (exponent.toNat + 1)) (digits.drop (exponent.toNat + 1))
  else withPoint ['0'] (List.replicate ((-exponent).toNat - 1) '0' ++ digits)

/-- A floating-point number as an output stream prints it: six significant
digits. -/
def ostreamText (x : ℚ) : Text :=
  if x = 0 then ['0']
  else
    let exponent := Int.log 10 |x|
    let rounded := roundHalfEven (|x| * 10 ^ (5 - exponent))
    (if x < 0 then ['-'] else []) ++
      -- rounding may carry into a seventh digit
      (if rounded = 10 ^ 6 then placePoint (exponent + 1) (padded 6 (10 ^ 5))
      else placePoint exponent (padded 6 rounded))

/-! ## Reading -/

/-- A leading sign; `true` stands for minus. -/
def readSign : Text → Bool × Text
  | '-' :: rest => (true, rest)
  | '+' :: rest => (false, rest)
  | text => (false, text)

/-- A number without a sign. -/
def readNat (text : Text) : Option ℕ :=
  if text ≠ [] ∧ text.all Char.isDigit then some (Nat.ofDigitChars 10 text 0) else none

/-- A number that may have a sign. -/
def readInt (text : Text) : Option ℤ :=
  let signed := readSign text
  (readNat signed.2).map fun n : ℕ => if signed.1 then -(n : ℤ) else (n : ℤ)

/-- `lexical_cast` to a signed 64-bit integer. -/
def readInt64 (text : Text) : Option ℤ :=
  (readInt text).filter fun n => decide (-2 ^ 63 ≤ n ∧ n < 2 ^ 63)

/-- `lexical_cast` to an unsigned 32-bit integer; a negative number is
accepted and wraps. -/
def readUint32 (text : Text) : Option ℕ :=
  (readInt text).bind fun n =>
    if n.natAbs < 2 ^ 32 then some (n % 2 ^ 32).toNat else none

/-- Digits with or without a point. -/
def readMantissa (text : Text) : Option ℚ :=
  match text.splitOn '.' with
  | [whole] => (readNat whole).map fun n : ℕ => (n : ℚ)
  | [whole, fraction] =>
      (readNat (whole ++ fraction)).map fun n : ℕ => (n : ℚ) / 10 ^ fraction.length
  | _ => none

/-- `lexical_cast` to a floating-point number. -/
def readDouble (text : Text) : Option ℚ :=
  let signed := readSign text
  let magnitude :=
    match signed.2.splitOnP fun c => c = 'e' || c = 'E' with
    | [mantissa] => readMantissa mantissa
    | [mantissa, exponent] =>
        (readMantissa mantissa).bind fun m => (readInt exponent).map fun e => m * 10 ^ e
    | _ => none
  magnitude.map fun m => if signed.1 then -m else m

/-! ## Integers -/

theorem isDigit_natText {n : ℕ} {c : Char} (member : c ∈ natText n) : c.isDigit :=
  Nat.isDigit_of_mem_toDigits (by decide) (by decide) member

theorem natText_ne_nil (n : ℕ) : natText n ≠ [] :=
  Nat.toDigits_ne_nil

theorem readNat_natText (n : ℕ) : readNat (natText n) = some n := by
  have digits : (natText n).all Char.isDigit = true := by
    rw [List.all_eq_true]
    exact fun c member => isDigit_natText member
  rw [readNat, if_pos ⟨natText_ne_nil n, digits⟩, natText, Nat.ofDigitChars_ten_toDigits]

/-- Text that starts with a digit has no sign. -/
theorem readSign_of_isDigit {text : Text} (digits : ∀ c ∈ text.head?, c.isDigit) :
    readSign text = (false, text) := by
  cases text with
  | nil => rfl
  | cons c rest =>
      have isDigit := digits c rfl
      unfold readSign
      split
      · simp_all
      · simp_all
      · rfl

theorem head?_natText_isDigit (n : ℕ) (rest : Text) :
    ∀ c ∈ (natText n ++ rest).head?, c.isDigit := by
  cases isText : natText n with
  | nil => exact absurd isText (natText_ne_nil n)
  | cons first others =>
      intro c member
      simp only [List.cons_append, List.head?_cons, Option.mem_some_iff] at member
      subst member
      exact isDigit_natText (n := n) (by rw [isText]; exact List.mem_cons_self)

theorem readInt_intText (n : ℤ) : readInt (intText n) = some n := by
  unfold intText readInt
  split
  · rename_i negative
    simp only [readSign, readNat_natText, Option.map_some, if_true, Option.some.injEq]
    omega
  · have noSign := readSign_of_isDigit (by simpa using head?_natText_isDigit n.natAbs [])
    simp only [noSign, readNat_natText, Option.map_some, Bool.false_eq_true, if_false,
      Option.some.injEq]
    omega

/-- Reading a printed 64-bit integer gives it back. -/
theorem readInt64_intText {n : ℤ} (inRange : -2 ^ 63 ≤ n ∧ n < 2 ^ 63) :
    readInt64 (intText n) = some n := by
  rw [readInt64, readInt_intText, Option.filter_some, if_pos (decide_eq_true inRange)]

theorem intText_natCast (n : ℕ) : intText n = natText n := by
  rw [intText, if_neg (by omega), Int.natAbs_natCast]

/-- Reading a printed unsigned 32-bit integer gives it back. -/
theorem readUint32_natText {n : ℕ} (inRange : n < 2 ^ 32) :
    readUint32 (natText n) = some n := by
  rw [← intText_natCast, readUint32, readInt_intText]
  simp only [Option.bind_some, Int.natAbs_natCast, inRange, if_true]
  congr 1
  omega

/-! ## Floating-point numbers -/

@[simp]
theorem roundHalfEven_natCast (n : ℕ) : roundHalfEven n = n := by
  simp [roundHalfEven]

/-- The magnitude of a number rounded to a number of decimals. -/
def roundedMagnitude (decimals : ℕ) (x : ℚ) : ℚ :=
  (roundHalfEven (|x| * 10 ^ decimals) : ℚ) / 10 ^ decimals

/-- A number rounded to a number of decimals. -/
def roundTo (decimals : ℕ) (x : ℚ) : ℚ :=
  if x < 0 then -roundedMagnitude decimals x else roundedMagnitude decimals x

theorem roundedMagnitude_nonneg (decimals : ℕ) (x : ℚ) : 0 ≤ roundedMagnitude decimals x := by
  unfold roundedMagnitude
  positivity

theorem roundedMagnitude_of_abs_eq {decimals : ℕ} {x y : ℚ}
    (same : |y| = roundedMagnitude decimals x) :
    roundedMagnitude decimals y = roundedMagnitude decimals x := by
  have scaled : |y| * 10 ^ decimals = (roundHalfEven (|x| * 10 ^ decimals) : ℚ) := by
    rw [same, roundedMagnitude]
    field_simp
  conv_lhs => rw [roundedMagnitude, scaled, roundHalfEven_natCast]
  rfl

/-- Rounding a rounded number changes nothing. -/
theorem roundTo_idem (decimals : ℕ) (x : ℚ) :
    roundTo decimals (roundTo decimals x) = roundTo decimals x := by
  have nonneg := roundedMagnitude_nonneg decimals x
  by_cases negative : x < 0
  · rw [show roundTo decimals x = -roundedMagnitude decimals x from if_pos negative]
    have magnitude : |-roundedMagnitude decimals x| = roundedMagnitude decimals x := by
      rw [abs_neg, abs_of_nonneg nonneg]
    have same := roundedMagnitude_of_abs_eq magnitude
    unfold roundTo
    rw [same]
    split
    · rfl
    · linarith
  · rw [show roundTo decimals x = roundedMagnitude decimals x from if_neg negative]
    have same := roundedMagnitude_of_abs_eq (abs_of_nonneg nonneg)
    unfold roundTo
    rw [same, if_neg (not_lt.mpr nonneg)]

theorem length_padded {width n : ℕ} (fits : n < 10 ^ width) (positive : 0 < width) :
    (padded width n).length = width := by
  have short : (natText n).length ≤ width :=
    (Nat.length_toDigits_le_iff (by decide) positive).mpr fits
  simp only [padded, List.length_append, List.length_replicate]
  omega

theorem isDigit_padded {width n : ℕ} {c : Char} (member : c ∈ padded width n) : c.isDigit := by
  rcases List.mem_append.mp member with zero | digit
  · rw [List.eq_of_mem_replicate zero]
    rfl
  · exact isDigit_natText digit

theorem ofDigitChars_padded (width n : ℕ) : Nat.ofDigitChars 10 (padded width n) 0 = n := by
  rw [padded, Nat.ofDigitChars_append, Nat.ofDigitChars_replicate_zero, Nat.mul_zero, natText,
    Nat.ofDigitChars_ten_toDigits]

theorem readNat_natText_append_padded {width : ℕ} (m : ℕ) {n : ℕ} (fits : n < 10 ^ width)
    (positive : 0 < width) :
    readNat (natText m ++ padded width n) = some (m * 10 ^ width + n) := by
  have digits : (natText m ++ padded width n).all Char.isDigit = true := by
    rw [List.all_eq_true]
    intro c member
    rcases List.mem_append.mp member with whole | fraction
    · exact isDigit_natText whole
    · exact isDigit_padded fraction
  rw [readNat, if_pos ⟨by simp [natText_ne_nil], digits⟩, Nat.ofDigitChars_append, natText,
    Nat.ofDigitChars_ten_toDigits, Nat.ofDigitChars_eq_ofDigitChars_zero, ofDigitChars_padded,
    length_padded fits positive, Nat.mul_comm]

theorem readMantissa_point {width : ℕ} (m : ℕ) {n : ℕ} (fits : n < 10 ^ width)
    (positive : 0 < width) :
    readMantissa (natText m ++ '.' :: padded width n) =
      some (((m * 10 ^ width + n : ℕ) : ℚ) / 10 ^ width) := by
  have noPoint : ∀ {c : Char}, c.isDigit → c ≠ '.' := by
    rintro c isDigit rfl
    exact absurd isDigit (by decide)
  have whole : '.' ∉ natText m := fun member => noPoint (isDigit_natText member) rfl
  have fraction : '.' ∉ padded width n := fun member => noPoint (isDigit_padded member) rfl
  have split : (natText m ++ '.' :: padded width n).splitOn '.' = [natText m, padded width n] := by
    rw [List.splitOn_append_cons_self_of_not_mem whole, List.splitOn_eq_singleton fraction]
  rw [readMantissa, split]
  simp only [readNat_natText_append_padded m fits positive, Option.map_some,
    length_padded fits positive]

/-- Reading a printed fixed-point number gives it rounded to the printed
decimals. -/
theorem readDouble_fixedText {decimals : ℕ} (positive : 0 < decimals) (x : ℚ) :
    readDouble (fixedText decimals x) = some (roundTo decimals x) := by
  let scaled := roundHalfEven (|x| * 10 ^ decimals)
  let body := natText (scaled / 10 ^ decimals) ++ '.' :: padded decimals (scaled % 10 ^ decimals)
  have fits : scaled % 10 ^ decimals < 10 ^ decimals := Nat.mod_lt _ (by positivity)
  have mantissa : readMantissa body = some (roundedMagnitude decimals x) := by
    rw [readMantissa_point _ fits positive, Nat.div_add_mod']
    rfl
  have noExponent : body.splitOnP (fun c => c = 'e' || c = 'E') = [body] := by
    apply List.splitOnP_eq_singleton
    intro c member
    have plain : ∀ {c : Char}, c.isDigit → (decide (c = 'e') || decide (c = 'E')) = false := by
      intro c isDigit
      by_contra isMark
      simp only [Bool.not_eq_false, Bool.or_eq_true, decide_eq_true_eq] at isMark
      rcases isMark with rfl | rfl <;> exact absurd isDigit (by decide)
    rcases List.mem_append.mp member with whole | point
    · exact plain (isDigit_natText whole)
    · rcases List.mem_cons.mp point with rfl | fraction
      · rfl
      · exact plain (isDigit_padded fraction)
  have text : fixedText decimals x = (if x < 0 then ['-'] else []) ++ body := rfl
  rw [text, readDouble, roundTo]
  by_cases negative : x < 0
  · simp only [negative, if_true, List.cons_append, List.nil_append, readSign, noExponent,
      mantissa, Option.map_some]
  · have noSign : readSign body = (false, body) :=
      readSign_of_isDigit (head?_natText_isDigit _ _)
    simp only [negative, if_false, List.nil_append, noSign, noExponent, mantissa,
      Option.map_some, Bool.false_eq_true]

theorem readDouble_doubleText (x : ℚ) : readDouble (doubleText x) = some (roundTo 6 x) :=
  readDouble_fixedText (by decide) x

/-! ## No number is printed as nothing -/

theorem withPoint_ne_nil {whole : Text} (present : whole ≠ []) (fraction : Text) :
    withPoint whole fraction ≠ [] := by
  unfold withPoint
  split
  · exact present
  · exact List.append_ne_nil_of_left_ne_nil present _

theorem placePoint_ne_nil (exponent : ℤ) {digits : Text} (present : digits ≠ []) :
    placePoint exponent digits ≠ [] := by
  unfold placePoint
  split
  · exact List.append_ne_nil_of_right_ne_nil _ (List.cons_ne_nil _ _)
  · split
    · refine withPoint_ne_nil ?_ _
      rwa [Ne, List.take_eq_nil_iff, not_or, and_iff_right (Nat.succ_ne_zero _)]
    · exact withPoint_ne_nil (List.cons_ne_nil _ _) _

theorem padded_ne_nil (width n : ℕ) : padded width n ≠ [] :=
  List.append_ne_nil_of_right_ne_nil _ (natText_ne_nil n)

theorem doubleText_ne_nil (x : ℚ) : doubleText x ≠ [] := by
  simp [doubleText, fixedText]

theorem ostreamText_ne_nil (x : ℚ) : ostreamText x ≠ [] := by
  unfold ostreamText
  split
  · exact List.cons_ne_nil _ _
  · refine List.append_ne_nil_of_right_ne_nil _ ?_
    split
    · exact placePoint_ne_nil _ (padded_ne_nil _ _)
    · exact placePoint_ne_nil _ (padded_ne_nil _ _)

/-! ## Separators

No printed number contains a character that could separate fields. -/

/-- A character that is neither a digit nor a mark used in numbers. -/
def Separates (c : Char) : Prop :=
  c.isDigit = false ∧ c ≠ '-' ∧ c ≠ '+' ∧ c ≠ '.' ∧ c ≠ 'e'

instance (c : Char) : Decidable (Separates c) :=
  inferInstanceAs (Decidable (_ ∧ _))

section

variable {c : Char} (separates : Separates c)

include separates

theorem not_mem_natText (n : ℕ) : c ∉ natText n := fun member => by
  simpa [separates.1] using isDigit_natText member

theorem not_mem_padded (width n : ℕ) : c ∉ padded width n := fun member => by
  simpa [separates.1] using isDigit_padded member

theorem not_mem_intText (n : ℤ) : c ∉ intText n := by
  unfold intText
  split
  · simp [separates.2.1, not_mem_natText separates]
  · exact not_mem_natText separates _

theorem not_mem_fixedText (decimals : ℕ) (x : ℚ) : c ∉ fixedText decimals x := by
  unfold fixedText
  split <;> simp [separates.2.1, separates.2.2.2.1, not_mem_natText separates,
    not_mem_padded separates]

theorem not_mem_withPoint {whole fraction : Text} (inWhole : c ∉ whole)
    (inFraction : c ∉ fraction) : c ∉ withPoint whole fraction := by
  unfold withPoint
  split
  · exact inWhole
  · rename_i digits isDigits
    have sublist : ∀ d ∈ (fraction.reverse.dropWhile (· = '0')).reverse, d ∈ fraction := by
      intro d member
      exact List.mem_reverse.mp ((List.dropWhile_sublist _).mem (List.mem_reverse.mp member))
    intro member
    rcases List.mem_append.mp member with left | right
    · exact inWhole left
    · rcases List.mem_cons.mp right with isPoint | inDigits
      · exact separates.2.2.2.1 isPoint
      · exact inFraction (sublist c inDigits)

theorem not_mem_placePoint (exponent : ℤ) {digits : Text} (inDigits : c ∉ digits) :
    c ∉ placePoint exponent digits := by
  have zero : c ≠ '0' := by
    rintro rfl
    exact absurd separates.1 (by decide)
  have taken : ∀ n, c ∉ digits.take n := fun n member => inDigits (List.mem_of_mem_take member)
  have dropped : ∀ n, c ∉ digits.drop n := fun n member => inDigits (List.mem_of_mem_drop member)
  unfold placePoint
  split
  · intro member
    rcases List.mem_append.mp member with mantissa | mark
    · exact not_mem_withPoint separates (taken 1) (dropped 1) mantissa
    · rcases List.mem_cons.mp mark with isMark | sign
      · exact separates.2.2.2.2 isMark
      · rcases List.mem_cons.mp sign with isSign | power
        · split at isSign
          · exact separates.2.1 isSign
          · exact separates.2.2.1 isSign
        · exact not_mem_padded separates _ _ power
  · split
    · exact not_mem_withPoint separates (taken _) (dropped _)
    · apply not_mem_withPoint separates
      · simpa using zero
      · intro member
        rcases List.mem_append.mp member with zeros | significant
        · exact zero (List.eq_of_mem_replicate zeros)
        · exact inDigits significant

theorem not_mem_ostreamText (x : ℚ) : c ∉ ostreamText x := by
  unfold ostreamText
  split
  · simp only [List.mem_singleton]
    rintro rfl
    exact absurd separates.1 (by decide)
  · intro member
    rcases List.mem_append.mp member with sign | number
    · split at sign
      · exact separates.2.1 (List.mem_singleton.mp sign)
      · exact List.not_mem_nil sign
    · split at number
      · exact not_mem_placePoint separates _ (not_mem_padded separates _ _) number
      · exact not_mem_placePoint separates _ (not_mem_padded separates _ _) number

end

end Decimal

end TradingApp

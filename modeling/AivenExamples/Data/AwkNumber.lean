import AivenExamples.Data.Double
import AivenExamples.Data.Fields
import AivenExamples.Data.Regex

/-! How awk reads numbers in text, and the text that it makes of numbers. -/

namespace AivenExamples.AwkNumber

open Fields Rounding

/-! ### Reading -/

/-- The number with these digits in front of the point and behind it. -/
def decimalValue (whole frac : List Char) : ℚ :=
  Nat.ofDigitChars 10 (whole ++ frac) 0 * 10 ^ (-(frac.length : ℤ))

/-- Whether there is a minus sign, and the text behind the sign. -/
def sign : List Char → Bool × List Char
  | '-' :: rest => (true, rest)
  | '+' :: rest => (false, rest)
  | rest => (false, rest)

/-- The digits behind a point, and the rest of the text. -/
def fraction : List Char → List Char × List Char
  | '.' :: rest => (rest.takeWhile Char.isDigit, rest.dropWhile Char.isDigit)
  | rest => ([], rest)

/-- The exponent, when there is one, and the rest of the text. -/
def exponent (text : List Char) : ℤ × List Char :=
  match text with
  | [] => (0, [])
  | marker :: rest =>
    let (negative, behind) := sign rest
    let digits := behind.takeWhile Char.isDigit
    -- Without digits behind it an `e` is the start of other text.
    if (marker = 'e' ∨ marker = 'E') ∧ digits ≠ [] then
      let magnitude : ℤ := Nat.ofDigitChars 10 digits 0
      (if negative then -magnitude else magnitude, behind.dropWhile Char.isDigit)
    else (0, text)

/-- The number without a sign that a text begins with, and the rest of the text. -/
def unsigned (text : List Char) : Option (ℚ × List Char) :=
  let whole := text.takeWhile Char.isDigit
  let (frac, rest) := fraction (text.dropWhile Char.isDigit)
  if whole = [] ∧ frac = [] then none
  else
    let (power, rest) := exponent rest
    some (decimalValue whole frac * 10 ^ power, rest)

/-- The number that a text begins with, and the rest of the text. -/
def leading (text : List Char) : Option (ℚ × List Char) :=
  let (negative, rest) := sign (text.dropWhile isBlank)
  (unsigned rest).map fun found => (if negative then -found.1 else found.1, found.2)

/-- The number that is written at the start of a text, or zero. -/
def number (text : List Char) : ℚ := ((leading text).map Prod.fst).getD 0

/-- The value of a text that is used as a number. -/
def numeric (text : List Char) : ℚ := double (number text)

/-- Whether a text from the input counts as a number where it is compared. -/
def looksNumeric (text : List Char) : Bool :=
  (leading text).any fun found => found.2.all isBlank

/-- `field > 0`, which compares texts when the field does not look like a number. -/
def isPositive (field : List Char) : Bool :=
  if looksNumeric field then 0 < numeric field else ['0'] < field

/-! ### Printing -/

/-- Digits without the zeros behind them. -/
def stripZeros (digits : List Char) : List Char := (digits.reverse.dropWhile (· = '0')).reverse

/-- Digits in front of the point and behind it, without zeros at the end or a bare point. -/
def fixed (whole frac : List Char) : List Char :=
  whole ++ if stripZeros frac = [] then [] else '.' :: stripZeros frac

/-- An exponent, with a sign and two digits at least. -/
def exponentText (power : ℤ) : List Char :=
  let digits := Nat.toDigits 10 power.natAbs
  'e' :: (if power < 0 then '-' else '+') :: if digits.length < 2 then '0' :: digits else digits

/-- `%g` for a number in scientific notation with so many places behind the first digit. -/
def general (places : ℕ) (number : Scientific) : List Char :=
  let digits := Nat.toDigits 10 number.digits
  let first := number.exponent.toNat + 1
  if -4 ≤ number.exponent ∧ number.exponent < 0 then
    fixed ['0'] (List.replicate (number.exponent.natAbs - 1) '0' ++ digits)
  else if 0 ≤ number.exponent ∧ number.exponent ≤ places then
    fixed (digits.take first) (digits.drop first)
  else fixed (digits.take 1) (digits.drop 1) ++ exponentText number.exponent

/--
What is different from one awk to another: the whole numbers that it prints in full.

The limit is `2 ^ 31` in old versions of mawk and `2 ^ 63` in busybox; that of gawk is above all
doubles.
-/
structure Awk where
  wholeLimit : ℕ
  positive : 0 < wholeLimit

variable (awk : Awk)

/-- A number that is printed as a whole one. -/
def Awk.Whole (value : ℚ) : Prop := value.isInt ∧ |value| < awk.wholeLimit

instance decidableWhole (value : ℚ) : Decidable (awk.Whole value) :=
  inferInstanceAs (Decidable (_ ∧ _))

/-- A number as text: whole numbers in full, and others as `%.6g`. -/
def numberText (value : ℚ) : List Char :=
  (if value < 0 then ['-'] else []) ++
    if awk.Whole value then Nat.toDigits 10 value.num.natAbs
    else general 5 (scientific 5 |value|)

/-! ### Printed numbers are read back -/

/-- The digits behind the point with one more of them. -/
theorem decimalValue_zero (whole frac : List Char) :
    decimalValue whole (frac ++ ['0']) = decimalValue whole frac := by
  -- The digits are multiplied by ten, and the unit is divided by it.
  have digits : Nat.ofDigitChars 10 (whole ++ (frac ++ ['0'])) 0 =
      10 * Nat.ofDigitChars 10 (whole ++ frac) 0 := by
    rw [← List.append_assoc, Nat.ofDigitChars_append, Nat.ofDigitChars_cons, Nat.ofDigitChars_nil]
    rfl
  have length : (-((frac ++ ['0']).length : ℤ)) = -(frac.length : ℤ) - 1 := by
    rw [List.length_append, List.length_singleton]
    push_cast
    ring
  rw [decimalValue, decimalValue, digits, length, zpow_sub_one₀ (by norm_num)]
  push_cast
  ring

/-- Zeros at the end do not change the value. -/
theorem decimalValue_stripZeros (whole frac : List Char) :
    decimalValue whole (stripZeros frac) = decimalValue whole frac := by
  -- One zero after the other is dropped from the end.
  induction frac using List.reverseRecOn with
  | nil => rfl
  | append_singleton frac last ih =>
    by_cases zero : last = '0'
    · subst zero
      have stripped : stripZeros (frac ++ ['0']) = stripZeros frac := by simp [stripZeros]
      rw [stripped, ih, decimalValue_zero]
    · have kept : stripZeros (frac ++ [last]) = frac ++ [last] := by simp [stripZeros, zero]
      rw [kept]

/-- Stripping leaves digits. -/
theorem stripZeros_digits {frac : List Char} (digits : ∀ char ∈ frac, char.isDigit) :
    ∀ char ∈ stripZeros frac, char.isDigit := fun char member =>
  digits char (List.mem_reverse.mp
    ((List.dropWhile_suffix _).mem (List.mem_reverse.mp member)))

section Reading

variable {digits tail : List Char}

/-- Digits are taken up to a character that is none. -/
theorem takeWhile_digits (all : ∀ char ∈ digits, char.isDigit)
    (stops : ∀ char ∈ tail.head?, char.isDigit = false) :
    (digits ++ tail).takeWhile Char.isDigit = digits := by
  -- The character behind the digits stops them.
  rw [List.takeWhile_append_of_pos all]
  cases tail with
  | nil => simp
  | cons char tail => simp [stops char rfl]

/-- Digits are dropped up to a character that is none. -/
theorem dropWhile_digits (all : ∀ char ∈ digits, char.isDigit)
    (stops : ∀ char ∈ tail.head?, char.isDigit = false) :
    (digits ++ tail).dropWhile Char.isDigit = tail := by
  rw [List.dropWhile_append_of_pos all, dropWhile_of_head stops]

/-- The digits around the point are read as the value that they were written for. -/
theorem unsigned_fixed {whole frac : List Char} {power : ℤ} (nonempty : whole ≠ [])
    (wholeDigits : ∀ char ∈ whole, char.isDigit) (fracDigits : ∀ char ∈ frac, char.isDigit)
    (stops : ∀ char ∈ tail.head?, char.isDigit = false ∧ char ≠ '.')
    (behind : exponent tail = (power, [])) :
    unsigned (fixed whole frac ++ tail) = some (decimalValue whole frac * 10 ^ power, []) := by
  -- Without digits behind the point there is no point either, and the tail follows at once.
  have tailStops : ∀ char ∈ tail.head?, char.isDigit = false :=
    fun char first => (stops char first).1
  rw [← decimalValue_stripZeros, fixed]
  by_cases bare : stripZeros frac = []
  · have noPoint : fraction tail = ([], tail) := by
      rw [fraction.eq_def]
      split
      · exact absurd rfl (stops '.' rfl).2
      · rfl
    rw [if_pos bare, List.append_nil, bare]
    simp only [unsigned, takeWhile_digits wholeDigits tailStops,
      dropWhile_digits wholeDigits tailStops, noPoint, nonempty, false_and, if_false, behind]
  · have fracDigits := stripZeros_digits fracDigits
    have pointStops : ∀ char ∈ ('.' :: (stripZeros frac ++ tail)).head?, char.isDigit = false := by
      intro char first
      exact Option.some.inj first ▸ rfl
    have point : fraction ('.' :: (stripZeros frac ++ tail)) = (stripZeros frac, tail) := by
      rw [fraction, takeWhile_digits fracDigits tailStops, dropWhile_digits fracDigits tailStops]
    simp only [if_neg bare, List.append_assoc, List.cons_append, unsigned,
      takeWhile_digits wholeDigits pointStops, dropWhile_digits wholeDigits pointStops, point,
      nonempty, false_and, if_false, behind]

/-- The digits of a whole number. -/
theorem isDigit_toDigits (value : ℕ) : ∀ char ∈ Nat.toDigits 10 value, char.isDigit :=
  fun _ member => Nat.isDigit_of_mem_toDigits (by omega) (by omega) member

/-- A printed exponent is read as itself. -/
theorem exponent_exponentText (power : ℤ) : exponent (exponentText power) = (power, []) := by
  -- A zero in front of the digits does not count.
  have padded : ∃ digits, (if (Nat.toDigits 10 power.natAbs).length < 2 then
      '0' :: Nat.toDigits 10 power.natAbs else Nat.toDigits 10 power.natAbs) = digits ∧
      digits ≠ [] ∧ (∀ char ∈ digits, char.isDigit) ∧
        Nat.ofDigitChars 10 digits 0 = power.natAbs := by
    refine ⟨_, rfl, ?_⟩
    split
    · refine ⟨List.cons_ne_nil _ _, List.forall_mem_cons.mpr ⟨rfl, isDigit_toDigits _⟩, ?_⟩
      rw [Nat.ofDigitChars_cons]
      exact Nat.ofDigitChars_ten_toDigits
    · exact ⟨Nat.toDigits_ne_nil, isDigit_toDigits _, Nat.ofDigitChars_ten_toDigits⟩
  obtain ⟨digits, text, nonempty, all, value⟩ := padded
  have stops : ∀ char ∈ ([] : List Char).head?, char.isDigit = false := by simp
  have taken := takeWhile_digits all stops
  have dropped := dropWhile_digits all stops
  rw [List.append_nil] at taken dropped
  rw [exponentText, text]
  by_cases negative : power < 0
  · rw [if_pos negative]
    simp only [exponent, sign, taken, dropped, value, if_true]
    rw [Int.ofNat_natAbs_of_nonpos negative.le, neg_neg]
    exact if_pos ⟨.inl trivial, nonempty⟩
  · rw [if_neg negative]
    simp only [exponent, sign, taken, dropped, value, Bool.false_eq_true, if_false]
    rw [Int.natAbs_of_nonneg (not_lt.mp negative)]
    exact if_pos ⟨.inl trivial, nonempty⟩

end Reading

/-- A number is read from its digits around the point as far as they go. -/
theorem leading_of_unsigned {text rest : List Char} {value : ℚ}
    (first : ∀ char ∈ text.head?, char.isDigit) (found : unsigned text = some (value, rest)) :
    leading text = some (value, rest) := by
  -- A digit is neither a blank nor a sign.
  have solid : ∀ char ∈ text.head?, isBlank char = false := by
    intro char head
    have digit := first char head
    by_contra blank
    rw [Bool.not_eq_false, isBlank, Bool.or_eq_true, decide_eq_true_eq, decide_eq_true_eq] at blank
    rcases blank with same | same <;> subst same <;> exact absurd digit (by decide)
  have noSign : sign text = (false, text) := by
    rw [sign.eq_def]
    split
    · exact absurd (first '-' rfl) (by decide)
    · exact absurd (first '+' rfl) (by decide)
    · rfl
  rw [leading, dropWhile_of_head solid, noSign]
  simp only [found, Option.map_some, Bool.false_eq_true, if_false]

/-- The digits of a number below the next power of ten. -/
theorem length_digits {places digits : ℕ} (low : 10 ^ places ≤ digits)
    (high : digits < 10 ^ (places + 1)) : (Nat.toDigits 10 digits).length = places + 1 := by
  -- Fewer digits would stay below the power of ten.
  have atMost := (@Nat.length_toDigits_le_iff 10 digits (places + 1) (by omega) (by omega)).mpr high
  refine Nat.le_antisymm atMost ?_
  cases places with
  | zero => exact Nat.length_toDigits_pos
  | succ places =>
    by_contra short
    have below := (@Nat.length_toDigits_le_iff 10 digits (places + 1) (by omega) (by omega)).mp
      (by omega)
    omega

/-- Digits around a point that is moved to the end of them. -/
theorem decimalValue_split {digits : List Char} (point : ℕ) (inside : point ≤ digits.length) :
    decimalValue (digits.take point) (digits.drop point) =
      Nat.ofDigitChars 10 digits 0 * 10 ^ ((point : ℤ) - digits.length) := by
  -- The digits are the same, and those behind the point count down from the unit.
  rw [decimalValue, List.take_append_drop, List.length_drop]
  congr 2
  omega

/-- Some text in front of a tail shows a value with digits around a point. -/
structure Shows (text tail : List Char) (value : ℚ) (whole frac : List Char) : Prop where
  text_eq : text = fixed whole frac ++ tail
  nonempty : whole ≠ []
  wholeDigits : ∀ char ∈ whole, char.isDigit
  fracDigits : ∀ char ∈ frac, char.isDigit
  value_eq : decimalValue whole frac = value

/-- Digits and what follows them are read as the number that they show. -/
theorem Shows.leading_eq {text tail whole frac : List Char} {value : ℚ} {power : ℤ}
    (shows : Shows text tail value whole frac)
    (ends : ∀ char ∈ tail.head?, char.isDigit = false ∧ char ≠ '.')
    (behind : exponent tail = (power, [])) : leading text = some (value * 10 ^ power, []) := by
  -- The text begins with a digit of the whole part.
  have first : ∀ char ∈ text.head?, char.isDigit := by
    intro char head
    refine shows.wholeDigits char ?_
    obtain ⟨first, rest, whole_eq⟩ := List.exists_cons_of_ne_nil shows.nonempty
    rw [shows.text_eq, fixed, whole_eq, List.append_assoc, List.cons_append, List.head?_cons,
      Option.mem_some] at head
    rw [whole_eq, ← head]
    exact List.mem_cons_self
  rw [← shows.value_eq]
  refine leading_of_unsigned first ?_
  rw [shows.text_eq]
  exact unsigned_fixed shows.nonempty shows.wholeDigits shows.fracDigits ends behind

/-- The digits of a number with the point behind some of them. -/
theorem split_shows {places digits : ℕ} (low : 10 ^ places ≤ digits)
    (high : digits < 10 ^ (places + 1)) {point : ℕ} (inside : point ≤ places) (tail : List Char) :
    Shows (fixed ((Nat.toDigits 10 digits).take (point + 1))
        ((Nat.toDigits 10 digits).drop (point + 1)) ++ tail) tail
      (digits * 10 ^ ((point : ℤ) - places)) ((Nat.toDigits 10 digits).take (point + 1))
      ((Nat.toDigits 10 digits).drop (point + 1)) where
  text_eq := rfl
  nonempty := by
    rw [← List.length_pos_iff, List.length_take, length_digits low high]
    omega
  wholeDigits := fun char member => isDigit_toDigits digits char (List.mem_of_mem_take member)
  fracDigits := fun char member => isDigit_toDigits digits char (List.mem_of_mem_drop member)
  value_eq := by
    -- The number has one digit more than its highest power of ten.
    have length := length_digits low high
    have unit : ((point + 1 : ℕ) : ℤ) - ((places + 1 : ℕ) : ℤ) = point - places := by omega
    rw [decimalValue_split _ (by omega), Nat.ofDigitChars_ten_toDigits, length, unit]

/-- The digits of a number behind the point and some zeros. -/
theorem padded_shows {places digits : ℕ} (low : 10 ^ places ≤ digits)
    (high : digits < 10 ^ (places + 1)) (zeros : ℕ) :
    Shows (fixed ['0'] (List.replicate zeros '0' ++ Nat.toDigits 10 digits)) []
      (digits * 10 ^ (-(zeros : ℤ) - 1 - places)) ['0']
      (List.replicate zeros '0' ++ Nat.toDigits 10 digits) where
  text_eq := (List.append_nil _).symm
  nonempty := List.cons_ne_nil _ _
  wholeDigits := by simp
  fracDigits := List.forall_mem_append.mpr
    ⟨fun char member => List.eq_of_mem_replicate member ▸ rfl, isDigit_toDigits digits⟩
  value_eq := by
    -- The zeros only move the point.
    have value : Nat.ofDigitChars 10 (['0'] ++ (List.replicate zeros '0' ++
        Nat.toDigits 10 digits)) 0 = digits := by
      have none : Nat.ofDigitChars 10 ['0'] 0 = 0 := rfl
      rw [Nat.ofDigitChars_append, Nat.ofDigitChars_append, none, Nat.ofDigitChars_replicate_zero,
        Nat.mul_zero, Nat.ofDigitChars_ten_toDigits]
    have unit : -(((List.replicate zeros '0' ++ Nat.toDigits 10 digits).length : ℕ) : ℤ) =
        -(zeros : ℤ) - 1 - places := by
      rw [List.length_append, List.length_replicate, length_digits low high]
      omega
    rw [decimalValue, value, unit]

/-- A number in scientific notation is shown in full, or divided by a power of ten that follows. -/
theorem general_shows {places : ℕ} {number : Scientific} (low : 10 ^ places ≤ number.digits)
    (high : number.digits < 10 ^ (places + 1)) : ∃ whole frac,
    (-4 ≤ number.exponent ∧ number.exponent ≤ places ∧
      Shows (general places number) [] (number.value places) whole frac) ∨
    (¬(-4 ≤ number.exponent ∧ number.exponent ≤ places) ∧
      Shows (general places number) (exponentText number.exponent)
        (number.digits * 10 ^ (-(places : ℤ))) whole frac) := by
  -- The three layouts differ in where the point is put among the digits.
  by_cases small : -4 ≤ number.exponent ∧ number.exponent < 0
  · have shows := padded_shows low high (number.exponent.natAbs - 1)
    have unit : -((number.exponent.natAbs - 1 : ℕ) : ℤ) - 1 - places =
        number.exponent - places := by omega
    rw [unit] at shows
    rw [general, if_pos small]
    exact ⟨_, _, .inl ⟨small.1, by omega, shows⟩⟩
  · by_cases middle : 0 ≤ number.exponent ∧ number.exponent ≤ places
    · have shows := @split_shows _ _ low high number.exponent.toNat (by omega) []
      rw [List.append_nil, Int.toNat_of_nonneg middle.1] at shows
      rw [general, if_neg small, if_pos middle]
      exact ⟨_, _, .inl ⟨by omega, middle.2, shows⟩⟩
    · have shows := @split_shows _ _ low high 0 (Nat.zero_le _) (exponentText number.exponent)
      rw [Nat.cast_zero, zero_sub] at shows
      rw [general, if_neg small, if_neg middle]
      exact ⟨_, _, .inr ⟨by omega, shows⟩⟩

/-- A printed number in scientific notation is read as the number. -/
theorem leading_general {places : ℕ} {number : Scientific} (low : 10 ^ places ≤ number.digits)
    (high : number.digits < 10 ^ (places + 1)) :
    leading (general places number) = some (number.value places, []) := by
  -- An exponent moves the point back to where the unit has it.
  obtain ⟨whole, frac, inFull | divided⟩ := general_shows low high
  · obtain ⟨-, -, inFull⟩ := inFull
    have read := inFull.leading_eq (by simp) (show exponent [] = (0, []) from rfl)
    rwa [zpow_zero, mul_one] at read
  · have ends : ∀ char ∈ (exponentText number.exponent).head?,
        char.isDigit = false ∧ char ≠ '.' := by
      intro char first
      exact Option.some.inj first ▸ by decide
    have read := divided.2.leading_eq ends (exponent_exponentText _)
    rw [read, Scientific.value, mul_assoc, ← zpow_add₀ (by norm_num)]
    congr 4
    omega

/-! ### What is shown of a number -/

/-- The number that the text of another one stands for. -/
def shown (value : ℚ) : ℚ := if awk.Whole value then value else significant 10 5 value

/-- The text of a number has no exponent. -/
def Plain (value : ℚ) : Prop :=
  awk.Whole value ∨ (0.00009999995 ≤ value ∧ value < 999999.5)

/-- The factor by which the text of a number can be off. -/
def textFactor : ℚ := 1 + 1 / 200000

theorem one_le_textFactor : 1 ≤ textFactor := by
  norm_num [textFactor]

section Texts

variable {awk} {value : ℚ}

/-- A whole number that is not negative is a natural number. -/
theorem natAbs_num (nonneg : 0 ≤ value) (whole : value.isInt) : (value.num.natAbs : ℚ) = value := by
  -- A whole number is its numerator over one.
  have fraction : value.den = 1 := by simpa [Rat.isInt] using whole
  have natAbs : ((value.num.natAbs : ℤ) : ℚ) = value.num := by
    rw [Int.natAbs_of_nonneg (Rat.num_nonneg.mpr nonneg)]
  rw [← Int.cast_natCast, natAbs]
  exact Rat.coe_int_num_of_den_eq_one fraction

/-- A number that is not printed as a whole one is positive when it is not negative. -/
theorem pos_of_not_whole (nonneg : 0 ≤ value) (other : ¬awk.Whole value) : 0 < value := by
  -- Zero is below every limit.
  refine lt_of_le_of_ne nonneg fun zero => other ?_
  rw [← zero]
  exact ⟨rfl, by simpa using awk.positive⟩

/-- The text of a number that is not negative. -/
theorem numberText_of_nonneg (nonneg : 0 ≤ value) : numberText awk value =
    if awk.Whole value then Nat.toDigits 10 value.num.natAbs
    else general 5 (scientific 5 value) := by
  rw [numberText, if_neg (not_lt.mpr nonneg), List.nil_append, abs_of_nonneg nonneg]

/-- The digits of a whole number show it. -/
theorem toDigits_shows (number : ℕ) :
    Shows (Nat.toDigits 10 number) [] number (Nat.toDigits 10 number) [] where
  text_eq := by simp [fixed, stripZeros]
  nonempty := Nat.toDigits_ne_nil
  wholeDigits := isDigit_toDigits number
  fracDigits := by simp
  value_eq := by simp [decimalValue]

/-- The text of a number is read as what is shown of it. -/
theorem leading_numberText (nonneg : 0 ≤ value) :
    leading (numberText awk value) = some (shown awk value, []) := by
  rw [numberText_of_nonneg nonneg, shown]
  -- Whole numbers are printed in full, and the others with six digits.
  by_cases whole : awk.Whole value
  · have read := (toDigits_shows value.num.natAbs).leading_eq (by simp)
      (show exponent [] = (0, []) from rfl)
    rw [zpow_zero, mul_one, natAbs_num nonneg whole.1] at read
    rw [if_pos whole, if_pos whole, read]
  · obtain ⟨low, high⟩ := @scientific_digits 5 value (pos_of_not_whole nonneg whole)
    rw [if_neg whole, if_neg whole, leading_general low high, scientific_value]

/-- The exponent of a fraction is small exactly when its text has no exponent. -/
theorem plain_iff_exponent (nonneg : 0 ≤ value) (other : ¬awk.Whole value) :
    Plain awk value ↔
      -4 ≤ (scientific 5 value).exponent ∧ (scientific 5 value).exponent ≤ (5 : ℕ) := by
  -- The bounds are half a unit in front of the powers of ten.
  have positive := pos_of_not_whole nonneg other
  have low := @scientific_exponent_lt_iff 5 value positive (-4)
  have high := @scientific_exponent_lt_iff 5 value positive 6
  norm_num at low high
  rw [Plain, or_iff_right other]
  norm_num
  rw [← not_lt, ← low, ← high]
  omega

/-- The text of a plain number is digits around a point. -/
theorem numberText_plain (nonneg : 0 ≤ value) (plain : Plain awk value) :
    ∃ whole frac, Shows (numberText awk value) [] (shown awk value) whole frac := by
  rw [numberText_of_nonneg nonneg, shown]
  -- Only a number that is very small or very large would have an exponent.
  by_cases whole : awk.Whole value
  · have digits := toDigits_shows value.num.natAbs
    rw [natAbs_num nonneg whole.1] at digits
    rw [if_pos whole, if_pos whole]
    exact ⟨_, _, digits⟩
  · obtain ⟨low, high⟩ := @scientific_digits 5 value (pos_of_not_whole nonneg whole)
    obtain ⟨whole', frac, inFull | divided⟩ := general_shows low high
    · rw [if_neg whole, if_neg whole, ← scientific_value]
      exact ⟨_, _, inFull.2.2⟩
    · exact absurd ((plain_iff_exponent nonneg whole).mp plain) divided.1

/-- The text of any other number has an exponent. -/
theorem numberText_exponent (nonneg : 0 ≤ value) (notPlain : ¬Plain awk value) :
    'e' ∈ numberText awk value := by
  -- A number that is not plain is not printed as a whole one.
  have other : ¬awk.Whole value := fun whole => notPlain (.inl whole)
  obtain ⟨low, high⟩ := @scientific_digits 5 value (pos_of_not_whole nonneg other)
  obtain ⟨whole, frac, inFull | divided⟩ := general_shows low high
  · exact absurd ((plain_iff_exponent nonneg other).mpr ⟨inFull.1, inFull.2.1⟩) notPlain
  · rw [numberText_of_nonneg nonneg, if_neg other, divided.2.text_eq]
    exact List.mem_append_right _ List.mem_cons_self

/-- What is shown of a number differs from it by half a unit of the sixth digit at most. -/
theorem near_shown (nonneg : 0 ≤ value) : Near textFactor (shown awk value) value := by
  -- Whole numbers are shown as they are; the others are rounded to six digits.
  rw [shown]
  split
  · exact near_refl one_le_textFactor nonneg
  · have factor : (1 : ℚ) + 1 / (2 * ((10 : ℕ) : ℚ) ^ 5) = textFactor := by norm_num [textFactor]
    rw [← factor]
    exact near_significant (by omega) nonneg

/-- A positive number is shown as a positive one. -/
theorem shown_pos (positive : 0 < value) : 0 < shown awk value :=
  (near_shown positive.le).pos (zero_le_one.trans one_le_textFactor) positive

/-- What is shown of a number that is not negative is not negative. -/
theorem shown_nonneg (nonneg : 0 ≤ value) : 0 ≤ shown awk value := by
  have factor : 0 < textFactor := zero_lt_one.trans_le one_le_textFactor
  exact nonneg_of_mul_nonneg_right (nonneg.trans (near_shown nonneg).2) factor

/-- The text of a number is used as what is shown of it. -/
theorem number_numberText (nonneg : 0 ≤ value) :
    number (numberText awk value) = shown awk value := by
  rw [number, leading_numberText nonneg]
  rfl

/-- The text of a positive number is positive. -/
theorem isPositive_numberText (positive : 0 < value) : isPositive (numberText awk value) := by
  -- The whole text is a number, so that awk compares numbers and no text.
  have numbers : looksNumeric (numberText awk value) := by
    rw [looksNumeric, leading_numberText positive.le]
    rfl
  rw [isPositive, if_pos numbers, numeric, number_numberText positive.le]
  exact decide_eq_true (double_pos (shown_pos positive))

/-- There are no other characters in the text of a number. -/
theorem numberText_chars (nonneg : 0 ≤ value) :
    ∀ char ∈ numberText awk value, char.isDigit ∨ char ∈ ['.', 'e', '+', '-'] := by
  -- The digits are those of the number, and the exponent brings in a letter and a sign.
  have inFixed {whole frac : List Char} (wholeDigits : ∀ char ∈ whole, char.isDigit)
      (fracDigits : ∀ char ∈ frac, char.isDigit) :
      ∀ char ∈ fixed whole frac, char.isDigit ∨ char ∈ ['.', 'e', '+', '-'] := by
    intro char member
    rw [fixed] at member
    rcases List.mem_append.mp member with front | behind
    · exact .inl (wholeDigits char front)
    · split at behind
      · exact absurd behind List.not_mem_nil
      · rcases List.mem_cons.mp behind with point | digit
        · exact .inr (by rw [point]; exact List.mem_cons_self)
        · exact .inl (stripZeros_digits fracDigits char digit)
  have inExponent (power : ℤ) :
      ∀ char ∈ exponentText power, char.isDigit ∨ char ∈ ['.', 'e', '+', '-'] := by
    have digits : ∀ char ∈ (if (Nat.toDigits 10 power.natAbs).length < 2 then
        '0' :: Nat.toDigits 10 power.natAbs else Nat.toDigits 10 power.natAbs), char.isDigit := by
      split
      · exact List.forall_mem_cons.mpr ⟨rfl, isDigit_toDigits _⟩
      · exact isDigit_toDigits _
    rw [exponentText, List.forall_mem_cons, List.forall_mem_cons]
    refine ⟨by simp, ?_, fun char member => .inl (digits char member)⟩
    split <;> simp
  rw [numberText_of_nonneg nonneg]
  split
  · exact fun char member => .inl (isDigit_toDigits _ char member)
  · rename_i other
    obtain ⟨low, high⟩ := @scientific_digits 5 value (pos_of_not_whole nonneg other)
    obtain ⟨whole, frac, inFull | divided⟩ := general_shows low high
    · obtain ⟨-, -, shows⟩ := inFull
      rw [shows.text_eq, List.append_nil]
      exact inFixed shows.wholeDigits shows.fracDigits
    · obtain ⟨-, shows⟩ := divided
      rw [shows.text_eq, List.forall_mem_append]
      exact ⟨inFixed shows.wholeDigits shows.fracDigits, inExponent _⟩

end Texts

end AivenExamples.AwkNumber

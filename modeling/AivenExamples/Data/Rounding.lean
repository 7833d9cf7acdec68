import Mathlib.Algebra.Order.Field.Power
import Mathlib.Data.Int.Log
import Mathlib.Data.Rat.Floor
import Mathlib.Tactic.FieldSimp
import Mathlib.Tactic.Linarith
import Mathlib.Tactic.NormNum
import Mathlib.Tactic.Positivity
import Mathlib.Tactic.Ring

/-! Positive numbers rounded to a number of digits, where a tie goes to the even digit. -/

namespace AivenExamples.Rounding

/-! ### Rounding to whole numbers -/

/-- The whole number next to a number, and of two of them the even one. -/
def roundEven (value : ℚ) : ℕ :=
  let low := ⌊value⌋₊
  if value < low + 1 / 2 ∨ (value = low + 1 / 2 ∧ low % 2 = 0) then low else low + 1

section Whole

variable {value : ℚ}

/-- Rounding moves a number by a half at most. -/
theorem abs_roundEven_sub (nonneg : 0 ≤ value) : |(roundEven value : ℚ) - value| ≤ 1 / 2 := by
  -- The number is at most a half away from the whole number that is chosen.
  have low := Nat.floor_le nonneg
  have high := Nat.lt_floor_add_one value
  rw [roundEven, abs_le]
  split
  · rename_i down
    have upper : value ≤ ⌊value⌋₊ + 1 / 2 := by
      rcases down with less | tie
      · exact less.le
      · exact tie.1.le
    constructor <;> linarith
  · rename_i up
    rw [not_or, not_lt] at up
    push_cast
    constructor <;> linarith [up.1]

/-- A whole number below a number is below the rounded one. -/
theorem le_roundEven {bound : ℕ} (below : (bound : ℚ) ≤ value) : bound ≤ roundEven value := by
  have low := Nat.le_floor below
  rw [roundEven]
  split <;> omega

/-- A whole number above a number is above the rounded one. -/
theorem roundEven_le {bound : ℕ} (nonneg : 0 ≤ value) (above : value ≤ bound) :
    roundEven value ≤ bound := by
  have low := Nat.floor_le nonneg
  have atMost : ⌊value⌋₊ ≤ bound := by exact_mod_cast low.trans above
  rw [roundEven]
  split
  · exact atMost
  · rename_i up
    rw [not_or, not_lt] at up
    -- Nothing is between the whole part and the number when that is the bound.
    refine Nat.lt_of_le_of_ne atMost fun same => ?_
    rw [same] at up
    linarith [up.1]

/-- Rounding reaches a whole number from the half below it when the number before it is odd. -/
theorem le_roundEven_iff {bound : ℕ} (nonneg : 0 ≤ value) (odd : bound % 2 = 1) :
    bound + 1 ≤ roundEven value ↔ (bound : ℚ) + 1 / 2 ≤ value := by
  -- The whole part is the bound itself, or the other halves are far away.
  have low := Nat.floor_le nonneg
  have high := Nat.lt_floor_add_one value
  rcases Nat.lt_trichotomy ⌊value⌋₊ bound with less | same | more
  · have below : (⌊value⌋₊ : ℚ) + 1 ≤ bound := by exact_mod_cast less
    have small : roundEven value ≤ bound := by
      rw [roundEven]
      split <;> omega
    constructor
    · intro reached
      omega
    · intro reached
      linarith
  · have notEven : bound % 2 ≠ 0 := by omega
    rw [roundEven, same]
    simp only [notEven, and_false, or_false]
    split
    · rename_i down
      constructor
      · intro reached
        omega
      · intro reached
        linarith
    · rename_i up
      exact ⟨fun _ => not_lt.mp up, fun _ => Nat.le_refl _⟩
  · have above : (bound : ℚ) + 1 ≤ ⌊value⌋₊ := by exact_mod_cast more
    have large : bound + 1 ≤ roundEven value := by
      rw [roundEven]
      split <;> omega
    exact ⟨fun _ => by linarith, fun _ => large⟩

/-- A whole number stays as it is. -/
theorem roundEven_natCast (whole : ℕ) : roundEven whole = whole := by
  rw [roundEven, Nat.floor_natCast, if_pos (.inl (by linarith))]

end Whole

/-! ### Numbers near each other -/

/-- Neither of two numbers is larger than the other by more than a factor. -/
def Near (factor left right : ℚ) : Prop := left ≤ factor * right ∧ right ≤ factor * left

section Near

variable {factor other left right : ℚ}

/-- A number is near to itself. -/
theorem near_refl (large : 1 ≤ factor) (nonneg : 0 ≤ left) : Near factor left left :=
  ⟨le_mul_of_one_le_left nonneg large, le_mul_of_one_le_left nonneg large⟩

/-- A larger factor allows for more. -/
theorem Near.mono (near : Near factor left right) (larger : factor ≤ other) (leftNonneg : 0 ≤ left)
    (rightNonneg : 0 ≤ right) : Near other left right :=
  ⟨near.1.trans (mul_le_mul_of_nonneg_right larger rightNonneg),
    near.2.trans (mul_le_mul_of_nonneg_right larger leftNonneg)⟩

/-- Over a number in between the factors are multiplied. -/
theorem Near.trans {middle : ℚ} (first : Near factor left middle) (second : Near other middle right)
    (factorNonneg : 0 ≤ factor) (otherNonneg : 0 ≤ other) : Near (factor * other) left right := by
  -- From either side one factor is used after the other.
  constructor
  · calc left ≤ factor * middle := first.1
      _ ≤ factor * (other * right) := mul_le_mul_of_nonneg_left second.1 factorNonneg
      _ = factor * other * right := (mul_assoc _ _ _).symm
  · calc right ≤ other * middle := second.2
      _ ≤ other * (factor * left) := mul_le_mul_of_nonneg_left first.2 otherNonneg
      _ = factor * other * left := by ring

/-- Sums are as near as their summands. -/
theorem Near.add {more most : ℚ} (first : Near factor left right) (second : Near factor more most) :
    Near factor (left + more) (right + most) := by
  -- Both bounds distribute over the sum.
  constructor
  · rw [mul_add]
    exact add_le_add first.1 second.1
  · rw [mul_add]
    exact add_le_add first.2 second.2

/-- In a product the factors of its two parts are multiplied. -/
theorem Near.mul {more most : ℚ} (first : Near factor left right) (second : Near other more most)
    (factorNonneg : 0 ≤ factor) (leftNonneg : 0 ≤ left) (rightNonneg : 0 ≤ right)
    (moreNonneg : 0 ≤ more) (mostNonneg : 0 ≤ most) :
    Near (factor * other) (left * more) (right * most) := by
  -- Nothing is negative, so that the bounds can be multiplied.
  constructor
  · calc left * more ≤ factor * right * (other * most) :=
          mul_le_mul first.1 second.1 moreNonneg (mul_nonneg factorNonneg rightNonneg)
      _ = factor * other * (right * most) := by ring
  · calc right * most ≤ factor * left * (other * more) :=
          mul_le_mul first.2 second.2 mostNonneg (mul_nonneg factorNonneg leftNonneg)
      _ = factor * other * (left * more) := by ring

/-- The inverses of two positive numbers are as near as these. -/
theorem Near.inv (near : Near factor left right) (leftPositive : 0 < left)
    (rightPositive : 0 < right) : Near factor left⁻¹ right⁻¹ := by
  -- Taking inverses exchanges the two bounds.
  constructor
  · rw [inv_le_iff_one_le_mul₀ leftPositive, mul_right_comm, ← div_eq_mul_inv,
      one_le_div rightPositive]
    exact near.2
  · rw [inv_le_iff_one_le_mul₀ rightPositive, mul_right_comm, ← div_eq_mul_inv,
      one_le_div leftPositive]
    exact near.1

/-- A number near to a positive one is positive. -/
theorem Near.pos (near : Near factor left right) (factorNonneg : 0 ≤ factor)
    (positive : 0 < right) : 0 < left := by
  -- Otherwise the factor would not make it large enough.
  by_contra notPositive
  have most := mul_nonpos_of_nonneg_of_nonpos factorNonneg (not_lt.mp notPositive)
  linarith [near.2]

end Near

/-! ### Rounding to significant digits -/

/-- A number rounded to its first digit and some places behind it, in a system of some base. -/
def significant (base places : ℕ) (value : ℚ) : ℚ :=
  roundEven (value / (base : ℚ) ^ (Int.log base value - places)) *
    (base : ℚ) ^ (Int.log base value - places)

section Base

variable {base places : ℕ} {value : ℚ}

/-- The number between its first digit and the next power of the base. -/
theorem scaled_bounds (large : 1 < base) (positive : 0 < value) :
    (base : ℚ) ^ places ≤ value / (base : ℚ) ^ (Int.log base value - places) ∧
      value / (base : ℚ) ^ (Int.log base value - places) < (base : ℚ) ^ (places + 1) := by
  -- Both powers are divided by the unit of the last digit.
  have low := Int.zpow_log_le_self large positive
  have high := Int.lt_zpow_succ_log_self large value
  have some : (0 : ℚ) < base := by exact_mod_cast (by omega : 0 < base)
  have unit : (0 : ℚ) < (base : ℚ) ^ (Int.log base value - places) := zpow_pos some _
  have first : (places : ℤ) + (Int.log base value - places) = Int.log base value := by omega
  have next : ((places + 1 : ℕ) : ℤ) + (Int.log base value - places) =
      Int.log base value + 1 := by
    push_cast
    omega
  rw [le_div_iff₀ unit, div_lt_iff₀ unit, ← zpow_natCast, ← zpow_natCast,
    ← zpow_add₀ some.ne', ← zpow_add₀ some.ne', first, next]
  exact ⟨low, high⟩

/-- A number that is whole in units of its last digit stays as it is. -/
theorem significant_of_whole (whole : ℕ) (large : 1 < base)
    (same : value = whole * (base : ℚ) ^ (Int.log base value - places)) :
    significant base places value = value := by
  have some : (0 : ℚ) < base := by exact_mod_cast (by omega : 0 < base)
  have unit : (base : ℚ) ^ (Int.log base value - places) ≠ 0 := (zpow_pos some _).ne'
  -- In units of its last digit there is nothing to round.
  have scaled : value / (base : ℚ) ^ (Int.log base value - places) = whole :=
    (div_eq_iff unit).mpr same
  rw [significant, scaled, roundEven_natCast, ← same]

/-- Rounding leaves a number as near as half a unit is to the smallest one with a first digit. -/
theorem near_significant (large : 1 < base) (nonneg : 0 ≤ value) :
    Near (1 + 1 / (2 * (base : ℚ) ^ places)) (significant base places value) value := by
  have some : (0 : ℚ) < base := by exact_mod_cast (by omega : 0 < base)
  rcases nonneg.eq_or_lt with zero | positive
  · subst zero
    have still : significant base places 0 = 0 :=
      significant_of_whole 0 large (by simp)
    rw [still]
    simp [Near]
  · obtain ⟨low, -⟩ := @scaled_bounds base places value large positive
    have unit : (0 : ℚ) < (base : ℚ) ^ (Int.log base value - places) := zpow_pos some _
    have scaled := div_mul_cancel₀ value unit.ne'
    rw [significant]
    generalize value / (base : ℚ) ^ (Int.log base value - places) = quotient at low scaled ⊢
    generalize (base : ℚ) ^ (Int.log base value - places) = step at unit scaled ⊢
    have count : (0 : ℚ) < (base : ℚ) ^ places := pow_pos some _
    have moved := abs_le.mp (abs_roundEven_sub (count.le.trans low))
    have rounded : (base : ℚ) ^ places ≤ roundEven quotient := by
      have whole : ((base ^ places : ℕ) : ℚ) ≤ quotient := by exact_mod_cast low
      exact_mod_cast le_roundEven whole
    -- A half is that part of the quotient, and of the rounded one, since both have a first digit.
    have half {large : ℚ} (atLeast : (base : ℚ) ^ places ≤ large) :
        1 / 2 ≤ 1 / (2 * (base : ℚ) ^ places) * large := by
      rw [div_mul_eq_mul_div, one_mul, div_le_div_iff₀ (by norm_num) (by positivity)]
      linarith
    rw [← scaled]
    constructor
    · rw [← mul_assoc]
      refine mul_le_mul_of_nonneg_right ?_ unit.le
      linarith [half low, moved.2]
    · rw [← mul_assoc]
      refine mul_le_mul_of_nonneg_right ?_ unit.le
      linarith [half rounded, moved.1]

end Base

/-! ### Scientific notation -/

/-- A number in scientific notation: its digits as a whole number, and the exponent of the first. -/
structure Scientific where
  digits : ℕ
  exponent : ℤ
  deriving DecidableEq

/-- The number that is written so, with some places behind the first digit. -/
def Scientific.value (places : ℕ) (number : Scientific) : ℚ :=
  number.digits * 10 ^ (number.exponent - places)

/-- A positive number rounded to its first digit and some places behind it. -/
def scientific (places : ℕ) (value : ℚ) : Scientific :=
  let exponent := Int.log 10 value
  let digits := roundEven (value / 10 ^ (exponent - places))
  if digits = 10 ^ (places + 1) then ⟨10 ^ places, exponent + 1⟩ else ⟨digits, exponent⟩

section Significant

variable {places : ℕ} {value : ℚ}

/-- The number between the powers of ten on both of its sides. -/
theorem log_bounds (positive : 0 < value) :
    (10 : ℚ) ^ Int.log 10 value ≤ value ∧ value < (10 : ℚ) ^ (Int.log 10 value + 1) := by
  constructor
  · exact_mod_cast Int.zpow_log_le_self (by omega : 1 < 10) positive
  · exact_mod_cast Int.lt_zpow_succ_log_self (by omega : 1 < 10) value

/-- The number between its first decimal digit and the next power of ten. -/
theorem scaled_bounds_ten (positive : 0 < value) :
    (10 : ℚ) ^ places ≤ value / 10 ^ (Int.log 10 value - places) ∧
      value / 10 ^ (Int.log 10 value - places) < 10 ^ (places + 1) := by
  exact_mod_cast @scaled_bounds 10 places value (by omega) positive

/-- The digits of a rounded number begin with a digit other than zero. -/
theorem scientific_digits (positive : 0 < value) : 10 ^ places ≤ (scientific places value).digits ∧
    (scientific places value).digits < 10 ^ (places + 1) := by
  -- After a carry the digits are the power of ten itself.
  obtain ⟨low, high⟩ := @scaled_bounds_ten places value positive
  have atLeast : 10 ^ places ≤ roundEven (value / 10 ^ (Int.log 10 value - places)) :=
    le_roundEven (by exact_mod_cast low)
  have grows : 10 ^ places < 10 ^ (places + 1) := Nat.pow_lt_pow_right (by omega) (by omega)
  have atMost : roundEven (value / 10 ^ (Int.log 10 value - places)) ≤ 10 ^ (places + 1) :=
    roundEven_le (le_trans (by positivity) low) (by exact_mod_cast high.le)
  rw [scientific]
  split
  · exact ⟨Nat.le_refl _, grows⟩
  · rename_i other
    exact ⟨atLeast, Nat.lt_of_le_of_ne atMost other⟩

/-- What is written is the number rounded to these digits. -/
theorem scientific_value (places : ℕ) (value : ℚ) :
    (scientific places value).value places = significant 10 places value := by
  rw [scientific, significant, Nat.cast_ofNat]
  split
  · rename_i carry
    -- A carry into the next power of ten moves the first digit by one place.
    have next : Int.log 10 value + 1 - places = 1 + (Int.log 10 value - places) := by omega
    rw [Scientific.value, carry, next, zpow_add₀ (by norm_num)]
    push_cast
    ring
  · rfl

/-- Rounding does not carry up to half a unit in front of the next power of ten. -/
theorem scientific_carries_iff (positive : 0 < value) :
    (scientific places value).exponent < Int.log 10 value + 1 ↔
      value < 10 ^ (Int.log 10 value + 1) - 10 ^ (Int.log 10 value - places) / 2 := by
  -- A carry means that the digits reach the power of ten, and these are odd before that.
  obtain ⟨scaledLow, scaledHigh⟩ := @scaled_bounds_ten places value positive
  have nonneg : 0 ≤ value / 10 ^ (Int.log 10 value - places) := le_trans (by positivity) scaledLow
  have count : 10 ^ (places + 1) = 2 * (5 * 10 ^ places) := by ring
  have some : 0 < 10 ^ places := by positivity
  have carries : (scientific places value).exponent < Int.log 10 value + 1 ↔
      ¬10 ^ (places + 1) ≤ roundEven (value / 10 ^ (Int.log 10 value - places)) := by
    have most := roundEven_le nonneg (show _ ≤ ((10 ^ (places + 1) : ℕ) : ℚ) by
      exact_mod_cast scaledHigh.le)
    rw [scientific]
    split
    · simp [*]
    · simp only [lt_add_iff_pos_right, zero_lt_one, true_iff]
      omega
  have odd : 10 ^ (places + 1) - 1 + 1 = 10 ^ (places + 1) := by omega
  have tie := @le_roundEven_iff _ (10 ^ (places + 1) - 1) nonneg (by omega)
  rw [odd, Nat.cast_sub (by omega)] at tie
  have unit : (0 : ℚ) < 10 ^ (Int.log 10 value - places) := by positivity
  have power : (10 : ℚ) ^ (Int.log 10 value + 1) =
      10 ^ (places + 1) * 10 ^ (Int.log 10 value - places) := by
    rw [← zpow_natCast, ← zpow_add₀ (by norm_num)]
    congr 1
    push_cast
    omega
  rw [carries, tie, not_le, div_lt_iff₀ unit, power]
  push_cast
  ring_nf

/-- The exponent stays below a bound up to half a unit in front of the power of ten. -/
theorem scientific_exponent_lt_iff (positive : 0 < value) (bound : ℤ) :
    (scientific places value).exponent < bound ↔
      value < 10 ^ bound - 10 ^ (bound - places - 1) / 2 := by
  obtain ⟨low, high⟩ := log_bounds positive
  have half : (0 : ℚ) < 10 ^ (bound - places - 1) := by positivity
  have exponent : (scientific places value).exponent = Int.log 10 value ∨
      (scientific places value).exponent = Int.log 10 value + 1 := by
    rw [scientific]
    split
    · exact .inr rfl
    · exact .inl rfl
  -- Only the power of ten right above the number can be reached by rounding.
  rcases lt_trichotomy (Int.log 10 value + 1) bound with less | next | more
  · have below : (10 : ℚ) ^ (Int.log 10 value + 1) ≤ 10 ^ (bound - 1) :=
      zpow_le_zpow_right₀ (by norm_num) (by omega)
    have unit : (10 : ℚ) ^ (bound - places - 1) ≤ 10 ^ (bound - 1) :=
      zpow_le_zpow_right₀ (by norm_num) (by omega)
    have tenfold : (10 : ℚ) ^ bound = 10 * 10 ^ (bound - 1) := by
      rw [← zpow_one_add₀ (by norm_num)]
      congr 1
      omega
    exact ⟨fun _ => by linarith, fun _ => by omega⟩
  · subst next
    have last : Int.log 10 value + 1 - places - 1 = Int.log 10 value - places := by omega
    rw [scientific_carries_iff positive, last]
  · have above : (10 : ℚ) ^ bound ≤ 10 ^ Int.log 10 value :=
      zpow_le_zpow_right₀ (by norm_num) (by omega)
    constructor
    · intro reached
      omega
    · intro reached
      linarith

end Significant

end AivenExamples.Rounding

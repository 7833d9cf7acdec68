import AivenExamples.Data.Rounding

/-! Arithmetic in double precision: every result is rounded to a significand of 53 bits. -/

namespace AivenExamples.Rounding

/-- The double next to a number, as long as it is neither too large nor too small for one. -/
def double (value : ℚ) : ℚ :=
  if value < 0 then -significant 2 52 (-value) else significant 2 52 value

/-- The factor by which the double next to a number can be off. -/
def unitFactor : ℚ := 1 + 1 / 2 ^ 53

theorem one_le_unitFactor : 1 ≤ unitFactor := by
  norm_num [unitFactor]

section Double

variable {value : ℚ}

/-- A number that is not negative is rounded to a double near it. -/
theorem near_double (nonneg : 0 ≤ value) : Near unitFactor (double value) value := by
  have near := @near_significant 2 52 value (by omega) nonneg
  -- Half a unit of the last bit is what rounding can be off by.
  have factor : (1 : ℚ) + 1 / (2 * ((2 : ℕ) : ℚ) ^ 52) = unitFactor := by norm_num [unitFactor]
  rw [double, if_neg (not_lt.mpr nonneg), ← factor]
  exact near

/-- A positive number is rounded to a positive one. -/
theorem double_pos (positive : 0 < value) : 0 < double value :=
  (near_double positive.le).pos (zero_le_one.trans one_le_unitFactor) positive

/-- A number that is not negative is rounded to one that is not. -/
theorem double_nonneg (nonneg : 0 ≤ value) : 0 ≤ double value := by
  have near := (near_double nonneg).2
  have factor : 0 < unitFactor := zero_lt_one.trans_le one_le_unitFactor
  exact nonneg_of_mul_nonneg_right (nonneg.trans near) factor

/-- A negative number is rounded to a negative one. -/
theorem double_neg (negative : value < 0) : double value < 0 := by
  have positive : 0 < -value := neg_pos.mpr negative
  -- Negative numbers are rounded as their opposites are.
  have mirrored := double_pos positive
  rw [double, if_neg (not_lt.mpr positive.le)] at mirrored
  rw [double, if_pos negative]
  exact neg_neg_of_pos mirrored

/-- Whole numbers of up to 53 bits are doubles. -/
theorem double_natCast {whole : ℕ} (small : whole ≤ 2 ^ 53) : double whole = whole := by
  rw [double, if_neg (not_lt.mpr (Nat.cast_nonneg whole))]
  rcases Nat.eq_zero_or_pos whole with zero | positive
  · subst zero
    exact significant_of_whole 0 (by omega) (by simp)
  rcases small.eq_or_lt with largest | below
  · -- The largest of them has one bit more, which is a zero.
    have bits : Int.log 2 ((2 ^ 53 : ℕ) : ℚ) - (52 : ℕ) = 1 := by
      rw [Int.log_natCast, Nat.log_pow (by omega)]
      rfl
    refine significant_of_whole (2 ^ 52) (by omega) ?_
    rw [largest, bits]
    norm_num
  · -- The last bit of the others stands for one at most, so that they are whole in units of it.
    have log : Nat.log 2 whole ≤ 52 := Nat.lt_succ_iff.mp (Nat.log_lt_of_lt_pow (by omega) below)
    have bits : Int.log 2 (whole : ℚ) - (52 : ℕ) = -((52 - Nat.log 2 whole : ℕ) : ℤ) := by
      rw [Int.log_natCast]
      omega
    refine significant_of_whole (whole * 2 ^ (52 - Nat.log 2 whole)) (by omega) ?_
    have some : ((2 : ℚ) ^ (52 - Nat.log 2 whole)) ≠ 0 := by positivity
    rw [bits, zpow_neg, zpow_natCast]
    push_cast
    rw [mul_assoc, mul_inv_cancel₀ some, mul_one]

end Double

section Sums

variable {factor : ℚ} {α : Type}

/-- Adding up in double precision is off by one more rounding for each of the summands. -/
theorem near_foldl_double (large : 1 ≤ factor) (summands : List α) (approximate exact : α → ℚ)
    (near : ∀ one ∈ summands, Near factor (approximate one) (exact one))
    (approximateNonneg : ∀ one ∈ summands, 0 ≤ approximate one)
    (exactNonneg : ∀ one ∈ summands, 0 ≤ exact one) :
    0 ≤ summands.foldl (fun sum one => double (sum + approximate one)) 0 ∧
      Near (factor * unitFactor ^ summands.length)
        (summands.foldl (fun sum one => double (sum + approximate one)) 0)
        (summands.map exact).sum := by
  -- The last summand is added to a sum that is as near as all those before allow.
  induction summands using List.reverseRecOn with
  | nil => simp [Near]
  | append_singleton summands last ih =>
    obtain ⟨before, here⟩ := List.forall_mem_append.mp near
    obtain ⟨beforeNonneg, hereNonneg⟩ := List.forall_mem_append.mp approximateNonneg
    obtain ⟨exactBefore, exactHere⟩ := List.forall_mem_append.mp exactNonneg
    obtain ⟨sumNonneg, sumNear⟩ := ih before beforeNonneg exactBefore
    have lastNonneg := hereNonneg last (List.mem_singleton_self _)
    have lastExact := exactHere last (List.mem_singleton_self _)
    have more : 1 ≤ unitFactor ^ summands.length := one_le_pow₀ one_le_unitFactor
    have factorNonneg : 0 ≤ factor := zero_le_one.trans large
    have allNonneg : 0 ≤ (summands.map exact).sum := by
      refine List.sum_nonneg fun value member => ?_
      obtain ⟨one, inside, same⟩ := List.mem_map.mp member
      exact same ▸ exactBefore one inside
    have lastNear := (here last (List.mem_singleton_self _)).mono
      (le_mul_of_one_le_right factorNonneg more) lastNonneg lastExact
    have added := sumNear.add lastNear
    have nonneg := add_nonneg sumNonneg lastNonneg
    rw [List.foldl_append, List.foldl_cons, List.foldl_nil, List.map_append, List.sum_append,
      List.map_singleton, List.sum_singleton, List.length_append, List.length_singleton, pow_succ,
      ← mul_assoc, mul_comm]
    refine ⟨double_nonneg nonneg, (near_double nonneg).trans added
      (zero_le_one.trans one_le_unitFactor) (by positivity)⟩

end Sums

end AivenExamples.Rounding

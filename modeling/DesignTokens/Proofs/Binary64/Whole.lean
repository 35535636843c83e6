import DesignTokens.Binary64.Whole
import DesignTokens.Proofs.Binary64.Nearest

/-!
# Integers and doubles

Every integer below `2 ^ 53` in magnitude is a double, so that rounding does not change it, and no
other integer is rounded to one of these. The cast of a double without a fraction to a signed word is
exact as long as there is a word for it.

* `Binary64.Finite.value`: the value of a double, exactly.
* `Binary64.Finite.beq_iff_value_eq`: doubles are equal exactly if their values are.
* `Binary64.Finite.value_eq_truncated`, `Binary64.Finite.isWhole_of_value_eq`: the doubles without a
  fraction are those whose value is an integer.
* `Binary64.Finite.toInt_toInt64`: the cast of an integer that fits a word is the integer.
* `Binary64.value_of_ofInt`: integers below `2 ^ 53` in magnitude are not rounded.
* `Binary64.units_le_of_ofInt`: rounding an integer does not lead below a double that is not above
  it.
-/

namespace DesignTokens.Binary64

namespace Finite

variable {x y : Finite} {n : ℤ}

/-- The value of a finite double, exactly. -/
def value (x : Finite) : ℚ :=
  if x.negative then -x.magnitude else x.magnitude

theorem magnitude_nonneg (x : Finite) : 0 ≤ x.magnitude :=
  div_nonneg (Nat.cast_nonneg _) (by positivity)

/-- The magnitude of a double is that of its value. -/
theorem abs_value (x : Finite) : |x.value| = x.magnitude := by
  rw [value]
  split
  · rw [abs_neg, abs_of_nonneg x.magnitude_nonneg]
  · rw [abs_of_nonneg x.magnitude_nonneg]

/-- Exactly the zeros have the value zero. -/
theorem value_eq_zero_iff : x.value = 0 ↔ x.isZero = true := by
  rw [← abs_eq_zero, abs_value]
  constructor
  · intro hzero
    by_contra hx
    exact (magnitude_pos (Bool.eq_false_of_not_eq_true hx)).ne' hzero
  · intro hx
    have hsignificand : x.significand = 0 := beq_iff_eq.mp hx
    rw [magnitude_eq_parts, hsignificand]
    simp

/-- Doubles are equal exactly if their values are. -/
theorem beq_iff_value_eq : (x == y) = true ↔ x.value = y.value := by
  rw [beq_iff]
  constructor
  · rintro (rfl | ⟨hx, hy⟩)
    · rfl
    · rw [value_eq_zero_iff.mpr hx, value_eq_zero_iff.mpr hy]
  · intro h
    by_cases hsign : x.negative = y.negative
    · -- Of one sign, the value determines the magnitude.
      have hmagnitude : x.magnitude = y.magnitude := by rw [← abs_value, h, abs_value]
      refine .inl (eq_of_units_eq hsign (le_antisymm ?_ ?_))
      · exact magnitude_le_iff.mp hmagnitude.le
      · exact magnitude_le_iff.mp hmagnitude.ge
    · -- Of two signs, only zeros have the same value.
      have hzero : x.value = 0 := by
        have hx := x.magnitude_nonneg
        have hy := y.magnitude_nonneg
        unfold value at h ⊢
        split_ifs at h ⊢ with hneg hneg' hneg'
        · exact absurd (hneg.trans hneg'.symm) hsign
        · linarith
        · linarith
        · exact absurd (Bool.eq_iff_iff.mpr (iff_of_false hneg hneg')) hsign
      exact .inr ⟨value_eq_zero_iff.mp hzero, value_eq_zero_iff.mp (h ▸ hzero)⟩

/-- A magnitude is an integer if it is that many times the units of one. -/
theorem magnitude_eq_natCast_iff {m : ℕ} : x.magnitude = m ↔ x.units = m <<< 1074 := by
  rw [magnitude, div_eq_iff (by positivity), ← cast_shiftLeft, Nat.cast_inj]

/-- A double whose value is an integer has the magnitude of the integer. -/
theorem magnitude_eq_natAbs (h : x.value = n) : x.magnitude = n.natAbs := by
  rw [← abs_value, h, Nat.cast_natAbs, Int.cast_abs]

/-- A double whose value is an integer has no fraction. -/
theorem isWhole_of_value_eq (h : x.value = n) : x.isWhole = true := by
  have hunits := magnitude_eq_natCast_iff.mp (magnitude_eq_natAbs h)
  rw [isWhole, beq_iff_eq, hunits, Nat.one_shiftLeft, Nat.shiftLeft_eq, Nat.mul_mod_left]

/-- A double without a fraction has its integer part as its value. -/
theorem value_eq_truncated (h : x.isWhole = true) : x.value = x.truncated := by
  rw [isWhole, beq_iff_eq, Nat.one_shiftLeft] at h
  have hmagnitude : x.magnitude = (x.units >>> 1074 : ℕ) := by
    rw [magnitude_eq_natCast_iff, Nat.shiftLeft_eq, Nat.shiftRight_eq_div_pow,
      Nat.div_mul_cancel (Nat.dvd_of_mod_eq_zero h)]
  rw [value, truncated, hmagnitude]
  split
  · rw [Int.cast_neg, Int.cast_natCast]
  · rw [Int.cast_natCast]

/-- The integer part of an integer is the integer. -/
theorem truncated_eq (h : x.value = n) : x.truncated = n := by
  have hwhole := value_eq_truncated (isWhole_of_value_eq h)
  exact_mod_cast hwhole.symm.trans h

/-- The cast of an integer that fits a signed word is the integer: nothing is dropped, and the ends of
the range are not reached. -/
theorem toInt_toInt64 (h : x.value = n) (hlower : -2 ^ 63 ≤ n) (hupper : n < 2 ^ 63) :
    x.toInt64.toInt = n := by
  rw [toInt64, truncated_eq h]
  apply Int64.toInt_ofIntClamp
  · exact hlower
  · exact Int.le_of_lt_add_one hupper

end Finite

/-! ## Integers that are not rounded -/

/-- Rounding an integer keeps its sign and gives a double nearest to its magnitude. -/
theorem ofInt_eq_finite_iff {n : ℤ} {x : Finite} :
    ofInt n = .finite x ↔ x.negative = decide (n < 0) ∧ x.Nearest n.natAbs := by
  rw [ofInt, nearest_eq_finite_iff _ _ Nat.one_pos, Nat.cast_one, div_one]

/-- An integer below `2 ^ 53` in magnitude is not rounded. -/
theorem value_of_ofInt {n : ℤ} {x : Finite} (hx : ofInt n = .finite x) (hn : n.natAbs < 2 ^ 53) :
    x.value = n := by
  obtain ⟨hsign, hnearest⟩ := ofInt_eq_finite_iff.mp hx
  -- The integer is itself a multiple of a power of two by 53 bits, so nothing else is as near.
  have hmagnitude : x.magnitude = |(n : ℚ)| := by
    have hle := hnearest.le n.natAbs 1074 hn
    rw [mul_div_cancel_right₀ _ (by positivity), sub_self, abs_zero, abs_nonpos_iff,
      sub_eq_zero] at hle
    rw [← hle, Nat.cast_natAbs, Int.cast_abs]
  rw [Finite.value, hmagnitude, hsign]
  by_cases hneg : n < 0
  · rw [if_pos (decide_eq_true hneg), abs_of_neg (Int.cast_lt_zero.mpr hneg), neg_neg]
  · rw [if_neg (by simpa using hneg), abs_of_nonneg (Int.cast_nonneg (not_lt.mp hneg))]

/-- An integer is not rounded to a double nearer to zero than one that is not beyond it. -/
theorem units_le_of_ofInt {n : ℤ} {x y : Finite} (hx : ofInt n = .finite x)
    (hy : y.magnitude ≤ n.natAbs) : y.units ≤ x.units :=
  y.nearest_magnitude.units_le (ofInt_eq_finite_iff.mp hx).2 y.magnitude_nonneg hy

end DesignTokens.Binary64

import DesignTokens.Decimal.Basic
import DesignTokens.Proofs.Binary64.Nearest

/-!
# The value of a decimal

A decimal denotes a rational number, and what the operations on decimals compute is said of it.

* `Decimal.toBinary64_eq_finite_iff`: the double of a decimal is the one nearest to its value.
* `Decimal.value_ofFinite`: a finite double is written exactly.
* `Decimal.value_normalize`: trailing zeros are moved into the exponent.
* `Decimal.value_bounds`: where the leading digit of a decimal is.
* `Decimal.eq_of_value_eq`: decimals with the same value and the same number of digits are the same.
-/

namespace DesignTokens.Decimal

/-- The rational number that a decimal denotes. -/
def value (d : Decimal) : ℚ :=
  d.coefficient * 10 ^ d.exponent

variable {d d' : Decimal} {k : ℕ}

theorem ten_zpow_pos (e : ℤ) : (0 : ℚ) < 10 ^ e :=
  zpow_pos (by norm_num) e

theorem value_nonneg (d : Decimal) : 0 ≤ d.value :=
  mul_nonneg (Nat.cast_nonneg _) (ten_zpow_pos _).le

theorem coefficient_pos (h : 0 < d.value) : 0 < d.coefficient := by
  refine Nat.pos_of_ne_zero fun hzero => h.ne' ?_
  rw [value, hzero, Nat.cast_zero, zero_mul]

/-! ## Conversion from and to doubles -/

/-- The double of a decimal is the one with that sign which is nearest to the value of the decimal.
-/
theorem toBinary64_eq_finite_iff (negative : Bool) (d : Decimal) (x : Binary64.Finite) :
    d.toBinary64 negative = .finite x ↔ x.negative = negative ∧ x.Nearest d.value := by
  obtain ⟨coefficient, exponent⟩ := d
  cases exponent with
  | ofNat e =>
    have hvalue : value ⟨coefficient, .ofNat e⟩ =
        ((coefficient * Nat.pow 10 e : ℕ) : ℚ) / (1 : ℕ) := by
      rw [value, Nat.pow_eq, Int.ofNat_eq_natCast, zpow_natCast]
      push_cast
      rw [div_one]
    rw [hvalue]
    exact Binary64.nearest_eq_finite_iff negative _ Nat.one_pos x
  | negSucc e =>
    have hvalue : value ⟨coefficient, .negSucc e⟩ =
        (coefficient : ℚ) / (Nat.pow 10 (e + 1) : ℕ) := by
      rw [value, Nat.pow_eq, zpow_negSucc, div_eq_mul_inv]
      push_cast
      rfl
    rw [hvalue]
    exact Binary64.nearest_eq_finite_iff negative _ (Nat.pow_pos (by decide)) x

/-- A power of two is a power of ten over a power of five. -/
theorem two_pow_sub_eq {s n : ℕ} (h : s ≤ n) :
    (2 ^ s / 2 ^ n : ℚ) = 5 ^ (n - s) * 10 ^ ((s : ℤ) - n) := by
  obtain ⟨k, rfl⟩ := Nat.exists_eq_add_of_le h
  rw [Nat.add_sub_cancel_left, Nat.cast_add, sub_add_cancel_left, zpow_neg, zpow_natCast, pow_add]
  rw [show (10 : ℚ) = 2 * 5 by norm_num, mul_pow]
  field_simp

/-- The decimal of a finite double is its magnitude. -/
theorem value_ofFinite (x : Binary64.Finite) : (ofFinite x).value = x.magnitude := by
  rw [Binary64.Finite.magnitude_eq_parts, ofFinite]
  split
  · next h =>
    obtain ⟨k, hk⟩ := Nat.exists_eq_add_of_le h
    rw [value, zpow_zero, mul_one, Binary64.cast_shiftLeft, hk, Nat.add_sub_cancel_left, pow_add,
      mul_comm (2 ^ 1074 : ℚ), ← mul_assoc, mul_div_cancel_right₀ _ (by positivity)]
  · next h =>
    have hscale := two_pow_sub_eq (Nat.le_of_lt (Nat.lt_of_not_le h))
    rw [mul_div_assoc, hscale, value, Nat.pow_eq]
    push_cast
    ring

/-! ## Trailing zeros -/

/-- A zero in front of the exponent is moved into it. -/
theorem value_mul_ten (coefficient : ℕ) (exponent : ℤ) :
    value ⟨coefficient * 10, exponent⟩ = value ⟨coefficient, exponent + 1⟩ := by
  simp only [value]
  rw [zpow_add_one₀ (by norm_num)]
  push_cast
  ring

/-- The form without trailing zeros has the same value, a coefficient that is not greater, and a
last digit that is not zero. -/
theorem normalize_go_spec (coefficient : ℕ) (exponent : ℤ) (h : 0 < coefficient) :
    let d := normalize.go coefficient exponent
    d.value = value ⟨coefficient, exponent⟩ ∧ d.coefficient ≤ coefficient ∧
      d.coefficient % 10 ≠ 0 := by
  fun_induction normalize.go coefficient exponent with
  | case1 c e hzero ih =>
    obtain ⟨hvalue, hle, hlast⟩ := ih (by omega)
    have hsplit : c = c / 10 * 10 := by omega
    refine ⟨?_, by omega, hlast⟩
    rw [hvalue, ← value_mul_ten, ← hsplit]
  | case2 c hzero => omega
  | case3 c e hzero hcoefficient =>
    refine ⟨rfl, le_refl c, ?_⟩
    dsimp only
    omega

theorem value_normalize (h : 0 < d.coefficient) : d.normalize.value = d.value :=
  (normalize_go_spec d.coefficient d.exponent h).1

theorem coefficient_normalize_le (h : 0 < d.coefficient) :
    d.normalize.coefficient ≤ d.coefficient :=
  (normalize_go_spec d.coefficient d.exponent h).2.1

theorem coefficient_normalize_mod_ten (h : 0 < d.coefficient) : d.normalize.coefficient % 10 ≠ 0 :=
  (normalize_go_spec d.coefficient d.exponent h).2.2

/-! ## The number of digits -/

theorem length_digits_pos (d : Decimal) : 0 < d.digits.length :=
  Nat.length_toDigits_pos

theorem length_digits_le_iff (hk : 0 < k) : d.digits.length ≤ k ↔ d.coefficient < 10 ^ k :=
  Nat.length_toDigits_le_iff (by decide) hk

/-- A coefficient is below the power of ten of as many places as it has digits, and not below that
of any fewer places. -/
theorem coefficient_lt (d : Decimal) : d.coefficient < 10 ^ d.digits.length :=
  (length_digits_le_iff d.length_digits_pos).mp (le_refl _)

theorem pow_le_coefficient (h : 0 < d.coefficient) (hk : k < d.digits.length) :
    10 ^ k ≤ d.coefficient := by
  rcases Nat.eq_zero_or_pos k with rfl | hpos
  · exact h
  · exact Nat.le_of_not_lt ((length_digits_le_iff hpos).not.mp (Nat.not_le_of_lt hk))

/-- A decimal is at least the power of ten of its leading digit, and below the next one. -/
theorem value_bounds (h : 0 < d.coefficient) :
    (10 : ℚ) ^ d.leadingExponent ≤ d.value ∧ d.value < 10 ^ (d.leadingExponent + 1) := by
  obtain ⟨k, hk⟩ := Nat.exists_eq_succ_of_ne_zero d.length_digits_pos.ne'
  have hlow : 10 ^ k ≤ d.coefficient := pow_le_coefficient h (by omega)
  have hhigh := d.coefficient_lt
  rw [hk] at hhigh
  have hscale : ∀ n : ℕ, (10 : ℚ) ^ (n + d.exponent) = (10 ^ n : ℕ) * 10 ^ d.exponent := by
    intro n
    rw [zpow_add₀ (by norm_num), zpow_natCast]
    push_cast
    rfl
  have hlead : d.leadingExponent = k + d.exponent := by
    rw [leadingExponent, hk]
    omega
  constructor
  · rw [hlead, hscale, value]
    exact mul_le_mul_of_nonneg_right (by exact_mod_cast hlow) (ten_zpow_pos _).le
  · rw [show d.leadingExponent + 1 = (k + 1 : ℕ) + d.exponent by omega, hscale, value]
    exact mul_lt_mul_of_pos_right (by exact_mod_cast hhigh) (ten_zpow_pos _)

/-- Decimals with the same value and the same number of digits are the same. -/
theorem eq_of_value_eq (h : 0 < d.value) (hvalue : d.value = d'.value)
    (hlength : d.digits.length = d'.digits.length) : d = d' := by
  have hlow := value_bounds (coefficient_pos h)
  have hhigh := value_bounds (coefficient_pos (hvalue ▸ h))
  rw [← hvalue] at hhigh
  -- The leading digit is at the same place, and so is the last one.
  have hlt := (zpow_lt_zpow_iff_right₀ (by norm_num : (1 : ℚ) < 10)).mp (hlow.1.trans_lt hhigh.2)
  have hgt := (zpow_lt_zpow_iff_right₀ (by norm_num : (1 : ℚ) < 10)).mp (hhigh.1.trans_lt hlow.2)
  simp only [leadingExponent, hlength] at hlt hgt
  have hexponent : d.exponent = d'.exponent := by omega
  rw [value, value, hexponent, mul_left_inj' (ten_zpow_pos _).ne', Nat.cast_inj] at hvalue
  obtain ⟨coefficient, exponent⟩ := d
  obtain ⟨coefficient', exponent'⟩ := d'
  cases hexponent
  cases hvalue
  rfl

end DesignTokens.Decimal

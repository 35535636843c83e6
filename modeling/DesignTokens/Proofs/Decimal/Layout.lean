import DesignTokens.Decimal.Layout
import DesignTokens.Proofs.Decimal.Value

/-!
# Notations of a decimal

The layout of number text is a rule about the place of the point among the digits. Written through
the exponent of the leading digit, it is a choice between two notations.

* `Decimal.layout`: the layout by the place of the point.
* `Decimal.layout_eq`: it is positional or scientific notation.
* `Decimal.pow_le_value_iff`: the exponent of the leading digit is the magnitude of the decimal.
-/

namespace DesignTokens.Decimal

/-- The layout of a decimal with `k` digits whose point stands behind the `n`th of them. With `n`
from `k` to 21 zeros follow the digits, with a lesser but positive `n` the point stands among them,
and with `n` from -5 to 0 it stands in front of `-n` zeros and the digits. In all other cases there
is a point behind the first digit, if there are more of them, and the exponent with its sign. -/
def layout (d : Decimal) : List Char :=
  let k : ℤ := d.digits.length
  let n : ℤ := k + d.exponent
  if k ≤ n ∧ n ≤ 21 then d.digits ++ List.replicate (n - k).toNat '0'
  else if 0 < n ∧ n ≤ 21 ∧ n < k then d.digits.take n.toNat ++ '.' :: d.digits.drop n.toNat
  else if -6 < n ∧ n ≤ 0 then '0' :: '.' :: List.replicate (-n).toNat '0' ++ d.digits
  else d.digits.take 1 ++ (if 1 < k then '.' :: d.digits.drop 1 else []) ++
    'e' :: (if n - 1 < 0 then '-' else '+') :: Nat.toDigits 10 (n - 1).natAbs

theorem mantissa_eq (d : Decimal) :
    d.mantissa = d.digits.take 1 ++ if 1 < d.digits.length then '.' :: d.digits.drop 1 else [] := by
  rw [mantissa]
  split
  · next hdrop =>
    rw [List.drop_eq_nil_iff] at hdrop
    rw [if_neg (Nat.not_lt_of_le hdrop)]
  · next hdrop =>
    have hlength : 1 < d.digits.length := by
      by_contra hle
      exact hdrop (List.drop_eq_nil_iff.mpr (Nat.le_of_not_lt hle))
    rw [if_pos hlength]

/-- The layout is positional from the exponent -6 of the leading digit to the exponent 20, and
scientific elsewhere. -/
theorem layout_eq (d : Decimal) :
    d.layout = if -6 ≤ d.leadingExponent ∧ d.leadingExponent < 21 then d.positional []
      else d.scientific := by
  have hlead : d.leadingExponent = d.digits.length + d.exponent - 1 := rfl
  simp only [layout]
  by_cases hrange : -6 ≤ d.leadingExponent ∧ d.leadingExponent < 21
  · rw [if_pos hrange]
    simp only [positional, List.append_nil]
    -- The point stands behind all digits, among them, or in front of them.
    by_cases hwhole : 0 ≤ d.exponent
    · rw [if_pos (by omega), if_pos hwhole, add_sub_cancel_left]
    · by_cases hinside : 0 < d.digits.length + d.exponent
      · rw [if_neg (by omega), if_pos (by omega), if_neg hwhole, if_pos hinside]
      · rw [if_neg (by omega), if_neg (by omega), if_pos (by omega), if_neg hwhole,
          if_neg hinside]
  · rw [if_neg hrange, if_neg (by omega), if_neg (by omega), if_neg (by omega), scientific,
      mantissa_eq, hlead]
    simp only [Nat.one_lt_cast]

/-- A power of ten is at most a decimal if its exponent is at most that of the leading digit. -/
theorem pow_le_value_iff {d : Decimal} (h : 0 < d.coefficient) (e : ℤ) :
    (10 : ℚ) ^ e ≤ d.value ↔ e ≤ d.leadingExponent := by
  obtain ⟨hlow, hhigh⟩ := value_bounds h
  constructor
  · intro hle
    have hlt := (zpow_lt_zpow_iff_right₀ (by norm_num : (1 : ℚ) < 10)).mp (hle.trans_lt hhigh)
    omega
  · intro hle
    exact (zpow_le_zpow_right₀ (by norm_num) hle).trans hlow

end DesignTokens.Decimal

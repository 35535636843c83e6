import DesignTokens.Json.Number
import Mathlib.Tactic.Ring

/-!
# Rounding without overflow

Rounding keeps 53 significant bits, and may carry into a 54th. Only a magnitude beyond the greatest
finite one has no double near it.

* `Binary64.log2_sub_bounds`: a magnitude cut to its leading bits fits a significand.
* `Binary64.exists_nearestUnits_eq_finite`: a magnitude below the greatest scale rounds to a finite
  double.
* `Json.Number.exists_toBinary64_eq_finite`: so does every number of a JSON document.
-/

namespace DesignTokens

/-- A quotient is rounded to the integer below it or to the one above. -/
theorem roundQuotient_eq_or (num den : Nat) :
    roundQuotient num den = num / den ∨ roundQuotient num den = num / den + 1 := by
  simp only [roundQuotient]
  -- Below and above the half, and at it by the parity of the quotient.
  split_ifs
  · exact .inl rfl
  · exact .inr rfl
  · exact .inl rfl
  · exact .inr rfl

namespace Binary64

/-- The 53 leading bits of a magnitude: all 53 are there, or nothing was cut off. -/
theorem log2_sub_bounds (q : Nat) :
    q / 2 ^ (q.log2 - 52) < 2 ^ 53 ∧ (2 ^ 52 ≤ q / 2 ^ (q.log2 - 52) ∨ q.log2 - 52 = 0) := by
  have hlt : q < 2 ^ (q.log2 + 1) := Nat.lt_log2_self
  by_cases hsmall : q.log2 ≤ 52
  · have hscale : q.log2 - 52 = 0 := by omega
    rw [hscale, pow_zero, Nat.div_one]
    refine ⟨hlt.trans_le ?_, .inr rfl⟩
    exact Nat.pow_le_pow_right (by decide) (by omega)
  · -- The leading bit stands `52` places above the last one that is kept.
    obtain ⟨scale, hscale⟩ : ∃ scale, q.log2 = scale + 52 := ⟨q.log2 - 52, by omega⟩
    have hzero : q ≠ 0 := by
      rintro rfl
      exact hsmall (by decide)
    have hle : 2 ^ q.log2 ≤ q := Nat.log2_self_le hzero
    rw [hscale] at hlt hle ⊢
    rw [Nat.add_sub_cancel]
    constructor
    · refine Nat.div_lt_of_lt_mul (hlt.trans_le (le_of_eq ?_))
      ring
    · refine .inl ((Nat.le_div_iff_mul_le (Nat.two_pow_pos scale)).mpr ((le_of_eq ?_).trans hle))
      ring

/-- A magnitude that is not beyond the greatest scale rounds to a finite double. -/
theorem exists_nearestUnits_eq_finite (negative : Bool) {num den : Nat}
    (h : (num / den).log2 ≤ 2096) : ∃ x, nearestUnits negative num den = .finite x := by
  -- The significand is the one of the leading bits, or the next.
  obtain ⟨hlt, hnormal⟩ := log2_sub_bounds (num / den)
  have hround := roundQuotient_eq_or num (den <<< ((num / den).log2 - 52))
  rw [Nat.shiftLeft_eq, ← Nat.div_div_eq_div_mul, ← Nat.shiftLeft_eq] at hround
  simp only [nearestUnits]
  -- From here on only the bounds of the two matter, not how they came about.
  generalize (num / den).log2 = log at *
  generalize num / den / 2 ^ (log - 52) = leading at *
  generalize roundQuotient num (den <<< (log - 52)) = significand at *
  have hparts : ∀ significand scale, Canonical significand scale →
      ∃ x, ofParts negative significand scale = .finite x := by
    intro significand scale hcanonical
    exact ⟨_, dif_pos hcanonical⟩
  split_ifs with hcarry
  · -- A carry into the 54th bit moves the scale up by one.
    exact hparts _ _ ⟨by decide, by omega, .inl (Nat.le_refl _)⟩
  · exact hparts _ _ ⟨by omega, by omega, by omega⟩

/-- Shifting a magnitude moves its leading bit as far. -/
theorem log2_shiftLeft_le {m bits : Nat} (h : m ≤ 2 ^ bits) (shift : Nat) :
    (m <<< shift).log2 ≤ bits + shift := by
  rw [Nat.shiftLeft_eq]
  by_cases hzero : m = 0
  · rw [hzero, Nat.zero_mul, Nat.log2_zero]
    exact Nat.zero_le _
  · have hne : m * 2 ^ shift ≠ 0 := Nat.mul_ne_zero hzero (Nat.two_pow_pos shift).ne'
    refine Nat.le_of_lt_succ ((Nat.log2_lt hne).mpr ?_)
    calc m * 2 ^ shift ≤ 2 ^ bits * 2 ^ shift := Nat.mul_le_mul_right _ h
      _ = 2 ^ (bits + shift) := (pow_add 2 bits shift).symm
      _ < 2 ^ (bits + shift + 1) := Nat.pow_lt_pow_right (by decide) (Nat.lt_succ_self _)

/-- An integer of at most 64 bits rounds to a finite double. -/
theorem exists_ofInt_eq_finite {n : Int} (h : n.natAbs ≤ 2 ^ 64) : ∃ x, ofInt n = .finite x := by
  refine exists_nearestUnits_eq_finite _ ?_
  -- An integer is so many times `2 ^ 1074` units.
  rw [Nat.div_one]
  exact (log2_shiftLeft_le h 1074).trans (by decide)

end Binary64

/-- Every number of a JSON document is near a finite double: an integer has at most 64 bits. -/
theorem Json.Number.exists_toBinary64_eq_finite (n : Json.Number) :
    ∃ x, n.toBinary64 = .finite x := by
  cases n with
  | int value inRange => exact Binary64.exists_ofInt_eq_finite (by omega)
  | float value => exact ⟨value, rfl⟩

end DesignTokens

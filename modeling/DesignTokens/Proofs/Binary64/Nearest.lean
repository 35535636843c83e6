import DesignTokens.Proofs.Binary64.Rounding
import Mathlib.Algebra.Order.Field.Basic
import Mathlib.Data.Nat.Cast.Order.Field
import Mathlib.Tactic.FieldSimp
import Mathlib.Tactic.Linarith
import Mathlib.Tactic.Positivity

/-!
# The nearest double

Rounding computes the double that is nearest to a rational, and of two that are equally near the one
with the even significand.

* `Binary64.Finite.Nearest`: the double is the nearest one to a magnitude.
* `Binary64.Finite.eq_of_units_eq`: a double is determined by its sign and its magnitude.
* `Binary64.nearestUnits_eq_finite_iff`, `Binary64.nearest_eq_finite_iff`: what rounding computes is
  the nearest double.
* `Binary64.Finite.Nearest.units_le`, `Binary64.Finite.Nearest.of_between`: rounding keeps the order
  of magnitudes, and those that round to one double have no gaps.
-/

namespace DesignTokens

/-! ## Rounding to integers -/

/-- A rounded quotient is within a half of the quotient, and even if it is a half away. -/
theorem roundQuotient_bounds (num : ℕ) {den : ℕ} (hden : 0 < den) :
    2 * (roundQuotient num den * den) ≤ 2 * num + den ∧
      2 * num ≤ 2 * (roundQuotient num den * den) + den ∧
      (2 * (roundQuotient num den * den) = 2 * num + den ∨
        2 * num = 2 * (roundQuotient num den * den) + den → roundQuotient num den % 2 = 0) := by
  have hsplit := Nat.div_add_mod' num den
  have hrest := Nat.mod_lt num hden
  simp only [roundQuotient]
  generalize num / den = below at *
  have hnext : (below + 1) * den = below * den + den := Nat.succ_mul below den
  -- Below and above the half, and at it by the parity of the quotient.
  split_ifs
  · omega
  · omega
  · omega
  · omega

/-- The same, as a distance between rationals. -/
theorem abs_sub_roundQuotient_le (num : ℕ) {den : ℕ} (hden : 0 < den) :
    |(num / den : ℚ) - roundQuotient num den| ≤ 1 / 2 ∧
      (|(num / den : ℚ) - roundQuotient num den| = 1 / 2 → roundQuotient num den % 2 = 0) := by
  obtain ⟨habove, hbelow, heven⟩ := roundQuotient_bounds num hden
  have hpos : (0 : ℚ) < den := by exact_mod_cast hden
  have hscaled : |(num / den : ℚ) - roundQuotient num den| * den =
      |(num : ℚ) - (roundQuotient num den * den : ℕ)| := by
    rw [← abs_of_pos hpos, ← abs_mul, abs_of_pos hpos]
    congr 1
    push_cast
    field_simp
  have habove' : (2 * (roundQuotient num den * den : ℕ) : ℚ) ≤ 2 * num + den := by
    exact_mod_cast habove
  have hbelow' : (2 * num : ℚ) ≤ 2 * (roundQuotient num den * den : ℕ) + den := by
    exact_mod_cast hbelow
  constructor
  · refine le_of_mul_le_mul_right ?_ hpos
    rw [hscaled, abs_le]
    constructor <;> linarith
  · intro htie
    refine heven ?_
    rw [htie] at hscaled
    -- At a half, the distance is half the divisor on one side or the other.
    rcases (abs_eq (by positivity)).mp hscaled.symm with h | h
    · right
      have h' : (2 * num : ℚ) = 2 * (roundQuotient num den * den : ℕ) + den := by linarith
      exact_mod_cast h'
    · left
      have h' : (2 * (roundQuotient num den * den : ℕ) : ℚ) = 2 * num + den := by linarith
      exact_mod_cast h'

/-- An integer within a half of a rational, and even if it is a half away, is nearer to it than any
other one, or as near as an odd one. -/
theorem eq_or_abs_sub_lt {t : ℚ} {r : ℕ} (hle : |t - r| ≤ 1 / 2)
    (heven : |t - r| = 1 / 2 → r % 2 = 0) (j : ℕ) :
    j = r ∨ |t - r| < |t - j| ∨ (|t - r| = |t - j| ∧ r % 2 = 0 ∧ j % 2 = 1) := by
  rcases eq_or_ne j r with h | hne
  · exact .inl h
  -- Two integers are at least one apart, so the other one is not within a half.
  have hapart : (1 : ℚ) ≤ |(j : ℚ) - r| := by
    have h : (1 : ℤ) ≤ |(j : ℤ) - r| := Int.one_le_abs (by omega)
    exact_mod_cast h
  have htriangle : |(j : ℚ) - r| ≤ |t - j| + |t - r| := by
    rw [abs_sub_comm t (j : ℚ)]
    exact abs_sub_le (j : ℚ) t r
  rcases lt_or_eq_of_le (show |t - r| ≤ |t - j| by linarith) with hlt | heq
  · exact .inr (.inl hlt)
  · have hone : |(j : ℤ) - r| = 1 := by
      have h : |(j : ℚ) - r| = 1 := by linarith
      exact_mod_cast h
    have hr : r % 2 = 0 := heven (by linarith)
    refine .inr (.inr ⟨heq, hr, ?_⟩)
    rcases (abs_eq one_pos.le).mp hone with h | h <;> omega

namespace Binary64

/-! ## Magnitudes and their canonical forms -/

/-- The magnitude of a finite double, exactly. -/
def Finite.magnitude (x : Finite) : ℚ :=
  x.units / 2 ^ 1074

theorem Finite.units_eq (x : Finite) : x.units = x.significand * 2 ^ x.scale :=
  Nat.shiftLeft_eq x.significand x.scale

theorem cast_shiftLeft (m n : ℕ) : ((m <<< n : ℕ) : ℚ) = m * 2 ^ n := by
  rw [Nat.shiftLeft_eq]
  push_cast
  rfl

/-- A magnitude has one normal form, on whatever scale it is. -/
theorem normal_unique {m e m' e' : ℕ} (hm : m < 2 ^ 53) (he : 2 ^ 52 ≤ m ∨ e = 0)
    (hm' : m' < 2 ^ 53) (he' : 2 ^ 52 ≤ m' ∨ e' = 0) (h : m * 2 ^ e = m' * 2 ^ e') :
    m = m' ∧ e = e' := by
  wlog hle : e ≤ e' generalizing m e m' e'
  · have hswapped := this hm' he' hm he h.symm (by omega)
    exact ⟨hswapped.1.symm, hswapped.2.symm⟩
  obtain ⟨d, rfl⟩ := Nat.exists_eq_add_of_le hle
  have hm_eq : m = m' * 2 ^ d := by
    rw [pow_add, mul_comm (2 ^ e), ← mul_assoc] at h
    exact Nat.eq_of_mul_eq_mul_right (Nat.two_pow_pos e) h
  cases d with
  | zero => exact ⟨by simpa using hm_eq, rfl⟩
  | succ d =>
    -- On a higher scale the significand has all its bits, and one more on the lower scale.
    have hfull : 2 ^ 52 ≤ m' := he'.resolve_right (by omega)
    have hlarge : 2 ^ 52 * 2 ≤ m' * 2 ^ (d + 1) :=
      Nat.mul_le_mul hfull (Nat.le_self_pow (Nat.succ_ne_zero d) 2)
    omega

/-- A double is determined by its sign and its magnitude. -/
theorem Finite.eq_of_units_eq {x y : Finite} (hsign : x.negative = y.negative)
    (hunits : x.units = y.units) : x = y := by
  obtain ⟨hx, -, hx'⟩ := x.canonical
  obtain ⟨hy, -, hy'⟩ := y.canonical
  rw [units_eq, units_eq] at hunits
  obtain ⟨hsignificand, hscale⟩ := normal_unique hx hx' hy hy' hunits
  obtain ⟨negative, significand, scale, _⟩ := x
  obtain ⟨negative', significand', scale', _⟩ := y
  cases hsign
  cases hsignificand
  cases hscale
  rfl

/-- The double with some parts in normal form is the one of that sign and magnitude. -/
theorem ofParts_eq_finite_iff {negative : Bool} {m e : ℕ} (hm : m < 2 ^ 53)
    (he : 2 ^ 52 ≤ m ∨ e = 0) {x : Finite} :
    ofParts negative m e = .finite x ↔ x.negative = negative ∧ x.units = m * 2 ^ e := by
  unfold ofParts
  split
  · next hcanonical =>
    constructor
    · intro h
      rw [← finite.inj h]
      exact ⟨rfl, Nat.shiftLeft_eq m e⟩
    · rintro ⟨hsign, hunits⟩
      refine congrArg finite (Finite.eq_of_units_eq hsign.symm ?_)
      rw [hunits]
      exact Nat.shiftLeft_eq m e
  · next hcanonical =>
    -- Parts that no double has are beyond the greatest scale.
    constructor
    · intro h
      cases h
    · rintro ⟨-, hunits⟩
      obtain ⟨hx, hscale, hx'⟩ := x.canonical
      rw [Finite.units_eq] at hunits
      obtain ⟨rfl, rfl⟩ := normal_unique hx hx' hm he hunits
      exact absurd x.canonical hcanonical

/-! ## What rounding computes -/

/-- The scale on which a magnitude of `num / den` units is rounded. -/
def roundingScale (num den : ℕ) : ℕ :=
  Nat.log2 (num / den) - 52

/-- The significand on that scale, before a carry into the 54th bit. -/
def roundedSignificand (num den : ℕ) : ℕ :=
  roundQuotient num (den <<< roundingScale num den)

/-- A rounded significand has at most one bit too many, and it has all of them unless the scale is
the least. -/
theorem roundedSignificand_bounds (num den : ℕ) :
    roundedSignificand num den ≤ 2 ^ 53 ∧
      (2 ^ 52 ≤ roundedSignificand num den ∨ roundingScale num den = 0) := by
  obtain ⟨hlt, hnormal⟩ := log2_sub_bounds (num / den)
  have hround := roundQuotient_eq_or num (den <<< roundingScale num den)
  rw [Nat.shiftLeft_eq, ← Nat.div_div_eq_div_mul, ← Nat.shiftLeft_eq] at hround
  change roundedSignificand num den = _ ∨ roundedSignificand num den = _ at hround
  simp only [roundingScale] at *
  omega

/-- Rounding gives the double with the rounded significand on its scale, if there is one. -/
theorem nearestUnits_eq_finite_iff_units (negative : Bool) (num den : ℕ) (x : Finite) :
    nearestUnits negative num den = .finite x ↔
      x.negative = negative ∧
        x.units = roundedSignificand num den * 2 ^ roundingScale num den := by
  obtain ⟨hle, hnormal⟩ := roundedSignificand_bounds num den
  change (if roundedSignificand num den = 1 <<< 53 then
      ofParts negative (1 <<< 52) (roundingScale num den + 1)
    else ofParts negative (roundedSignificand num den) (roundingScale num den)) = _ ↔ _
  split
  · next hcarry =>
    -- A carry doubles the unit and halves the significand.
    rw [ofParts_eq_finite_iff (by decide) (.inl (by decide)), hcarry, Nat.shiftLeft_eq,
      Nat.shiftLeft_eq, pow_succ 2 (roundingScale num den)]
    ring_nf
  · next hcarry => exact ofParts_eq_finite_iff (by omega) hnormal

/-- A carry halves the significand and doubles the unit, so a rounded magnitude has 53 significant
bits, and its last bit is set only if that of the rounded significand is. -/
theorem exists_normal_eq_rounded (num den : ℕ) :
    ∃ m e, m < 2 ^ 53 ∧ (2 ^ 52 ≤ m ∨ e = 0) ∧
      m * 2 ^ e = roundedSignificand num den * 2 ^ roundingScale num den ∧
      (roundedSignificand num den % 2 = 0 → m % 2 = 0) := by
  obtain ⟨hle, hnormal⟩ := roundedSignificand_bounds num den
  by_cases hcarry : roundedSignificand num den = 2 ^ 53
  · refine ⟨2 ^ 52, roundingScale num den + 1, by decide, .inl (le_refl _), ?_, fun _ => by decide⟩
    rw [hcarry]
    ring
  · exact ⟨roundedSignificand num den, roundingScale num den, by omega, hnormal, rfl, id⟩

/-- On its scale, a rounded significand is nearer than any other integer, or it is even and equally
near as an odd one. -/
theorem roundedSignificand_nearest (num : ℕ) {den : ℕ} (hden : 0 < den) (j : ℕ) :
    let t : ℚ := num / den / 2 ^ roundingScale num den
    let r := roundedSignificand num den
    j = r ∨ |t - r| < |t - j| ∨ (|t - r| = |t - j| ∧ r % 2 = 0 ∧ j % 2 = 1) := by
  have hshift : 0 < den <<< roundingScale num den := by
    rw [Nat.shiftLeft_eq]
    exact Nat.mul_pos hden (Nat.two_pow_pos _)
  obtain ⟨hle, heven⟩ := abs_sub_roundQuotient_le num hshift
  rw [Nat.shiftLeft_eq, Nat.cast_mul, Nat.cast_pow, Nat.cast_ofNat, ← div_div,
    ← Nat.shiftLeft_eq] at hle heven
  exact eq_or_abs_sub_lt hle heven j

/-- If rounding cuts bits off, the magnitude has at least 53 bits on the scale on which it is
rounded. -/
theorem le_div_two_pow_roundingScale {num den : ℕ} (h : 0 < roundingScale num den) :
    (2 ^ 52 : ℚ) ≤ num / den / 2 ^ roundingScale num den := by
  have hzero : num / den ≠ 0 := by
    intro hzero
    rw [roundingScale, hzero, Nat.log2_zero] at h
    exact absurd h (by decide)
  have hlog : Nat.log2 (num / den) = 52 + roundingScale num den := by
    rw [roundingScale] at h ⊢
    omega
  have hlead : 2 ^ 52 * 2 ^ roundingScale num den ≤ num / den := by
    rw [← pow_add, ← hlog]
    exact Nat.log2_self_le hzero
  rw [le_div_iff₀ (by positivity)]
  calc (2 ^ 52 * 2 ^ roundingScale num den : ℚ) = (2 ^ 52 * 2 ^ roundingScale num den : ℕ) := by
        push_cast; rfl
    _ ≤ (num / den : ℕ) := by exact_mod_cast hlead
    _ ≤ num / den := Nat.cast_div_le

/-- A rounded magnitude is nearer than any other with 53 significant bits, or it has an even
significand and is as near as one with an odd significand. -/
theorem roundedUnits_nearest (num : ℕ) {den : ℕ} (hden : 0 < den) {m : ℕ} (hm : m < 2 ^ 53)
    (k : ℕ) :
    let u : ℚ := num / den
    let rounded : ℚ := roundedSignificand num den * 2 ^ roundingScale num den
    m * 2 ^ k = rounded ∨ |u - rounded| < |u - m * 2 ^ k| ∨
      (|u - rounded| = |u - m * 2 ^ k| ∧ roundedSignificand num den % 2 = 0 ∧ m % 2 = 1) := by
  intro u rounded
  have hnearest := roundedSignificand_nearest num hden
  have hlead : 0 < roundingScale num den → _ := le_div_two_pow_roundingScale
  simp only at hnearest
  simp only [u, rounded]
  generalize roundedSignificand num den = r at *
  generalize roundingScale num den = e at *
  generalize (num / den : ℚ) = u at *
  -- Distances are compared on the scale of rounding.
  have hpos : (0 : ℚ) < 2 ^ e := by positivity
  have hscaled : ∀ a : ℚ, |u - a * 2 ^ e| = |u / 2 ^ e - a| * 2 ^ e := by
    intro a
    rw [← abs_of_pos hpos, ← abs_mul, abs_of_pos hpos, sub_mul, div_mul_cancel₀ _ hpos.ne']
  rcases Nat.lt_or_ge k e with hlow | hhigh
  · -- On a lower scale there are only magnitudes below the one cut to its first bit, which is not
    -- nearer than the rounded one.
    have hlead := hlead (by omega)
    have hle : |u / 2 ^ e - r| ≤ |u / 2 ^ e - (2 ^ 52 : ℕ)| := by
      rcases hnearest (2 ^ 52) with h | h | ⟨h, -⟩
      · rw [h]
      · exact h.le
      · exact h.le
    have hbelow : (m * 2 ^ k : ℚ) < 2 ^ 52 * 2 ^ e := by
      have h : m * 2 ^ k < 2 ^ 52 * 2 ^ e := by
        calc m * 2 ^ k < 2 ^ 53 * 2 ^ k := Nat.mul_lt_mul_of_pos_right hm (Nat.two_pow_pos k)
          _ = 2 ^ 52 * 2 ^ (k + 1) := by ring
          _ ≤ 2 ^ 52 * 2 ^ e := Nat.mul_le_mul_left _ (Nat.pow_le_pow_right (by decide) hlow)
      exact_mod_cast h
    have hu : (2 ^ 52 * 2 ^ e : ℚ) ≤ u := (le_div_iff₀ hpos).mp hlead
    right; left
    calc |u - r * 2 ^ e| = |u / 2 ^ e - r| * 2 ^ e := hscaled r
      _ ≤ |u / 2 ^ e - (2 ^ 52 : ℕ)| * 2 ^ e := mul_le_mul_of_nonneg_right hle hpos.le
      _ = |u - 2 ^ 52 * 2 ^ e| := by rw [← hscaled]; push_cast; rfl
      _ = u - 2 ^ 52 * 2 ^ e := abs_of_nonneg (by linarith)
      _ < u - m * 2 ^ k := by linarith
      _ ≤ |u - m * 2 ^ k| := le_abs_self _
  · -- On the same scale or a higher one, the magnitude is an integer on the scale of rounding.
    obtain ⟨d, rfl⟩ := Nat.exists_eq_add_of_le hhigh
    have hinteger : (m * 2 ^ (e + d) : ℚ) = (m * 2 ^ d : ℕ) * 2 ^ e := by
      push_cast
      ring
    rw [hinteger, hscaled, hscaled]
    rcases hnearest (m * 2 ^ d) with h | h | ⟨htie, hr, hodd⟩
    · exact .inl (by rw [h])
    · exact .inr (.inl (mul_lt_mul_of_pos_right h hpos))
    · refine .inr (.inr ⟨by rw [htie], hr, ?_⟩)
      rw [Nat.mul_mod] at hodd
      by_contra heven
      rw [show m % 2 = 0 by omega, Nat.zero_mul] at hodd
      exact absurd hodd (by decide)

/-! ## The nearest double -/

namespace Finite

/-- The double is the nearest one to the magnitude `q`: no multiple of the least positive double by
53 bits on any scale is nearer, and if another one is as near, the double has an even significand.
As the scale is not bounded, a magnitude out of range has no nearest double. -/
structure Nearest (x : Finite) (q : ℚ) : Prop where
  le (m e : ℕ) (h : m < 2 ^ 53) : |q - x.magnitude| ≤ |q - m * 2 ^ e / 2 ^ 1074|
  even (m e : ℕ) (h : m < 2 ^ 53) (htie : |q - x.magnitude| = |q - m * 2 ^ e / 2 ^ 1074|) :
    (m * 2 ^ e / 2 ^ 1074 : ℚ) = x.magnitude ∨ x.significand % 2 = 0

end Finite

/-- What rounding computes is the nearest double with the given sign, for a magnitude in units. -/
theorem nearestUnits_eq_finite_iff (negative : Bool) (num : ℕ) {den : ℕ} (hden : 0 < den)
    (x : Finite) :
    nearestUnits negative num den = .finite x ↔
      x.negative = negative ∧ x.Nearest (num / den / 2 ^ 1074) := by
  rw [nearestUnits_eq_finite_iff_units]
  refine and_congr_right fun _ => ?_
  obtain ⟨m, e, hm, hnormal, hrounded, heven⟩ := exists_normal_eq_rounded num den
  have hunit : (0 : ℚ) < 2 ^ 1074 := by positivity
  have hscaled : ∀ a b : ℚ, |a / 2 ^ 1074 - b / 2 ^ 1074| = |a - b| / 2 ^ 1074 := by
    intro a b
    rw [← sub_div, abs_div, abs_of_pos hunit]
  have hcast : (m * 2 ^ e : ℚ) = roundedSignificand num den * 2 ^ roundingScale num den := by
    exact_mod_cast hrounded
  constructor
  · intro hunits
    have hmagnitude : (x.units : ℚ) =
        roundedSignificand num den * 2 ^ roundingScale num den := by
      exact_mod_cast hunits
    constructor
    · intro m' k hm'
      rw [Finite.magnitude, hmagnitude, hscaled, hscaled, div_le_div_iff_of_pos_right hunit]
      rcases roundedUnits_nearest num hden hm' k with h | h | ⟨h, -⟩
      · rw [h]
      · exact h.le
      · exact h.le
    · intro m' k hm' htie
      rw [Finite.magnitude, hmagnitude, hscaled, hscaled, div_left_inj' hunit.ne'] at htie
      rcases roundedUnits_nearest num hden hm' k with h | h | ⟨-, hr, -⟩
      · exact .inl (by rw [h, Finite.magnitude, hmagnitude])
      · exact absurd htie h.ne
      · -- The significand of the double is the rounded one, or it was halved after a carry.
        obtain ⟨hx, -, hx'⟩ := x.canonical
        rw [Finite.units_eq, ← hrounded] at hunits
        obtain ⟨hsignificand, -⟩ := normal_unique hx hx' hm hnormal hunits
        exact .inr (hsignificand ▸ heven hr)
  · intro hnearest
    have hx : (x.units : ℚ) = x.significand * 2 ^ x.scale := cast_shiftLeft _ _
    have hle := hnearest.le m e hm
    rw [Finite.magnitude, hscaled, hscaled, div_le_div_iff_of_pos_right hunit, hx, hcast] at hle
    suffices h : (x.units : ℚ) = roundedSignificand num den * 2 ^ roundingScale num den by
      exact_mod_cast h
    rcases roundedUnits_nearest num hden x.canonical.1 x.scale with h | h | ⟨h, -, hodd⟩
    · rw [hx, h]
    · exact absurd h (not_lt.mpr hle)
    · -- Two doubles that are equally near do not both have an even significand.
      have htie := hnearest.even m e hm
      rw [Finite.magnitude, hscaled, hscaled, hx, hcast, h, div_left_inj' hunit.ne'] at htie
      rcases htie rfl with heq | hsignificand
      · rw [hx, (div_left_inj' hunit.ne').mp heq]
      · omega

/-- What rounding computes is the nearest double with the given sign. -/
theorem nearest_eq_finite_iff (negative : Bool) (num : ℕ) {den : ℕ} (hden : 0 < den) (x : Finite) :
    nearest negative num den = .finite x ↔ x.negative = negative ∧ x.Nearest (num / den) := by
  have hunits : ((num <<< 1074 : ℕ) / den / 2 ^ 1074 : ℚ) = num / den := by
    have hunit : (0 : ℚ) < 2 ^ 1074 := by positivity
    rw [cast_shiftLeft, mul_div_right_comm, mul_div_cancel_right₀ _ hunit.ne']
  rw [nearest, nearestUnits_eq_finite_iff negative _ hden, hunits]

namespace Finite

variable {x y : Finite} {q q' : ℚ}

/-- Only zeros have no magnitude. -/
theorem magnitude_pos (h : x.isZero = false) : 0 < x.magnitude := by
  have hsignificand : 0 < x.significand := Nat.pos_of_ne_zero (beq_eq_false_iff_ne.mp h)
  have hunits : 0 < x.units := by
    rw [units_eq]
    exact Nat.mul_pos hsignificand (Nat.two_pow_pos _)
  exact div_pos (Nat.cast_pos.mpr hunits) (by positivity)

/-- Magnitudes are ordered as their units are. -/
theorem magnitude_le_iff : x.magnitude ≤ y.magnitude ↔ x.units ≤ y.units := by
  rw [magnitude, magnitude, div_le_div_iff_of_pos_right (by positivity), Nat.cast_le]

/-- A double is the nearest one to its own magnitude. -/
theorem nearest_magnitude (x : Finite) : x.Nearest x.magnitude := by
  constructor
  · intro m e _
    rw [sub_self, abs_zero]
    exact abs_nonneg _
  · intro m e _ htie
    rw [sub_self, abs_zero, eq_comm, abs_eq_zero, sub_eq_zero] at htie
    exact .inl htie.symm

/-- Only a zero is the nearest double to zero. -/
theorem Nearest.ne_zero (h : x.Nearest q) (hx : 0 < x.magnitude) : q ≠ 0 := by
  rintro rfl
  have hle := h.le 0 0 (by decide)
  rw [zero_sub, abs_neg, abs_of_pos hx] at hle
  simp only [Nat.cast_zero, zero_mul, zero_div, sub_zero, abs_zero] at hle
  exact absurd hx (not_lt.mpr hle)

theorem magnitude_eq_parts (x : Finite) :
    x.magnitude = x.significand * 2 ^ x.scale / 2 ^ 1074 := by
  rw [magnitude, units, cast_shiftLeft]

/-- The nearest doubles to a magnitude differ in their sign only. -/
theorem Nearest.units_eq (hx : x.Nearest q) (hy : y.Nearest q) (hq : 0 ≤ q) : x.units = y.units := by
  obtain ⟨num, den, hden, rfl⟩ : ∃ num den : ℕ, 0 < den ∧ (num / den : ℚ) = q := by
    refine ⟨q.num.toNat, q.den, q.den_pos, ?_⟩
    have hnum : ((q.num.toNat : ℕ) : ℚ) = q.num := by
      exact_mod_cast Int.toNat_of_nonneg (Rat.num_nonneg.mpr hq)
    rw [hnum, Rat.num_div_den]
  -- Rounding gives both, and it is a function.
  have hunits : ∀ z : Finite, z.Nearest (num / den) → z.units = _ := fun z hz =>
    ((nearestUnits_eq_finite_iff_units z.negative (num <<< 1074) den z).mp
      ((nearest_eq_finite_iff z.negative num hden z).mpr ⟨rfl, hz⟩)).2
  rw [hunits x hx, hunits y hy]

/-- Of two magnitudes, the lower one is as near to a third as the upper one, or nearer, if the third
is not above their middle. -/
theorem abs_sub_le_iff_of_lt {v c : ℚ} (h : v < c) : |q - v| ≤ |q - c| ↔ 2 * q ≤ v + c := by
  rcases abs_cases (q - v) with ⟨hv, _⟩ | ⟨hv, _⟩ <;>
    rcases abs_cases (q - c) with ⟨hc, _⟩ | ⟨hc, _⟩ <;> rw [hv, hc] <;>
    constructor <;> intro <;> linarith

/-- The upper one is, if the third is not below their middle. -/
theorem abs_sub_le_iff_of_gt {v c : ℚ} (h : v < c) : |q - c| ≤ |q - v| ↔ v + c ≤ 2 * q := by
  rcases abs_cases (q - v) with ⟨hv, _⟩ | ⟨hv, _⟩ <;>
    rcases abs_cases (q - c) with ⟨hc, _⟩ | ⟨hc, _⟩ <;> rw [hv, hc] <;>
    constructor <;> intro <;> linarith

/-- Rounding keeps the order of magnitudes. -/
theorem Nearest.units_le (hx : x.Nearest q) (hy : y.Nearest q') (hq : 0 ≤ q) (hle : q ≤ q') :
    x.units ≤ y.units := by
  by_contra hlt
  have hmagnitude : y.magnitude < x.magnitude := by
    rw [← not_le, magnitude_le_iff]
    exact hlt
  -- The order is reversed only if both magnitudes are in the middle, and so they are the same.
  have hbelow := hx.le y.significand y.scale y.canonical.1
  have habove := hy.le x.significand x.scale x.canonical.1
  rw [← magnitude_eq_parts, abs_sub_le_iff_of_gt hmagnitude] at hbelow
  rw [← magnitude_eq_parts, abs_sub_le_iff_of_lt hmagnitude] at habove
  obtain rfl : q = q' := by linarith
  exact hlt (hx.units_eq hy hq).le

/-- What is as near as another magnitude to two ends, or nearer, is so to all between them; and a
tie is at one of the ends. -/
theorem abs_sub_le_of_between {v c q₁ q₂ : ℚ} (hle₁ : q₁ ≤ q) (hle₂ : q ≤ q₂)
    (h₁ : |q₁ - v| ≤ |q₁ - c|) (h₂ : |q₂ - v| ≤ |q₂ - c|) :
    |q - v| ≤ |q - c| ∧ (|q - v| = |q - c| → c = v ∨ q = q₁ ∨ q = q₂) := by
  rcases lt_trichotomy v c with hlt | rfl | hgt
  · rw [abs_sub_le_iff_of_lt hlt] at h₂ ⊢
    refine ⟨by linarith, fun htie => .inr (.inr ?_)⟩
    have hmiddle := (abs_sub_le_iff_of_gt hlt).mp htie.ge
    linarith
  · exact ⟨le_refl _, fun _ => .inl rfl⟩
  · rw [abs_sub_le_iff_of_gt hgt] at h₁ ⊢
    refine ⟨by linarith, fun htie => .inr (.inl ?_)⟩
    have hmiddle := (abs_sub_le_iff_of_lt hgt).mp htie.ge
    linarith

/-- If a double is the nearest one to two magnitudes, it is to all between them. -/
theorem Nearest.of_between {q₁ q₂ : ℚ} (h₁ : x.Nearest q₁) (h₂ : x.Nearest q₂) (hle₁ : q₁ ≤ q)
    (hle₂ : q ≤ q₂) : x.Nearest q := by
  constructor
  · intro m e hm
    exact (abs_sub_le_of_between hle₁ hle₂ (h₁.le m e hm) (h₂.le m e hm)).1
  · intro m e hm htie
    rcases (abs_sub_le_of_between hle₁ hle₂ (h₁.le m e hm) (h₂.le m e hm)).2 htie with
      heq | rfl | rfl
    · exact .inl heq
    · exact h₁.even m e hm htie
    · exact h₂.even m e hm htie

end Finite

end Binary64

end DesignTokens

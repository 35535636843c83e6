import DesignTokens.Proofs.Conversion.Equality
import DesignTokens.Proofs.Decimal.Literal
import DesignTokens.Proofs.Decimal.Shortest

/-!
# Reading back number text

The text of a finite number is a decimal literal that rounds to the number, so that different
numbers have different texts. Only the sign of zero is lost.

* `Binary64.Finite.readLiteral?_tokenText`: the text of a finite number denotes its shortest
  decimal.
* `Binary64.tokenText_readBack`: what is read is rounded to the number, and equal texts are those of
  equal numbers.
-/

namespace DesignTokens.Binary64

/-- The number without the sign of zero. -/
def Finite.unsignedZero (x : Finite) : Finite :=
  if x.isZero then zero false else x

/-- Numbers are equal if they are the same without the sign of zero. -/
theorem Finite.beq_of_unsignedZero_eq {x y : Finite} (h : x.unsignedZero = y.unsignedZero) :
    (x == y) = true := by
  rw [beq_iff]
  unfold unsignedZero at h
  split at h <;> split at h
  · next hx hy => exact .inr ⟨hx, hy⟩
  · next hx hy => exact absurd (h ▸ rfl) hy
  · next hx hy => exact absurd (h ▸ rfl) hx
  · exact .inl h

/-- The text of a finite number other than zero denotes its shortest decimal. -/
theorem Finite.readLiteral?_tokenText (x : Finite) :
    ∃ d : Decimal, d.value = (Decimal.shortest .away x).value ∧
      Decimal.readLiteral? x.tokenText = some (x.negative, d) := by
  rw [tokenText_eq]
  by_cases hrange : leastPositional.units ≤ x.units ∧ x.units < leastScientific.units
  · rw [if_pos hrange]
    exact Decimal.readLiteral?_positional x.negative _
  · rw [if_neg hrange]
    exact ⟨_, rfl, Decimal.readLiteral?_scientific x.negative _⟩

/-- The text of a finite number is read as a decimal that rounds to it. -/
theorem Finite.exists_readLiteral?_eq_some (x : Finite) :
    ∃ d : Decimal, x.unsignedZero.Nearest d.value ∧
      Decimal.readLiteral? (finite x).tokenText.toList = some (x.unsignedZero.negative, d) := by
  cases hzero : x.isZero with
  | true =>
    have hnearest : (zero false).Nearest (Decimal.value ⟨0, 0⟩) :=
      ((Decimal.toBinary64_eq_finite_iff false ⟨0, 0⟩ (zero false)).mp (by decide +kernel)).2
    rw [tokenText_of_isZero hzero, unsignedZero, if_pos hzero]
    exact ⟨⟨0, 0⟩, hnearest, by decide +kernel⟩
  | false =>
    rw [tokenText_of_not_isZero hzero, unsignedZero, hzero, if_neg Bool.false_ne_true,
      String.toList_ofList]
    obtain ⟨d, hvalue, hread⟩ := readLiteral?_tokenText x
    have hshortest := (Decimal.shortest_spec .away (magnitude_pos hzero)).1
    exact ⟨d, hvalue ▸ hshortest.nearest, hread⟩

/-- Finite numbers with the same text are equal. -/
theorem Finite.beq_of_tokenText_eq {x y : Finite}
    (h : (finite x).tokenText = (finite y).tokenText) : (x == y) = true := by
  obtain ⟨d, hx, hxRead⟩ := exists_readLiteral?_eq_some x
  obtain ⟨d', hy, hyRead⟩ := exists_readLiteral?_eq_some y
  rw [h, hyRead, Option.some.injEq, Prod.mk.injEq] at hxRead
  obtain ⟨hsign, rfl⟩ := hxRead
  refine beq_of_unsignedZero_eq (eq_of_units_eq hsign.symm ?_)
  exact hx.units_eq hy d'.value_nonneg

/-- Numbers with the same text are equal, or none of them is a number. -/
theorem beq_or_nan_of_tokenText_eq {x y : Binary64} (h : x.tokenText = y.tokenText) :
    (x == y) = true ∨ (x = nan ∧ y = nan) := by
  have hspecial : ∀ z : Binary64, z.finite? = none →
      z.tokenText ∈ ["NaN", "Infinity", "-Infinity"] := by
    intro z hz
    cases z with
    | nan => decide
    | infinite s => cases s <;> decide
    | finite z => cases hz
  cases x with
  | finite x =>
    cases y with
    | finite y => exact .inl (Finite.beq_of_tokenText_eq h)
    | nan | infinite => exact absurd (h ▸ hspecial _ rfl) (tokenText_finite_not_mem x)
  | nan =>
    cases y with
    | finite y => exact absurd (h ▸ hspecial _ rfl) (tokenText_finite_not_mem y)
    | nan => exact .inr ⟨rfl, rfl⟩
    | infinite t => cases t <;> exact absurd h (by decide)
  | infinite s =>
    cases y with
    | finite y => exact absurd (h ▸ hspecial _ rfl) (tokenText_finite_not_mem y)
    | nan => cases s <;> exact absurd h (by decide)
    | infinite t =>
      revert s t
      decide

/-- The text of a finite number is a decimal literal, and the double nearest to what it denotes is
the number, without the sign of zero. Two numbers have the same text exactly if they are equal, or if
none of them is a number. -/
theorem tokenText_readBack :
    (∀ x : Finite, ∃ d : Decimal,
      Decimal.readLiteral? (finite x).tokenText.toList = some (x.unsignedZero.negative, d) ∧
      x.unsignedZero.Nearest d.value ∧
      d.toBinary64 x.unsignedZero.negative = finite x.unsignedZero) ∧
    ∀ x y : Binary64, x.tokenText = y.tokenText ↔ (x == y) = true ∨ (x = nan ∧ y = nan) := by
  refine ⟨fun x => ?_, fun x y => ⟨fun h => ?_, ?_⟩⟩
  · obtain ⟨d, hnearest, hread⟩ := x.exists_readLiteral?_eq_some
    exact ⟨d, hread, hnearest, (d.toBinary64_eq_finite_iff _ _).mpr ⟨rfl, hnearest⟩⟩
  · exact beq_or_nan_of_tokenText_eq h
  · rintro (hequal | ⟨rfl, rfl⟩)
    · exact tokenText_eq_of_beq hequal
    · rfl

end DesignTokens.Binary64

import DesignTokens.Proofs.Decimal.Characters
import DesignTokens.Proofs.Decimal.Layout
import DesignTokens.Proofs.Decimal.Shortest

/-!
# Number text

The notation of a number is chosen by its magnitude, and its layout by the place of the point in its
shortest decimal. Rounding keeps the order of magnitudes, so the two agree above and below the
doubles at which the notation changes; and the shortest decimals of these doubles are powers of ten.

* `Binary64.Finite.units_le_iff`: a double is compared as its shortest decimal is.
* `Binary64.Finite.positional_iff`: which numbers are written positionally.
* `Binary64.tokenText_eq_layout`: the text of every number.
-/

namespace DesignTokens.Binary64

namespace Finite

variable {x y : Finite} {d : Decimal}

/-- Both doubles of a magnitude have the same shortest decimal, if the ones of `y` have. -/
theorem shortest_of_units_eq (hy : Decimal.shortest .away y = d)
    (hneg : Decimal.shortest .away y.neg = d) (h : x.units = y.units) :
    Decimal.shortest .away x = d := by
  by_cases hsign : x.negative = y.negative
  · rw [eq_of_units_eq hsign h, hy]
  · have hopposite : x.negative = y.neg.negative := Bool.eq_not_of_ne hsign
    rw [eq_of_units_eq hopposite h, hneg]

/-- A double is compared with another as their shortest decimals are compared. -/
theorem units_le_iff (hy : Decimal.shortest .away y = d) (hneg : Decimal.shortest .away y.neg = d)
    (hyzero : y.isZero = false) (hx : 0 < x.magnitude) :
    y.units ≤ x.units ↔ d.value ≤ (Decimal.shortest .away x).value := by
  have hxNearest := (Decimal.shortest_spec .away hx).1.nearest
  have hyNearest := (Decimal.shortest_spec .away (magnitude_pos hyzero)).1.nearest
  rw [hy] at hyNearest
  constructor
  · intro hle
    by_contra hlt
    have hlt := lt_of_not_ge hlt
    -- Then `x` is not above `y` either.
    have hge := hxNearest.units_le hyNearest (Decimal.value_nonneg _) hlt.le
    rw [shortest_of_units_eq hy hneg (le_antisymm hge hle)] at hlt
    exact lt_irrefl _ hlt
  · exact hyNearest.units_le hxNearest d.value_nonneg

theorem shortest_leastPositional : Decimal.shortest .away leastPositional = ⟨1, -6⟩ ∧
    Decimal.shortest .away leastPositional.neg = ⟨1, -6⟩ := by
  decide +kernel

theorem shortest_leastScientific : Decimal.shortest .away leastScientific = ⟨1, 21⟩ ∧
    Decimal.shortest .away leastScientific.neg = ⟨1, 21⟩ := by
  decide +kernel

/-- The magnitudes that are written positionally are those whose shortest decimal has its leading
digit from the sixth place after the point to the 21st before it. -/
theorem positional_iff (hx : 0 < x.magnitude) :
    leastPositional.units ≤ x.units ∧ x.units < leastScientific.units ↔
      -6 ≤ (Decimal.shortest .away x).leadingExponent ∧
        (Decimal.shortest .away x).leadingExponent < 21 := by
  have hnearest := (Decimal.shortest_spec .away hx).1.nearest
  have hpos := Decimal.coefficient_pos (Decimal.value_pos_of_nearest hx hnearest)
  have hpower : ∀ e : ℤ, Decimal.value ⟨1, e⟩ = 10 ^ e := by
    intro e
    rw [Decimal.value, Nat.cast_one, one_mul]
  have hlow := units_le_iff shortest_leastPositional.1 shortest_leastPositional.2 (by decide) hx
  have hhigh := units_le_iff shortest_leastScientific.1 shortest_leastScientific.2 (by decide) hx
  rw [hpower, Decimal.pow_le_value_iff hpos] at hlow hhigh
  rw [← not_le, ← not_le, hlow, hhigh]

/-- The text of a number other than zero is laid out by the place of the point in its shortest
decimal. -/
theorem tokenText_eq_layout (hx : 0 < x.magnitude) :
    x.tokenText =
      (if x.negative then ['-'] else []) ++ (Decimal.shortest .away x).layout := by
  rw [tokenText_eq, Decimal.layout_eq]
  simp only [positional_iff hx]

end Finite

/-- The text of a number is that of no number or of an infinity, a zero without a sign, or the sign
of the number and the layout of its shortest decimal: of the decimals with the fewest digits that
round to its magnitude, the nearest one. If there are two of them at the same distance, it is the
greater one. -/
theorem tokenText_layout :
    nan.tokenText = "NaN" ∧ (infinite false).tokenText = "Infinity" ∧
    (infinite true).tokenText = "-Infinity" ∧
    (∀ x : Finite, x.isZero = true → (finite x).tokenText = "0") ∧
    ∀ x : Finite, x.isZero = false → ∃ d : Decimal, d.IsShortest x ∧
      (∀ d' : Decimal, d'.IsShortest x →
        d' = d ∨ d'.value < d.value ∧ d'.value + d.value = 2 * x.magnitude) ∧
      (finite x).tokenText = String.ofList ((if x.negative then ['-'] else []) ++ d.layout) := by
  refine ⟨rfl, rfl, rfl, fun x hzero => ?_, fun x hzero => ?_⟩
  · exact tokenText_of_isZero hzero
  · have hx := Finite.magnitude_pos hzero
    refine ⟨Decimal.shortest .away x, (Decimal.shortest_spec .away hx).1, ?_, ?_⟩
    · intro d' hd'
      exact hd'.eq_or_lt hx
    · rw [tokenText_of_not_isZero hzero, Finite.tokenText_eq_layout hx]

/-- The negative of `2 ^ -44`, half way between two shortest decimals. -/
def midway : Finite :=
  ⟨true, 2 ^ 52, 978, by decide⟩

/-- Of `5.684341886080801e-14` and `5.684341886080802e-14`, the greater one is written. -/
theorem tokenText_layout_midway :
    midway.isZero = false ∧ (∃ d : Decimal, d.IsShortest midway ∧
      (∀ d' : Decimal, d'.IsShortest midway →
        d' = d ∨ d'.value < d.value ∧ d'.value + d.value = 2 * midway.magnitude) ∧
      (finite midway).tokenText = String.ofList ('-' :: d.layout)) ∧
    (finite midway).tokenText = "-5.684341886080802e-14" :=
  ⟨by decide, tokenText_layout.2.2.2.2 midway (by decide), by decide +kernel⟩

end DesignTokens.Binary64

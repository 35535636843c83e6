import DesignTokens.Decimal.Basic

/-!
# Shortest decimals

The shortest decimal of a double is the decimal with the fewest digits that rounds to it and, of
those with that many digits, the one nearest to it. On the grid of decimals with a given number
of digits only the two neighbours of the double need to be tried: if any grid point rounds to
it, so does one of them.

* `Decimal.below`, `Decimal.above`: the neighbours with a given number of digits.
* `Decimal.withDigits?`: the better neighbour that reads back.
* `Decimal.shortest`: the shortest decimal of a finite double.
-/

namespace DesignTokens

/-- Which of two equally near neighbours is taken. -/
inductive Tie where
  /-- The one whose last digit is even. -/
  | even
  /-- The one further from zero. -/
  | away
deriving DecidableEq, Repr

/-- Whether the neighbour above is taken when both read back, for a number that lies the
fraction `rest / unit` of the way from the neighbour below, whose coefficient is given, to the
one above. -/
def Tie.prefersAbove (tie : Tie) (coefficient rest unit : Nat) : Bool :=
  if 2 * rest < unit then false
  else if unit < 2 * rest then true
  else match tie with
    | .even => coefficient % 2 = 1
    | .away => true

namespace Decimal

/-- The number cut after its first `count` digits. -/
def below (d : Decimal) (count : Nat) : Decimal :=
  let dropped := d.digits.length - count
  ⟨d.coefficient / Nat.pow 10 dropped, d.exponent + dropped⟩

/-- The next number after `below` on the grid of numbers with `count` digits. -/
def above (d : Decimal) (count : Nat) : Decimal :=
  { d.below count with coefficient := (d.below count).coefficient + 1 }

/-- The nearest decimal with `count` digits that rounds to `x`, if one does. -/
def withDigits? (tie : Tie) (x : Binary64.Finite) (count : Nat) : Option Decimal :=
  let exact := ofFinite x
  let low := exact.below count
  let high := exact.above count
  let unit := Nat.pow 10 (exact.digits.length - count)
  let reads (d : Decimal) : Bool := d.toBinary64 x.negative = .finite x
  -- Both may read back, and then the nearer one is taken.
  if reads low then
    if reads high && tie.prefersAbove low.coefficient (exact.coefficient % unit) unit then
      some high
    else some low
  else if reads high then some high
  else none

/-- The decimal with the fewest digits that rounds to `x`, and of those the nearest to it,
without trailing zeros. All the digits of `x` do in any case. -/
def shortest (tie : Tie) (x : Binary64.Finite) : Decimal :=
  let exact := ofFinite x
  let counts := (List.range exact.digits.length).map (· + 1)
  ((counts.findSome? (withDigits? tie x)).getD exact).normalize

end Decimal

end DesignTokens

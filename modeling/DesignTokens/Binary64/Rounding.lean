import DesignTokens.Binary64.Basic

/-!
# Rounding to double precision

Every positive rational `num / den` has a nearest double; of two that are equally near the one
with the even significand is taken, and what lies at or beyond the midpoint above the largest
finite double becomes infinite.

* `roundQuotient`: the nearest integer to a quotient, ties to even.
* `Binary64.nearest`: the nearest double to a rational of either sign.
* `Binary64.ofInt`, `Binary64.mul`, `Binary64.div`: the exact result, rounded once.
-/

namespace DesignTokens

/-- The integer nearest to `num / den`; a quotient halfway between two integers goes to the even
one. -/
def roundQuotient (num den : Nat) : Nat :=
  let below := num / den
  let twice := 2 * (num % den)
  if twice < den then below
  else if den < twice then below + 1
  else if below % 2 = 0 then below
  else below + 1

namespace Binary64

/-- The number with this significand and scale, where a pair that no finite value has stands for
overflow. -/
def ofParts (negative : Bool) (significand scale : Nat) : Binary64 :=
  if h : Canonical significand scale then .finite ⟨negative, significand, scale, h⟩
  else .infinite negative

/-- The double nearest to `num / den` units of `2 ^ -1074`, ties to the even significand. The
scale is the least one at which the significand needs at most 53 bits; when rounding carries
into a 54th bit, the significand is halved. -/
def nearestUnits (negative : Bool) (num den : Nat) : Binary64 :=
  -- Subtraction stops at zero: below `2 ^ 53` units every value has the least scale.
  let scale := Nat.log2 (num / den) - 52
  let significand := roundQuotient num (den <<< scale)
  if significand = 1 <<< 53 then ofParts negative (1 <<< 52) (scale + 1)
  else ofParts negative significand scale

/-- The double nearest to `num / den`, with the given sign. -/
def nearest (negative : Bool) (num den : Nat) : Binary64 :=
  nearestUnits negative (num <<< 1074) den

/-- The double nearest to an integer. -/
def ofInt (n : Int) : Binary64 :=
  nearest (decide (n < 0)) n.natAbs 1

/-- The product, rounded once. An infinity times zero is no number. -/
def mul : Binary64 → Binary64 → Binary64
  | .finite x, .finite y =>
    nearestUnits (x.negative != y.negative) (x.units * y.units) (1 <<< 1074)
  | .infinite s, .infinite t => .infinite (s != t)
  | .infinite s, .finite x => if x.isZero then .nan else .infinite (s != x.negative)
  | .finite x, .infinite s => if x.isZero then .nan else .infinite (x.negative != s)
  | _, _ => .nan

/-- The quotient, rounded once. A nonzero number over zero is infinite; zero over zero and
infinity over infinity are no numbers. -/
def div : Binary64 → Binary64 → Binary64
  | .finite x, .finite y =>
    if y.isZero then
      if x.isZero then .nan else .infinite (x.negative != y.negative)
    else nearest (x.negative != y.negative) x.units y.units
  | .infinite s, .finite x => .infinite (s != x.negative)
  | .finite x, .infinite s => .finite (.zero (x.negative != s))
  | _, _ => .nan

end Binary64

end DesignTokens

import DesignTokens.Binary64.Rounding

/-!
# Decimal numbers

A decimal is a natural number times a power of ten. It is what the digits of a number's text
say, before any rounding.

* `Decimal.digits`: its decimal digits.
* `Decimal.toBinary64`: the double nearest to it.
* `Decimal.ofFinite`: a finite double, exactly.
* `Decimal.normalize`: the form without trailing zeros.
-/

namespace DesignTokens

/-- The number `coefficient * 10 ^ exponent`. -/
structure Decimal where
  coefficient : Nat
  exponent : Int
deriving DecidableEq, Repr

namespace Decimal

/-- The decimal digits of the coefficient. -/
def digits (d : Decimal) : List Char :=
  Nat.toDigits 10 d.coefficient

/-- The exponent of the leading digit, as in scientific notation. -/
def leadingExponent (d : Decimal) : Int :=
  d.digits.length + d.exponent - 1

/-- The double nearest to the decimal, with the given sign. -/
def toBinary64 (negative : Bool) (d : Decimal) : Binary64 :=
  match d.exponent with
  | .ofNat e => .nearest negative (d.coefficient * Nat.pow 10 e) 1
  | .negSucc e => .nearest negative d.coefficient (Nat.pow 10 (e + 1))

/-- The magnitude of a finite double, exactly: `2 ^ -k` is `5 ^ k * 10 ^ -k`. -/
def ofFinite (x : Binary64.Finite) : Decimal :=
  if 1074 ≤ x.scale then ⟨x.significand <<< (x.scale - 1074), 0⟩
  else ⟨x.significand * Nat.pow 5 (1074 - x.scale), (x.scale : Int) - 1074⟩

/-- The same number without trailing zeros in its coefficient; zero is `0 * 10 ^ 0`. -/
def normalize (d : Decimal) : Decimal :=
  go d.coefficient d.exponent
where
  /-- Moves trailing zeros of the coefficient into the exponent. -/
  go (coefficient : Nat) (exponent : Int) : Decimal :=
    if h : coefficient ≠ 0 ∧ coefficient % 10 = 0 then go (coefficient / 10) (exponent + 1)
    else if coefficient = 0 then ⟨0, 0⟩
    else ⟨coefficient, exponent⟩
  termination_by coefficient

end Decimal

end DesignTokens

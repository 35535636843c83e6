import DesignTokens.Decimal.Shortest

/-!
# Number text

How a finite double is written. All layouts write its shortest decimal, positionally where the
exponent of the leading digit is moderate and in scientific notation elsewhere, with an explicit
sign on the exponent and no padding. What differs from one text format to another is gathered in
`NumberStyle`.

* `Decimal.positional`, `Decimal.scientific`: the two notations.
* `Decimal.bareScientific`: scientific notation without a sign on exponents that are not negative.
* `NumberStyle`: where each is used, and the form of whole values and of zero.
* `NumberStyle.text`: the text of a finite double.
-/

namespace DesignTokens

namespace Decimal

/-- Positional notation. `whole` follows a value that has no fraction. -/
def positional (whole : List Char) (d : Decimal) : List Char :=
  let digits := d.digits
  let pointAt := digits.length + d.exponent
  if 0 ≤ d.exponent then digits ++ List.replicate d.exponent.toNat '0' ++ whole
  else if 0 < pointAt then digits.take pointAt.toNat ++ '.' :: digits.drop pointAt.toNat
  else '0' :: '.' :: List.replicate (-pointAt).toNat '0' ++ digits

/-- One digit, and the other digits after a point if there are any. -/
def mantissa (d : Decimal) : List Char :=
  d.digits.take 1 ++ match d.digits.drop 1 with
    | [] => []
    | more => '.' :: more

/-- Scientific notation: the mantissa, and the exponent with its sign. -/
def scientific (d : Decimal) : List Char :=
  let exponent := d.leadingExponent
  d.mantissa ++ 'e' :: (if exponent < 0 then '-' else '+') :: Nat.toDigits 10 exponent.natAbs

/-- Scientific notation with a bare exponent, which has a sign only if it is negative. -/
def bareScientific (d : Decimal) : List Char :=
  let exponent := d.leadingExponent
  d.mantissa ++ 'e' :: ((if exponent < 0 then ['-'] else []) ++ Nat.toDigits 10 exponent.natAbs)

end Decimal

/-- The decisions of a text format about numbers. -/
structure NumberStyle where
  /-- The least exponent of the leading digit that is written positionally. -/
  leastPositional : Int
  /-- The greatest exponent of the leading digit that is written positionally. -/
  greatestPositional : Int
  /-- What follows a positional value without a fraction. -/
  whole : List Char
  /-- Whether zero shows its sign. -/
  signedZero : Bool
  /-- The choice between two shortest decimals that are equally near. -/
  tie : Tie

/-- The text of a finite double. -/
def NumberStyle.text (style : NumberStyle) (x : Binary64.Finite) : List Char :=
  let shortest := Decimal.shortest style.tie x
  let sign := if x.negative && (style.signedZero || !x.isZero) then ['-'] else []
  let exponent := shortest.leadingExponent
  if style.leastPositional ≤ exponent ∧ exponent ≤ style.greatestPositional then
    sign ++ shortest.positional style.whole
  else sign ++ shortest.scientific

end DesignTokens

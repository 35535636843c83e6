import DesignTokens.Decimal.Layout

/-!
# Numbers in tokens

The text of a number in a token: its shortest decimal, without a point on whole values and without a
sign on zero. Magnitudes from `1e-6` up to, but not including, `1e21` are written positionally, and
all others in scientific notation with an explicit sign on the exponent.

* `leastPositional`, `leastScientific`: the doubles at which the notation changes.
* `withExponentSign`: the sign that is put in front of a bare exponent.
* `Binary64.tokenText`: the text of a number.
-/

namespace DesignTokens

/-- The least magnitude that is written positionally, the double nearest to `1e-6`. -/
def leastPositional : Binary64.Finite :=
  ⟨false, 0x10c6f7a0b5ed8d, 1002, by decide⟩

/-- The least magnitude beyond those written positionally, `1e21`. -/
def leastScientific : Binary64.Finite :=
  ⟨false, 0x1b1ae4d6e2ef50, 1091, by decide⟩

/-- Puts a plus sign in front of the exponent of a text, unless there is a minus sign. -/
def withExponentSign (text : List Char) : List Char :=
  match text.dropWhile (· ≠ 'e') with
  | [] => text
  | _ :: exponent =>
    if exponent.head? = some '-' then text
    else text.takeWhile (· ≠ 'e') ++ 'e' :: '+' :: exponent

/-- The text of a finite number other than zero. Of two shortest decimals that are equally near,
the one further from zero is taken. Which notation is used is decided by the magnitude of the
number, not by that of the decimal. -/
def Binary64.Finite.tokenText (x : Binary64.Finite) : List Char :=
  let shortest := Decimal.shortest .away x
  let sign := if x.negative then ['-'] else []
  if leastPositional.units ≤ x.units ∧ x.units < leastScientific.units then
    sign ++ shortest.positional []
  else withExponentSign (sign ++ shortest.bareScientific)

/-- The text of a number in a token. -/
def Binary64.tokenText : Binary64 → String
  | .nan => "NaN"
  | .infinite false => "Infinity"
  | .infinite true => "-Infinity"
  | .finite x => if x.isZero then "0" else String.ofList x.tokenText

-- 0.1, 1e20, 1e21, 1.5e-7 and negative zero.
example : (Binary64.ofBits 0x3fb999999999999a).tokenText = "0.1" := by decide +kernel

example : (Binary64.ofBits 0x4415af1d78b58c40).tokenText = "100000000000000000000" := by
  decide +kernel

example : (Binary64.ofBits 0x444b1ae4d6e2ef50).tokenText = "1e+21" := by decide +kernel

example : (Binary64.ofBits 0x3e8421f5f40d8376).tokenText = "1.5e-7" := by decide +kernel

example : (Binary64.ofBits 0x8000000000000000).tokenText = "0" := by decide +kernel

end DesignTokens

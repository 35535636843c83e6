import DesignTokens.Decimal.Basic

/-!
# Decimal literals

A literal is a sign, digits, a fraction and an exponent, of which only the digits must be there. It
denotes a decimal with a sign, exactly.

* `Decimal.takeSign`: the sign in front of a number.
* `Decimal.readFraction?`, `Decimal.readExponent?`: what may follow the digits.
* `Decimal.readLiteral?`: the sign and the decimal of a text that is one literal.
-/

namespace DesignTokens.Decimal

/-- Whether there is a minus sign in front of a text, and the text without its sign. -/
def takeSign (text : List Char) : Bool × List Char :=
  match text with
  | '-' :: unsigned => (true, unsigned)
  | '+' :: unsigned => (false, unsigned)
  | _ => (false, text)

/-- The digits after a point, if there is one, and the rest of the text. There is no point without
digits after it. -/
def readFraction? (text : List Char) : Option (List Char × List Char) :=
  match text with
  | '.' :: fraction =>
    if fraction.takeWhile Char.isDigit = [] then none
    else some (fraction.takeWhile Char.isDigit, fraction.dropWhile Char.isDigit)
  | _ => some ([], text)

/-- The exponent that a text is, zero if it is empty. The mark of an exponent is followed by an
optional sign and by digits. -/
def readExponent? (text : List Char) : Option Int :=
  match text with
  | [] => some 0
  | mark :: exponent =>
    let (negative, digits) := takeSign exponent
    if (mark = 'e' ∨ mark = 'E') ∧ digits ≠ [] ∧ digits.all Char.isDigit then
      some (if negative then -(Nat.ofDigitChars 10 digits 0) else Nat.ofDigitChars 10 digits 0)
    else none

/-- Whether a literal has a minus sign, and its decimal; nothing if the text is not a literal. -/
def readLiteral? (text : List Char) : Option (Bool × Decimal) := do
  let (negative, unsigned) := takeSign text
  let whole := unsigned.takeWhile Char.isDigit
  let (fraction, rest) ← readFraction? (unsigned.dropWhile Char.isDigit)
  let exponent ← readExponent? rest
  if whole = [] then none
  else
    some (negative, ⟨Nat.ofDigitChars 10 (whole ++ fraction) 0, exponent - fraction.length⟩)

-- -12.50e-3 is -1250 * 10 ^ -5; a point or a mark of an exponent needs digits behind it.
example : readLiteral? "-12.50e-3".toList = some (true, ⟨1250, -5⟩) := by decide +kernel

example : ["", "-", "1.", ".5", "1e", "1e+", "1x"].map (readLiteral? ·.toList) =
    List.replicate 7 none := by
  decide +kernel

end DesignTokens.Decimal

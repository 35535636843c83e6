import DesignTokens.Binary64.Rounding
import DesignTokens.Binary64.Whole

/-!
# Numbers of a JSON document

A number without fraction and exponent that fits a 64-bit word, signed or unsigned, is kept as
an integer; every other number is a finite double. The two never count as equal, whatever their
values.
-/

namespace DesignTokens.Json

/-- A number of a JSON document. -/
inductive Number where
  /-- An integer of 64 bits, signed or unsigned: at least `-2 ^ 63` and below `2 ^ 64`. -/
  | int (value : Int) (inRange : -0x8000000000000000 ≤ value ∧ value < 0x10000000000000000)
  /-- A finite double. -/
  | float (value : Binary64.Finite)
deriving DecidableEq

namespace Number

/-- The integer as a number, if it fits 64 bits. -/
def ofInt? (value : Int) : Option Number :=
  if h : -0x8000000000000000 ≤ value ∧ value < 0x10000000000000000 then some (.int value h)
  else none

/-- The number of a signed word. -/
def ofInt64 (value : Int64) : Number :=
  .int value.toInt (by have := value.le_toInt; have := value.toInt_lt; omega)

/-- The number of an unsigned word. -/
def ofUInt64 (value : UInt64) : Number :=
  .int value.toNat (by have := value.toNat_lt; omega)

/-- The double `2 ^ 53`. All integers up to there are doubles, so none of those below is the rounded
value of another. -/
def exactBound : Binary64.Finite :=
  ⟨false, 1 <<< 52, 1075, by decide⟩

/-- The number of a finite double: an integer if the double is one below `2 ^ 53` in magnitude, and
otherwise the double itself. -/
def ofFinite (x : Binary64.Finite) : Number :=
  if x.isWhole ∧ x.units < exactBound.units then ofInt64 x.toInt64 else .float x

/-- The nearest double to the number. -/
def toBinary64 : Number → Binary64
  | .int value _ => .ofInt value
  | .float value => .finite value

/-- Integers are equal to equal integers and doubles to equal doubles. -/
instance : BEq Number where
  beq
    | .int a _, .int b _ => a == b
    | .float x, .float y => x == y
    | _, _ => false

end Number

end DesignTokens.Json

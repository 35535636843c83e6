import DesignTokens.Binary64.Basic

/-!
# Whole numbers among the doubles

A double without a fraction is an integer, and is cast to a signed word of 64 bits. The cast never
fails: it drops a fraction, and takes what no word can hold to the nearest end of their range.

* `Binary64.Finite.isWhole`: whether a value has no fraction.
* `Binary64.Finite.truncated`: the value without its fraction.
* `Binary64.Finite.toInt64`: the cast.
-/

namespace DesignTokens.Binary64.Finite

/-- Whether the value has no fraction. -/
def isWhole (x : Finite) : Bool :=
  x.units % (1 <<< 1074) == 0

/-- The value without its fraction. -/
def truncated (x : Finite) : Int :=
  let whole : Int := ((x.units >>> 1074 : Nat) : Int)
  if x.negative then -whole else whole

/-- The signed word that a value is cast to. A fraction is dropped, and a value that no word can
hold becomes the least or the greatest word. -/
def toInt64 (x : Finite) : Int64 :=
  .ofIntClamp x.truncated

end DesignTokens.Binary64.Finite

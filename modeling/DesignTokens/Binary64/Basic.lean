/-!
# Double-precision numbers

The values of the binary floating-point format of 64 bits: 53 significant bits and exponents
down to `2 ^ -1074`, with signed zeros, two infinities and one `nan` standing for every bit
pattern that is not a number.

* `Binary64.Finite`: a finite value in its one canonical form.
* `Binary64.ofBits`, `Binary64.bits`: the interchange encoding.
* `BEq Binary64`: comparison of numbers, under which both zeros are equal and `nan` equals
  nothing.
-/

namespace DesignTokens

namespace Binary64

/-- The pair is the normal form of a magnitude: either the significand has all its 53 bits, or
the scale is the least one and the significand may be shorter. -/
def Canonical (significand scale : Nat) : Prop :=
  significand < 1 <<< 53 ∧ scale ≤ 2045 ∧ (1 <<< 52 ≤ significand ∨ scale = 0)

instance (significand scale : Nat) : Decidable (Canonical significand scale) := by
  unfold Canonical
  infer_instance

/-- A finite value: `significand * 2 ^ scale` units of `2 ^ -1074`, with a sign. -/
structure Finite where
  /-- Whether the sign bit is set; zero has both signs. -/
  negative : Bool
  /-- The significant bits. -/
  significand : Nat
  /-- The binary exponent over that of the least positive value. -/
  scale : Nat
  canonical : Canonical significand scale
deriving DecidableEq

namespace Finite

/-- The magnitude counted in units of `2 ^ -1074`, of which every finite value is a multiple. -/
def units (x : Finite) : Nat :=
  x.significand <<< x.scale

/-- Zero of the given sign. -/
def zero (negative : Bool) : Finite :=
  ⟨negative, 0, 0, by decide⟩

/-- Whether the value is a zero of either sign. -/
def isZero (x : Finite) : Bool :=
  x.significand == 0

/-- The value with the other sign. -/
def neg (x : Finite) : Finite :=
  { x with negative := !x.negative }

/-- Equality of values: the zeros of both signs are equal. -/
instance : BEq Finite where
  beq x y := decide (x = y) || (x.isZero && y.isZero)

/-- A value is equal to another exactly when they are the same or both are zeros. -/
theorem beq_iff {x y : Finite} : (x == y) = true ↔ x = y ∨ (x.isZero ∧ y.isZero) := by
  simp [BEq.beq]

end Finite

end Binary64

/-- A double-precision number. -/
inductive Binary64 where
  /-- Not a number. -/
  | nan
  /-- Infinity of the given sign. -/
  | infinite (negative : Bool)
  /-- A finite value. -/
  | finite (value : Binary64.Finite)
deriving DecidableEq

namespace Binary64

/-- The finite value, if the number is one. -/
def finite? : Binary64 → Option Finite
  | .finite x => some x
  | _ => none

/-- The number with the other sign. -/
def neg : Binary64 → Binary64
  | .nan => .nan
  | .infinite negative => .infinite !negative
  | .finite x => .finite x.neg

/-- Equality of numbers: `nan` differs from everything, itself included, and the zeros of both
signs are equal. -/
instance : BEq Binary64 where
  beq
    | .infinite s, .infinite t => s == t
    | .finite x, .finite y => x == y
    | _, _ => false

/-- The number that a word encodes: a sign bit, eleven bits of biased exponent and 52 bits of
fraction. -/
def ofBits (word : UInt64) : Binary64 :=
  let negative := decide (1 <<< 63 ≤ word.toNat)
  let exponent := (word.toNat >>> 52) % 2048
  let fraction := word.toNat % (1 <<< 52)
  have short : fraction < 1 <<< 52 := Nat.mod_lt _ (by decide)
  if huge : exponent = 2047 then
    if fraction = 0 then .infinite negative else .nan
  else if tiny : exponent = 0 then
    .finite ⟨negative, fraction, 0, by unfold Canonical; omega⟩
  else
    .finite ⟨negative, (1 <<< 52) + fraction, exponent - 1, by unfold Canonical; omega⟩

/-- The word that encodes a number; `nan` gets its quiet pattern with a clear sign. -/
def bits : Binary64 → UInt64
  | .nan => 0x7ff8000000000000
  | .infinite negative => .ofNat (signBit negative + (2047 <<< 52))
  | .finite x =>
    if x.significand < 1 <<< 52 then .ofNat (signBit x.negative + x.significand)
    else .ofNat (signBit x.negative + (x.scale <<< 52) + x.significand)
where
  /-- The weight of the sign bit in a word. -/
  signBit (negative : Bool) : Nat := if negative then 1 <<< 63 else 0

end Binary64

end DesignTokens

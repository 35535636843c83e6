import DesignTokens.Json.Number
import DesignTokens.Json.Reader.Basic

/-!
# Reading numbers

A number is read in two steps: its parts are taken off the text, and then valued. The value of a
number that is no integer is the nearest double in simple cases only. At most the digits that
fit an unsigned word of 64 bits are used, the digits become the nearest double, and that is
multiplied or divided by a double power of ten; each of these steps rounds.

* `Json.NumberParts.read`: the parts of a number.
* `Json.absorb`: the digits used and those left over.
* `Json.scaleByPowerOfTen?`: the rounded scaling.
* `Json.readNumber`: a number off the front of a text.
-/

namespace DesignTokens.Json

/-- The parts of a number's text. A fraction or an exponent that is there has at least one
digit. -/
structure NumberParts where
  negative : Bool
  /-- The digits before the point. -/
  whole : List Char
  /-- The digits after the point; empty when there is no point. -/
  fraction : List Char
  /-- Whether the exponent is negative, and its digits. -/
  exponent? : Option (Bool × List Char)
deriving DecidableEq, Repr

/-- The value of a decimal digit. -/
def digitValue (c : Char) : Nat :=
  c.toNat - '0'.toNat

/-- Extends a number by digits as long as it does not exceed the limit, and returns the digits
left over too. -/
def absorb (limit : Nat) (start : Nat) : List Char → Nat × List Char
  | [] => (start, [])
  | c :: digits =>
    let next := start * 10 + digitValue c
    if limit < next then (start, c :: digits) else absorb limit next digits

/-- The double nearest to a power of ten. -/
def powerOfTen (k : Nat) : Binary64 :=
  .nearest false (Nat.pow 10 k) 1

/-- Divides by a power of ten, by `10 ^ 308` at a time. -/
def shrink (x : Binary64) (k : Nat) : Binary64 :=
  if k ≤ 308 then x.div (powerOfTen k)
  else if x = .finite (.zero false) then x
  else shrink (x.div (powerOfTen 308)) (k - 308)
termination_by k

/-- Multiplies a positive double or zero by a power of ten, rounding at each step; nothing if
the result is too large. -/
def scaleByPowerOfTen? (x : Binary64) (exponent : Int) : Option Binary64.Finite :=
  -- A negative exponent leads to zero at worst, so only a positive one can be out of range.
  if exponent < 0 then (shrink x exponent.natAbs).finite?
  else if exponent ≤ 308 then (x.mul (powerOfTen exponent.natAbs)).finite?
  else if x = .finite (.zero false) then some (.zero false)
  else none

namespace NumberParts

/-- The integer that the parts denote, when there is neither fraction nor exponent and it fits
64 bits. Zero with a sign is not an integer. -/
def integer? (parts : NumberParts) : Option Number :=
  if parts.fraction.isEmpty && parts.exponent?.isNone then
    match absorb 0xffffffffffffffff 0 parts.whole with
    | (n, []) =>
      if parts.negative then if n = 0 then none else Number.ofInt? (-n)
      else Number.ofInt? n
    | _ => none
  else none

/-- The value of the parts, or the exponent digits that were not needed to find it out of
range. -/
def value (parts : NumberParts) : Except (List Char) Number :=
  match parts.integer? with
  | some n => .ok n
  | none =>
    let signed (x : Binary64.Finite) : Number := .float (if parts.negative then x.neg else x)
    -- A digit left over before the point counts as a power of ten, one used after it as an inverse.
    let (significand, wholeLeft) := absorb 0xffffffffffffffff 0 parts.whole
    let (significand, fractionLeft) := absorb 0xffffffffffffffff significand parts.fraction
    let shift : Int := wholeLeft.length + fractionLeft.length - parts.fraction.length
    let scaled (exponent : Int) : Except (List Char) Number :=
      match scaleByPowerOfTen? (.nearest false significand 1) exponent with
      | some x => .ok (signed x)
      | none => .error []
    match parts.exponent? with
    | none => scaled shift
    | some (negative, digits) =>
      match absorb 0x7fffffff 0 digits with
      | (e, []) => scaled (if negative then shift - e else shift + e)
      -- An exponent that does not fit 32 bits decides the value without the digits that follow.
      | (_, _ :: unused) =>
        if significand = 0 || negative then .ok (signed (.zero false)) else .error unused

end NumberParts

/-- The digits at the front of a text, and the rest. -/
def spanDigits (text : List Char) : List Char × List Char :=
  (text.takeWhile Char.isDigit, text.dropWhile Char.isDigit)

/-- Reads the digits before the point: a zero alone, or digits that start with another. -/
def readWhole (text : List Char) : Except Stop (List Char × List Char) :=
  match text with
  | [] => stopAt .endInValue []
  | '0' :: rest =>
    match rest with
    | c :: _ => if c.isDigit then stopAt .invalidNumber rest else .ok (['0'], rest)
    | [] => .ok (['0'], rest)
  | c :: _ => if c.isDigit then .ok (spanDigits text) else stopAt .invalidNumber text

/-- Reads the digits that must stand at the front of a text. -/
def readDigits (text : List Char) : Except Stop (List Char × List Char) :=
  let read := spanDigits text
  if read.1 ≠ [] then .ok read
  else stopAt (if read.2.isEmpty then .endInValue else .invalidNumber) read.2

/-- Reads a point and the digits after it, if there is a point. -/
def readFraction (text : List Char) : Except Stop (List Char × List Char) :=
  match text with
  | '.' :: rest => readDigits rest
  | _ => .ok ([], text)

/-- Reads the sign and the digits of an exponent. -/
def readSignedDigits (text : List Char) : Except Stop ((Bool × List Char) × List Char) :=
  match text with
  | '+' :: rest => (readDigits rest).map fun read => ((false, read.1), read.2)
  | '-' :: rest => (readDigits rest).map fun read => ((true, read.1), read.2)
  | _ => (readDigits text).map fun read => ((false, read.1), read.2)

/-- Reads the mark of an exponent, its sign and its digits, if the mark is there. -/
def readExponent (text : List Char) : Except Stop (Option (Bool × List Char) × List Char) :=
  match text with
  | 'e' :: rest => (readSignedDigits rest).map fun read => (some read.1, read.2)
  | 'E' :: rest => (readSignedDigits rest).map fun read => (some read.1, read.2)
  | _ => .ok (none, text)

/-- Reads the parts of a number after its sign. -/
def NumberParts.readUnsigned (negative : Bool) (text : List Char) :
    Except Stop (NumberParts × List Char) := do
  let (whole, afterWhole) ← readWhole text
  let (fraction, afterFraction) ← readFraction afterWhole
  let (exponent?, rest) ← readExponent afterFraction
  return (⟨negative, whole, fraction, exponent?⟩, rest)

/-- Reads the parts of a number. -/
def NumberParts.read (text : List Char) : Except Stop (NumberParts × List Char) :=
  match text with
  | '-' :: rest => readUnsigned true rest
  | _ => readUnsigned false text

/-- The rest after some digits is no longer than the text. -/
theorem length_spanDigits_le (text : List Char) :
    (spanDigits text).2.length ≤ text.length :=
  (List.dropWhile_sublist _).length_le

/-- The rest after at least one digit is shorter than the text. -/
theorem length_spanDigits_lt {text : List Char} (h : (spanDigits text).1 ≠ []) :
    (spanDigits text).2.length < text.length := by
  cases text with
  | nil => simp [spanDigits] at h
  | cons c rest =>
    by_cases hc : c.isDigit
    · have := length_spanDigits_le rest
      simp only [spanDigits, List.dropWhile_cons, hc, if_true, List.length_cons] at this ⊢
      omega
    · simp [spanDigits, hc] at h

/-- Required digits leave a shorter text. -/
theorem length_lt_of_readDigits {text digits rest : List Char}
    (h : readDigits text = .ok (digits, rest)) : rest.length < text.length := by
  unfold readDigits at h
  dsimp only at h
  split at h
  · next hne =>
    have := length_spanDigits_lt hne
    rw [Except.ok.inj h] at this
    exact this
  · simp [stopAt] at h

/-- The digits before the point leave a shorter text. -/
theorem length_lt_of_readWhole {text whole rest : List Char}
    (h : readWhole text = .ok (whole, rest)) : rest.length < text.length := by
  unfold readWhole at h
  split at h
  · simp [stopAt] at h
  · split at h
    · split at h
      · simp [stopAt] at h
      · simp only [Except.ok.injEq, Prod.mk.injEq] at h
        simp [← h.2]
    · simp only [Except.ok.injEq, Prod.mk.injEq] at h
      simp [← h.2]
  · split at h
    · next c r _ hc =>
      simp only [Except.ok.injEq] at h
      have := @length_spanDigits_lt (c :: r) (by simp [spanDigits, hc])
      rw [h] at this
      exact this
    · simp [stopAt] at h

/-- A fraction leaves a text that is no longer. -/
theorem length_le_of_readFraction {text fraction rest : List Char}
    (h : readFraction text = .ok (fraction, rest)) : rest.length ≤ text.length := by
  unfold readFraction at h
  split at h
  · have := length_lt_of_readDigits h
    simp only [List.length_cons]
    omega
  · simp only [Except.ok.injEq, Prod.mk.injEq] at h
    simp [← h.2]

/-- The digits of an exponent leave a shorter text. -/
theorem length_lt_of_map_readDigits {negative : Bool} {text rest : List Char} {e : Bool × List Char}
    (h : ((readDigits text).map fun read => ((negative, read.1), read.2)) = .ok (e, rest)) :
    rest.length < text.length := by
  cases hd : readDigits text with
  | error stop => simp [hd, Except.map] at h
  | ok read =>
    simp only [hd, Except.map, Except.ok.injEq, Prod.mk.injEq] at h
    rw [← h.2]
    exact length_lt_of_readDigits hd

/-- The sign and digits of an exponent leave a shorter text. -/
theorem length_lt_of_readSignedDigits {text rest : List Char} {e : Bool × List Char}
    (h : readSignedDigits text = .ok (e, rest)) : rest.length < text.length := by
  unfold readSignedDigits at h
  split at h
  · exact Nat.lt_succ_of_lt (length_lt_of_map_readDigits h)
  · exact Nat.lt_succ_of_lt (length_lt_of_map_readDigits h)
  · exact length_lt_of_map_readDigits h

/-- An exponent leaves a text that is no longer. -/
theorem length_le_of_readExponent {text rest : List Char} {e : Option (Bool × List Char)}
    (h : readExponent text = .ok (e, rest)) : rest.length ≤ text.length := by
  have mapped (s : List Char)
      (h : ((readSignedDigits s).map fun read => (some read.1, read.2)) = .ok (e, rest)) :
      rest.length < s.length := by
    cases hs : readSignedDigits s with
    | error stop => simp [hs, Except.map] at h
    | ok read =>
      simp only [hs, Except.map, Except.ok.injEq, Prod.mk.injEq] at h
      rw [← h.2]
      exact length_lt_of_readSignedDigits hs
  unfold readExponent at h
  split at h
  · exact Nat.le_succ_of_le (Nat.le_of_lt (mapped _ h))
  · exact Nat.le_succ_of_le (Nat.le_of_lt (mapped _ h))
  · simp only [Except.ok.injEq, Prod.mk.injEq] at h
    simp [← h.2]

/-- A number without a sign leaves a shorter text. -/
theorem NumberParts.length_lt_of_readUnsigned {negative : Bool} {text rest : List Char}
    {parts : NumberParts} (h : NumberParts.readUnsigned negative text = .ok (parts, rest)) :
    rest.length < text.length := by
  unfold NumberParts.readUnsigned at h
  cases hw : readWhole text with
  | error stop => simp [hw, bind, Except.bind] at h
  | ok w =>
    cases hf : readFraction w.2 with
    | error stop => simp [hw, hf, bind, Except.bind] at h
    | ok f =>
      cases he : readExponent f.2 with
      | error stop => simp [hw, hf, he, bind, Except.bind] at h
      | ok e =>
        simp only [hw, hf, he, bind, Except.bind, pure, Except.pure, Except.ok.injEq,
          Prod.mk.injEq] at h
        have := length_lt_of_readWhole hw
        have := length_le_of_readFraction hf
        have := length_le_of_readExponent he
        rw [← h.2]
        omega

/-- A number leaves a shorter text. -/
theorem NumberParts.length_lt_of_read {text rest : List Char} {parts : NumberParts}
    (h : NumberParts.read text = .ok (parts, rest)) : rest.length < text.length := by
  unfold NumberParts.read at h
  split at h
  · exact Nat.lt_succ_of_lt (length_lt_of_readUnsigned h)
  · exact length_lt_of_readUnsigned h

/-- Reads a number. -/
def readNumber (text : List Char) : Reading Number text :=
  match h : NumberParts.read text with
  | .error stop => .error stop
  | .ok (parts, rest) =>
    match parts.value with
    | .ok n => .ok ⟨n, rest, NumberParts.length_lt_of_read h⟩
    | .error unused => .error ⟨.numberOutOfRange, unused ++ rest, 0⟩

end DesignTokens.Json

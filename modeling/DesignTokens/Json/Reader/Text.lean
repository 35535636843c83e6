import DesignTokens.Json.Quoted
import DesignTokens.Json.Reader.Basic

/-!
# Reading strings

The characters of a string up to its closing quote. A character outside the basic plane may be
escaped as two surrogates; a surrogate that is not half of such a pair is a fault.
-/

namespace DesignTokens.Json

/-- The value of a hexadecimal digit, in letters of either case. -/
def hexValue? (c : Char) : Option Nat :=
  if '0' ≤ c ∧ c ≤ '9' then some (c.toNat - '0'.toNat)
  else if 'a' ≤ c ∧ c ≤ 'f' then some (c.toNat - 'a'.toNat + 10)
  else if 'A' ≤ c ∧ c ≤ 'F' then some (c.toNat - 'A'.toNat + 10)
  else none

/-- The value of hexadecimal digits, extending a number. -/
def hexNumber? (start : Nat) : List Char → Option Nat
  | [] => some start
  | c :: digits =>
    match hexValue? c with
    | some n => hexNumber? (start * 16 + n) digits
    | none => none

/-- Reads four hexadecimal digits. All four bytes are taken before any of them is judged. -/
def readHex (text : List Char) : Reading Nat text :=
  match text with
  | a :: b :: c :: d :: rest =>
    match hexNumber? 0 [a, b, c, d] with
    | some n => .ok ⟨n, rest, by simp only [List.length_cons]; omega⟩
    | none => .error ⟨.invalidEscape, text, 4⟩
  | _ =>
    if Fault.byteCount text < 4 then stopAt .endInString []
    else .error ⟨.invalidEscape, text, 4⟩

/-- Whether a unit is the first of a pair of surrogates. -/
def isLeadingSurrogate (unit : Nat) : Bool :=
  0xd800 ≤ unit && unit ≤ 0xdbff

/-- Whether a unit is the second of a pair of surrogates. -/
def isTrailingSurrogate (unit : Nat) : Bool :=
  0xdc00 ≤ unit && unit ≤ 0xdfff

/-- The character of a pair of surrogates. -/
def surrogatePair (leading trailing : Nat) : Char :=
  Char.ofNat (0x10000 + (leading - 0xd800) * 0x400 + (trailing - 0xdc00))

/-- Reads the second half of a pair of surrogates, with its escape, after the first. -/
def readTrailing (leading : Nat) (text : List Char) : Reading Char text :=
  match text with
  | [] => stopAt .endInString []
  | ['\\'] => stopAt .endInString []
  | '\\' :: 'u' :: rest =>
    match readHex rest with
    | .error stop => .error stop
    | .ok ⟨trailing, after, h⟩ =>
      if isTrailingSurrogate trailing then
        .ok ⟨surrogatePair leading trailing, after, by simp only [List.length_cons]; omega⟩
      else .error ⟨.loneSurrogate, after, 0⟩
  | '\\' :: rest => stopAt .unpairedSurrogate rest
  | _ => stopAt .unpairedSurrogate text

/-- Reads the digits of an escaped code point, and its second half where there is one. -/
def readCodePoint (text : List Char) : Reading Char text :=
  match readHex text with
  | .error stop => .error stop
  | .ok ⟨unit, rest, h⟩ =>
    if isTrailingSurrogate unit then .error ⟨.loneSurrogate, rest, 0⟩
    else if isLeadingSurrogate unit then (readTrailing unit rest).widen (Nat.le_of_lt h)
    else .ok ⟨Char.ofNat unit, rest, h⟩

/-- Reads what follows the backslash of an escape. -/
def readEscape (text : List Char) : Reading Char text :=
  match text with
  | [] => stopAt .endInString []
  | 'u' :: rest => (readCodePoint rest).widen (Nat.le_succ _)
  | letter :: rest =>
    match Quoted.decodeLetter? letter with
    | some c => .ok ⟨c, rest, Nat.lt_succ_self _⟩
    | none => stopAt .invalidEscape text

/-- Reads the characters of a string after its opening quote, and the closing quote. -/
def readQuoted (text : List Char) : Reading (List Char) text :=
  match text with
  | [] => stopAt .endInString []
  | c :: rest =>
    if c = '"' then .ok ⟨[], rest, Nat.lt_succ_self _⟩
    else if c = '\\' then
      match readEscape rest with
      | .error stop => .error stop
      | .ok ⟨escaped, after, _⟩ =>
        ((readQuoted after).map (escaped :: ·)).widen (by simp only [List.length_cons]; omega)
    else if c.toNat < 0x20 then stopAt .controlCharacter text
    else ((readQuoted rest).map (c :: ·)).widen (Nat.le_succ _)
termination_by text.length

end DesignTokens.Json

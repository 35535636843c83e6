import DesignTokens.Json.Reader.Text
import Mathlib.Tactic.SplitIfs

/-!
# Reading back strings

What is written between quotes is read as the text it was written for, whatever follows the
closing quote. A character takes one of three ways: through an escape by a letter, through one by
its code point, or as it is.

* `Json.Reading.Yields`: a reading that ends well, with its value and the rest it leaves.
* `Json.Quoted.yields_encodeChar`: the written form of one character is read as that character.
* `Json.Quoted.yields_encode`: the written form of a text is read as that text.
-/

namespace DesignTokens.Json

namespace Reading

variable {α β : Type} {text rest : List Char} {reading : Reading α text} {value : α}

/-- The reading ends well, with this value and this rest of the text. -/
def Yields (reading : Reading α text) (value : α) (rest : List Char) : Prop :=
  ∃ shorter, reading = .ok ⟨value, rest, shorter⟩

theorem Yields.map (h : reading.Yields value rest) (f : α → β) :
    (reading.map f).Yields (f value) rest := by
  obtain ⟨shorter, rfl⟩ := h
  exact ⟨shorter, rfl⟩

theorem Yields.widen (h : reading.Yields value rest) {long : List Char}
    (hlong : text.length ≤ long.length) : (reading.widen hlong).Yields value rest := by
  obtain ⟨shorter, rfl⟩ := h
  exact ⟨Nat.lt_of_lt_of_le shorter hlong, rfl⟩

end Reading

namespace Quoted

variable {text rest after : List Char} {c : Char} {chars : List Char}

/-! ## Productions -/

/-- The closing quote ends a string. -/
theorem yields_quote (rest : List Char) : (readQuoted ('"' :: rest)).Yields [] rest := by
  refine ⟨Nat.lt_succ_self _, ?_⟩
  rw [readQuoted]
  rfl

/-- An escape is read as one character of the string. -/
theorem yields_escape (hescape : (readEscape text).Yields c after)
    (hchars : (readQuoted after).Yields chars rest) :
    (readQuoted ('\\' :: text)).Yields (c :: chars) rest := by
  obtain ⟨shorter, hescape⟩ := hescape
  rw [readQuoted]
  simp only [Char.reduceEq, if_false, if_true, hescape]
  exact (hchars.map _).widen _

/-- A character that needs no escape stands for itself. -/
theorem yields_plain (hquote : c ≠ '"') (hbackslash : c ≠ '\\') (hcontrol : ¬ c.toNat < 0x20)
    (hchars : (readQuoted text).Yields chars rest) :
    (readQuoted (c :: text)).Yields (c :: chars) rest := by
  rw [readQuoted]
  simp only [hquote, hbackslash, hcontrol, if_false]
  exact (hchars.map _).widen _

/-- An escape by a letter stands for its character. -/
theorem yields_letter {letter : Char} (h : decodeLetter? letter = some c) (rest : List Char) :
    (readEscape (letter :: rest)).Yields c rest := by
  refine ⟨Nat.lt_succ_self _, ?_⟩
  have hletter : letter ≠ 'u' := by
    rintro rfl
    exact nomatch h
  rw [readEscape]
  · simp only [h]
  · exact hletter

/-- A hexadecimal digit has its value. -/
theorem hexValue?_hexDigit : ∀ n < 16, hexValue? (hexDigit n) = some n := by
  decide

/-- An escape by a code point below that of a blank stands for the character. -/
theorem yields_control (h : c.toNat < 0x20) (rest : List Char) :
    (readEscape ('u' :: '0' :: '0' :: hexDigit (c.toNat / 16) :: hexDigit (c.toNat % 16) ::
      rest)).Yields c rest := by
  have hnumber : hexNumber? 0 ['0', '0', hexDigit (c.toNat / 16), hexDigit (c.toNat % 16)] =
      some c.toNat := by
    have hhigh := hexValue?_hexDigit (c.toNat / 16) (by omega)
    have hlow := hexValue?_hexDigit (c.toNat % 16) (by omega)
    have hzero : hexValue? '0' = some 0 := rfl
    simp only [hexNumber?, hzero, hhigh, hlow, Option.some.injEq]
    omega
  -- Such a code point is no surrogate.
  have htrailing : isTrailingSurrogate c.toNat = false := by
    simp [isTrailingSurrogate]
    omega
  have hleading : isLeadingSurrogate c.toNat = false := by
    simp [isLeadingSurrogate]
    omega
  rw [readEscape]
  refine Reading.Yields.widen ⟨by simp only [List.length_cons]; omega, ?_⟩ _
  simp only [readCodePoint, readHex, hnumber, htrailing, hleading, Char.ofNat_toNat, if_false,
    Bool.false_eq_true]

/-! ## Whole texts -/

/-- A character is written as an escape by a letter, as one by its code point, or as it is. -/
theorem encodeChar_cases (c : Char) :
    (∃ letter, encodeChar c = ['\\', letter] ∧ decodeLetter? letter = some c) ∨
    (encodeChar c = ['\\', 'u', '0', '0', hexDigit (c.toNat / 16), hexDigit (c.toNat % 16)] ∧
      c.toNat < 0x20) ∨
    (encodeChar c = [c] ∧ c ≠ '"' ∧ c ≠ '\\' ∧ ¬ c.toNat < 0x20) := by
  unfold encodeChar
  split_ifs with hquote hbackslash hnewline hreturn htab hbackspace hfeed hcontrol
  · exact .inl ⟨'"', rfl, congrArg some hquote.symm⟩
  · exact .inl ⟨'\\', rfl, congrArg some hbackslash.symm⟩
  · exact .inl ⟨'n', rfl, congrArg some hnewline.symm⟩
  · exact .inl ⟨'r', rfl, congrArg some hreturn.symm⟩
  · exact .inl ⟨'t', rfl, congrArg some htab.symm⟩
  · exact .inl ⟨'b', rfl, congrArg some hbackspace.symm⟩
  · exact .inl ⟨'f', rfl, congrArg some hfeed.symm⟩
  · exact .inr (.inl ⟨rfl, hcontrol⟩)
  · exact .inr (.inr ⟨rfl, hquote, hbackslash, hcontrol⟩)

/-- The written form of a character is read as that character. -/
theorem yields_encodeChar (c : Char) (hchars : (readQuoted text).Yields chars rest) :
    (readQuoted (encodeChar c ++ text)).Yields (c :: chars) rest := by
  obtain ⟨letter, hform, hletter⟩ | ⟨hform, hcontrol⟩ | ⟨hform, hquote, hbackslash, hcontrol⟩ :=
    encodeChar_cases c
  · rw [hform]
    exact yields_escape (yields_letter hletter text) hchars
  · rw [hform]
    exact yields_escape (yields_control hcontrol text) hchars
  · rw [hform]
    exact yields_plain hquote hbackslash hcontrol hchars

/-- A text is read back from its written form, up to the closing quote. -/
theorem yields_encode (chars rest : List Char) :
    (readQuoted (encode chars ++ '"' :: rest)).Yields chars rest := by
  induction chars with
  | nil => exact yields_quote rest
  | cons c chars ih =>
    rw [encode, List.flatMap_cons, List.append_assoc]
    exact yields_encodeChar c ih

end Quoted

end DesignTokens.Json

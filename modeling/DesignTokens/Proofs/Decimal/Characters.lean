import DesignTokens.Conversion.NumberText
import Mathlib.Data.Nat.Digits.Defs

/-!
# The characters of number text

A finite number is written with digits, signs, a point and the mark of an exponent. So the mark is
where a text in scientific notation can be split, and no text of a finite number is that of an
infinity or of no number.

* `takeWhile_isDigit_append`: digits are taken off a text.
* `Decimal.withExponentSign_bareScientific`: a bare exponent gets its sign.
* `Binary64.Finite.tokenText_eq`: the text of a finite number, in one of two notations.
* `Binary64.Finite.mem_tokenText`: the characters that can occur.
* `Binary64.tokenText_finite_not_mem`: the text of a finite number in a token.
-/

namespace DesignTokens

/-- Digits are taken off up to what is no digit. -/
theorem takeWhile_isDigit_append {digits rest : List Char}
    (hdigits : ∀ c ∈ digits, c.isDigit = true)
    (hrest : ∀ c ∈ rest.head?, c.isDigit = false) :
    (digits ++ rest).takeWhile Char.isDigit = digits ∧
      (digits ++ rest).dropWhile Char.isDigit = rest := by
  rw [List.takeWhile_append_of_pos hdigits, List.dropWhile_append_of_pos hdigits]
  cases rest with
  | nil => exact ⟨List.append_nil digits, rfl⟩
  | cons c rest =>
    have hc := hrest c rfl
    rw [List.takeWhile_cons_of_neg (by simp [hc]), List.dropWhile_cons_of_neg (by simp [hc])]
    exact ⟨List.append_nil digits, rfl⟩

namespace Decimal

variable {d : Decimal} {c : Char}

/-- The digits of a decimal are digits. -/
theorem isDigit_of_mem_digits (h : c ∈ d.digits) : c.isDigit = true :=
  Nat.isDigit_of_mem_toDigits (by decide) (by decide) h

/-- Zeros that fill up a decimal are digits. -/
theorem isDigit_of_mem_replicate {count : Nat} (h : c ∈ List.replicate count '0') :
    c.isDigit = true := by
  rw [List.eq_of_mem_replicate h]
  decide

/-- In positional notation there is at most a point besides the digits. -/
theorem mem_positional {whole : List Char} (h : c ∈ d.positional whole) :
    c.isDigit = true ∨ c = '.' ∨ c ∈ whole := by
  simp only [positional] at h
  -- The point would stand after all digits, or it stands among them, or in front of them all.
  split_ifs at h with hwhole hinside
  · simp only [List.mem_append] at h
    rcases h with (hdigit | hzero) | hend
    · exact .inl (isDigit_of_mem_digits hdigit)
    · exact .inl (isDigit_of_mem_replicate hzero)
    · exact .inr (.inr hend)
  · simp only [List.mem_append, List.mem_cons] at h
    rcases h with hbefore | hpoint | hafter
    · exact .inl (isDigit_of_mem_digits (List.mem_of_mem_take hbefore))
    · exact .inr (.inl hpoint)
    · exact .inl (isDigit_of_mem_digits (List.mem_of_mem_drop hafter))
  · simp only [List.cons_append, List.mem_cons, List.mem_append] at h
    rcases h with rfl | hpoint | hzero | hdigit
    · exact .inl (by decide)
    · exact .inr (.inl hpoint)
    · exact .inl (isDigit_of_mem_replicate hzero)
    · exact .inl (isDigit_of_mem_digits hdigit)

/-- In the mantissa there is at most a point besides the digits. -/
theorem mem_mantissa (h : c ∈ d.mantissa) : c.isDigit = true ∨ c = '.' := by
  rcases List.mem_append.mp h with hfirst | hfraction
  · exact .inl (isDigit_of_mem_digits (List.mem_of_mem_take hfirst))
  · -- The point is left out if there are no more digits.
    split at hfraction
    · exact nomatch hfraction
    · rcases List.mem_cons.mp hfraction with hpoint | hdigit
      · exact .inr hpoint
      · exact .inl (isDigit_of_mem_digits (List.mem_of_mem_drop hdigit))

/-- In scientific notation there are a point, the mark of the exponent and its sign. -/
theorem mem_scientific (h : c ∈ d.scientific) : c.isDigit = true ∨ c ∈ ['.', 'e', '-', '+'] := by
  simp only [scientific, List.mem_append, List.mem_cons] at h
  rcases h with hmantissa | rfl | hsign | hexponent
  · rcases mem_mantissa hmantissa with hdigit | rfl
    · exact .inl hdigit
    · exact .inr (by decide)
  · exact .inr (by decide)
  · right
    split at hsign
    · rw [hsign]
      decide
    · rw [hsign]
      decide
  · exact .inl (Nat.isDigit_of_mem_toDigits (by decide) (by decide) hexponent)

/-- In scientific notation the digits, and the point among them, stand before the mark of the
exponent, which has a plus sign if it has no minus sign. -/
theorem withExponentSign_bareScientific (d : Decimal) {sign : List Char} (h : 'e' ∉ sign) :
    withExponentSign (sign ++ d.bareScientific) = sign ++ d.scientific := by
  -- Up to the mark there are only the sign, digits and a point.
  have hbefore : ∀ c ∈ sign ++ d.mantissa, decide (c ≠ 'e') = true := by
    intro c hc
    refine decide_eq_true ?_
    rintro rfl
    rcases List.mem_append.mp hc with hsign | hmantissa
    · exact h hsign
    · exact absurd (mem_mantissa hmantissa) (by decide)
  simp only [bareScientific, scientific]
  generalize d.leadingExponent = exponent
  rw [withExponentSign, ← List.append_assoc, List.dropWhile_append_of_pos hbefore,
    List.takeWhile_append_of_pos hbefore, List.dropWhile_cons_of_neg (by decide),
    List.takeWhile_cons_of_neg (by decide), List.append_nil]
  by_cases hnegative : exponent < 0
  · simp [hnegative]
  · -- A bare exponent starts with a digit.
    have hhead : (Nat.toDigits 10 exponent.natAbs).head? ≠ some '-' := by
      intro hhead
      have hdigit := Nat.isDigit_of_mem_toDigits (by decide) (by decide)
        (List.mem_of_mem_head? hhead)
      exact absurd hdigit (by decide)
    simp [hnegative, hhead]

end Decimal

namespace Binary64

/-- The text of a finite number other than zero is its shortest decimal behind its sign, in one of
two notations. -/
theorem Finite.tokenText_eq (x : Finite) :
    x.tokenText = (if x.negative then ['-'] else []) ++
      if leastPositional.units ≤ x.units ∧ x.units < leastScientific.units then
        (Decimal.shortest .away x).positional []
      else (Decimal.shortest .away x).scientific := by
  have hsign : 'e' ∉ (if x.negative then ['-'] else []) := by
    cases x.negative <;> decide
  simp only [tokenText]
  split
  · rfl
  · rw [Decimal.withExponentSign_bareScientific _ hsign]

/-- The text of a finite number has no other characters than digits, signs, a point and the mark of
an exponent. -/
theorem Finite.mem_tokenText {x : Finite} {c : Char} (h : c ∈ x.tokenText) :
    c.isDigit = true ∨ c ∈ ['.', 'e', '-', '+'] := by
  rw [tokenText_eq] at h
  rcases List.mem_append.mp h with hsign | hc
  · split at hsign
    · rw [List.mem_singleton.mp hsign]
      exact .inr (by decide)
    · exact nomatch hsign
  · split at hc
    · rcases Decimal.mem_positional hc with hdigit | rfl | hwhole
      · exact .inl hdigit
      · exact .inr (by decide)
      · exact nomatch hwhole
    · exact Decimal.mem_scientific hc

/-- The text of a zero shows no sign. -/
theorem tokenText_of_isZero {x : Finite} (h : x.isZero = true) : (finite x).tokenText = "0" := by
  rw [tokenText, if_pos h]

theorem tokenText_of_not_isZero {x : Finite} (h : x.isZero = false) :
    (finite x).tokenText = String.ofList x.tokenText := by
  rw [tokenText, h, if_neg Bool.false_ne_true]

/-- The text of a finite number is neither that of no number nor that of an infinity. -/
theorem tokenText_finite_not_mem (x : Finite) :
    (Binary64.finite x).tokenText ∉ ["NaN", "Infinity", "-Infinity"] := by
  intro h
  -- Each of the three texts has a capital letter that no finite number has.
  have hletter : ∀ c ∈ (Binary64.finite x).tokenText.toList, c ≠ 'N' ∧ c ≠ 'I' := by
    intro c hc
    rw [tokenText] at hc
    have hchar : c.isDigit = true ∨ c ∈ ['.', 'e', '-', '+'] := by
      split at hc
      · rw [List.mem_singleton.mp hc]
        exact .inl (by decide)
      · rw [String.toList_ofList] at hc
        exact Finite.mem_tokenText hc
    constructor
    · rintro rfl
      exact absurd hchar (by decide)
    · rintro rfl
      exact absurd hchar (by decide)
  simp only [List.mem_cons, List.not_mem_nil, or_false] at h
  rcases h with h | h | h
  · exact (hletter 'N' (h ▸ by decide)).1 rfl
  · exact (hletter 'I' (h ▸ by decide)).2 rfl
  · exact (hletter 'I' (h ▸ by decide)).2 rfl

end Binary64

end DesignTokens

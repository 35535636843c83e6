import DesignTokens.Json.Reader.Number
import DesignTokens.Json.Writer
import DesignTokens.Proofs.Decimal.Characters
import DesignTokens.Proofs.Json.Strings

/-!
# Reading back integers

An integer of 64 bits, signed or unsigned, is read from its digits as the integer it is, unless
what follows goes on with the number: a digit, a point or the mark of an exponent.

* `Json.NumberEnd`: a rest that does not go on with a number.
* `Json.absorb_eq_ofDigitChars`: digits of a number up to the limit are all used.
* `Json.yields_integerText`: the text of an integer is read as that integer.
-/

namespace DesignTokens.Json

variable {rest : List Char}

/-- The text does not start with what would go on with an integer. -/
def NumberEnd (rest : List Char) : Prop :=
  ∀ c ∈ rest.head?, c.isDigit = false ∧ c ≠ '.' ∧ c ≠ 'e' ∧ c ≠ 'E'

/-! ## Digits of a natural number -/

/-- Digits that are followed by something else are taken off together. -/
theorem spanDigits_append {digits : List Char} (hdigits : ∀ c ∈ digits, c.isDigit = true)
    (hrest : NumberEnd rest) : spanDigits (digits ++ rest) = (digits, rest) := by
  obtain ⟨htake, hdrop⟩ := takeWhile_isDigit_append hdigits fun c hc => (hrest c hc).1
  rw [spanDigits, htake, hdrop]

/-- A natural number starts with a digit. -/
theorem exists_front_toDigits (n : Nat) :
    ∃ c digits, Nat.toDigits 10 n = c :: digits ∧ c.isDigit = true := by
  obtain ⟨c, digits, hform⟩ := List.exists_cons_of_ne_nil (Nat.toDigits_ne_nil (n := n) (b := 10))
  have hmem : c ∈ Nat.toDigits 10 n := hform ▸ List.mem_cons_self
  exact ⟨c, digits, hform, Nat.isDigit_of_mem_toDigits (by decide) (by decide) hmem⟩

/-- Only zero is written with a zero in front. -/
theorem head?_toDigits_ne_zero {n : Nat} (h : n ≠ 0) : (Nat.toDigits 10 n).head? ≠ some '0' := by
  induction n using Nat.strongRecOn with
  | ind n ih =>
    by_cases hlt : n < 10
    · have digit : ∀ d < 10, d ≠ 0 → [Nat.digitChar d].head? ≠ some '0' := by decide
      rw [Nat.toDigits_of_lt_base hlt]
      exact digit n hlt h
    · -- The digits of a tenth come first.
      have hlead := ih (n / 10) (by omega) (by omega)
      obtain ⟨c, digits, hform, -⟩ := exists_front_toDigits (n / 10)
      rw [Nat.toDigits_of_base_le (by decide) (Nat.le_of_not_lt hlt), hform]
      rw [hform] at hlead
      exact hlead

/-- The digits of a natural number are what stands before the point. -/
theorem readWhole_toDigits (n : Nat) (hrest : NumberEnd rest) :
    readWhole (Nat.toDigits 10 n ++ rest) = .ok (Nat.toDigits 10 n, rest) := by
  have hdigits : ∀ c ∈ Nat.toDigits 10 n, c.isDigit = true :=
    fun c => Nat.isDigit_of_mem_toDigits (by decide) (by decide)
  by_cases hn : n = 0
  · subst hn
    rw [Nat.toDigits_zero]
    cases rest with
    | nil => rfl
    | cons c rest => simp [readWhole, (hrest c rfl).1]
  · -- A zero in front would have to stand alone.
    have hhead := head?_toDigits_ne_zero hn
    have hspan := spanDigits_append hdigits hrest
    obtain ⟨c, digits, hform, hdigit⟩ := exists_front_toDigits n
    rw [hform] at hhead hspan ⊢
    have hzero : c ≠ '0' := fun h => hhead (congrArg some h)
    rw [List.cons_append] at hspan ⊢
    rw [readWhole]
    · rw [if_pos hdigit, hspan]
    · exact hzero

theorem readFraction_of_numberEnd (hrest : NumberEnd rest) :
    readFraction rest = .ok ([], rest) := by
  unfold readFraction
  split
  · exact absurd rfl (hrest '.' rfl).2.1
  · rfl

theorem readExponent_of_numberEnd (hrest : NumberEnd rest) :
    readExponent rest = .ok (none, rest) := by
  unfold readExponent
  split
  · exact absurd rfl (hrest 'e' rfl).2.2.1
  · exact absurd rfl (hrest 'E' rfl).2.2.2
  · rfl

/-- The parts of an integer's text are its sign and its digits. -/
theorem readUnsigned_toDigits (negative : Bool) (n : Nat) (hrest : NumberEnd rest) :
    NumberParts.readUnsigned negative (Nat.toDigits 10 n ++ rest) =
      .ok (⟨negative, Nat.toDigits 10 n, [], none⟩, rest) := by
  simp only [NumberParts.readUnsigned, readWhole_toDigits n hrest,
    readFraction_of_numberEnd hrest, readExponent_of_numberEnd hrest, bind, Except.bind, pure,
    Except.pure]

/-! ## The value of digits -/

/-- A digit is worth its value, and ten times what stands before it. -/
theorem ofDigitChars_cons (c : Char) (digits : List Char) (start : Nat) :
    Nat.ofDigitChars 10 (c :: digits) start =
      Nat.ofDigitChars 10 digits (start * 10 + digitValue c) := by
  rw [Nat.ofDigitChars_cons, Nat.mul_comm]
  rfl

/-- Further digits make a number no smaller. -/
theorem le_ofDigitChars (digits : List Char) (start : Nat) :
    start ≤ Nat.ofDigitChars 10 digits start := by
  induction digits generalizing start with
  | nil => exact Nat.le_refl start
  | cons c digits ih =>
    rw [ofDigitChars_cons]
    have := ih (start * 10 + digitValue c)
    omega

/-- Digits of a number that does not exceed the limit are all used. -/
theorem absorb_eq_ofDigitChars {limit start : Nat} {digits : List Char}
    (h : Nat.ofDigitChars 10 digits start ≤ limit) :
    absorb limit start digits = (Nat.ofDigitChars 10 digits start, []) := by
  induction digits generalizing start with
  | nil => rfl
  | cons c digits ih =>
    rw [ofDigitChars_cons] at h ⊢
    have hle := le_ofDigitChars digits (start * 10 + digitValue c)
    -- The number with this digit is no greater than with all of them.
    have hnext : ¬ limit < start * 10 + digitValue c := by omega
    simp only [absorb, if_neg hnext]
    exact ih h

/-- The digits of a number of 64 bits are all used. -/
theorem absorb_toDigits {n : Nat} (h : n ≤ 0xffffffffffffffff) :
    absorb 0xffffffffffffffff 0 (Nat.toDigits 10 n) = (n, []) := by
  have hvalue : Nat.ofDigitChars 10 (Nat.toDigits 10 n) 0 = n := Nat.ofDigitChars_ten_toDigits
  rw [absorb_eq_ofDigitChars (by rw [hvalue]; exact h), hvalue]

/-- Digits without a fraction and an exponent have an integer as their value, but not those of
zero behind a sign. -/
theorem value_of_toDigits {negative : Bool} {n : Nat} {number : Number}
    (hn : n ≤ 0xffffffffffffffff) (hzero : negative = true → n ≠ 0)
    (hnumber : Number.ofInt? (if negative then -n else n) = some number) :
    NumberParts.value ⟨negative, Nat.toDigits 10 n, [], none⟩ = .ok number := by
  have hinteger : NumberParts.integer? ⟨negative, Nat.toDigits 10 n, [], none⟩ = some number := by
    cases negative with
    | false => simpa [NumberParts.integer?, absorb_toDigits hn] using hnumber
    | true => simpa [NumberParts.integer?, absorb_toDigits hn, hzero rfl] using hnumber
  simp only [NumberParts.value, hinteger]

/-! ## Integers -/

/-- An integer starts with its sign or a digit. -/
theorem exists_front_integerText (value : Int) :
    ∃ c digits, integerText value = c :: digits ∧ (c = '-' ∨ c.isDigit = true) := by
  rw [integerText]
  split
  · exact ⟨'-', _, rfl, .inl rfl⟩
  · obtain ⟨c, digits, hform, hdigit⟩ := exists_front_toDigits value.natAbs
    exact ⟨c, digits, hform, .inr hdigit⟩

/-- A number is read once its parts are. -/
theorem readNumber_yields {text : List Char} {parts : NumberParts} {number : Number}
    (hparts : NumberParts.read text = .ok (parts, rest)) (hvalue : parts.value = .ok number) :
    (readNumber text).Yields number rest := by
  refine ⟨NumberParts.length_lt_of_read hparts, ?_⟩
  unfold readNumber
  split
  · next stop hstop => exact nomatch hparts.symm.trans hstop
  · next parts' rest' hread =>
    obtain ⟨rfl, rfl⟩ := Prod.mk.inj (Except.ok.inj (hparts.symm.trans hread))
    simp only [hvalue]

/-- The parts of an integer's text, for either sign. -/
theorem read_integerText (value : Int) (hrest : NumberEnd rest) :
    NumberParts.read (integerText value ++ rest) =
      .ok (⟨decide (value < 0), Nat.toDigits 10 value.natAbs, [], none⟩, rest) := by
  rw [integerText]
  by_cases hneg : value < 0
  · rw [if_pos hneg, List.cons_append, NumberParts.read, readUnsigned_toDigits true _ hrest,
      decide_eq_true hneg]
  · rw [if_neg hneg, decide_eq_false hneg, ← readUnsigned_toDigits false _ hrest]
    unfold NumberParts.read
    split
    · next after hminus =>
      -- A sign in front would be a digit.
      obtain ⟨c, digits, hform, hdigit⟩ := exists_front_toDigits value.natAbs
      rw [hform, List.cons_append] at hminus
      rw [(List.cons.inj hminus).1] at hdigit
      exact absurd hdigit (by decide)
    · rfl

/-- An integer is read back from its text. -/
theorem yields_integerText {value : Int}
    (inRange : -0x8000000000000000 ≤ value ∧ value < 0x10000000000000000)
    (hrest : NumberEnd rest) :
    (readNumber (integerText value ++ rest)).Yields (.int value inRange) rest := by
  refine readNumber_yields (read_integerText value hrest) (value_of_toDigits (by omega) ?_ ?_)
  · intro hneg
    have := of_decide_eq_true hneg
    omega
  · have hsigned :
        (if decide (value < 0) then -(value.natAbs : Int) else value.natAbs) = value := by
      by_cases hneg : value < 0
      · rw [if_pos (decide_eq_true hneg)]
        omega
      · rw [if_neg (by simpa using hneg)]
        omega
    rw [hsigned, Number.ofInt?, dif_pos inRange]

end DesignTokens.Json

import DesignTokens.Decimal.Literal
import DesignTokens.Proofs.Decimal.Characters
import DesignTokens.Proofs.Decimal.Layout

/-!
# Reading back the notations of a decimal

Both notations are literals. The digits of a decimal are read as its coefficient, wherever the point
stands among them, and the exponent makes up for those behind the point.

* `Decimal.readLiteral?_parts`: reading digits, a fraction and an exponent.
* `Decimal.readLiteral?_positional`, `Decimal.readLiteral?_scientific`: the notations denote the
  decimal.
-/

namespace DesignTokens.Decimal

variable {d : Decimal} {whole fraction rest : List Char}

/-- Digits have no sign in front of them. -/
theorem takeSign_digits (hne : whole ≠ []) (hwhole : ∀ c ∈ whole, c.isDigit = true) :
    takeSign (whole ++ rest) = (false, whole ++ rest) := by
  obtain ⟨c, digits, rfl⟩ := List.exists_cons_of_ne_nil hne
  have hc := hwhole c List.mem_cons_self
  unfold takeSign
  split
  · next h =>
    rw [(List.cons.inj h).1] at hc
    exact absurd hc (by decide)
  · next h =>
    rw [(List.cons.inj h).1] at hc
    exact absurd hc (by decide)
  · rfl

/-- The sign of a number is taken off its digits. -/
theorem takeSign_sign (negative : Bool) (hne : whole ≠ [])
    (hwhole : ∀ c ∈ whole, c.isDigit = true) :
    takeSign ((if negative then ['-'] else []) ++ (whole ++ rest)) = (negative, whole ++ rest) := by
  cases negative with
  | true => rfl
  | false =>
    rw [if_neg Bool.false_ne_true, List.nil_append]
    exact takeSign_digits hne hwhole

/-- An exponent is read from its mark, its sign and its digits. -/
theorem readExponent?_signed (exponent : ℤ) :
    readExponent? ('e' :: (if exponent < 0 then '-' else '+') ::
      Nat.toDigits 10 exponent.natAbs) = some exponent := by
  have hdigits : (Nat.toDigits 10 exponent.natAbs).all Char.isDigit = true :=
    List.all_eq_true.mpr fun c => Nat.isDigit_of_mem_toDigits (by decide) (by decide)
  have hvalue : Nat.ofDigitChars 10 (Nat.toDigits 10 exponent.natAbs) 0 = exponent.natAbs :=
    Nat.ofDigitChars_ten_toDigits
  have hsign : takeSign ((if exponent < 0 then '-' else '+') :: Nat.toDigits 10 exponent.natAbs) =
      (decide (exponent < 0), Nat.toDigits 10 exponent.natAbs) := by
    split
    · next h => rw [decide_eq_true h, takeSign]
    · next h => rw [decide_eq_false h, takeSign]
  simp only [readExponent?, hsign, hvalue]
  rw [if_pos ⟨.inl trivial, Nat.toDigits_ne_nil, hdigits⟩]
  simp only [decide_eq_true_eq, Option.some.injEq]
  split <;> omega

/-- A fraction is read up to the mark of an exponent, or to the end. -/
theorem readFraction?_append (hfraction : ∀ c ∈ fraction, c.isDigit = true)
    (hrest : ∀ c ∈ rest.head?, c = 'e') :
    readFraction? ((if fraction = [] then [] else '.' :: fraction) ++ rest) =
      some (fraction, rest) := by
  split
  · next h =>
    rw [h, List.nil_append]
    unfold readFraction?
    split
    · exact absurd (hrest '.' rfl) (by decide)
    · rfl
  · next h =>
    have hend : ∀ c ∈ rest.head?, c.isDigit = false := fun c hc => hrest c hc ▸ by decide
    obtain ⟨htake, hdrop⟩ := takeWhile_isDigit_append hfraction hend
    simp only [List.cons_append, readFraction?, htake, hdrop, if_neg h]

/-- A literal is read as the number that its digits are, with the exponent less the number of digits
after the point. -/
theorem readLiteral?_parts (negative : Bool) (whole fraction rest : List Char) {exponent : ℤ}
    (hne : whole ≠ []) (hwhole : ∀ c ∈ whole, c.isDigit = true)
    (hfraction : ∀ c ∈ fraction, c.isDigit = true) (hrest : ∀ c ∈ rest.head?, c = 'e')
    (hexponent : readExponent? rest = some exponent) :
    readLiteral? ((if negative then ['-'] else []) ++
        (whole ++ ((if fraction = [] then [] else '.' :: fraction) ++ rest))) =
      some (negative, ⟨Nat.ofDigitChars 10 (whole ++ fraction) 0, exponent - fraction.length⟩) := by
  have hpoint : ∀ c ∈ ((if fraction = [] then [] else '.' :: fraction) ++ rest).head?,
      c.isDigit = false := by
    intro c hc
    split at hc
    · exact hrest c hc ▸ by decide
    · rw [← Option.some.inj hc]
      decide
  obtain ⟨htake, hdrop⟩ := takeWhile_isDigit_append hwhole hpoint
  simp only [readLiteral?, takeSign_sign negative hne hwhole, htake, hdrop,
    readFraction?_append hfraction hrest, hexponent, bind, Option.bind, if_neg hne]

/-- Digits alone are a literal. -/
theorem readLiteral?_whole (negative : Bool) (hne : whole ≠ [])
    (hwhole : ∀ c ∈ whole, c.isDigit = true) :
    readLiteral? ((if negative then ['-'] else []) ++ whole) =
      some (negative, ⟨Nat.ofDigitChars 10 whole 0, 0⟩) := by
  have hread := readLiteral?_parts negative whole [] [] hne hwhole (by simp) (by simp) rfl
  simpa using hread

/-- So are digits with a point among them. -/
theorem readLiteral?_point (negative : Bool) (hne : whole ≠ [])
    (hwhole : ∀ c ∈ whole, c.isDigit = true) (hpoint : fraction ≠ [])
    (hfraction : ∀ c ∈ fraction, c.isDigit = true) :
    readLiteral? ((if negative then ['-'] else []) ++ (whole ++ '.' :: fraction)) =
      some (negative, ⟨Nat.ofDigitChars 10 (whole ++ fraction) 0, -fraction.length⟩) := by
  have hread := readLiteral?_parts negative whole fraction [] hne hwhole hfraction (by simp) rfl
  simpa [hpoint] using hread

/-! ## The notations -/

theorem ofDigitChars_digits (d : Decimal) : Nat.ofDigitChars 10 d.digits 0 = d.coefficient :=
  Nat.ofDigitChars_ten_toDigits

theorem digits_ne_nil (d : Decimal) : d.digits ≠ [] :=
  Nat.toDigits_ne_nil

/-- Zeros behind the digits multiply the coefficient by a power of ten. -/
theorem value_ofDigitChars_append_zeros (h : 0 ≤ d.exponent) :
    value ⟨Nat.ofDigitChars 10 (d.digits ++ List.replicate d.exponent.toNat '0') 0, 0⟩ =
      d.value := by
  rw [Nat.ofDigitChars_append, Nat.ofDigitChars_replicate_zero, ofDigitChars_digits, value, value,
    zpow_zero, mul_one]
  conv_rhs => rw [← Int.toNat_of_nonneg h, zpow_natCast]
  push_cast
  ring

/-- Positional notation denotes the decimal. -/
theorem readLiteral?_positional (negative : Bool) (d : Decimal) :
    ∃ d' : Decimal, d'.value = d.value ∧
      readLiteral? ((if negative then ['-'] else []) ++ d.positional []) = some (negative, d') := by
  have hdigits : ∀ c ∈ d.digits, c.isDigit = true := fun c => isDigit_of_mem_digits
  by_cases hwhole : 0 ≤ d.exponent
  · refine ⟨_, value_ofDigitChars_append_zeros hwhole, ?_⟩
    have hform : d.positional [] = d.digits ++ List.replicate d.exponent.toNat '0' := by
      simp [positional, hwhole]
    rw [hform]
    refine readLiteral?_whole negative (List.append_ne_nil_of_left_ne_nil d.digits_ne_nil _) ?_
    exact fun c hc => (List.mem_append.mp hc).elim (hdigits c) isDigit_of_mem_replicate
  · refine ⟨d, rfl, ?_⟩
    by_cases hinside : 0 < d.digits.length + d.exponent
    · -- The point divides the digits, and there are some on both sides of it.
      have hform : d.positional [] = d.digits.take (d.digits.length + d.exponent).toNat ++
          '.' :: d.digits.drop (d.digits.length + d.exponent).toNat := by
        simp [positional, hwhole, hinside]
      have hbefore : d.digits.take (d.digits.length + d.exponent).toNat ≠ [] := by
        rw [Ne, List.take_eq_nil_iff]
        exact not_or.mpr ⟨by omega, d.digits_ne_nil⟩
      have hafter : d.digits.drop (d.digits.length + d.exponent).toNat ≠ [] := by
        rw [Ne, List.drop_eq_nil_iff]
        omega
      have hplaces : -((d.digits.drop (d.digits.length + d.exponent).toNat).length : ℤ) =
          d.exponent := by
        rw [List.length_drop]
        omega
      rw [hform, readLiteral?_point negative hbefore
        (fun c hc => hdigits c (List.mem_of_mem_take hc)) hafter
        (fun c hc => hdigits c (List.mem_of_mem_drop hc)), List.take_append_drop,
        ofDigitChars_digits, hplaces]
    · -- Zeros between the point and the digits count as places only.
      have hform : d.positional [] = ['0'] ++
          '.' :: (List.replicate (-(d.digits.length + d.exponent)).toNat '0' ++ d.digits) := by
        simp [positional, hwhole, hinside]
      have hplaces : -((List.replicate (-(d.digits.length + d.exponent)).toNat '0' ++
          d.digits).length : ℤ) = d.exponent := by
        rw [List.length_append, List.length_replicate]
        omega
      have hvalue : Nat.ofDigitChars 10 (['0'] ++
          (List.replicate (-(d.digits.length + d.exponent)).toNat '0' ++ d.digits)) 0 =
          d.coefficient := by
        rw [← List.append_assoc, List.singleton_append, ← List.replicate_succ,
          Nat.ofDigitChars_append, Nat.ofDigitChars_replicate_zero, Nat.mul_zero,
          ofDigitChars_digits]
      have hzero : ∀ c ∈ ['0'], c.isDigit = true := by
        intro c hc
        rw [List.mem_singleton.mp hc]
        decide
      rw [hform, readLiteral?_point negative (List.cons_ne_nil _ _) hzero
        (List.append_ne_nil_of_right_ne_nil _ d.digits_ne_nil)
        (fun c hc => (List.mem_append.mp hc).elim isDigit_of_mem_replicate (hdigits c)), hvalue,
        hplaces]

/-- Scientific notation denotes the decimal. -/
theorem readLiteral?_scientific (negative : Bool) (d : Decimal) :
    readLiteral? ((if negative then ['-'] else []) ++ d.scientific) = some (negative, d) := by
  have hdigits : ∀ c ∈ d.digits, c.isDigit = true := fun c => isDigit_of_mem_digits
  have hfirst : d.digits.take 1 ≠ [] := by
    rw [Ne, List.take_eq_nil_iff]
    exact not_or.mpr ⟨Nat.one_ne_zero, d.digits_ne_nil⟩
  have hread := readLiteral?_parts negative (d.digits.take 1) (d.digits.drop 1) _ hfirst
    (fun c hc => hdigits c (List.mem_of_mem_take hc))
    (fun c hc => hdigits c (List.mem_of_mem_drop hc)) (by simp)
    (readExponent?_signed d.leadingExponent)
  have hform : d.scientific = d.digits.take 1 ++
      ((if d.digits.drop 1 = [] then [] else '.' :: d.digits.drop 1) ++
        'e' :: (if d.leadingExponent < 0 then '-' else '+') ::
          Nat.toDigits 10 d.leadingExponent.natAbs) := by
    simp only [scientific, mantissa, List.append_assoc]
    split <;> simp_all
  rw [hform, hread, List.take_append_drop, ofDigitChars_digits]
  have hexponent : d.leadingExponent - (d.digits.drop 1).length = d.exponent := by
    have := d.length_digits_pos
    rw [List.length_drop, leadingExponent]
    omega
  rw [hexponent]

end DesignTokens.Decimal

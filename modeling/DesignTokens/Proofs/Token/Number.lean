import DesignTokens.Proofs.Binary64.Whole
import DesignTokens.Token.Basic

/-!
# Doubles and integers as tokens

A finite double becomes an integer if it is one below `2 ^ 53` in magnitude, where every integer is a
double of its own, and else stays a double. So nothing is lost, and different doubles never become
equal tokens.

* `Json.Number.ofFinite_cases`: the two forms that the number of a double can have.
* `Json.Number.ofFinite_beq`: numbers of doubles are equal as the doubles are.
* `Json.Number.ofFinite_beq_int_iff`: an integer and its nearest double are one number below `2 ^ 53`
  only.
* `Token.ofBinary64_lossless`: the same of tokens.
-/

namespace DesignTokens

open Binary64 (Finite)

namespace Json.Number

/-- The bound is the double `2 ^ 53`. -/
theorem exactBound_magnitude : exactBound.magnitude = (2 ^ 53 : ℕ) :=
  Finite.magnitude_eq_natCast_iff.mpr (by decide +kernel)

/-- A double whose value is an integer is below the bound if the integer is. -/
theorem units_lt_exactBound_iff {x : Finite} {n : ℤ} (h : x.value = n) :
    x.units < exactBound.units ↔ n.natAbs < 2 ^ 53 := by
  rw [← not_le, ← Finite.magnitude_le_iff, exactBound_magnitude, Finite.magnitude_eq_natAbs h,
    Nat.cast_le, not_le]

/-- The number of a double is an integer, and then the cast is exact, or the double is no integer
below `2 ^ 53` in magnitude and is kept. -/
theorem ofFinite_cases (x : Finite) :
    (∃ n : ℤ, x.value = n ∧ n.natAbs < 2 ^ 53 ∧ x.toInt64.toInt = n ∧
      ofFinite x = ofInt64 x.toInt64) ∨
    (¬ ∃ n : ℤ, x.value = n ∧ n.natAbs < 2 ^ 53) ∧ ofFinite x = .float x := by
  unfold ofFinite
  by_cases h : x.isWhole = true ∧ x.units < exactBound.units
  · have hvalue := Finite.value_eq_truncated h.1
    have hlt := (units_lt_exactBound_iff hvalue).mp h.2
    -- Below `2 ^ 53` there is a signed word for every integer.
    refine .inl ⟨x.truncated, hvalue, hlt, ?_, if_pos h⟩
    exact Finite.toInt_toInt64 hvalue (by omega) (by omega)
  · refine .inr ⟨?_, if_neg h⟩
    rintro ⟨n, hvalue, hlt⟩
    exact h ⟨Finite.isWhole_of_value_eq hvalue, (units_lt_exactBound_iff hvalue).mpr hlt⟩

/-- The number of a double is near the double itself, up to the sign of zero. -/
theorem exists_toBinary64_ofFinite (x : Finite) :
    ∃ y, (ofFinite x).toBinary64 = .finite y ∧ (y == x) = true := by
  rcases ofFinite_cases x with ⟨n, hvalue, hlt, hcast, hnumber⟩ | ⟨-, hnumber⟩
  · obtain ⟨y, hy⟩ := Binary64.exists_ofInt_eq_finite (n := n) (by omega)
    refine ⟨y, ?_, ?_⟩
    · rw [hnumber, ofInt64, toBinary64, hcast, hy]
    · rw [Finite.beq_iff_value_eq, Binary64.value_of_ofInt hy hlt, hvalue]
  · exact ⟨x, by rw [hnumber, toBinary64], Finite.beq_iff_value_eq.mpr rfl⟩

/-- Numbers of doubles are equal as the doubles are. -/
theorem ofFinite_beq (x y : Finite) : (ofFinite x == ofFinite y) = (x == y) := by
  rw [Bool.eq_iff_iff]
  rcases ofFinite_cases x with ⟨n, hx, hn, hcast, hnumber⟩ | ⟨hx, hnumber⟩ <;>
    rcases ofFinite_cases y with ⟨m, hy, hm, hcast', hnumber'⟩ | ⟨hy, hnumber'⟩ <;>
    rw [hnumber, hnumber']
  · -- Both casts are exact, so the integers are equal as the values are.
    show (x.toInt64.toInt == y.toInt64.toInt) = true ↔ _
    rw [beq_iff_eq, hcast, hcast', Finite.beq_iff_value_eq, hx, hy, Int.cast_inj]
  · -- An integer is not equal to a double, and only one of the two is an integer below the bound.
    refine iff_of_false Bool.false_ne_true fun hequal => hy ⟨n, ?_, hn⟩
    rw [← Finite.beq_iff_value_eq.mp hequal, hx]
  · refine iff_of_false Bool.false_ne_true fun hequal => hx ⟨m, ?_, hm⟩
    rw [Finite.beq_iff_value_eq.mp hequal, hy]
  · exact Iff.rfl

/-- The number of the double nearest to an integer is the integer, if this is below `2 ^ 53` in
magnitude. From there on it is no integer. -/
theorem ofFinite_beq_int_iff {n : ℤ} {x : Finite} (hx : Binary64.ofInt n = .finite x)
    (inRange : -0x8000000000000000 ≤ n ∧ n < 0x10000000000000000) :
    (ofFinite x == .int n inRange) = true ↔ n.natAbs < 2 ^ 53 := by
  rcases ofFinite_cases x with ⟨m, hvalue, hm, hcast, hnumber⟩ | ⟨hkept, hnumber⟩
  · -- Rounding does not go below the bound, so that the integer was below it before.
    have hn : n.natAbs < 2 ^ 53 := by
      by_contra hlarge
      have hbound : exactBound.magnitude ≤ n.natAbs := by
        rw [exactBound_magnitude, Nat.cast_le]
        exact not_lt.mp hlarge
      have hunits := Binary64.units_le_of_ofInt hx hbound
      exact absurd ((units_lt_exactBound_iff hvalue).mpr hm) (not_lt.mpr hunits)
    have hequal : x.toInt64.toInt = n := by
      rw [hcast, ← Int.cast_inj (α := ℚ), ← hvalue, Binary64.value_of_ofInt hx hn]
    rw [hnumber]
    show (x.toInt64.toInt == n) = true ↔ _
    exact iff_of_true (beq_iff_eq.mpr hequal) hn
  · -- Below the bound nothing is rounded, so that a double that is kept was not near such an integer.
    rw [hnumber]
    exact iff_of_false Bool.false_ne_true fun hn =>
      hkept ⟨n, Binary64.value_of_ofInt hx hn, hn⟩

end Json.Number

namespace Token

/-- Numbers are equal as tokens if they are equal as numbers. -/
theorem scalar_number_beq (a b : Json.Number) :
    (scalar (.number a) == scalar (.number b)) = (a == b) := by
  show beq (.scalar (.number a)) (.scalar (.number b)) = _
  rw [beq]
  rfl

/-- The token of the double nearest to an integer is that of the integer below `2 ^ 53` in magnitude
only. -/
theorem ofBinary64_ofInt_beq_iff {n : ℤ}
    (inRange : -0x8000000000000000 ≤ n ∧ n < 0x10000000000000000) :
    (ofBinary64 (.ofInt n) == scalar (.number (.int n inRange))) = true ↔ n.natAbs < 2 ^ 53 := by
  obtain ⟨x, hx⟩ := Binary64.exists_ofInt_eq_finite (n := n) (by omega)
  rw [hx, ofBinary64, scalar_number_beq]
  exact Json.Number.ofFinite_beq_int_iff hx inRange

/-- The token of a finite double reads back as a double that is equal to it; the tokens of infinities
and of NaN are no numbers. Finite doubles are equal exactly if their tokens are. An integer of 64
bits has the token of the double nearest to it exactly if it is below `2 ^ 53` in magnitude. A double
that is itself such an integer is cast to exactly this integer, and every other finite one is kept. -/
theorem ofBinary64_lossless :
    (∀ x : Finite, ∃ y, (ofBinary64 (.finite x)).binary64? = some y ∧ (y == .finite x) = true) ∧
    (ofBinary64 .nan).binary64? = none ∧
    (∀ negative, (ofBinary64 (.infinite negative)).binary64? = none) ∧
    (∀ x y : Finite, (ofBinary64 (.finite x) == ofBinary64 (.finite y)) = (x == y)) ∧
    (∀ k : Int64, (ofBinary64 (.ofInt k.toInt) == ofInt64 k) = true ↔ k.toInt.natAbs < 2 ^ 53) ∧
    (∀ k : UInt64, (ofBinary64 (.ofInt k.toNat) == ofUInt64 k) = true ↔ k.toNat < 2 ^ 53) ∧
    ∀ x : Finite,
      (∃ n : ℤ, x.value = n ∧ n.natAbs < 2 ^ 53 ∧ x.toInt64.toInt = n ∧
        ofBinary64 (.finite x) = ofInt64 x.toInt64) ∨
      (¬ ∃ n : ℤ, x.value = n ∧ n.natAbs < 2 ^ 53) ∧
        ofBinary64 (.finite x) = .scalar (.number (.float x)) := by
  refine ⟨fun x => ?_, rfl, fun _ => rfl, fun x y => ?_, fun k => ?_, fun k => ?_, fun x => ?_⟩
  · obtain ⟨y, hnearest, hequal⟩ := Json.Number.exists_toBinary64_ofFinite x
    exact ⟨.finite y, congrArg some hnearest, hequal⟩
  · exact (scalar_number_beq _ _).trans (Json.Number.ofFinite_beq x y)
  · exact ofBinary64_ofInt_beq_iff _
  · exact ofBinary64_ofInt_beq_iff _
  · rcases Json.Number.ofFinite_cases x with ⟨n, hvalue, hlt, hcast, hnumber⟩ | ⟨hkept, hnumber⟩
    · exact .inl ⟨n, hvalue, hlt, hcast, congrArg (fun number => scalar (.number number)) hnumber⟩
    · exact .inr ⟨hkept, congrArg (fun number => scalar (.number number)) hnumber⟩

-- The last integer that has the token of its double, and the first one that is rounded.
example : (ofBinary64 (.ofInt 0x1fffffffffffff) == ofInt64 0x1fffffffffffff) = true := by
  decide +kernel

example : (ofBinary64 (.ofInt 0x20000000000001) == ofUInt64 0x20000000000000) = false := by
  decide +kernel

end Token

end DesignTokens

/-!
# Ranges of code points

A property of characters is given as the ranges of code points that have it, in increasing order.

* `Text.inRanges`: whether a code point lies in one of the ranges.
* `Text.Ascending`: the ranges are in increasing order and apart.
-/

namespace DesignTokens.Text

/-- Whether a code point lies in one of the ranges, both ends included. The search ends at the
first range that begins beyond it. -/
def inRanges : List (Nat × Nat) → Nat → Bool
  | [], _ => false
  | range :: ranges, code => range.1 ≤ code && (code ≤ range.2 || inRanges ranges code)

/-- Every range is in order, and begins after the one before it has ended. -/
def Ascending : List (Nat × Nat) → Prop
  | [] => True
  | [range] => range.1 ≤ range.2
  | range :: next :: ranges => range.1 ≤ range.2 ∧ range.2 < next.1 ∧ Ascending (next :: ranges)

instance decidableAscending : (ranges : List (Nat × Nat)) → Decidable (Ascending ranges)
  | [] => .isTrue trivial
  | [range] => inferInstanceAs (Decidable (range.1 ≤ range.2))
  | range :: next :: ranges =>
    have := decidableAscending (next :: ranges)
    inferInstanceAs (Decidable (range.1 ≤ range.2 ∧ range.2 < next.1 ∧ Ascending (next :: ranges)))

/-- A code point before the first of ascending ranges is in none of them. -/
theorem Ascending.not_mem_of_lt {range : Nat × Nat} {ranges : List (Nat × Nat)} {code : Nat}
    (ascending : Ascending (range :: ranges)) (before : code < range.1) :
    ∀ r ∈ range :: ranges, code < r.1 := by
  induction ranges generalizing range with
  | nil => simpa using before
  | cons next ranges ih =>
    obtain ⟨ordered, apart, rest⟩ := ascending
    intro r hr
    rcases List.mem_cons.mp hr with rfl | hr
    · exact before
    · exact ih rest (by omega) r hr

/-- For ascending ranges, ending the search early misses none of them. -/
theorem inRanges_iff {ranges : List (Nat × Nat)} (ascending : Ascending ranges) (code : Nat) :
    inRanges ranges code = true ↔ ∃ r ∈ ranges, r.1 ≤ code ∧ code ≤ r.2 := by
  induction ranges with
  | nil => simp [inRanges]
  | cons range ranges ih =>
    have tail : Ascending ranges := by
      cases ranges with
      | nil => trivial
      | cons next ranges => exact ascending.2.2
    by_cases before : code < range.1
    · have := ascending.not_mem_of_lt before
      simp only [inRanges, Bool.and_eq_true, decide_eq_true_eq]
      constructor
      · intro h
        omega
      · rintro ⟨r, hr, low, -⟩
        have := this r hr
        omega
    · simp only [inRanges, Bool.and_eq_true, Bool.or_eq_true, decide_eq_true_eq, ih tail,
        List.mem_cons, or_and_right, exists_or, exists_eq_left]
      constructor
      · rintro ⟨low, high | h⟩
        · exact .inl ⟨low, high⟩
        · exact .inr h
      · rintro (⟨low, high⟩ | h)
        · exact ⟨low, .inl high⟩
        · exact ⟨by omega, .inr h⟩

end DesignTokens.Text

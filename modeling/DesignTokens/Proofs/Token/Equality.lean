import DesignTokens.Proofs.OrderedMap.Equality
import DesignTokens.Proofs.Token.Buildable

/-!
# Equality of tokens

Tokens are equal when they have the same shape and equal leaves. Every token is equal to itself, and
zeros of both signs are equal.

* `Token.sequence_beq`, `Token.mapping_beq`: equality of containers is that of what they hold.
* `Token.beq_self`: a token is equal to itself.
-/

namespace DesignTokens

/-- A number of a document is equal to itself; none of them is without a value. -/
theorem Json.Number.beq_self (n : Json.Number) : n == n := by
  cases n with
  | int value _ =>
    show (value == value) = true
    simp
  | float x =>
    show (x == x) = true
    exact Binary64.Finite.beq_iff.mpr (.inl rfl)

namespace Token

/-- Sequences are equal when their items are, one by one. -/
theorem sequence_beq (as bs : List Token) : (sequence as == sequence bs) = (as == bs) := by
  show beqItems as bs = (as == bs)
  induction as generalizing bs with
  | nil => cases bs <;> rfl
  | cons a as ih =>
    cases bs with
    | nil => rfl
    | cons b bs =>
      rw [beqItems, ih]
      rfl

/-- Mappings are equal as tokens when they are as maps. -/
theorem mapping_beq (m n : Mapping) : (mapping m == mapping n) = (m == n) := by
  obtain ⟨⟨as⟩, slots⟩ := m
  obtain ⟨⟨bs⟩, slots'⟩ := n
  show beqEntries as bs = (as == bs)
  induction as generalizing bs with
  | nil => cases bs <;> rfl
  | cons a as ih =>
    cases bs with
    | nil => rfl
    | cons b bs =>
      rw [beqEntries, ih]
      rfl

/-- A token is equal to itself. -/
theorem beq_self (token : Token) : token == token := by
  induction token with
  | scalar value =>
    cases value with
    | text value =>
      show (value == value) = true
      simp
    | number value => exact value.beq_self
    | boolean value =>
      show (value == value) = true
      simp
    | null => rfl
  | sequence items ih =>
    rw [sequence_beq, list_beq_iff, List.forall₂_same]
    exact ih
  | mapping entries ih =>
    rw [mapping_beq, OrderedMap.beq_iff]
    exact Entries.related_self ih

end Token

end DesignTokens

import DesignTokens.Token.Basic

/-!
# Consistent tokens

A token is consistent when every mapping in it, at any depth, has an index that agrees with its
entries.
-/

namespace DesignTokens.Token

mutual

/-- Every mapping in the token is consistent. -/
def Consistent : Token → Prop
  | .scalar _ => True
  | .sequence items => ConsistentItems items
  | .mapping ⟨⟨entries⟩, slots⟩ =>
    OrderedMap.Consistent (⟨⟨entries⟩, slots⟩ : Mapping) ∧ ConsistentEntries entries

/-- Every item is consistent. -/
def ConsistentItems : List Token → Prop
  | [] => True
  | token :: items => token.Consistent ∧ ConsistentItems items

/-- Every entry's token is consistent. -/
def ConsistentEntries : List (String × Token) → Prop
  | [] => True
  | (_, token) :: entries => token.Consistent ∧ ConsistentEntries entries

end

/-- Consistency of all items, one by one. -/
theorem consistentItems_iff {items : List Token} :
    ConsistentItems items ↔ ∀ token ∈ items, token.Consistent := by
  induction items with
  | nil => simp [ConsistentItems]
  | cons token items ih => simp [ConsistentItems, ih]

/-- Consistency of all entries, one by one. -/
theorem consistentEntries_iff {entries : List (String × Token)} :
    ConsistentEntries entries ↔ ∀ entry ∈ entries, entry.2.Consistent := by
  induction entries with
  | nil => simp [ConsistentEntries]
  | cons entry entries ih => simp [ConsistentEntries, ih]

end DesignTokens.Token

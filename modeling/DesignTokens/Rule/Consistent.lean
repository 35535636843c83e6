import DesignTokens.Rule.Basic
import DesignTokens.Token.Consistent

/-!
# Consistent and normalized rules

* `Rule.Consistent`: every map and every mapping of channels in the rule has an index that
  agrees with its entries.
* `Rule.Normalized`: every number in the rule is finite, and none has an empty unit.
-/

namespace DesignTokens.Rule

mutual

/-- Every map in the rule is consistent, those in the channels of colours included. -/
def Consistent : Rule → Prop
  | .list items => ConsistentItems items
  | .map ⟨⟨children⟩, slots⟩ =>
    OrderedMap.Consistent (⟨⟨children⟩, slots⟩ : OrderedMap Rule) ∧ ConsistentChildren children
  | .color channels => (Token.mapping channels).Consistent
  | .string _ | .number _ _ | .boolean _ => True

/-- Every item is consistent. -/
def ConsistentItems : List Rule → Prop
  | [] => True
  | rule :: items => rule.Consistent ∧ ConsistentItems items

/-- Every child is consistent. -/
def ConsistentChildren : List (String × Rule) → Prop
  | [] => True
  | (_, rule) :: children => rule.Consistent ∧ ConsistentChildren children

end

mutual

/-- Every number in the rule is finite and has no empty unit. -/
def Normalized : Rule → Prop
  | .number value unit => value.finite?.isSome ∧ unit ≠ some ""
  | .list items => NormalizedItems items
  | .map ⟨⟨children⟩, _⟩ => NormalizedChildren children
  | .string _ | .color _ | .boolean _ => True

/-- Every item is normalized. -/
def NormalizedItems : List Rule → Prop
  | [] => True
  | rule :: items => rule.Normalized ∧ NormalizedItems items

/-- Every child is normalized. -/
def NormalizedChildren : List (String × Rule) → Prop
  | [] => True
  | (_, rule) :: children => rule.Normalized ∧ NormalizedChildren children

end

end DesignTokens.Rule

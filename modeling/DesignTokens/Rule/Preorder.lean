import DesignTokens.Rule.Basic

/-!
# Rules inside rules

The rules that a rule consists of, itself first and every rule before those inside it. The
channels of a colour are no rules.
-/

namespace DesignTokens.Rule

mutual

/-- The rule and the rules inside it, each before those inside it. -/
def preorder : Rule → List Rule
  | .list items => .list items :: preorderItems items
  | .map ⟨⟨children⟩, slots⟩ => .map ⟨⟨children⟩, slots⟩ :: preorderChildren children
  | rule => [rule]

/-- The rules in items, in order. -/
def preorderItems : List Rule → List Rule
  | [] => []
  | item :: items => item.preorder ++ preorderItems items

/-- The rules in children, in order. -/
def preorderChildren : List (String × Rule) → List Rule
  | [] => []
  | (_, child) :: children => child.preorder ++ preorderChildren children

end

end DesignTokens.Rule

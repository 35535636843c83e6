import DesignTokens.Token.Preorder

/-!
# Properties of whole tokens

* `Token.depth`: how many sequences and mappings are nested in one another.
* `Token.IntegersOnly`: no number in the token is a double.
-/

namespace DesignTokens.Token

mutual

/-- How many sequences and mappings are nested in one another at the deepest place of a token. -/
def depth : Token → Nat
  | .scalar _ => 0
  | .sequence items => depthOfItems items + 1
  | .mapping ⟨⟨entries⟩, _⟩ => depthOfEntries entries + 1

/-- The greatest depth among items. -/
def depthOfItems : List Token → Nat
  | [] => 0
  | item :: items => max item.depth (depthOfItems items)

/-- The greatest depth among the tokens of entries. -/
def depthOfEntries : List (String × Token) → Nat
  | [] => 0
  | (_, token) :: entries => max token.depth (depthOfEntries entries)

end

/-- Every number in the token is an integer. -/
def IntegersOnly (token : Token) : Prop :=
  ∀ value, scalar (.number (.float value)) ∉ token.preorder

end DesignTokens.Token

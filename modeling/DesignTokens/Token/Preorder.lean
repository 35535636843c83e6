import DesignTokens.Token.Basic

/-!
# Tokens inside tokens

The tokens that a token consists of, itself first and every token before those inside it.
-/

namespace DesignTokens.Token

mutual

/-- The token and the tokens inside it, each before those inside it. -/
def preorder : Token → List Token
  | .scalar value => [.scalar value]
  | .sequence items => .sequence items :: preorderItems items
  | .mapping ⟨⟨entries⟩, slots⟩ => .mapping ⟨⟨entries⟩, slots⟩ :: preorderEntries entries

/-- The tokens in items, in order. -/
def preorderItems : List Token → List Token
  | [] => []
  | item :: items => item.preorder ++ preorderItems items

/-- The tokens in entries, in order. -/
def preorderEntries : List (String × Token) → List Token
  | [] => []
  | (_, token) :: entries => token.preorder ++ preorderEntries entries

end

end DesignTokens.Token

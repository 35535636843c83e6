import DesignTokens.Json.Writer
import DesignTokens.Token.Basic

/-!
# Tokens and JSON

Tokens and JSON values have the same shapes: a scalar is a null, a truth value, a number or a
string, a sequence is an array and a mapping is an object. Numbers keep their representation and
entries their order.

* `Token.toJson`, `Mapping.toJson`: the JSON value of a token and of a mapping.
* `Token.ofJson`, `Mapping.ofMembers`: the token of a JSON value and the mapping of an object's
  members.
-/

namespace DesignTokens

/-- The JSON value of a scalar. -/
def Scalar.toJson : Scalar → Json
  | .text value => .string value
  | .number value => .number value
  | .boolean value => .boolean value
  | .null => .null

namespace Token

mutual

/-- The JSON value of a token. -/
def toJson : Token → Json
  | .scalar value => value.toJson
  | .sequence items => .array (itemsToJson items)
  | .mapping ⟨⟨entries⟩, _⟩ => .object (entriesToJson entries)

/-- The JSON values of items. -/
def itemsToJson : List Token → List Json
  | [] => []
  | token :: items => token.toJson :: itemsToJson items

/-- The members of entries. -/
def entriesToJson : List (String × Token) → List (String × Json)
  | [] => []
  | (name, token) :: entries => (name, token.toJson) :: entriesToJson entries

end

mutual

/-- The token of a JSON value. -/
def ofJson : Json → Token
  | .null => .scalar .null
  | .boolean value => .scalar (.boolean value)
  | .number value => .scalar (.number value)
  | .string value => .scalar (.text value)
  | .array items => .sequence (itemsOfJson items)
  | .object members => .mapping (insertMembers ∅ members)

/-- The tokens of an array's items. -/
def itemsOfJson : List Json → List Token
  | [] => []
  | item :: items => ofJson item :: itemsOfJson items

/-- Writes the tokens of an object's members into a mapping. -/
def insertMembers (entries : Mapping) : List (String × Json) → Mapping
  | [] => entries
  | (name, value) :: members => insertMembers (entries.insert name (ofJson value)) members

end

/-- The compact text of a token. -/
def compact (token : Token) : String :=
  token.toJson.compact

/-- The indented text of a token. -/
def pretty (token : Token) : String :=
  token.toJson.pretty

end Token

/-- The JSON object of a mapping. -/
def Mapping.toJson (entries : Mapping) : Json :=
  (Token.mapping entries).toJson

/-- The mapping of an object's members. -/
def Mapping.ofMembers (members : List (String × Json)) : Mapping :=
  Token.insertMembers ∅ members

end DesignTokens

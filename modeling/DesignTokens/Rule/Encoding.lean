import DesignTokens.Rule.Json

/-!
# Writing rules

The document of a rule: an object with the tag of its kind, its payload and, for a number with a
unit, the unit. A number that is not finite has no JSON form and is written as null.
-/

namespace DesignTokens.Rule

/-- The node of a kind with a payload. -/
def node (kind : Kind) (value : Json) : Json :=
  .object [("type", .string kind.tag), ("value", value)]

/-- The JSON form of a number. -/
def numberToJson : Binary64 → Json
  | .finite x => .number (.float x)
  | _ => .null

mutual

/-- The document of a rule. -/
def toJson : Rule → Json
  | .string value => node .string (.string value)
  | .number value none => node .number (numberToJson value)
  | .number value (some unit) =>
    .object [("type", .string Kind.number.tag), ("value", numberToJson value),
      ("unit", .string unit)]
  | .list items => node .list (.array (itemsToJson items))
  | .map ⟨⟨children⟩, _⟩ => node .map (.object (childrenToJson children))
  | .color channels => node .color channels.toJson
  | .boolean value => node .boolean (.boolean value)

/-- The documents of items. -/
def itemsToJson : List Rule → List Json
  | [] => []
  | rule :: items => rule.toJson :: itemsToJson items

/-- The documents of children, under their names. -/
def childrenToJson : List (String × Rule) → List (String × Json)
  | [] => []
  | (name, rule) :: children => (name, rule.toJson) :: childrenToJson children

end

end DesignTokens.Rule

import DesignTokens.Error
import DesignTokens.Json.Reader.Value
import DesignTokens.Rule.Basic
import DesignTokens.Token.Json

/-!
# Reading rules

A rule is written as an object with a tag under `type`, a payload under `value` and, for a
number, a unit under `unit`. Lists and maps hold rules; the payload of a colour is taken as it
stands. A node is judged before its children, and children in order, so the first fault of a
document is the one reported.

* `Rule.ofJson`: the rule that a JSON value denotes.
* `Rule.read`: the rule in a text.
-/

namespace DesignTokens.Rule

/-- The unit of a number, among the members of its node. A null or empty unit is none. -/
def readUnit (members : List (String × Json)) : Except Error (Option String) :=
  match members.lookup "unit" with
  | none | some .null => .ok none
  | some (.string unit) => .ok (if unit.isEmpty then none else some unit)
  | some other => .error (.defectiveRule .number (.unitNotString other.shape))

mutual

/-- The rule that a JSON value denotes, or what is wrong with the first node that denotes
none. -/
def ofJson : Json → Except Error Rule
  | .object members =>
    match (Json.object members).kind? with
    | some kind => ofMembers kind (readUnit members) members
    | none => .error (.unknownKind (.object members))
  | node => .error (.unknownKind node)

/-- The rule of a known kind with these members, given what its unit would be. -/
def ofMembers (kind : Kind) (unit : Except Error (Option String)) :
    List (String × Json) → Except Error Rule
  | [] => .error (.defectiveRule kind .missingValue)
  | (name, value) :: members =>
    if name = "value" then
      match kind, value with
      | .string, .string text => .ok (.string text)
      | .number, .number n => unit.map (.number n.toBinary64 ·)
      | .list, .array items => (ofItems items).map .list
      | .map, .object children => (insertChildren ∅ children).map .map
      | .color, .object channels => .ok (.color (Mapping.ofMembers channels))
      | .boolean, .boolean value => .ok (.boolean value)
      | kind, other => .error (.defectiveRule kind (.wrongShape other.shape))
    else ofMembers kind unit members

/-- The rules that items denote, or the first error. -/
def ofItems : List Json → Except Error (List Rule)
  | [] => .ok []
  | item :: items => do
    let rule ← ofJson item
    let rules ← ofItems items
    return rule :: rules

/-- Writes the rules that members denote into a map, up to the first error. -/
def insertChildren (children : OrderedMap Rule) :
    List (String × Json) → Except Error (OrderedMap Rule)
  | [] => .ok children
  | (name, value) :: members => do
    let rule ← ofJson value
    insertChildren (children.insert name rule) members

end

/-- The rule in a JSON text. -/
def read (text : String) : Except Error Rule :=
  match Json.read text with
  | .ok json => ofJson json
  | .error fault => .error (.notJson fault)

end DesignTokens.Rule

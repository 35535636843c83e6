import DesignTokens.Json.Number
import DesignTokens.OrderedMap.Basic

/-!
# JSON documents

The tree that JSON text denotes. The members of an object are kept in order; an object that was
read has each name once.

* `Json.ofMembers`: the object of a list of members in which names may repeat.
* `Json.get?`: the member of an object.
* `Json.Shape`: the six shapes of values and their names.
* `Json.UniqueKeys`: no object at any depth repeats a name.
-/

namespace DesignTokens

/-- A JSON value. -/
inductive Json where
  | null
  | boolean (value : Bool)
  | number (value : Json.Number)
  | string (value : String)
  | array (items : List Json)
  | object (members : List (String × Json))

namespace Json

/-- The object with these members. Of members with one name the last gives the value and the
first the place. -/
def ofMembers (members : List (String × Json)) : Json :=
  .object (OrderedMap.ofList members).toList

/-- The member of an object with this name. -/
def get? (name : String) : Json → Option Json
  | .object members => members.lookup name
  | _ => none

/-- The text of a string. -/
def string? : Json → Option String
  | .string value => some value
  | _ => none

/-- The shape of a JSON value. -/
inductive Shape where
  | null
  | boolean
  | number
  | string
  | array
  | object
deriving DecidableEq, Repr

namespace Shape

/-- The name of a shape. -/
def name : Shape → String
  | .null => "null"
  | .boolean => "boolean"
  | .number => "number"
  | .string => "string"
  | .array => "array"
  | .object => "object"

/-- The name of a shape with its article. -/
def withArticle (shape : Shape) : String :=
  match shape with
  | .null => shape.name
  | .array | .object => "an " ++ shape.name
  | .boolean | .number | .string => "a " ++ shape.name

end Shape

/-- The shape of a value. -/
def shape : Json → Shape
  | .null => .null
  | .boolean _ => .boolean
  | .number _ => .number
  | .string _ => .string
  | .array _ => .array
  | .object _ => .object

mutual

/-- No object in the value, at any depth, has two members of one name. -/
def UniqueKeys : Json → Prop
  | .array items => UniqueKeysInItems items
  | .object members => (members.map (·.1)).Nodup ∧ UniqueKeysInMembers members
  | .null | .boolean _ | .number _ | .string _ => True

/-- `UniqueKeys` of every item. -/
def UniqueKeysInItems : List Json → Prop
  | [] => True
  | item :: items => item.UniqueKeys ∧ UniqueKeysInItems items

/-- `UniqueKeys` of every member's value. -/
def UniqueKeysInMembers : List (String × Json) → Prop
  | [] => True
  | (_, value) :: members => value.UniqueKeys ∧ UniqueKeysInMembers members

end

end Json

end DesignTokens

import DesignTokens.Conversion.NumberText
import DesignTokens.Rule.Json
import DesignTokens.Settings

/-!
# The meaning of a rule document

What a document of rules stands for in a token file, read off the document itself in one pass:
no rule and no token is built on the way.
-/

namespace DesignTokens.Rule

/-- The unit that the members of a number's node write after it. -/
def unitText (members : List (String × Json)) : String :=
  match members.lookup "unit" with
  | some (.string unit) => unit
  | _ => ""

mutual

/-- The JSON value that a document of rules stands for. -/
def meaning : Json → Json
  | .object members =>
    meaningOfMembers (Json.object members).kind? (unitText members) members
  | node => node

/-- The value that an object of some kind stands for: lists and maps are gone through, numbers
become text, and every other payload stands for itself. -/
def meaningOfMembers (kind? : Option Kind) (unit : String) : List (String × Json) → Json
  | [] => .null
  | (name, value) :: members =>
    if name = "value" then
      match kind?, value with
      | some .number, .number n => .string (n.toBinary64.tokenText ++ unit)
      | some .list, .array items => .array (meaningOfItems items)
      | some .map, .object children => .object (meaningOfChildren children)
      | _, _ => value
    else meaningOfMembers kind? unit members

/-- The values that the items of a list stand for. -/
def meaningOfItems : List Json → List Json
  | [] => []
  | item :: items => meaning item :: meaningOfItems items

/-- The members of a map with what their values stand for. -/
def meaningOfChildren : List (String × Json) → List (String × Json)
  | [] => []
  | (name, value) :: members => (name, meaning value) :: meaningOfChildren members

end

/-- What a document stands for under a name. An empty name is none, and the name of a map counts
only if maps are nested under theirs. -/
def meaningUnderName (settings : Settings) (name : String) (json : Json) : Json :=
  if name.isEmpty ∨ (json.kind? = some .map ∧ settings.mapNaming = .flatten) then meaning json
  else .object [(name, meaning json)]

end DesignTokens.Rule

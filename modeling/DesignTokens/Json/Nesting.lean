import DesignTokens.Json.Basic

/-!
# Properties of whole documents

* `Json.depth`: how many arrays and objects are nested in one another.
* `Json.IntegersOnly`: no number in the document is a double.
-/

namespace DesignTokens.Json

mutual

/-- How many arrays and objects are nested in one another at the deepest place of a value. -/
def depth : Json → Nat
  | .array items => depthOfItems items + 1
  | .object members => depthOfMembers members + 1
  | .null | .boolean _ | .number _ | .string _ => 0

/-- The greatest depth among items. -/
def depthOfItems : List Json → Nat
  | [] => 0
  | item :: items => max item.depth (depthOfItems items)

/-- The greatest depth among the values of members. -/
def depthOfMembers : List (String × Json) → Nat
  | [] => 0
  | (_, value) :: members => max value.depth (depthOfMembers members)

end

mutual

/-- Every number in the value is an integer. -/
def IntegersOnly : Json → Prop
  | .number (.float _) => False
  | .array items => IntegersOnlyInItems items
  | .object members => IntegersOnlyInMembers members
  | .null | .boolean _ | .number (.int ..) | .string _ => True

/-- Every number in the items is an integer. -/
def IntegersOnlyInItems : List Json → Prop
  | [] => True
  | item :: items => item.IntegersOnly ∧ IntegersOnlyInItems items

/-- Every number in the values of members is an integer. -/
def IntegersOnlyInMembers : List (String × Json) → Prop
  | [] => True
  | (_, value) :: members => value.IntegersOnly ∧ IntegersOnlyInMembers members

end

end DesignTokens.Json

import DesignTokens.Rule.Json

/-!
# The nodes of a rule document

Where rules stand in a JSON value, and what can be wrong with one of them taken by itself.
Together they say, without building a rule, which documents denote one.

* `Rule.nodes`: the values at which a rule must stand, parents before children.
* `Rule.nodeError?`: the fault of a single node.
-/

namespace DesignTokens.Rule

mutual

/-- The values in a document at which a rule must stand: the document itself, and the items of a
list's and the members of a map's payload. A node comes before those inside it. -/
def nodes : Json → List Json
  | .object members => .object members :: nodesBelow (Json.object members).kind? members
  | node => [node]

/-- The nodes in the payload of an object of some kind. -/
def nodesBelow (kind? : Option Kind) : List (String × Json) → List Json
  | [] => []
  | (name, value) :: members =>
    if name = "value" then
      match kind?, value with
      | some .list, .array items => nodesOfItems items
      | some .map, .object children => nodesOfMembers children
      | _, _ => []
    else nodesBelow kind? members

/-- The nodes in the items of a list. -/
def nodesOfItems : List Json → List Json
  | [] => []
  | item :: items => nodes item ++ nodesOfItems items

/-- The nodes in the members of a map. -/
def nodesOfMembers : List (String × Json) → List Json
  | [] => []
  | (_, value) :: members => nodes value ++ nodesOfMembers members

end

/-- The fault of a node, taken by itself: no known tag, no payload, a payload of the wrong
shape, or a unit that is neither a string nor null, in this order. -/
def nodeError? (node : Json) : Option Error :=
  match node.kind? with
  | none => some (.unknownKind node)
  | some kind =>
    match node.get? "value" with
    | none => some (.defectiveRule kind .missingValue)
    | some value =>
      if value.shape ≠ kind.payloadShape then some (.defectiveRule kind (.wrongShape value.shape))
      else if kind = .number then
        match node.get? "unit" with
        | none | some .null | some (.string _) => none
        | some other => some (.defectiveRule kind (.unitNotString other.shape))
      else none

end DesignTokens.Rule

import DesignTokens.Json.Basic
import DesignTokens.Kind

/-!
# Tagged nodes

A rule document marks each of its nodes with a tag, the string under `type`. The tag says which
shape the payload of the node has.

* `Json.tag?`, `Json.kind?`: the tag of a node and the kind it names.
* `Kind.payloadShape`: the shape that the payload of a node of some kind must have.
-/

namespace DesignTokens

/-- The tag of a node, if it has one that is a string. -/
def Json.tag? (node : Json) : Option String :=
  (node.get? "type").bind (·.string?)

/-- The kind that the tag of a node names. -/
def Json.kind? (node : Json) : Option Kind :=
  node.tag?.bind Kind.ofTag?

/-- The shape that the payload of a node of this kind must have. -/
def Kind.payloadShape : Kind → Json.Shape
  | .string => .string
  | .number => .number
  | .list => .array
  | .map => .object
  | .color => .object
  | .boolean => .boolean

end DesignTokens

/-!
# Paths

A path leads from the root of a tree to a place in it: by name through mappings, and by position
through lists.
-/

namespace DesignTokens

/-- A step of a path. -/
inductive PathStep where
  /-- To the entry of a mapping with this name. -/
  | name (name : String)
  /-- To the item of a list at this position. -/
  | position (position : Nat)
deriving DecidableEq, Repr

/-- A way down a tree. -/
abbrev Path := List PathStep

/-- The path through mappings by these names. -/
def Path.ofNames (names : List String) : Path :=
  names.map .name

end DesignTokens

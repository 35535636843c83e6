/-!
# Kinds of style values

The six kinds of value a style sheet can declare, and the tags that name them in parsed style
sheets.

* `Kind.tag`, `Kind.ofTag?`: the tag of a kind and the kind of a tag.
* `Kind.ofTag?_eq_some_iff`: a tag names a kind exactly when it is that kind's tag.
-/

namespace DesignTokens

/-- The kind of a style value. -/
inductive Kind where
  | string
  | number
  | list
  | map
  | color
  | boolean
deriving DecidableEq, Repr

namespace Kind

/-- All kinds, in the order of their declaration. -/
def all : List Kind :=
  [.string, .number, .list, .map, .color, .boolean]

/-- The tag that marks a value of this kind. -/
def tag : Kind → String
  | .string => "SassString"
  | .number => "SassNumber"
  | .list => "SassList"
  | .map => "SassMap"
  | .color => "SassColor"
  | .boolean => "SassBoolean"

/-- The kind that a tag names; the case of letters counts. -/
def ofTag? (tag : String) : Option Kind :=
  all.find? (·.tag = tag)

/-- A tag names a kind exactly when it is the tag of that kind. -/
theorem ofTag?_eq_some_iff {tag : String} {kind : Kind} :
    ofTag? tag = some kind ↔ kind.tag = tag := by
  constructor
  · intro h
    simpa using List.find?_some h
  · rintro rfl
    cases kind <;> decide

end Kind

end DesignTokens

import DesignTokens.Token.Path

/-!
# Edits of places that are lent out

A place deep inside a token is reached by lending out the value at a name, inside of it the value at
the next name, and so on. Each value comes back, changed or not, and goes into the place it was lent
from, whether or not the way led anywhere.

* `Token.insertInPlace`: writing an entry at the end of a path of names.
* `Token.keysAt?`: the keys of what a path leads to.
-/

namespace DesignTokens.Token

/-- Writes an entry into the mapping that a path of names leads to. The answer is the value replaced,
if there was one, and nothing if the path does not lead to a mapping. The token is what the walk
leaves in either case. -/
def insertInPlace (token : Token) (path : List String) (key : String) (value : Token) :
    Option (Option Token) × Token :=
  match path, token with
  | [], .mapping entries =>
    let (replaced, changed) := entries.getThenInsert? key value
    (some replaced, .mapping changed)
  | name :: path, .mapping entries =>
    match entries.lend? name fun child => child.insertInPlace path key value with
    | some (answer, changed) => (answer, .mapping changed)
    | none => (none, .mapping entries)
  | _, token => (none, token)

/-- The keys, in order, of the mapping that a path leads to. -/
def keysAt? (token : Token) (path : Path) : Option (List String) :=
  ((token.at? path).bind entries?).map OrderedMap.keys

end DesignTokens.Token

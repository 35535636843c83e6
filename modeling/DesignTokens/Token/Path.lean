import DesignTokens.Path
import DesignTokens.Token.Basic

/-!
# Places in a token tree

* `Token.at?`: the token that a path leads to.
* `Token.insertAt?`: writing an entry into the mapping at a path of names.
-/

namespace DesignTokens.Token

/-- The token that one step leads to. -/
def step? (token : Token) : PathStep → Option Token
  | .name name => token.get? name
  | .position position => token.items?.bind (·[position]?)

/-- The token that a path leads to. -/
def at? (token : Token) : Path → Option Token
  | [] => some token
  | step :: path => (token.step? step).bind (·.at? path)

/-- Writes an entry into the mapping that a path of names leads to, in place. Returns the value
replaced, if there was one, and the changed tree; nothing if the path does not lead to a
mapping. -/
def insertAt? (token : Token) (path : List String) (key : String) (value : Token) :
    Option (Option Token × Token) :=
  match path, token with
  | [], .mapping entries =>
    let (replaced, changed) := entries.getThenInsert? key value
    some (replaced, .mapping changed)
  | name :: path, .mapping entries =>
    (entries.get? name).bind fun child =>
      (child.insertAt? path key value).bind fun (replaced, child) =>
        (entries.replace? name child).map fun (_, changed) => (replaced, .mapping changed)
  | _, _ => none

end DesignTokens.Token

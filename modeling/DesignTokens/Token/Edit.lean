import DesignTokens.Token.Basic

/-!
# Edits in place

A token is edited by going down through its mappings, name by name, and then writing an entry or
putting another token in the place that was reached.

* `Token.Edit`: the edits.
* `Token.Edit.run?`, `Token.Edit.run`: one edit.
* `Token.Edit.runAll`: edits one after the other.
-/

namespace DesignTokens.Token

/-- An edit of a token in place. -/
inductive Edit where
  /-- Puts another token in its place. -/
  | assign (value : Token)
  /-- Writes an entry of the mapping. -/
  | insert (key : String) (value : Token)
  /-- Edits the token under a name in the mapping. -/
  | within (name : String) (edit : Edit)

namespace Edit

/-- The token that an edit writes. -/
def value : Edit → Token
  | .assign value => value
  | .insert _ value => value
  | .within _ edit => edit.value

/-- The token after an edit, unless the edit leads to no place in it. -/
def run? : Edit → Token → Option Token
  | .assign value, _ => some value
  | .insert key value, .mapping entries => some (.mapping (entries.insert key value))
  | .within name edit, .mapping entries =>
    (entries.get? name).bind fun child =>
      (edit.run? child).bind fun child =>
        (entries.replace? name child).map fun (_, changed) => .mapping changed
  | _, _ => none

/-- The token after an edit. An edit that leads to no place changes nothing. -/
def run (edit : Edit) (token : Token) : Token :=
  (edit.run? token).getD token

/-- The token after edits, one after the other. -/
def runAll : List Edit → Token → Token
  | [], token => token
  | edit :: edits, token => runAll edits (edit.run token)

end Edit

end DesignTokens.Token

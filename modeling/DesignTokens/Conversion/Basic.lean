import DesignTokens.Conversion.NumberText
import DesignTokens.Log
import DesignTokens.Rule.Json
import DesignTokens.Settings

/-!
# Converting rules to tokens

Strings and truth values stay what they are, numbers become text with their unit, lists become
sequences, maps become mappings and the channels of colours are copied. A name, unless it is
empty, is put around the result; maps alone may drop it. What is inside lists and maps has no
name.

* `Rule.convertLogged`: the token of a rule, with a record for every rule converted.
* `Rule.convert`: the token alone.
* `Rule.convertJson`: reading a rule and converting it.
-/

namespace DesignTokens

/-- The token under a name; an empty name is none. -/
def Token.underName (name : String) (token : Token) : Token :=
  if name.isEmpty then token else .named name token

namespace Rule

mutual

/-- The token of a rule, written under a name. `nested` marks a rule that is part of another,
and only the records show it. -/
def convertLogged (settings : Settings) (name : String) (nested : Bool) (rule : Rule) :
    Logged Token := do
  Logged.write (.converting rule.kind name nested)
  match rule with
  | .string value => return .underName name (.ofText value)
  | .number value unit => return .underName name (.ofText (value.tokenText ++ unit.getD ""))
  | .list items =>
    let tokens ← convertItems settings items
    return .underName name (.sequence tokens)
  | .map ⟨⟨children⟩, _⟩ =>
    let entries ← convertChildren settings ∅ children
    match settings.mapNaming with
    | .flatten => return .mapping entries
    | .nest => return .underName name (.mapping entries)
  | .color channels => return .underName name (.mapping channels)
  | .boolean value => return .underName name (.ofBool value)

/-- The tokens of items, in order. -/
def convertItems (settings : Settings) : List Rule → Logged (List Token)
  | [] => return []
  | item :: items => do
    let token ← convertLogged settings "" true item
    let tokens ← convertItems settings items
    return token :: tokens

/-- Writes the tokens of children into a mapping, in order. -/
def convertChildren (settings : Settings) (entries : Mapping) :
    List (String × Rule) → Logged Mapping
  | [] => return entries
  | (name, child) :: children => do
    let token ← convertLogged settings "" true child
    convertChildren settings (entries.insert name token) children

end

/-- The token of a rule, under a name. -/
def convert (settings : Settings) (name : String) (rule : Rule) : Token :=
  (convertLogged settings name false rule).value

/-- Reads a rule and converts it. Nothing is converted unless the whole rule can be read. -/
def convertJson (settings : Settings) (name : String) (nested : Bool) (json : Json) :
    Logged (Except Error Token) :=
  match ofJson json with
  | .ok rule => return .ok (← rule.convertLogged settings name nested)
  | .error error => return .error error

end Rule

end DesignTokens

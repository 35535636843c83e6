import DesignTokens.Json.Fault
import DesignTokens.Json.Writer
import DesignTokens.Rule.Tag

/-!
# Errors

What can be wrong with a style sheet. Converting a rule cannot fail; errors come from reading
rules and variables out of JSON, and from a variable without a name that cannot be merged.

* `Error`: the causes.
* `Error.message`: their wording.
* `Error.innermost`: the error inside the variables it is attributed to.
* `Error.tag?`, `Error.dump?`: what the error of an unknown kind shows of its node.
* `Error.causes`: the wordings of the causes behind an error, outermost first.
-/

namespace DesignTokens

/-- What is wrong with a rule of a known kind. -/
inductive RuleDefect where
  /-- There is no payload. -/
  | missingValue
  /-- The payload has another shape than the kind asks for. -/
  | wrongShape (found : Json.Shape)
  /-- The unit of a number is neither a string nor null. -/
  | unitNotString (found : Json.Shape)
  /-- Something else, in words. -/
  | described (reason : String)
deriving DecidableEq, Repr

/-- The wording of a defect in a rule of some kind. -/
def RuleDefect.reason (kind : Kind) : RuleDefect → String
  | .missingValue => "missing 'value' field"
  | .wrongShape found =>
    "expected 'value' to be " ++ kind.payloadShape.withArticle ++ ", got " ++ found.name
  | .unitNotString found =>
    "expected 'unit' to be " ++ Json.Shape.string.withArticle ++ ", got " ++ found.name
  | .described reason => reason

/-- What is wrong with a sheet or with one of its entries. -/
inductive SheetDefect where
  /-- An entry has no name that is a string. -/
  | missingName (entry : Json)
  /-- The entry of this name has no value. -/
  | missingValue (name : String)
  /-- The sheet is neither an array nor an object. -/
  | notASheet
  /-- Something else, in words. -/
  | described (reason : String)

/-- The wording of a defect in a sheet. -/
def SheetDefect.reason : SheetDefect → String
  | .missingName entry => "missing a string 'name': " ++ entry.compact
  | .missingValue name => "'" ++ name ++ "' has no 'value'"
  | .notASheet => "variables must be a JSON array or object"
  | .described reason => reason

/-- What can go wrong. -/
inductive Error where
  /-- The node has no tag that names a kind. -/
  | unknownKind (node : Json)
  /-- A rule of a known kind has a defect. -/
  | defectiveRule (kind : Kind) (defect : RuleDefect)
  /-- The variable at this position has no name and did not become a mapping. -/
  | unmergeable (index : Nat)
  /-- Something is wrong inside a variable. -/
  | inVariable (name : String) (source : Error)
  /-- A sheet or one of its entries has a defect. -/
  | defectiveSheet (defect : SheetDefect)
  /-- A text is not a JSON document. -/
  | notJson (fault : Json.Fault)

namespace Error

/-- The wording of an error. -/
def message : Error → String
  | .unknownKind node => "unexpected Sass type encountered: " ++ node.compact
  | .defectiveRule kind defect => "malformed " ++ kind.tag ++ " rule: " ++ defect.reason kind
  | .unmergeable index =>
    "variable #" ++ Nat.repr index ++ " has no name and did not produce a mapping"
  | .inVariable name source => "in variable '" ++ name ++ "': " ++ source.message
  | .defectiveSheet defect => "invalid variable: " ++ defect.reason
  | .notJson fault => "invalid JSON: " ++ fault.message

/-- The error inside the variables it is attributed to. -/
def innermost : Error → Error
  | .inVariable _ source => source.innermost
  | error => error

/-- Whether the innermost error is that a tag names no kind. -/
def isUnknownKind (error : Error) : Bool :=
  match error.innermost with
  | .unknownKind _ => true
  | _ => false

/-- The tag that the error of an unknown kind shows: that of the node, if it has one. -/
def tag? : Error → Option String
  | .unknownKind node => node.tag?
  | _ => none

/-- The dump that the error of an unknown kind shows: the compact text of the node. -/
def dump? : Error → Option String
  | .unknownKind node => some node.compact
  | _ => none

/-- The wordings of what lies behind an error, from the outside in. -/
def causes : Error → List String
  | .inVariable _ source => source.message :: source.causes
  | .notJson fault => [fault.message]
  | _ => []

end Error

end DesignTokens

import DesignTokens.Rule.Json

/-!
# Variables

A style sheet declares variables: names with rules. A sheet is written either as an array of
objects with a `name` and a `value`, or as an object whose members are the variables.

* `Variable.declare`: a variable under a name that may start with a dollar sign.
* `Variable.ofJson`: an entry of a sheet written as an array.
* `Sheet.ofJson`: the variables of a sheet.
-/

namespace DesignTokens

/-- A declared variable. -/
structure Variable where
  /-- The name without its dollar sign. -/
  name : String
  rule : Rule

instance : BEq Variable where
  beq a b := a.name == b.name && a.rule == b.rule

/-- The variables of a style sheet, in the order of their declarations. -/
abbrev Sheet := List Variable

/-- The name without one dollar sign at its front. -/
def stripDollar (name : String) : String :=
  match name.toList with
  | '$' :: rest => String.ofList rest
  | _ => name

namespace Variable

/-- The variable of a declaration. One dollar sign at the front of the name is dropped. -/
def declare (name : String) (rule : Rule) : Variable :=
  ⟨stripDollar name, rule⟩

/-- The variable that an entry of an array declares. -/
def ofJson (entry : Json) : Except Error Variable :=
  match (entry.get? "name").bind (·.string?) with
  | none => .error (.defectiveSheet (.missingName entry))
  | some name =>
    match entry.get? "value" with
    | none => .error (.defectiveSheet (.missingValue name))
    | some value =>
      match Rule.ofJson value with
      | .ok rule => .ok (declare name rule)
      | .error error => .error (.inVariable name error)

/-- The variable that a member of an object declares. -/
def ofMember (name : String) (value : Json) : Except Error Variable := do
  let rule ← (Rule.ofJson value).mapError (.inVariable name)
  return declare name rule

end Variable

/-- The variables of a sheet, or the error of the first entry that declares none. -/
def Sheet.ofJson : Json → Except Error Sheet
  | .array entries => entries.mapM Variable.ofJson
  | .object members => members.mapM fun member => Variable.ofMember member.1 member.2
  | _ => .error (.defectiveSheet .notASheet)

end DesignTokens

import DesignTokens.Conversion.Basic
import DesignTokens.Sheet.Variable

/-!
# The token root of a sheet

The variables of a sheet become one mapping: each is converted under its name, and the fragments
are merged in the order of the declarations. A fragment that is not a mapping, which only a
variable without a name can yield, cannot be merged.

* `Sheet.convert`: one variable after the other, up to the first fragment that cannot be merged.
* `Sheet.convertJson`: reading a sheet and converting it.
* `Sheet.convertScheduled`: all variables, finished in any order, and then merged.
-/

namespace DesignTokens.Sheet

/-- Converts variables and merges each fragment into the root before the next one is
converted. -/
def mergeInto (settings : Settings) (root : Mapping) (index : Nat) :
    Sheet → Logged (Except Error Mapping)
  | [] => return .ok root
  | entry :: rest => do
    -- A fragment that cannot be merged ends the work: what follows it is not even converted.
    match ← entry.rule.convertLogged settings entry.name false with
    | .mapping entries => mergeInto settings (root.merge entries) (index + 1) rest
    | _ => return .error (.unmergeable index)

/-- Records a successful merge. -/
def recordMerge (sheet : Sheet) : Except Error Mapping → Logged (Except Error Mapping)
  | .ok root => do
    Logged.write (.merged sheet.length root.size)
    return .ok root
  | .error error => return .error error

/-- The token root of a sheet. -/
def convert (settings : Settings) (sheet : Sheet) : Logged (Except Error Mapping) := do
  recordMerge sheet (← mergeInto settings (.emptyWithCapacity sheet.length) 0 sheet)

/-- Reads a sheet and converts it. Nothing is converted unless every variable can be read. -/
def convertJson (settings : Settings) (json : Json) : Logged (Except Error Mapping) :=
  match ofJson json with
  | .ok sheet => convert settings sheet
  | .error error => return .error error

/-- An order in which the conversions of a sheet's variables finish: each variable with its
position in the sheet. -/
structure Schedule (sheet : Sheet) where
  order : List (Variable × Nat)
  perm : order.Perm sheet.zipIdx

/-- The schedule in which the last variable finishes first. -/
def Schedule.reversed (sheet : Sheet) : Schedule sheet :=
  ⟨sheet.zipIdx.reverse, List.reverse_perm _⟩

/-- Merges fragments into the root, up to the first that is not a mapping. -/
def mergeFragments (root : Mapping) (index : Nat) : List Token → Except Error Mapping
  | [] => .ok root
  | .mapping entries :: rest => mergeFragments (root.merge entries) (index + 1) rest
  | _ :: _ => .error (.unmergeable index)

/-- The fragments by their positions, whatever the order in which they were finished. -/
def gather (finished : List (Nat × Token)) : List Token :=
  (finished.mergeSort fun a b => a.1 ≤ b.1).map (·.2)

/-- The token root of a sheet whose variables are all converted, on a schedule, before any
fragment is merged. -/
def convertScheduled (settings : Settings) (sheet : Sheet) (schedule : Schedule sheet) :
    Logged (Except Error Mapping) := do
  let finished ← schedule.order.mapM fun (entry, slot) => do
    return (slot, ← entry.rule.convertLogged settings entry.name false)
  recordMerge sheet (mergeFragments (.emptyWithCapacity sheet.length) 0 (gather finished))

end DesignTokens.Sheet

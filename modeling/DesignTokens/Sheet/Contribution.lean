import DesignTokens.Sheet.Root

/-!
# What a variable contributes

The entries that a variable adds to the token root of its sheet, without regard to the others:
those of a map or of a colour that has no name of its own, and otherwise a single entry under
the variable's name.
-/

namespace DesignTokens

/-- The tokens of a map's children under their keys. -/
def Rule.convertedChildren (settings : Settings) (children : OrderedMap Rule) :
    List (String × Token) :=
  children.toList.map fun child => (child.1, child.2.convert settings "")

/-- The entries that a variable contributes to the root. -/
def Variable.contribution (settings : Settings) (entry : Variable) : List (String × Token) :=
  let single := [(entry.name, entry.rule.convert settings "")]
  match entry.rule with
  | .map children =>
    if entry.name.isEmpty ∨ settings.mapNaming = .flatten then
      Rule.convertedChildren settings children
    else single
  | .color channels => if entry.name.isEmpty then channels.toList else single
  | _ => single

/-- Whether a variable can be merged into a root: it has a name, or it is a map or a colour. -/
def Variable.Mergeable (entry : Variable) : Prop :=
  entry.name ≠ "" ∨ entry.rule.kind = .map ∨ entry.rule.kind = .color

instance (entry : Variable) : Decidable entry.Mergeable := by
  unfold Variable.Mergeable
  infer_instance

end DesignTokens

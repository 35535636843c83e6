import DesignTokens.Kind
import DesignTokens.Path
import DesignTokens.Token.Basic

/-!
# Rules

A rule is the parsed value of a style variable: a string, a number with a unit, a list, a map, a
colour or a truth value. The channels of a colour are a mapping of tokens that is never looked
into.

* `Rule`: the trees.
* `Rule.kind`: the kind of a rule.
* `Rule.at?`: the rule that a path leads to, through lists and maps.
* `BEq Rule`: equality of rules, in which maps are compared in order and numbers by value.
-/

namespace DesignTokens

/-- The value of a style variable. -/
inductive Rule where
  | string (value : String)
  /-- A number, and the unit that follows it. -/
  | number (value : Binary64) (unit : Option String)
  | list (items : List Rule)
  | map (children : OrderedMap Rule)
  /-- A colour, by its channels. -/
  | color (channels : Mapping)
  | boolean (value : Bool)

namespace Rule

/-- The kind of a rule. -/
def kind : Rule → Kind
  | .string _ => .string
  | .number _ _ => .number
  | .list _ => .list
  | .map _ => .map
  | .color _ => .color
  | .boolean _ => .boolean

/-- The rule that one step leads to. -/
def step? : Rule → PathStep → Option Rule
  | .list items, .position position => items[position]?
  | .map children, .name name => children.get? name
  | _, _ => none

/-- The rule that a path leads to. -/
def at? (rule : Rule) : Path → Option Rule
  | [] => some rule
  | step :: path => (rule.step? step).bind (·.at? path)

mutual

/-- Equality of rules. -/
def beq : Rule → Rule → Bool
  | .string a, .string b => a == b
  | .number x u, .number y v => x == y && u == v
  | .list as, .list bs => beqItems as bs
  | .map ⟨⟨as⟩, _⟩, .map ⟨⟨bs⟩, _⟩ => beqChildren as bs
  | .color a, .color b => a == b
  | .boolean a, .boolean b => a == b
  | _, _ => false

/-- Equality of items, one by one. -/
def beqItems : List Rule → List Rule → Bool
  | [], [] => true
  | a :: as, b :: bs => beq a b && beqItems as bs
  | _, _ => false

/-- Equality of children, one by one, in their order. -/
def beqChildren : List (String × Rule) → List (String × Rule) → Bool
  | [], [] => true
  | (j, a) :: as, (k, b) :: bs => j == k && beq a b && beqChildren as bs
  | _, _ => false

end

instance : BEq Rule := ⟨beq⟩

end Rule

end DesignTokens

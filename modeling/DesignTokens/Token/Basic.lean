import DesignTokens.Json.Number
import DesignTokens.OrderedMap.Basic

/-!
# Tokens

A token is a tree of design values: a scalar, a sequence, or a mapping from names to tokens in
order.

* `Token`, `Mapping`: the trees and the mappings in them.
* `Token.get?`: the entry of a mapping.
* `BEq Token`: equality of trees, in which mappings are compared in order and doubles as
  numbers.
* `Token.ofInt64`, `Token.ofUInt64`, `Token.ofBinary64`: the tokens of words and doubles.
-/

namespace DesignTokens

/-- The value at a leaf of a token tree. -/
inductive Scalar where
  | text (value : String)
  | number (value : Json.Number)
  | boolean (value : Bool)
  | null

/-- Equality of scalars; numbers are equal when their values are, within one representation. -/
instance : BEq Scalar where
  beq
    | .text a, .text b => a == b
    | .number a, .number b => a == b
    | .boolean a, .boolean b => a == b
    | .null, .null => true
    | _, _ => false

/-- A tree of design values. -/
inductive Token where
  | scalar (value : Scalar)
  | sequence (items : List Token)
  | mapping (entries : OrderedMap Token)

/-- A mapping from names to tokens. -/
abbrev Mapping := OrderedMap Token

namespace Token

/-- The token of a text. -/
def ofText (value : String) : Token :=
  .scalar (.text value)

/-- The token of a truth value. -/
def ofBool (value : Bool) : Token :=
  .scalar (.boolean value)

/-- The token that wraps another under a name. -/
def named (name : String) (token : Token) : Token :=
  .mapping (.singleton name token)

/-- The name of the sort of token. -/
def sortName : Token → String
  | .scalar (.text _) => "string"
  | .scalar (.number _) => "number"
  | .scalar (.boolean _) => "boolean"
  | .scalar .null => "null"
  | .sequence _ => "sequence"
  | .mapping _ => "mapping"

/-- The text of a text scalar. -/
def text? : Token → Option String
  | .scalar (.text value) => some value
  | _ => none

/-- The truth value of a boolean scalar. -/
def bool? : Token → Option Bool
  | .scalar (.boolean value) => some value
  | _ => none

/-- The nearest double to a number scalar. -/
def binary64? : Token → Option Binary64
  | .scalar (.number value) => some value.toBinary64
  | _ => none

/-- The items of a sequence. -/
def items? : Token → Option (List Token)
  | .sequence items => some items
  | _ => none

/-- The entries of a mapping. -/
def entries? : Token → Option Mapping
  | .mapping entries => some entries
  | _ => none

/-- The entry of a mapping with this name. -/
def get? (token : Token) (name : String) : Option Token :=
  token.entries?.bind (·.get? name)

mutual

/-- Equality of trees. -/
def beq : Token → Token → Bool
  | .scalar a, .scalar b => a == b
  | .sequence as, .sequence bs => beqItems as bs
  | .mapping ⟨⟨as⟩, _⟩, .mapping ⟨⟨bs⟩, _⟩ => beqEntries as bs
  | _, _ => false

/-- Equality of items, one by one. -/
def beqItems : List Token → List Token → Bool
  | [], [] => true
  | a :: as, b :: bs => beq a b && beqItems as bs
  | _, _ => false

/-- Equality of entries, one by one, in their order. -/
def beqEntries : List (String × Token) → List (String × Token) → Bool
  | [], [] => true
  | (j, a) :: as, (k, b) :: bs => j == k && beq a b && beqEntries as bs
  | _, _ => false

end

instance : BEq Token := ⟨beq⟩

/-- The token of a signed word. -/
def ofInt64 (value : Int64) : Token :=
  .scalar (.number (.ofInt64 value))

/-- The token of an unsigned word. -/
def ofUInt64 (value : UInt64) : Token :=
  .scalar (.number (.ofUInt64 value))

/-- The token of a double: a number if it is finite, an integer where possible, and otherwise
null. -/
def ofBinary64 : Binary64 → Token
  | .finite x => .scalar (.number (.ofFinite x))
  | _ => .scalar .null

end Token

end DesignTokens

import DesignTokens.Decimal.Layout
import DesignTokens.Json.Basic
import DesignTokens.Json.Quoted

/-!
# Writing JSON

The two texts of a JSON value: `Json.compact` without any blanks, and `Json.pretty` with each
item and member on a line of its own, indented by two blanks a level.
-/

namespace DesignTokens.Json

/-- A double in a document keeps a mark of being one: a whole value ends in `.0`, and zero shows
its sign. Leading digits from the fifth place after the point to the sixteenth before it are
written positionally, and of two shortest decimals that are equally near the even one is
taken. -/
def numberStyle : NumberStyle where
  leastPositional := -5
  greatestPositional := 15
  whole := ['.', '0']
  signedZero := true
  tie := .even

/-- The text of an integer. -/
def integerText (n : Int) : List Char :=
  if n < 0 then '-' :: Nat.toDigits 10 n.natAbs else Nat.toDigits 10 n.natAbs

/-- The text of a number. -/
def Number.text : Number → List Char
  | .int value _ => integerText value
  | .float value => numberStyle.text value

-- Zero keeps its sign, and the integer one is told from the double.
example : (Number.float (.zero true)).text = ['-', '0', '.', '0'] := by decide +kernel

example : (Number.int 1 (by decide)).text = ['1'] := by decide +kernel

/-- A text in quotes. -/
def quoted (text : String) : List Char :=
  '"' :: (Quoted.encode text.toList ++ ['"'])

/-- A break before a line indented by this many levels. -/
def lineBreak (level : Nat) : List Char :=
  '\n' :: List.replicate (2 * level) ' '

mutual

/-- The compact text of a value, as characters. -/
def compactChars : Json → List Char
  | .null => ['n', 'u', 'l', 'l']
  | .boolean true => ['t', 'r', 'u', 'e']
  | .boolean false => ['f', 'a', 'l', 's', 'e']
  | .number value => value.text
  | .string value => quoted value
  | .array [] => ['[', ']']
  | .array (item :: items) => '[' :: (item.compactChars ++ compactItems items)
  | .object [] => ['\x7b', '\x7d']
  | .object ((name, value) :: members) =>
    '\x7b' :: (quoted name ++ ':' :: (value.compactChars ++ compactMembers members))

/-- The items after the first, and the closing bracket. -/
def compactItems : List Json → List Char
  | [] => [']']
  | item :: items => ',' :: (item.compactChars ++ compactItems items)

/-- The members after the first, and the closing brace. -/
def compactMembers : List (String × Json) → List Char
  | [] => ['\x7d']
  | (name, value) :: members =>
    ',' :: (quoted name ++ ':' :: (value.compactChars ++ compactMembers members))

end

mutual

/-- The indented text of a value that stands at some level, as characters. -/
def prettyChars (level : Nat) : Json → List Char
  | .null => ['n', 'u', 'l', 'l']
  | .boolean true => ['t', 'r', 'u', 'e']
  | .boolean false => ['f', 'a', 'l', 's', 'e']
  | .number value => value.text
  | .string value => quoted value
  | .array [] => ['[', ']']
  | .array (item :: items) =>
    '[' :: (lineBreak (level + 1) ++ (item.prettyChars (level + 1) ++ prettyItems level items))
  | .object [] => ['\x7b', '\x7d']
  | .object ((name, value) :: members) =>
    '\x7b' :: (lineBreak (level + 1) ++ (quoted name ++ ':' :: ' ' ::
      (value.prettyChars (level + 1) ++ prettyMembers level members)))

/-- The items after the first, and the closing bracket on a line at the array's own level. -/
def prettyItems (level : Nat) : List Json → List Char
  | [] => lineBreak level ++ [']']
  | item :: items =>
    ',' :: (lineBreak (level + 1) ++ (item.prettyChars (level + 1) ++ prettyItems level items))

/-- The members after the first, and the closing brace on a line at the object's own level. -/
def prettyMembers (level : Nat) : List (String × Json) → List Char
  | [] => lineBreak level ++ ['\x7d']
  | (name, value) :: members =>
    ',' :: (lineBreak (level + 1) ++ (quoted name ++ ':' :: ' ' ::
      (value.prettyChars (level + 1) ++ prettyMembers level members)))

end

/-- The text of a value without blanks. -/
def compact (json : Json) : String :=
  String.ofList json.compactChars

/-- The text of a value over indented lines. -/
def pretty (json : Json) : String :=
  String.ofList (json.prettyChars 0)

end DesignTokens.Json

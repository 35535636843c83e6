/-!
# Faults in JSON text

Why a text is not a JSON document, and where. A place is given by a line, counted from one, and
a column, the number of bytes since the last line break.

* `Json.Fault.Cause`: what is wrong, and its wording.
* `Json.Fault.lineColumn`: the line and column after a number of bytes.
* `Json.Stop`: a fault as reading finds it, with the text that is not yet read.
-/

namespace DesignTokens.Json

namespace Fault

/-- What is wrong with a text. -/
inductive Cause where
  /-- The text ends where a value, or more of one, must stand. -/
  | endInValue
  /-- The text ends inside a string. -/
  | endInString
  /-- The text ends where an item or a closing bracket must stand. -/
  | endInArray
  /-- The text ends where a name, a colon or a closing brace must stand. -/
  | endInObject
  /-- A character that no value starts with. -/
  | expectedValue
  /-- A word that starts as one of the three words for values and goes on differently. -/
  | expectedWord
  /-- Something else than a colon after a name. -/
  | expectedColon
  /-- Something else than a comma or a closing bracket after an item. -/
  | expectedItemSeparator
  /-- Something else than a comma or a closing brace after a member. -/
  | expectedMemberSeparator
  /-- A closing bracket or brace right after a comma. -/
  | trailingComma
  /-- A member whose name is not in quotes. -/
  | nameNotString
  /-- A digit that is missing, or one too many after a leading zero. -/
  | invalidNumber
  /-- A number beyond the largest double. -/
  | numberOutOfRange
  /-- An escape that stands for nothing. -/
  | invalidEscape
  /-- A control character in a string that is not escaped. -/
  | controlCharacter
  /-- A surrogate that is not half of a pair. -/
  | loneSurrogate
  /-- The first half of a pair without an escape after it. -/
  | unpairedSurrogate
  /-- Too many arrays and objects inside one another. -/
  | nestedTooDeep
  /-- Something after the value. -/
  | trailingCharacters
deriving DecidableEq, Repr

/-- The wording of a cause. -/
def Cause.text : Cause → String
  | .endInValue => "EOF while parsing a value"
  | .endInString => "EOF while parsing a string"
  | .endInArray => "EOF while parsing a list"
  | .endInObject => "EOF while parsing an object"
  | .expectedValue => "expected value"
  | .expectedWord => "expected ident"
  | .expectedColon => "expected \x60:\x60"
  | .expectedItemSeparator => "expected \x60,\x60 or \x60]\x60"
  | .expectedMemberSeparator => "expected \x60,\x60 or \x60\x7d\x60"
  | .trailingComma => "trailing comma"
  | .nameNotString => "key must be a string"
  | .invalidNumber => "invalid number"
  | .numberOutOfRange => "number out of range"
  | .invalidEscape => "invalid escape"
  | .controlCharacter => "control character (\\u0000-\\u001F) found while parsing a string"
  | .loneSurrogate => "lone leading surrogate in hex escape"
  | .unpairedSurrogate => "unexpected end of hex escape"
  | .nestedTooDeep => "recursion limit exceeded"
  | .trailingCharacters => "trailing characters"

/-- The number of bytes of a text. -/
def byteCount : List Char → Nat
  | [] => 0
  | c :: cs => c.utf8Size + byteCount cs

/-- The line and column after the first `bytes` bytes of a text that starts at the given ones.
The place may lie inside a character. -/
def advance (line column : Nat) : (bytes : Nat) → List Char → Nat × Nat
  | _, [] => (line, column)
  | bytes, c :: cs =>
    if bytes < c.utf8Size then (line, column + bytes)
    else if c = '\n' then advance (line + 1) 0 (bytes - c.utf8Size) cs
    else advance line (column + c.utf8Size) (bytes - c.utf8Size) cs

/-- The line and column after the first `bytes` bytes of a text. -/
def lineColumn (bytes : Nat) (text : List Char) : Nat × Nat :=
  advance 1 0 bytes text

end Fault

/-- A fault in a text, with its place. -/
structure Fault where
  cause : Fault.Cause
  line : Nat
  column : Nat
deriving DecidableEq, Repr

/-- The wording of a fault. -/
def Fault.message (fault : Fault) : String :=
  fault.cause.text ++ " at line " ++ Nat.repr fault.line ++ " column " ++ Nat.repr fault.column

/-- A fault as reading finds it. Its place is `ahead` bytes after the start of the text not yet
read, or the end of that text if it is shorter. -/
structure Stop where
  cause : Fault.Cause
  /-- The text that is not yet read. -/
  unread : List Char
  /-- How many bytes of it the place includes. -/
  ahead : Nat
deriving DecidableEq, Repr

/-- The fault, placed in the text that was read from its start. -/
def Stop.locate (stop : Stop) (text : List Char) : Fault :=
  let total := Fault.byteCount text
  let bytes := min (total - Fault.byteCount stop.unread + stop.ahead) total
  let place := Fault.lineColumn bytes text
  ⟨stop.cause, place.1, place.2⟩

end DesignTokens.Json

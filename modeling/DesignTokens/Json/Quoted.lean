/-!
# Quoted text

The characters between the quotes of a JSON string. A quote, a backslash and the control
characters below a blank are escaped, with the short escapes where there are some; every other
character stands for itself.
-/

namespace DesignTokens.Json.Quoted

/-- A hexadecimal digit, with small letters. -/
def hexDigit (n : Nat) : Char :=
  Nat.digitChar n

/-- The written form of one character. -/
def encodeChar (c : Char) : List Char :=
  if c = '"' then ['\\', '"']
  else if c = '\\' then ['\\', '\\']
  else if c = '\n' then ['\\', 'n']
  else if c = '\r' then ['\\', 'r']
  else if c = '\t' then ['\\', 't']
  else if c = '\x08' then ['\\', 'b']
  else if c = '\x0c' then ['\\', 'f']
  else if c.toNat < 0x20 then
    ['\\', 'u', '0', '0', hexDigit (c.toNat / 16), hexDigit (c.toNat % 16)]
  else [c]

/-- The written form of a text, without its quotes. -/
def encode (text : List Char) : List Char :=
  text.flatMap encodeChar

/-- The character that a short escape stands for, by its letter. -/
def decodeLetter? (letter : Char) : Option Char :=
  match letter with
  | '"' => some '"'
  | '\\' => some '\\'
  | '/' => some '/'
  | 'b' => some '\x08'
  | 'f' => some '\x0c'
  | 'n' => some '\n'
  | 'r' => some '\r'
  | 't' => some '\t'
  | _ => none

end DesignTokens.Json.Quoted

import DesignTokens.Text.Extender
import DesignTokens.Text.Unprintable

/-!
# Escaped text

How a log line shows a name: in quotes and on one line. Characters that could not be told from
their neighbours are shown by their code points, as are those unfit for printing.
-/

namespace DesignTokens.Text

/-- One character as it stands inside quotes. -/
def escapeChar (c : Char) : List Char :=
  if c = '\x00' then ['\\', '0']
  else if c = '\t' then ['\\', 't']
  else if c = '\r' then ['\\', 'r']
  else if c = '\n' then ['\\', 'n']
  else if c = '"' then ['\\', '"']
  else if c = '\\' then ['\\', '\\']
  else if isUnprintable c || isFiller c || isExtender c then
    '\\' :: 'u' :: '\x7b' :: (Nat.toDigits 16 c.toNat ++ ['\x7d'])
  else [c]

/-- The text in quotes, with its characters escaped where that is needed. -/
def escaped (text : String) : String :=
  String.ofList ('"' :: (text.toList.flatMap escapeChar ++ ['"']))

-- An accent that stands by itself as a character is shown by its code point, one that is part of a
-- letter is not.
example : ['e', '\u0301'].flatMap escapeChar = ['e', '\\', 'u', '\x7b', '3', '0', '1', '\x7d'] := by
  decide +kernel

example : ['é'].flatMap escapeChar = ['é'] := by decide +kernel

-- The halfwidth voiced sound mark extends a grapheme but is a letter, so it is shown as it is.
example : ['ｶ', 'ﾞ'].flatMap escapeChar = ['ｶ', 'ﾞ'] := by decide +kernel

end DesignTokens.Text

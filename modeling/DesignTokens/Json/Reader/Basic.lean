import DesignTokens.Json.Fault

/-!
# Reading from the front of a text

A reader takes something off the front of a text and leaves the rest of it, which is shorter; so
a reader that calls others on what they leave comes to an end.

* `Json.Parsed`: what was read and the shorter rest.
* `Json.Reading`: that, or the fault that stopped the reader.
* `Json.skipBlank`: the text without the blanks at its front.
* `Json.word`: a fixed sequence of characters.
-/

namespace DesignTokens.Json

/-- Something read off the front of a text. -/
structure Parsed (α : Type) (text : List Char) where
  value : α
  /-- The text that follows. -/
  rest : List Char
  shorter : rest.length < text.length

/-- The result of reading something off the front of a text. -/
abbrev Reading (α : Type) (text : List Char) :=
  Except Stop (Parsed α text)

/-- The same reading, for a text that is at least as long as the one read. -/
def Reading.widen {α : Type} {short long : List Char} (h : short.length ≤ long.length) :
    Reading α short → Reading α long
  | .ok ⟨value, rest, shorter⟩ => .ok ⟨value, rest, Nat.lt_of_lt_of_le shorter h⟩
  | .error stop => .error stop

/-- The reading with its value changed. -/
def Reading.map {α β : Type} {text : List Char} (f : α → β) : Reading α text → Reading β text
  | .ok ⟨value, rest, shorter⟩ => .ok ⟨f value, rest, shorter⟩
  | .error stop => .error stop

/-- Stops at the first of the characters not yet read, counting it into the place. -/
def stopAt {α : Type} (cause : Fault.Cause) (unread : List Char) : Except Stop α :=
  .error ⟨cause, unread, 1⟩

/-- The characters that may stand between the parts of a document. -/
def isBlank (c : Char) : Bool :=
  c = ' ' || c = '\n' || c = '\t' || c = '\r'

/-- The text from its first character that is not blank. -/
def skipBlank (text : List Char) : { rest : List Char // rest.length ≤ text.length } :=
  ⟨text.dropWhile isBlank, (List.dropWhile_sublist isBlank).length_le⟩

/-- Reads the given characters. -/
def word : (expected : List Char) → (text : List Char) →
    Except Stop { rest : List Char // rest.length ≤ text.length }
  | [], text => .ok ⟨text, Nat.le_refl _⟩
  | _ :: _, [] => stopAt .endInValue []
  | e :: expected, c :: text =>
    if c = e then
      match word expected text with
      | .ok ⟨rest, h⟩ => .ok ⟨rest, Nat.le_succ_of_le h⟩
      | .error stop => .error stop
    else stopAt .expectedWord (c :: text)

end DesignTokens.Json

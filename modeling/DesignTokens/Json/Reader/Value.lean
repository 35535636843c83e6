import DesignTokens.Json.Basic
import DesignTokens.Json.Reader.Number
import DesignTokens.Json.Reader.Text

/-!
# Reading values

A document is one value with blanks around it. Arrays and objects may be nested `nestingLimit`
deep. Of the members of an object that share a name, the last one counts, at the place of the
first.

* `Json.readItems`, `Json.readMembers`: what stands between brackets and between braces.
* `Json.readValue`: a value off the front of a text.
* `Json.read`: the document in a text.
-/

namespace DesignTokens.Json

/-- Reads one or more items, of which the first is at hand, and the closing bracket. -/
def readItems (item : (text : List Char) → Reading Json text) (text : List Char) :
    Reading (List Json) text :=
  match item text with
  | .error stop => .error stop
  | .ok ⟨value, rest, _⟩ =>
    match skipBlank rest with
    | ⟨[], _⟩ => stopAt .endInArray []
    | ⟨c :: after, _⟩ =>
      if c = ']' then .ok ⟨[value], after, by simp_all only [List.length_cons]; omega⟩
      else if c = ',' then
        -- A bracket right after a comma is a fault of its own, not a missing item.
        match skipBlank after with
        | ⟨[], _⟩ => stopAt .endInValue []
        | ⟨d :: next, _⟩ =>
          if d = ']' then stopAt .trailingComma (d :: next)
          else
            ((readItems item (d :: next)).map (value :: ·)).widen
              (by simp_all only [List.length_cons]; omega)
      else stopAt .expectedItemSeparator (c :: after)
termination_by text.length
decreasing_by simp_all only [List.length_cons]; omega

/-- Reads the name of a member and the colon after it. -/
def readName (text : List Char) : Reading String text :=
  match text with
  | [] => stopAt .endInObject []
  | c :: rest =>
    if c = '"' then
      match readQuoted rest with
      | .error stop => .error stop
      | .ok ⟨name, after, _⟩ =>
        match skipBlank after with
        | ⟨[], _⟩ => stopAt .endInObject []
        | ⟨d :: next, _⟩ =>
          if d = ':' then
            .ok ⟨String.ofList name, next, by simp_all only [List.length_cons]; omega⟩
          else stopAt .expectedColon (d :: next)
    else stopAt .nameNotString text

/-- Reads one or more members, of which the first is at hand, and the closing brace. -/
def readMembers (item : (text : List Char) → Reading Json text) (text : List Char) :
    Reading (List (String × Json)) text :=
  match readName text with
  | .error stop => .error stop
  | .ok ⟨name, afterName, _⟩ =>
    match item afterName with
    | .error stop => .error stop
    | .ok ⟨value, rest, _⟩ =>
      match skipBlank rest with
      | ⟨[], _⟩ => stopAt .endInObject []
      | ⟨c :: after, _⟩ =>
        if c = '\x7d' then .ok ⟨[(name, value)], after, by simp_all only [List.length_cons]; omega⟩
        else if c = ',' then
          match skipBlank after with
          | ⟨[], _⟩ => stopAt .endInValue []
          | ⟨d :: next, _⟩ =>
            if d = '\x7d' then stopAt .trailingComma (d :: next)
            else
              ((readMembers item (d :: next)).map ((name, value) :: ·)).widen
                (by simp_all only [List.length_cons]; omega)
        else stopAt .expectedMemberSeparator (c :: after)
termination_by text.length
decreasing_by simp_all only [List.length_cons]; omega

/-- Reads the rest of an array after its opening bracket. -/
def readArray (item : (text : List Char) → Reading Json text) (text : List Char) :
    Reading Json text :=
  match skipBlank text with
  | ⟨[], _⟩ => stopAt .endInArray []
  | ⟨c :: rest, h⟩ =>
    if c = ']' then .ok ⟨.array [], rest, h⟩
    else ((readItems item (c :: rest)).map .array).widen h

/-- Reads the rest of an object after its opening brace. -/
def readObject (item : (text : List Char) → Reading Json text) (text : List Char) :
    Reading Json text :=
  match skipBlank text with
  | ⟨[], _⟩ => stopAt .endInObject []
  | ⟨c :: rest, h⟩ =>
    if c = '\x7d' then .ok ⟨.object [], rest, h⟩
    else ((readMembers item (c :: rest)).map ofMembers).widen h

/-- Reads the rest of a word that stands for a value; its first character is taken already. -/
def readWord (value : Json) (tail : List Char) {text rest : List Char}
    (h : rest.length < text.length) : Reading Json text :=
  match word tail rest with
  | .ok ⟨after, h'⟩ => .ok ⟨value, after, Nat.lt_of_le_of_lt h' h⟩
  | .error stop => .error stop

/-- Reads a value, in which at most `levels` arrays and objects are nested in one another. -/
def readValue (levels : Nat) (text : List Char) : Reading Json text :=
  match skipBlank text with
  | ⟨[], _⟩ => stopAt .endInValue []
  | ⟨c :: rest, h⟩ =>
    if c = 'n' then readWord .null ['u', 'l', 'l'] h
    else if c = 't' then readWord (.boolean true) ['r', 'u', 'e'] h
    else if c = 'f' then readWord (.boolean false) ['a', 'l', 's', 'e'] h
    else if c = '"' then
      ((readQuoted rest).map fun chars => .string (String.ofList chars)).widen (Nat.le_of_lt h)
    else if c = '-' ∨ c.isDigit then ((readNumber (c :: rest)).map .number).widen h
    else if c = '[' then
      match levels with
      | 0 => stopAt .nestedTooDeep (c :: rest)
      | levels + 1 => (readArray (readValue levels) rest).widen (Nat.le_of_lt h)
    else if c = '\x7b' then
      match levels with
      | 0 => stopAt .nestedTooDeep (c :: rest)
      | levels + 1 => (readObject (readValue levels) rest).widen (Nat.le_of_lt h)
    else stopAt .expectedValue (c :: rest)

/-- How deep arrays and objects may be nested in a document. -/
def nestingLimit : Nat := 127

/-- Reads a document: a value and nothing else but blanks. -/
def readDocument (text : List Char) : Except Stop Json :=
  match readValue nestingLimit text with
  | .error stop => .error stop
  | .ok ⟨value, rest, _⟩ =>
    match skipBlank rest with
    | ⟨[], _⟩ => .ok value
    | ⟨c :: after, _⟩ => stopAt .trailingCharacters (c :: after)

/-- The document in a text, or the first fault in it. -/
def read (text : String) : Except Fault Json :=
  (readDocument text.toList).mapError (·.locate text.toList)

end DesignTokens.Json

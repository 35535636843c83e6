import DesignTokens.Json.Reader.Basic
import DesignTokens.Json.Writer

/-!
# Layouts of JSON text

The compact and the indented text of a value differ in their blanks alone. A layout says which
blanks there are, and the text of a value in a layout is both of them in one.

* `Json.Layout`: the blanks between the parts of a text; `Layout.dense`, `Layout.indented`.
* `Json.charsIn`: the text of a value in a layout.
-/

namespace DesignTokens.Json

/-- The blanks that are written between the parts of a document. -/
structure Layout where
  /-- What stands before items and members of this level, and before the closing bracket or brace
  of an array or object of this level. -/
  lineBreak : Nat → List Char
  /-- What stands between a colon and the value. -/
  afterColon : List Char
  blank_of_mem_lineBreak : ∀ level, ∀ c ∈ lineBreak level, isBlank c = true
  blank_of_mem_afterColon : ∀ c ∈ afterColon, isBlank c = true

namespace Layout

/-- The layout without blanks. -/
def dense : Layout where
  lineBreak _ := []
  afterColon := []
  blank_of_mem_lineBreak _ _ h := absurd h List.not_mem_nil
  blank_of_mem_afterColon _ h := absurd h List.not_mem_nil

/-- The layout with a line for each item and member. -/
def indented : Layout where
  lineBreak := Json.lineBreak
  afterColon := [' ']
  blank_of_mem_lineBreak level c h := by
    rcases List.mem_cons.mp h with rfl | h
    · rfl
    · rw [List.eq_of_mem_replicate h]
      rfl
  blank_of_mem_afterColon c h := by
    rw [List.mem_singleton.mp h]
    rfl

end Layout

mutual

/-- The text in a layout of a value that stands at some level, as characters. -/
def charsIn (layout : Layout) (level : Nat) : Json → List Char
  | .null => ['n', 'u', 'l', 'l']
  | .boolean true => ['t', 'r', 'u', 'e']
  | .boolean false => ['f', 'a', 'l', 's', 'e']
  | .number value => value.text
  | .string value => quoted value
  | .array [] => ['[', ']']
  | .array (item :: items) =>
    '[' :: (layout.lineBreak (level + 1) ++
      (item.charsIn layout (level + 1) ++ itemsIn layout level items))
  | .object [] => ['\x7b', '\x7d']
  | .object ((name, value) :: members) =>
    '\x7b' :: (layout.lineBreak (level + 1) ++ (quoted name ++ ':' :: (layout.afterColon ++
      (value.charsIn layout (level + 1) ++ membersIn layout level members))))

/-- The items after the first, and the closing bracket. -/
def itemsIn (layout : Layout) (level : Nat) : List Json → List Char
  | [] => layout.lineBreak level ++ [']']
  | item :: items =>
    ',' :: (layout.lineBreak (level + 1) ++
      (item.charsIn layout (level + 1) ++ itemsIn layout level items))

/-- The members after the first, and the closing brace. -/
def membersIn (layout : Layout) (level : Nat) : List (String × Json) → List Char
  | [] => layout.lineBreak level ++ ['\x7d']
  | (name, value) :: members =>
    ',' :: (layout.lineBreak (level + 1) ++ (quoted name ++ ':' :: (layout.afterColon ++
      (value.charsIn layout (level + 1) ++ membersIn layout level members))))

end

end DesignTokens.Json

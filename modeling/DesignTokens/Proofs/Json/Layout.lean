import DesignTokens.Json.Layout
import DesignTokens.Json.Nesting
import DesignTokens.Proofs.Json.Integers

/-!
# Text in a layout

* `Json.charsIn_dense`, `Json.charsIn_indented`: the two texts of a value are its texts in the two
  layouts.
-/

namespace DesignTokens.Json

/-! ## The two texts -/

mutual

/-- The compact text has the layout without blanks, at every level. -/
theorem charsIn_dense (level : Nat) : (json : Json) →
    json.charsIn .dense level = json.compactChars
  | .null | .boolean true | .boolean false | .number _ | .string _ | .array [] | .object [] => rfl
  | .array (item :: items) => by
    rw [charsIn, compactChars, charsIn_dense (level + 1) item, itemsIn_dense level items]
    rfl
  | .object ((name, value) :: members) => by
    rw [charsIn, compactChars, charsIn_dense (level + 1) value, membersIn_dense level members]
    rfl

theorem itemsIn_dense (level : Nat) : (items : List Json) →
    itemsIn .dense level items = compactItems items
  | [] => rfl
  | item :: items => by
    rw [itemsIn, compactItems, charsIn_dense (level + 1) item, itemsIn_dense level items]
    rfl

theorem membersIn_dense (level : Nat) : (members : List (String × Json)) →
    membersIn .dense level members = compactMembers members
  | [] => rfl
  | (name, value) :: members => by
    rw [membersIn, compactMembers, charsIn_dense (level + 1) value, membersIn_dense level members]
    rfl

end

mutual

/-- The indented text has the layout with a line for each item and member. -/
theorem charsIn_indented (level : Nat) : (json : Json) →
    json.charsIn .indented level = json.prettyChars level
  | .null | .boolean true | .boolean false | .number _ | .string _ | .array [] | .object [] => rfl
  | .array (item :: items) => by
    rw [charsIn, prettyChars, charsIn_indented (level + 1) item, itemsIn_indented level items]
    rfl
  | .object ((name, value) :: members) => by
    rw [charsIn, prettyChars, charsIn_indented (level + 1) value, membersIn_indented level members]
    rfl

theorem itemsIn_indented (level : Nat) : (items : List Json) →
    itemsIn .indented level items = prettyItems level items
  | [] => rfl
  | item :: items => by
    rw [itemsIn, prettyItems, charsIn_indented (level + 1) item, itemsIn_indented level items]
    rfl

theorem membersIn_indented (level : Nat) : (members : List (String × Json)) →
    membersIn .indented level members = prettyMembers level members
  | [] => rfl
  | (name, value) :: members => by
    rw [membersIn, prettyMembers, charsIn_indented (level + 1) value,
      membersIn_indented level members]
    rfl

end

end DesignTokens.Json

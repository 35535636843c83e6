import DesignTokens.Proofs.Json.Layout
import DesignTokens.Proofs.Json.Productions
import DesignTokens.Proofs.Json.Tree

/-!
# Reading back values

In whatever layout a value is written, its text is read as that value: by induction, where items and
members are read one after another up to the closing bracket or brace.

* `Json.exists_front`: the text of a value starts with a character that is no blank and no closing
  bracket.
* `Json.yields_itemsIn`, `Json.yields_membersIn`: items and members are read if their values are.
* `Json.readsBack_charsIn`: a value is read back, in any layout and at any level.
* `Json.read_compact`, `Json.read_pretty`: the document of either text.
-/

namespace DesignTokens.Json

variable {rest : List Char} {levels level : Nat} {json : Json} {layout : Layout}

/-! ## Parts -/

/-- The text of a value starts with a character that is no blank and no closing bracket. -/
theorem exists_front (hintegers : json.IntegersOnly) (layout : Layout) (level : Nat) :
    ∃ c tail, json.charsIn layout level = c :: tail ∧ isBlank c = false ∧ c ≠ ']' := by
  cases json with
  | null => exact ⟨'n', _, rfl, rfl, by decide⟩
  | boolean value =>
    cases value
    · exact ⟨'f', _, rfl, rfl, by decide⟩
    · exact ⟨'t', _, rfl, rfl, by decide⟩
  | number value =>
    cases value with
    | int value inRange =>
      obtain ⟨c, digits, hform, hc⟩ := exists_front_integerText value
      exact ⟨c, digits, hform, isBlank_of_sign_or_digit hc, ne_of_sign_or_digit hc (by decide)⟩
    | float value => exact hintegers.elim
  | string value => exact ⟨'"', _, rfl, rfl, by decide⟩
  | array items => cases items <;> exact ⟨'[', _, rfl, rfl, by decide⟩
  | object members => cases members <;> exact ⟨'\x7b', _, rfl, rfl, by decide⟩

/-- The text of a value at this level is read as the value, with this many levels left, whatever
blanks stand before it and whatever ends a number after it. -/
def ReadsBack (layout : Layout) (levels level : Nat) (json : Json) : Prop :=
  ∀ blanks : List Char, (∀ c ∈ blanks, isBlank c = true) → ∀ rest, NumberEnd rest →
    (readValue levels (blanks ++ (json.charsIn layout level ++ rest))).Yields json rest

theorem ReadsBack.yields (h : json.ReadsBack layout levels level) (hrest : NumberEnd rest) :
    (readValue levels (json.charsIn layout level ++ rest)).Yields json rest :=
  h [] (fun _ hmem => absurd hmem List.not_mem_nil) rest hrest

/-- What follows an item ends a number. -/
theorem numberEnd_itemsIn (layout : Layout) (level : Nat) (items : List Json)
    (rest : List Char) : NumberEnd (itemsIn layout level items ++ rest) := by
  cases items with
  | nil =>
    rw [itemsIn, List.append_assoc]
    exact numberEnd_append (layout.blank_of_mem_lineBreak level) (by simp [NumberEnd])
  | cons item items => simp [itemsIn, NumberEnd]

/-- What follows a member ends a number. -/
theorem numberEnd_membersIn (layout : Layout) (level : Nat) (members : List (String × Json))
    (rest : List Char) : NumberEnd (membersIn layout level members ++ rest) := by
  cases members with
  | nil =>
    rw [membersIn, List.append_assoc]
    exact numberEnd_append (layout.blank_of_mem_lineBreak level) (by simp [NumberEnd])
  | cons member members => simp [membersIn, NumberEnd]

/-- Items are read up to the closing bracket if each of them is. -/
theorem yields_itemsIn {item : Json} {items : List Json}
    (hread : ∀ i ∈ item :: items, i.ReadsBack layout levels (level + 1))
    (hintegers : ∀ i ∈ items, i.IntegersOnly) (rest : List Char) :
    (readItems (readValue levels) (item.charsIn layout (level + 1) ++
      (itemsIn layout level items ++ rest))).Yields (item :: items) rest := by
  -- After a comma the reader starts again, with the next item as the first.
  induction items generalizing item with
  | nil =>
    refine yields_lastItem ((hread item List.mem_cons_self).yields
      (numberEnd_itemsIn layout level [] rest)) ?_
    rw [itemsIn, List.append_assoc]
    exact skipBlank_append (layout.blank_of_mem_lineBreak level) rfl rest
  | cons second items ih =>
    have hitems := ih (fun i hi => hread i (List.mem_cons_of_mem _ hi))
      (fun i hi => hintegers i (List.mem_cons_of_mem _ hi))
    obtain ⟨c, tail, hform, hblank, hbracket⟩ :=
      exists_front (hintegers second List.mem_cons_self) layout (level + 1)
    rw [hform, List.cons_append] at hitems
    have hmore : itemsIn layout level (second :: items) ++ rest =
        ',' :: (layout.lineBreak (level + 1) ++
          c :: (tail ++ (itemsIn layout level items ++ rest))) := by
      simp [itemsIn, hform]
    refine yields_nextItem ((hread item List.mem_cons_self).yields
      (numberEnd_itemsIn layout level (second :: items) rest)) ?_
      (skipBlank_append (layout.blank_of_mem_lineBreak (level + 1)) hblank _) hbracket hitems
    rw [hmore]
    exact skipBlank_cons rfl _

/-- Members are read up to the closing brace if each of their values is. -/
theorem yields_membersIn {name : String} {value : Json} {members : List (String × Json)}
    (hread : ∀ m ∈ (name, value) :: members, m.2.ReadsBack layout levels (level + 1))
    (rest : List Char) :
    (readMembers (readValue levels) (quoted name ++ ':' :: (layout.afterColon ++
      (value.charsIn layout (level + 1) ++ (membersIn layout level members ++ rest))))).Yields
      ((name, value) :: members) rest := by
  have hvalue := hread (name, value) List.mem_cons_self _ layout.blank_of_mem_afterColon _
    (numberEnd_membersIn layout level members rest)
  induction members generalizing name value with
  | nil =>
    refine yields_lastMember (yields_name name _) hvalue ?_
    rw [membersIn, List.append_assoc]
    exact skipBlank_append (layout.blank_of_mem_lineBreak level) rfl rest
  | cons second members ih =>
    obtain ⟨name', value'⟩ := second
    have hsecond := hread (name', value') (by simp) _ layout.blank_of_mem_afterColon _
      (numberEnd_membersIn layout level members rest)
    have hmembers := ih (fun m hm => hread m (List.mem_cons_of_mem _ hm)) hsecond
    -- A member starts with the quote of its name, which is neither a blank nor a brace.
    obtain ⟨tail, hform⟩ : ∃ tail, quoted name' ++ ':' :: (layout.afterColon ++
        (value'.charsIn layout (level + 1) ++ (membersIn layout level members ++ rest))) =
          '"' :: tail := ⟨_, rfl⟩
    rw [hform] at hmembers
    have hmore : membersIn layout level ((name', value') :: members) ++ rest =
        ',' :: (layout.lineBreak (level + 1) ++ '"' :: tail) := by
      simp [membersIn, ← hform]
    refine yields_nextMember (yields_name name _) hvalue ?_
      (skipBlank_append (layout.blank_of_mem_lineBreak (level + 1)) rfl _) (by decide) hmembers
    rw [hmore]
    exact skipBlank_cons rfl _

/-- An integer is read back. -/
theorem readsBack_int {value : Int}
    (inRange : -0x8000000000000000 ≤ value ∧ value < 0x10000000000000000) :
    (number (.int value inRange)).ReadsBack layout levels level := by
  intro blanks hblanks rest hrest
  have hnumber := yields_integerText inRange hrest
  obtain ⟨c, digits, hform, hc⟩ := exists_front_integerText value
  rw [hform, List.cons_append] at hnumber
  rw [charsIn, Number.text, hform]
  exact yields_number (skipBlank_append hblanks (isBlank_of_sign_or_digit hc) _) hc hnumber

/-- A string is read back. -/
theorem readsBack_string (value : String) : (string value).ReadsBack layout levels level := by
  intro blanks hblanks rest _
  have hchars := Quoted.yields_encode value.toList rest
  have hform : quoted value ++ rest = '"' :: (Quoted.encode value.toList ++ '"' :: rest) := by
    simp [quoted]
  rw [charsIn, hform]
  exact yields_string (skipBlank_append hblanks rfl _) hchars

/-- An array is read back if its items are. -/
theorem readsBack_array {items : List Json}
    (hread : ∀ item ∈ items, item.ReadsBack layout levels (level + 1))
    (hintegers : ∀ item ∈ items, item.IntegersOnly) :
    (array items).ReadsBack layout (levels + 1) level := by
  intro blanks hblanks rest _
  cases items with
  | nil =>
    exact yields_array (skipBlank_append hblanks rfl _) (yields_emptyArray (skipBlank_cons rfl _))
  | cons item items =>
    have hitems := yields_itemsIn hread
      (fun i hi => hintegers i (List.mem_cons_of_mem _ hi)) rest
    obtain ⟨c, tail, hform, hblank, hbracket⟩ :=
      exists_front (hintegers item List.mem_cons_self) layout (level + 1)
    rw [hform, List.cons_append] at hitems
    have hmore : (array (item :: items)).charsIn layout level ++ rest =
        '[' :: (layout.lineBreak (level + 1) ++
          c :: (tail ++ (itemsIn layout level items ++ rest))) := by
      simp [charsIn, hform]
    rw [hmore]
    exact yields_array (skipBlank_append hblanks rfl _) (yields_items
      (skipBlank_append (layout.blank_of_mem_lineBreak (level + 1)) hblank _) hbracket hitems)

/-- An object is read back if its members' values are and its names are distinct. -/
theorem readsBack_object {members : List (String × Json)}
    (hread : ∀ member ∈ members, member.2.ReadsBack layout levels (level + 1))
    (hnodup : (members.map (·.1)).Nodup) :
    (object members).ReadsBack layout (levels + 1) level := by
  intro blanks hblanks rest _
  cases members with
  | nil =>
    exact yields_object (skipBlank_append hblanks rfl _)
      (yields_emptyObject (skipBlank_cons rfl _))
  | cons member members =>
    obtain ⟨name, value⟩ := member
    have hmembers := yields_membersIn hread rest
    obtain ⟨tail, hform⟩ : ∃ tail, quoted name ++ ':' :: (layout.afterColon ++
        (value.charsIn layout (level + 1) ++ (membersIn layout level members ++ rest))) =
          '"' :: tail := ⟨_, rfl⟩
    rw [hform] at hmembers
    have hmore : (object ((name, value) :: members)).charsIn layout level ++ rest =
        '\x7b' :: (layout.lineBreak (level + 1) ++ '"' :: tail) := by
      simp [charsIn, ← hform]
    -- The reader collects the members one by one, and none of them replaces another.
    rw [hmore, ← ofMembers_eq_object hnodup]
    exact yields_object (skipBlank_append hblanks rfl _) (yields_members
      (skipBlank_append (layout.blank_of_mem_lineBreak (level + 1)) rfl _) (by decide) hmembers)

/-! ## Whole values -/

/-- A value is read back in any layout. Its names may not repeat, its numbers must be integers, and
it may be no deeper than the levels left. -/
theorem readsBack_charsIn (layout : Layout) (hunique : json.UniqueKeys)
    (hintegers : json.IntegersOnly) (hdepth : json.depth ≤ levels) (level : Nat) :
    json.ReadsBack layout levels level := by
  -- Inside an array or object there is one level less to read, and one more to indent.
  induction json generalizing levels level with
  | null => exact fun _ hblanks rest _ => yields_null (skipBlank_append hblanks rfl _)
  | boolean value =>
    cases value
    · exact fun _ hblanks rest _ => yields_false (skipBlank_append hblanks rfl _)
    · exact fun _ hblanks rest _ => yields_true (skipBlank_append hblanks rfl _)
  | number value =>
    cases value with
    | int value inRange => exact readsBack_int inRange
    | float value => exact hintegers.elim
  | string value => exact readsBack_string value
  | array items ih =>
    obtain ⟨inner, rfl, hinner⟩ := exists_levels_of_items hdepth
    refine readsBack_array (fun item hitem => ?_) fun item hitem => hintegers.of_mem_items hitem
    exact ih item hitem (hunique.of_mem_items hitem) (hintegers.of_mem_items hitem)
      (hinner item hitem) (level + 1)
  | object members ih =>
    obtain ⟨inner, rfl, hinner⟩ := exists_levels_of_members hdepth
    refine readsBack_object (fun member hmember => ?_) hunique.nodup
    exact ih member hmember (hunique.of_mem_members hmember) (hintegers.of_mem_members hmember)
      (hinner member hmember) (level + 1)

/-- A document is read back in any layout. -/
theorem readDocument_charsIn (layout : Layout) (hunique : json.UniqueKeys)
    (hintegers : json.IntegersOnly) (hdepth : json.depth ≤ nestingLimit) :
    readDocument (json.charsIn layout 0) = .ok json := by
  have hend : NumberEnd [] := by simp [NumberEnd]
  have hvalue := (readsBack_charsIn layout hunique hintegers hdepth 0).yields hend
  rw [List.append_nil] at hvalue
  obtain ⟨shorter, hvalue⟩ := hvalue
  rw [readDocument, hvalue]
  rfl

/-- The compact text of a value is read as the value. -/
theorem read_compact (hunique : json.UniqueKeys) (hintegers : json.IntegersOnly)
    (hdepth : json.depth ≤ nestingLimit) : read json.compact = .ok json := by
  rw [read, compact, String.toList_ofList, ← charsIn_dense 0,
    readDocument_charsIn .dense hunique hintegers hdepth]
  rfl

/-- The indented text of a value is read as the value. -/
theorem read_pretty (hunique : json.UniqueKeys) (hintegers : json.IntegersOnly)
    (hdepth : json.depth ≤ nestingLimit) : read json.pretty = .ok json := by
  rw [read, pretty, String.toList_ofList, ← charsIn_indented 0,
    readDocument_charsIn .indented hunique hintegers hdepth]
  rfl

end DesignTokens.Json

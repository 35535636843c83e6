import DesignTokens.Json.Reader.Value
import DesignTokens.Proofs.Json.Integers

/-!
# Productions of JSON text

Each production of the grammar is read as it is written, given that its parts are: a word, a
string, a number, an array or an object as a value, and items and members one after another.

* `Json.skipBlank_append`, `Json.numberEnd_append`: blanks between the parts.
* `Json.yields_string`, `Json.yields_number`, `Json.yields_array`, `Json.yields_object`: values.
* `Json.yields_lastItem`, `Json.yields_nextItem`: items.
* `Json.yields_name`, `Json.yields_lastMember`, `Json.yields_nextMember`: members.
-/

namespace DesignTokens.Json

variable {text tail rest after next : List Char} {c : Char} {levels : Nat} {json : Json}

/-! ## Blanks -/

/-- Something that is no blank is not skipped. -/
theorem skipBlank_cons (hc : isBlank c = false) (tail : List Char) :
    (skipBlank (c :: tail)).1 = c :: tail := by
  simp [skipBlank, hc]

/-- Blanks in front of something else are skipped. -/
theorem skipBlank_append {blanks : List Char} (hblanks : ∀ c ∈ blanks, isBlank c = true)
    (hc : isBlank c = false) (tail : List Char) :
    (skipBlank (blanks ++ c :: tail)).1 = c :: tail :=
  (List.dropWhile_append_of_pos hblanks).trans (skipBlank_cons hc tail)

/-- The text after the blanks, with the bound on its length. -/
theorem skipBlank_eq {front : List Char} (h : (skipBlank text).1 = front) :
    ∃ hle, skipBlank text = ⟨front, hle⟩ :=
  ⟨h ▸ (skipBlank text).2, Subtype.ext h⟩

/-- No number goes on with a blank. -/
theorem numberEnd_of_isBlank (h : isBlank c = true) : NumberEnd (c :: tail) := by
  simp only [isBlank, Bool.or_eq_true, decide_eq_true_eq] at h
  intro d hd
  obtain rfl : c = d := Option.some.inj hd
  rcases h with ((rfl | rfl) | rfl) | rfl <;> decide

/-- Blanks in front of what ends a number end it too. -/
theorem numberEnd_append {blanks : List Char} (hblanks : ∀ c ∈ blanks, isBlank c = true)
    (hrest : NumberEnd rest) : NumberEnd (blanks ++ rest) := by
  cases blanks with
  | nil => exact hrest
  | cons c blanks => exact numberEnd_of_isBlank (hblanks c List.mem_cons_self)

/-! ## Productions -/

/-- A word is read off the front of a text. -/
theorem word_append (expected rest : List Char) :
    ∃ hle, word expected (expected ++ rest) = .ok ⟨rest, hle⟩ := by
  induction expected with
  | nil => exact ⟨Nat.le_refl _, rfl⟩
  | cons c expected ih =>
    obtain ⟨hle, ih⟩ := ih
    refine ⟨Nat.le_succ_of_le hle, ?_⟩
    simp only [List.cons_append, word, if_true, ih]

theorem yields_readWord (value : Json) (expected : List Char)
    (h : (expected ++ rest).length < text.length) :
    (readWord value expected h : Reading Json text).Yields value rest := by
  obtain ⟨hle, hword⟩ := word_append expected rest
  exact ⟨Nat.lt_of_le_of_lt hle h, by rw [readWord, hword]⟩

/-- The three words are values. -/
theorem yields_null (hskip : (skipBlank text).1 = 'n' :: (['u', 'l', 'l'] ++ rest)) :
    (readValue levels text).Yields .null rest := by
  obtain ⟨hle, hskip⟩ := skipBlank_eq hskip
  rw [readValue, hskip]
  exact yields_readWord .null ['u', 'l', 'l'] hle

theorem yields_true (hskip : (skipBlank text).1 = 't' :: (['r', 'u', 'e'] ++ rest)) :
    (readValue levels text).Yields (.boolean true) rest := by
  obtain ⟨hle, hskip⟩ := skipBlank_eq hskip
  rw [readValue, hskip]
  exact yields_readWord (.boolean true) ['r', 'u', 'e'] hle

theorem yields_false (hskip : (skipBlank text).1 = 'f' :: (['a', 'l', 's', 'e'] ++ rest)) :
    (readValue levels text).Yields (.boolean false) rest := by
  obtain ⟨hle, hskip⟩ := skipBlank_eq hskip
  rw [readValue, hskip]
  exact yields_readWord (.boolean false) ['a', 'l', 's', 'e'] hle

/-- A string is a value. -/
theorem yields_string {value : String} (hskip : (skipBlank text).1 = '"' :: tail)
    (hchars : (readQuoted tail).Yields value.toList rest) :
    (readValue levels text).Yields (.string value) rest := by
  obtain ⟨hle, hskip⟩ := skipBlank_eq hskip
  have hvalue := hchars.map fun chars => string (String.ofList chars)
  rw [String.ofList_toList] at hvalue
  rw [readValue, hskip]
  exact hvalue.widen (Nat.le_of_lt hle)

/-- A sign and a digit differ from every other character. -/
theorem ne_of_sign_or_digit {c d : Char} (hc : c = '-' ∨ c.isDigit = true)
    (hd : d ≠ '-' ∧ d.isDigit = false) : c ≠ d := by
  rintro rfl
  rcases hc with hsign | hdigit
  · exact hd.1 hsign
  · rw [hd.2] at hdigit
    exact nomatch hdigit

/-- A sign and a digit are no blanks. -/
theorem isBlank_of_sign_or_digit (hc : c = '-' ∨ c.isDigit = true) : isBlank c = false := by
  simp [isBlank, ne_of_sign_or_digit hc (d := ' ') (by decide),
    ne_of_sign_or_digit hc (d := '\n') (by decide),
    ne_of_sign_or_digit hc (d := '\t') (by decide),
    ne_of_sign_or_digit hc (d := '\r') (by decide)]

/-- A number is a value. -/
theorem yields_number {number : Number} (hskip : (skipBlank text).1 = c :: tail)
    (hc : c = '-' ∨ c.isDigit = true) (hnumber : (readNumber (c :: tail)).Yields number rest) :
    (readValue levels text).Yields (.number number) rest := by
  obtain ⟨hle, hskip⟩ := skipBlank_eq hskip
  rw [readValue, hskip]
  simp only [ne_of_sign_or_digit hc (d := 'n') (by decide),
    ne_of_sign_or_digit hc (d := 't') (by decide), ne_of_sign_or_digit hc (d := 'f') (by decide),
    ne_of_sign_or_digit hc (d := '"') (by decide), if_false, if_pos hc]
  exact (hnumber.map _).widen _

/-- Brackets and what is between them are a value, with a level of its own. -/
theorem yields_array (hskip : (skipBlank text).1 = '[' :: tail)
    (harray : (readArray (readValue levels) tail).Yields json rest) :
    (readValue (levels + 1) text).Yields json rest := by
  obtain ⟨hle, hskip⟩ := skipBlank_eq hskip
  rw [readValue, hskip]
  exact harray.widen (Nat.le_of_lt hle)

/-- Braces and what is between them are a value, with a level of its own. -/
theorem yields_object (hskip : (skipBlank text).1 = '\x7b' :: tail)
    (hobject : (readObject (readValue levels) tail).Yields json rest) :
    (readValue (levels + 1) text).Yields json rest := by
  obtain ⟨hle, hskip⟩ := skipBlank_eq hskip
  rw [readValue, hskip]
  exact hobject.widen (Nat.le_of_lt hle)

section

variable {item : (text : List Char) → Reading Json text} {value : Json} {items : List Json}
  {members : List (String × Json)} {name : String} {afterName : List Char}

/-- An array ends at its closing bracket, or goes on with its items. -/
theorem yields_emptyArray (hskip : (skipBlank text).1 = ']' :: rest) :
    (readArray item text).Yields (.array []) rest := by
  obtain ⟨hle, hskip⟩ := skipBlank_eq hskip
  rw [readArray, hskip]
  exact ⟨hle, rfl⟩

theorem yields_items (hskip : (skipBlank text).1 = c :: tail) (hc : c ≠ ']')
    (hitems : (readItems item (c :: tail)).Yields items rest) :
    (readArray item text).Yields (.array items) rest := by
  obtain ⟨hle, hskip⟩ := skipBlank_eq hskip
  rw [readArray, hskip]
  simp only [if_neg hc]
  exact (hitems.map _).widen _

/-- The last item stands before the closing bracket. -/
theorem yields_lastItem (hvalue : (item text).Yields value after)
    (hskip : (skipBlank after).1 = ']' :: rest) : (readItems item text).Yields [value] rest := by
  obtain ⟨hle, hskip⟩ := skipBlank_eq hskip
  obtain ⟨shorter, hvalue⟩ := hvalue
  rw [readItems]
  simp only [hvalue, hskip]
  exact ⟨Nat.lt_of_le_of_lt (Nat.le_of_succ_le hle) shorter, rfl⟩

/-- Another item stands before a comma and the items after it. -/
theorem yields_nextItem (hvalue : (item text).Yields value after)
    (hcomma : (skipBlank after).1 = ',' :: next) (hskip : (skipBlank next).1 = c :: tail)
    (hc : c ≠ ']') (hitems : (readItems item (c :: tail)).Yields items rest) :
    (readItems item text).Yields (value :: items) rest := by
  obtain ⟨hle, hcomma⟩ := skipBlank_eq hcomma
  obtain ⟨hle', hskip⟩ := skipBlank_eq hskip
  obtain ⟨shorter, hvalue⟩ := hvalue
  rw [readItems]
  simp only [hvalue, hcomma, hskip, Char.reduceEq, if_false, if_true, if_neg hc]
  exact (hitems.map _).widen _

/-- An object ends at its closing brace, or goes on with its members. -/
theorem yields_emptyObject (hskip : (skipBlank text).1 = '\x7d' :: rest) :
    (readObject item text).Yields (.object []) rest := by
  obtain ⟨hle, hskip⟩ := skipBlank_eq hskip
  rw [readObject, hskip]
  exact ⟨hle, rfl⟩

theorem yields_members (hskip : (skipBlank text).1 = c :: tail) (hc : c ≠ '\x7d')
    (hmembers : (readMembers item (c :: tail)).Yields members rest) :
    (readObject item text).Yields (ofMembers members) rest := by
  obtain ⟨hle, hskip⟩ := skipBlank_eq hskip
  rw [readObject, hskip]
  simp only [if_neg hc]
  exact (hmembers.map _).widen _

/-- A name is read with its colon. -/
theorem yields_name (name : String) (rest : List Char) :
    (readName (quoted name ++ ':' :: rest)).Yields name rest := by
  have hchars := Quoted.yields_encode name.toList (':' :: rest)
  obtain ⟨shorter, hchars⟩ := hchars
  obtain ⟨hle, hskip⟩ := skipBlank_eq (skipBlank_cons (c := ':') rfl rest)
  have hform : quoted name ++ ':' :: rest =
      '"' :: (Quoted.encode name.toList ++ '"' :: ':' :: rest) := by
    simp [quoted]
  rw [hform, readName]
  simp only [if_true, hchars, hskip, String.ofList_toList]
  exact ⟨_, rfl⟩

/-- The last member stands before the closing brace. -/
theorem yields_lastMember (hname : (readName text).Yields name afterName)
    (hvalue : (item afterName).Yields value after)
    (hskip : (skipBlank after).1 = '\x7d' :: rest) :
    (readMembers item text).Yields [(name, value)] rest := by
  obtain ⟨hle, hskip⟩ := skipBlank_eq hskip
  obtain ⟨hname_lt, hname⟩ := hname
  obtain ⟨hvalue_lt, hvalue⟩ := hvalue
  rw [readMembers]
  simp only [hname, hvalue, hskip]
  exact ⟨_, rfl⟩

/-- Another member stands before a comma and the members after it. -/
theorem yields_nextMember (hname : (readName text).Yields name afterName)
    (hvalue : (item afterName).Yields value after)
    (hcomma : (skipBlank after).1 = ',' :: next) (hskip : (skipBlank next).1 = c :: tail)
    (hc : c ≠ '\x7d') (hmembers : (readMembers item (c :: tail)).Yields members rest) :
    (readMembers item text).Yields ((name, value) :: members) rest := by
  obtain ⟨hle, hcomma⟩ := skipBlank_eq hcomma
  obtain ⟨hle', hskip⟩ := skipBlank_eq hskip
  obtain ⟨hname_lt, hname⟩ := hname
  obtain ⟨hvalue_lt, hvalue⟩ := hvalue
  rw [readMembers]
  simp only [hname, hvalue, hcomma, hskip, Char.reduceEq, if_false, if_true, if_neg hc]
  exact (hmembers.map _).widen _

end

end DesignTokens.Json

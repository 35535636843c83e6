import DesignTokens.Proofs.Rule.FirstFault
import DesignTokens.Proofs.Sheet.Root

/-!
# Reading a sheet

A sheet is read as a whole before any of its variables is converted. An entry that declares no
variable therefore hides what is wrong with the variables, even with those before it.

* `Sheet.Entry`: the entries of the two ways to write a sheet, and what they give.
* `Sheet.Declares`, `Sheet.Refused`: the variable of an entry, or the error it is refused with.
* `Sheet.FirstRefusal`: the error of the first entry that declares no variable.
* `Sheet.convertJson_allOrNothing`: the errors of a sheet in their precedence.
* `Sheet.ofJson_itemized`: the two ways to write a sheet come to the same.
-/

namespace DesignTokens

namespace Sheet

/-! ## Entries -/

/-- An entry of a sheet: an item of an array, or a member of an object. -/
inductive Entry where
  | item (json : Json)
  | member (name : String) (value : Json)

/-- The entries of a sheet in the order of the document, unless it is neither an array nor an
object. -/
def entries? : Json → Option (List Entry)
  | .array items => some (items.map .item)
  | .object members => some (members.map fun member => .member member.1 member.2)
  | _ => none

namespace Entry

/-- The name that an entry gives, as it is written. -/
def name? : Entry → Option String
  | .item json => (json.get? "name").bind (·.string?)
  | .member name _ => some name

/-- The document of the rule that an entry gives. -/
def value? : Entry → Option Json
  | .item json => json.get? "value"
  | .member _ value => some value

/-- The variable that an entry is read as. -/
def read : Entry → Except Error Variable
  | .item json => Variable.ofJson json
  | .member name value => Variable.ofMember name value

end Entry

/-- The entry declares the variable. -/
def Declares (entry : Entry) (declared : Variable) : Prop :=
  ∃ name value rule, entry.name? = some name ∧ entry.value? = some value ∧
    Rule.ofJson value = .ok rule ∧ declared = .declare name rule

/-- The entry declares no variable, and is refused with the error. Only that of a rule is
attributed to a variable, under the name that the entry gives. -/
inductive Refused : Entry → Error → Prop
  | noName {json : Json} (hname : (Entry.item json).name? = none) :
      Refused (.item json) (.defectiveSheet (.missingName json))
  | noValue {json : Json} {name : String} (hname : (Entry.item json).name? = some name)
      (hvalue : (Entry.item json).value? = none) :
      Refused (.item json) (.defectiveSheet (.missingValue name))
  | ofRule {entry : Entry} {name : String} {value : Json} {source : Error}
      (hname : entry.name? = some name) (hvalue : entry.value? = some value)
      (hrule : Rule.ofJson value = .error source) : Refused entry (.inVariable name source)

/-- The first entry that declares no variable is refused with the error. -/
def FirstRefusal (entries : List Entry) (error : Error) : Prop :=
  ∃ before entry after, entries = before ++ entry :: after ∧
    (∀ earlier ∈ before, ∃ declared, Declares earlier declared) ∧ Refused entry error

/-- An entry that gives a name and a value is read as its rule is. -/
theorem Entry.read_eq {entry : Entry} {name : String} {value : Json}
    (hname : entry.name? = some name) (hvalue : entry.value? = some value) :
    entry.read = ((Rule.ofJson value).mapError (.inVariable name)).map (.declare name) := by
  cases entry with
  | item json =>
    simp only [Entry.name?, Entry.value?] at hname hvalue
    simp only [Entry.read, Variable.ofJson, hname, hvalue]
    cases Rule.ofJson value <;> rfl
  | member name' value' =>
    cases hname
    cases hvalue
    rw [Entry.read, Variable.ofMember]
    cases Rule.ofJson value <;> rfl

/-- A declared variable is read. -/
theorem Declares.read_eq {entry : Entry} {declared : Variable} (h : Declares entry declared) :
    entry.read = .ok declared := by
  obtain ⟨name, value, rule, hname, hvalue, hrule, rfl⟩ := h
  rw [Entry.read_eq hname hvalue, hrule]
  rfl

/-- An entry that is refused is read as the error. -/
theorem Refused.read_eq {entry : Entry} {error : Error} (h : Refused entry error) :
    entry.read = .error error := by
  cases h with
  | noName hname =>
    simp only [Entry.name?] at hname
    simp only [Entry.read, Variable.ofJson, hname]
  | noValue hname hvalue =>
    simp only [Entry.name?, Entry.value?] at hname hvalue
    simp only [Entry.read, Variable.ofJson, hname, hvalue]
  | ofRule hname hvalue hrule =>
    rw [Entry.read_eq hname hvalue, hrule]
    rfl

/-- An entry declares a variable or is refused. -/
theorem declares_or_refused (entry : Entry) :
    (∃ declared, Declares entry declared) ∨ ∃ error, Refused entry error := by
  -- The name is looked for first, then the value, and the rule is read last.
  cases hname : entry.name? with
  | none =>
    cases entry with
    | item json => exact .inr ⟨_, .noName hname⟩
    | member name value => exact nomatch hname
  | some name =>
    cases hvalue : entry.value? with
    | none =>
      cases entry with
      | item json => exact .inr ⟨_, .noValue hname hvalue⟩
      | member name value => exact nomatch hvalue
    | some value =>
      cases hrule : Rule.ofJson value with
      | ok rule => exact .inl ⟨_, name, value, rule, hname, hvalue, hrule, rfl⟩
      | error source => exact .inr ⟨_, .ofRule hname hvalue hrule⟩

/-- An entry is read as the variable that it declares. -/
theorem Entry.read_eq_ok_iff {entry : Entry} {declared : Variable} :
    entry.read = .ok declared ↔ Declares entry declared := by
  refine ⟨fun h => ?_, Declares.read_eq⟩
  rcases declares_or_refused entry with ⟨other, hother⟩ | ⟨error, herror⟩
  · cases h.symm.trans hother.read_eq
    exact hother
  · exact nomatch h.symm.trans herror.read_eq

/-- An entry is read as the error that it is refused with. -/
theorem Entry.read_eq_error_iff {entry : Entry} {error : Error} :
    entry.read = .error error ↔ Refused entry error := by
  refine ⟨fun h => ?_, Refused.read_eq⟩
  rcases declares_or_refused entry with ⟨declared, hdeclared⟩ | ⟨refusal, hrefusal⟩
  · exact nomatch h.symm.trans hdeclared.read_eq
  · cases h.symm.trans hrefusal.read_eq
    exact hrefusal

/-! ## Sheets -/

/-- A sheet with entries is read entry by entry. -/
theorem ofJson_of_entries? {json : Json} {entries : List Entry} (h : entries? json = some entries) :
    ofJson json = entries.mapM Entry.read := by
  cases json with
  | array items =>
    cases h
    rw [List.mapM_map]
    rfl
  | object members =>
    cases h
    rw [List.mapM_map]
    rfl
  | _ => exact nomatch h

/-- A sheet without entries has a defect as a whole. -/
theorem ofJson_of_entries?_eq_none {json : Json} (h : entries? json = none) :
    ofJson json = .error (.defectiveSheet .notASheet) := by
  cases json with
  | array items => exact nomatch h
  | object members => exact nomatch h
  | _ => rfl

/-- A sheet is read as the variables that its entries declare. -/
theorem ofJson_eq_ok_iff {json : Json} {entries : List Entry} (h : entries? json = some entries)
    {sheet : Sheet} : ofJson json = .ok sheet ↔ List.Forall₂ Declares entries sheet := by
  simp only [ofJson_of_entries? h, mapM_eq_ok_iff, Entry.read_eq_ok_iff]

/-- A sheet is refused with the error of the first entry that declares no variable. -/
theorem ofJson_eq_error_iff {json : Json} {entries : List Entry} (h : entries? json = some entries)
    {error : Error} : ofJson json = .error error ↔ FirstRefusal entries error := by
  simp only [ofJson_of_entries? h, mapM_eq_error_iff, Entry.read_eq_ok_iff,
    Entry.read_eq_error_iff, FirstRefusal]

variable (settings : Settings) {json : Json}

/-- A sheet that cannot be read is not converted, and nothing is written. -/
theorem convertJson_of_error {error : Error} (h : ofJson json = .error error) :
    convertJson settings json = ⟨.error error, []⟩ := by
  rw [convertJson, h]
  rfl

/-- A sheet that can be read is converted. -/
theorem convertJson_of_ok {sheet : Sheet} (h : ofJson json = .ok sheet) :
    convertJson settings json = convert settings sheet := by
  rw [convertJson, h]

/-- A sheet fails when it is read, or else when it is converted. -/
theorem convertJson_eq_error_iff {error : Error} :
    (convertJson settings json).value = .error error ↔
      ofJson json = .error error ∨
        ∃ sheet, ofJson json = .ok sheet ∧ (convert settings sheet).value = .error error := by
  cases hread : ofJson json with
  | error refusal => simp [convertJson_of_error settings hread]
  | ok sheet => simp [convertJson_of_ok settings hread]

/-- An item is refused if it lacks a name or a value. Any other entry is refused with the error of
its rule, attributed once to the name that the entry gives. -/
theorem Refused.given_or_incomplete {entry : Entry} {error : Error} (h : Refused entry error) :
    ((∃ json, entry = .item json ∧ (entry.name? = none ∨ entry.value? = none)) ∧
        ∃ defect, error = .defectiveSheet defect) ∨
      ∃ name value source, entry.name? = some name ∧ entry.value? = some value ∧
        Rule.ofJson value = .error source ∧ error = .inVariable name source ∧
        ((∃ node, source = .unknownKind node) ∨
          ∃ kind defect, source = .defectiveRule kind defect) ∧
        error.innermost = source := by
  cases h with
  | noName hname => exact .inl ⟨⟨_, rfl, .inl hname⟩, _, rfl⟩
  | noValue _ hvalue => exact .inl ⟨⟨_, rfl, .inr hvalue⟩, _, rfl⟩
  | @ofRule _ name value source hname hvalue hrule =>
    have hsource := Rule.error_of_ofJson hrule
    refine .inr ⟨name, value, source, hname, hvalue, hrule, rfl, hsource, ?_⟩
    -- Neither error of a rule is itself attributed to a variable.
    rcases hsource with ⟨node, rfl⟩ | ⟨kind, defect, rfl⟩
    · rfl
    · rfl

/-- Which error a sheet has, in terms of its entries. That a variable cannot be merged matters only
once all entries declare one. -/
theorem value_convertJson_eq_error_iff (error : Error) :
    (convertJson settings json).value = .error error ↔
      (entries? json = none ∧ error = .defectiveSheet .notASheet) ∨
      ∃ entries, entries? json = some entries ∧
        (FirstRefusal entries error ∨
          ∃ sheet index, List.Forall₂ Declares entries sheet ∧ FirstUnmergeable sheet index ∧
            error = .unmergeable index) := by
  rw [convertJson_eq_error_iff]
  cases hentries : entries? json with
  | none => simp [ofJson_of_entries?_eq_none hentries, eq_comm]
  | some entries =>
    simp [ofJson_eq_error_iff hentries, ofJson_eq_ok_iff hentries, convert_eq_error_iff]

/-- What lies behind the error of a sheet is at most one variable away from it, and is never that a
text is not JSON. -/
theorem innermost_of_convertJson {error : Error}
    (h : (convertJson settings json).value = .error error) :
    (error = error.innermost ∨ ∃ name, error = .inVariable name error.innermost) ∧
      ∀ fault, error.innermost ≠ .notJson fault := by
  rcases (value_convertJson_eq_error_iff settings error).mp h with
    ⟨-, rfl⟩ | ⟨entries, -, ⟨before, entry, after, -, -, hrefused⟩ | ⟨sheet, index, -, -, rfl⟩⟩
  · exact ⟨.inl rfl, nofun⟩
  · rcases hrefused.given_or_incomplete with
      ⟨-, defect, rfl⟩ | ⟨name, value, source, -, -, -, rfl, hsource, hinnermost⟩
    · exact ⟨.inl rfl, nofun⟩
    · -- What lies behind it is the error of a rule, which has no layers of its own.
      rw [hinnermost]
      refine ⟨.inr ⟨name, rfl⟩, ?_⟩
      rcases hsource with ⟨node, rfl⟩ | ⟨kind, defect, rfl⟩
      · exact nofun
      · exact nofun
  · exact ⟨.inl rfl, nofun⟩

/-- A sheet that is neither an array nor an object has a defect. Any other is refused with the
error of the first entry that declares no variable, and only when all entries declare one is it
converted. An item without a name or a value is a defect of the sheet; every other refusal is the
error of a rule, attributed once to the name as it is written. A sheet that is refused leaves no
record. -/
theorem convertJson_allOrNothing (settings : Settings) (json : Json) :
    (∀ error, (convertJson settings json).value = .error error ↔
      (entries? json = none ∧ error = .defectiveSheet .notASheet) ∨
      ∃ entries, entries? json = some entries ∧
        (FirstRefusal entries error ∨
          ∃ sheet index, List.Forall₂ Declares entries sheet ∧ FirstUnmergeable sheet index ∧
            error = .unmergeable index)) ∧
    (entries? json = none → (convertJson settings json).log = []) ∧
    (∀ entries, entries? json = some entries →
      (∀ error, FirstRefusal entries error → (convertJson settings json).log = []) ∧
      ∀ sheet, List.Forall₂ Declares entries sheet →
        convertJson settings json = convert settings sheet) ∧
    (∀ entry error, Refused entry error →
      ((∃ item, entry = .item item ∧ (entry.name? = none ∨ entry.value? = none)) ∧
        ∃ defect, error = .defectiveSheet defect) ∨
      ∃ name value source, entry.name? = some name ∧ entry.value? = some value ∧
        Rule.ofJson value = .error source ∧ error = .inVariable name source ∧
        ((∃ node, source = .unknownKind node) ∨
          ∃ kind defect, source = .defectiveRule kind defect) ∧
        error.innermost = source) ∧
    ∀ error, (convertJson settings json).value = .error error →
      (error = error.innermost ∨ ∃ name, error = .inVariable name error.innermost) ∧
        ∀ fault, error.innermost ≠ .notJson fault := by
  refine ⟨value_convertJson_eq_error_iff settings, fun hnone => ?_,
    fun entries hentries => ⟨fun error h => ?_, fun sheet h => ?_⟩,
    fun entry error h => h.given_or_incomplete, fun error => innermost_of_convertJson settings⟩
  · rw [convertJson_of_error settings (ofJson_of_entries?_eq_none hnone)]
  · rw [convertJson_of_error settings ((ofJson_eq_error_iff hentries).mpr h)]
  · exact convertJson_of_ok settings ((ofJson_eq_ok_iff hentries).mpr h)

/-- An item of a sheet written as an array. -/
def item (name : String) (value : Json) : Json :=
  .object [("name", .string name), ("value", value)]

/-- A variable that cannot be merged, a rule of no kind, and an item without a name. -/
def faultySheet : Json :=
  .array [item "" (Rule.node .string (.string "lost")), item "$ink" .null, .object []]

/-- A variable, and one that cannot be merged. -/
def namelessSheet : Json :=
  .object [("$gap", Rule.node .string (.string "1px")), ("", Rule.node .boolean (.boolean true))]

/-- Of three faults the first that reading finds is reported, under the name with its dollar sign.
Where reading finds none, the variable that cannot be merged is. -/
theorem convertJson_allOrNothing_faultySheet :
    (convertJson ⟨.nest⟩ faultySheet).value = .error (.inVariable "$ink" (.unknownKind .null)) ∧
    (convertJson ⟨.nest⟩ faultySheet).log = [] ∧
    convertJson ⟨.nest⟩ namelessSheet =
      convert ⟨.nest⟩ [⟨"gap", .string "1px"⟩, ⟨"", .boolean true⟩] ∧
    (convertJson ⟨.nest⟩ namelessSheet).value = .error (.unmergeable 1) := by
  obtain ⟨hfaulty, -, hentries, -⟩ := convertJson_allOrNothing ⟨.nest⟩ faultySheet
  obtain ⟨hnameless, -, hentries', -⟩ := convertJson_allOrNothing ⟨.nest⟩ namelessSheet
  have hrefusal : FirstRefusal
      [.item (item "" (Rule.node .string (.string "lost"))), .item (item "$ink" .null),
        .item (.object [])]
      (.inVariable "$ink" (.unknownKind .null)) := by
    refine ⟨[_], _, _, rfl, ?_, .ofRule rfl rfl rfl⟩
    intro earlier hearlier
    rw [List.mem_singleton.mp hearlier]
    exact ⟨_, _, _, _, rfl, rfl, rfl, rfl⟩
  have hdeclares : List.Forall₂ Declares
      [.member "$gap" (Rule.node .string (.string "1px")),
        .member "" (Rule.node .boolean (.boolean true))]
      [⟨"gap", .string "1px"⟩, ⟨"", .boolean true⟩] :=
    .cons ⟨_, _, _, rfl, rfl, rfl, rfl⟩ (.cons ⟨_, _, _, rfl, rfl, rfl, rfl⟩ .nil)
  have hfirst : FirstUnmergeable [⟨"gap", .string "1px"⟩, ⟨"", .boolean true⟩] 1 :=
    ⟨[⟨"gap", .string "1px"⟩], ⟨"", .boolean true⟩, [], rfl, rfl, by decide, by decide⟩
  exact ⟨(hfaulty _).mpr (.inr ⟨_, rfl, .inl hrefusal⟩), (hentries _ rfl).1 _ hrefusal,
    (hentries' _ rfl).2 _ hdeclares,
    (hnameless _).mpr (.inr ⟨_, rfl, .inr ⟨_, 1, hdeclares, hfirst, rfl⟩⟩)⟩

/-! ## The two ways to write a sheet -/

/-- The array of a sheet that an object writes: an item for each member, in their order. -/
def itemized (members : List (String × Json)) : Json :=
  .array (members.map fun member => item member.1 member.2)

/-- An item with a name and a value is read as the member that gives the same name and value. -/
theorem Entry.read_item (name : String) (value : Json) :
    (Entry.item (Sheet.item name value)).read = (Entry.member name value).read := by
  -- Both are read as the rule in the value, and either error is attributed to the name as written.
  have hitem : (Entry.item (Sheet.item name value)).read = _ := Entry.read_eq rfl rfl
  have hmember : (Entry.member name value).read = _ := Entry.read_eq rfl rfl
  rw [hitem, hmember]

/-- A sheet is read alike whether its variables are the members of an object or the items of an array:
as the same variables in the same order, or with the same error. So it is converted alike, under all
settings, to the same root or the same error, and with the same records. -/
theorem ofJson_itemized (members : List (String × Json)) :
    ofJson (itemized members) = ofJson (.object members) ∧
      ∀ settings, convertJson settings (itemized members) =
        convertJson settings (.object members) := by
  have hitems : entries? (itemized members) =
      some ((members.map fun member => item member.1 member.2).map .item) := rfl
  have hmembers : entries? (.object members) =
      some (members.map fun member => .member member.1 member.2) := rfl
  have hread : ofJson (itemized members) = ofJson (.object members) := by
    rw [ofJson_of_entries? hitems, ofJson_of_entries? hmembers, List.mapM_map, List.mapM_map,
      List.mapM_map]
    congr 1
    funext member
    exact Entry.read_item member.1 member.2
  refine ⟨hread, fun settings => ?_⟩
  rw [convertJson, convertJson, hread]

end Sheet

end DesignTokens

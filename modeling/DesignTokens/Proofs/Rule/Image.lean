import DesignTokens.Proofs.Binary64.Rounding
import DesignTokens.Proofs.Decimal.Characters
import DesignTokens.Proofs.Rule.Reading
import DesignTokens.Proofs.Rule.Tree
import DesignTokens.Proofs.Token.Inverse
import DesignTokens.Rule.Encoding

/-!
# The rules that documents denote

Every number of a document is finite, and an empty unit is read as none. Apart from that, every rule
can be written as a document that denotes it.

* `Rule.ofJson_induction`: what holds of the leaves that can be read, and passes to lists and maps,
  holds of every rule that was read.
* `Rule.consistent_of_ofJson`, `Rule.normalized_of_ofJson`: what was read is consistent and in normal
  form.
* `Rule.ofJson_toJson`: a consistent rule in normal form is that of its document.
* `Rule.ofJson_image`: the rules that can be read are the consistent ones in normal form.
-/

namespace DesignTokens.Rule

/-! ## From documents to rules -/

/-- An empty unit is not read. -/
theorem ne_empty_of_readUnit {members : List (String × Json)} {unit : Option String}
    (h : readUnit members = .ok unit) : unit ≠ some "" := by
  unfold readUnit at h
  split at h
  · cases h
    exact nofun
  · cases h
    exact nofun
  · next text _ =>
    cases h
    split
    · exact nofun
    · next hempty =>
      intro heq
      exact hempty (by rw [Option.some.inj heq]; rfl)
  · exact nomatch h

/-- What holds of the strings, numbers, colours and truth values that can be read, and passes from
all items to their list and from all children to their map, holds of every rule that was read. -/
theorem ofJson_induction {motive : Rule → Prop} (string : ∀ text, motive (.string text))
    (number : ∀ (n : Json.Number) (unit : Option String), unit ≠ some "" →
      motive (.number n.toBinary64 unit))
    (list : ∀ items, (∀ item ∈ items, motive item) → motive (.list items))
    (map : ∀ entries : List (String × Rule), (∀ entry ∈ entries, motive entry.2) →
      motive (.map (.ofList entries)))
    (color : ∀ members, motive (.color (Mapping.ofMembers members)))
    (boolean : ∀ value, motive (.boolean value)) {json : Json} {rule : Rule}
    (h : ofJson json = .ok rule) : motive rule := by
  induction json using node_induction generalizing rule with
  | step node ih =>
    obtain ⟨members, rfl, hsound⟩ := soundNode_of_ofJson h
    cases hsound with
    | string text hkind hvalue =>
      rw [ofJson_string hkind hvalue] at h
      cases h
      exact string text
    | number n unit hkind hvalue hunit =>
      rw [ofJson_number hkind hvalue, hunit] at h
      cases h
      exact number n unit (ne_empty_of_readUnit hunit)
    | list items hkind hvalue =>
      rw [ofJson_list hkind hvalue, map_eq_ok_iff] at h
      obtain ⟨rules, hrules, rfl⟩ := h
      -- Every rule in the list was read from an item, and items are nodes inside this one.
      refine list rules fun rule hrule => ?_
      obtain ⟨item, hitem, hread⟩ := exists_of_mem_of_mapM hrules hrule
      rw [subnodes_list hkind hvalue] at ih
      exact ih item hitem hread
    | map children hkind hvalue =>
      rw [ofJson_map hkind hvalue, map_eq_ok_iff] at h
      obtain ⟨entries, hentries, rfl⟩ := h
      refine map entries fun entry hentry => ?_
      obtain ⟨child, hchild, hread⟩ := exists_of_mem_of_mapM hentries hentry
      rw [subnodes_map hkind hvalue] at ih
      exact ih child.2 (List.mem_map_of_mem hchild) (ofMember_eq_ok_iff.mp hread).2
    | color channels hkind hvalue =>
      rw [ofJson_color hkind hvalue] at h
      cases h
      exact color channels
    | boolean value hkind hvalue =>
      rw [ofJson_boolean hkind hvalue] at h
      cases h
      exact boolean value

/-- A rule that was read is consistent, the channels of its colours included. -/
theorem consistent_of_ofJson {json : Json} {rule : Rule} (h : ofJson json = .ok rule) :
    rule.Consistent := by
  refine ofJson_induction (motive := Consistent) ?string ?number ?list ?map ?color ?boolean h
  case string => exact fun _ => trivial
  case number => exact fun _ _ _ => trivial
  case list => exact fun items ih => consistent_list_iff.mpr ih
  case map => exact fun entries ih => consistent_map_ofList ih
  case color =>
    -- Channels are read as the mapping that a token would be read as.
    intro members
    rw [consistent_color_iff, ← Token.ofJson_object]
    exact (Token.buildable_ofJson (.object members)).consistent
  case boolean => exact fun _ => trivial

/-- A rule that was read is in normal form. -/
theorem normalized_of_ofJson {json : Json} {rule : Rule} (h : ofJson json = .ok rule) :
    rule.Normalized := by
  refine ofJson_induction (motive := Normalized) ?string ?number ?list ?map ?color ?boolean h
  case string => exact fun _ => trivial
  case number =>
    -- No number of a document is beyond the doubles.
    intro n unit hunit
    obtain ⟨x, hx⟩ := n.exists_toBinary64_eq_finite
    rw [hx]
    exact ⟨rfl, hunit⟩
  case list => exact fun items ih => normalized_list_iff.mpr ih
  case map =>
    intro entries ih
    -- A name may have been written twice, but every child of the map is one that was read.
    refine normalized_map_iff.mpr fun child hchild => ?_
    rw [OrderedMap.toList_ofList] at hchild
    rcases Entries.mem_or_mem_of_mem_insertMany hchild with hentry | hnil
    · exact ih child hentry
    · exact nomatch hnil
  case color => exact fun _ => trivial
  case boolean => exact fun _ => trivial

/-! ## From rules to documents -/

/-- The document of a list holds those of its items. -/
theorem toJson_list (items : List Rule) :
    (list items).toJson = node .list (.array (items.map toJson)) := by
  have hitems : itemsToJson items = items.map toJson := by
    induction items with
    | nil => rfl
    | cons item items ih => rw [itemsToJson, ih, List.map_cons]
  rw [toJson, hitems]

/-- The document of a map holds those of its children, under their names and in their order. -/
theorem toJson_map (children : OrderedMap Rule) :
    (map children).toJson =
      node .map (.object (children.toList.map fun child => (child.1, child.2.toJson))) := by
  obtain ⟨⟨children⟩, slots⟩ := children
  have hchildren : childrenToJson children =
      children.map fun child => (child.1, child.2.toJson) := by
    induction children with
    | nil => rfl
    | cons child children ih => rw [childrenToJson, ih, List.map_cons]
  rw [toJson, hchildren]
  rfl

/-- The document of a colour holds its channels as they stand. -/
theorem toJson_color (channels : Mapping) :
    (color channels).toJson = node .color (.object channels.members) := by
  rw [toJson, Mapping.toJson_eq_object]

/-- The tag of a node names its kind, whatever its payload and its other members. -/
theorem kind?_node (kind : Kind) (members : List (String × Json)) :
    (Json.object (("type", .string kind.tag) :: members)).kind? = some kind :=
  Kind.ofTag?_eq_some_iff.mpr rfl

/-- A node has unique keys if its payload has. -/
theorem uniqueKeys_node (kind : Kind) {value : Json} (h : value.UniqueKeys) :
    (node kind value).UniqueKeys := by
  simp [node, Json.UniqueKeys, Json.UniqueKeysInMembers, h]

/-- A consistent rule is written without repeated names. -/
theorem uniqueKeys_toJson {rule : Rule} (h : rule.Consistent) : rule.toJson.UniqueKeys := by
  induction rule with
  | string value => exact uniqueKeys_node .string trivial
  | number value unit =>
    have hvalue : (numberToJson value).UniqueKeys := by cases value <;> trivial
    cases unit with
    | none => exact uniqueKeys_node .number hvalue
    | some unit => simp [toJson, Json.UniqueKeys, Json.UniqueKeysInMembers, hvalue]
  | list items ih =>
    rw [consistent_list_iff] at h
    rw [toJson_list]
    refine uniqueKeys_node .list ?_
    rw [Json.UniqueKeys, Json.uniqueKeysInItems_iff]
    intro json hjson
    obtain ⟨item, hitem, rfl⟩ := List.mem_map.mp hjson
    exact ih item hitem (h item hitem)
  | map children ih =>
    obtain ⟨hchildren, hrules⟩ := consistent_map_iff.mp h
    rw [toJson_map]
    refine uniqueKeys_node .map ?_
    rw [Json.UniqueKeys, Json.uniqueKeysInMembers_iff, List.map_map]
    refine ⟨hchildren.nodup_keys, fun member hmember => ?_⟩
    obtain ⟨child, hchild, rfl⟩ := List.mem_map.mp hmember
    exact ih child hchild (hrules child hchild)
  | color channels =>
    have hchannels := Token.uniqueKeys_toJson (consistent_color_iff.mp h)
    rw [Token.toJson_mapping] at hchannels
    rw [toJson_color]
    exact uniqueKeys_node .color hchannels
  | boolean value => exact uniqueKeys_node .boolean trivial

/-- A finite double is read as it is written, whatever its unit. -/
theorem ofJson_number_float (x : Binary64.Finite) (members : List (String × Json)) :
    ofJson (.object (("type", .string Kind.number.tag) :: ("value", .number (.float x)) :: members)) =
      (readUnit (("type", .string Kind.number.tag) :: ("value", .number (.float x)) :: members)).map
        (number (.finite x)) := by
  have hvalue : List.lookup "value" (("type", Json.string Kind.number.tag) ::
      ("value", .number (.float x)) :: members) = some (.number (.float x)) := rfl
  exact ofJson_number (kind?_node .number _) hvalue

/-- A unit that is not empty is read as it is written. -/
theorem readUnit_some {unit : String} (h : unit ≠ "") (value : Json) :
    readUnit [("type", .string Kind.number.tag), ("value", value), ("unit", .string unit)] =
      .ok (some unit) := by
  have hempty : ¬ unit.isEmpty = true := by simpa using h
  show Except.ok (if unit.isEmpty = true then none else some unit) = _
  rw [if_neg hempty]

/-- A consistent rule in normal form is the rule of its document. -/
theorem ofJson_toJson {rule : Rule} (h : rule.Consistent) (hnormal : rule.Normalized) :
    ofJson rule.toJson = .ok rule := by
  induction rule with
  | string value => exact ofJson_string (kind?_node .string _) rfl
  | number value unit =>
    obtain ⟨hfinite, hunit⟩ := hnormal
    cases value with
    | finite x =>
      -- A finite number is written as the double it is.
      cases unit with
      | none => exact ofJson_number_float x []
      | some unit =>
        have hne : unit ≠ "" := fun h => hunit (congrArg some h)
        rw [toJson, numberToJson, ofJson_number_float, readUnit_some hne]
        rfl
    | nan => exact nomatch hfinite
    | infinite negative => exact nomatch hfinite
  | list items ih =>
    rw [consistent_list_iff] at h
    rw [normalized_list_iff] at hnormal
    rw [toJson_list, node, ofJson_list (kind?_node .list _) rfl,
      mapM_map_eq_ok fun item hitem => ih item hitem (h item hitem) (hnormal item hitem)]
    rfl
  | map children ih =>
    obtain ⟨hchildren, hrules⟩ := consistent_map_iff.mp h
    rw [normalized_map_iff] at hnormal
    have hback : ∀ child ∈ children.toList, ofMember (child.1, child.2.toJson) = .ok child :=
      fun child hchild => ofMember_eq_ok_iff.mpr
        ⟨rfl, ih child hchild (hrules child hchild) (hnormal child hchild)⟩
    -- The index of the map is rebuilt from the names.
    rw [toJson_map, node, ofJson_map (kind?_node .map _) rfl, mapM_map_eq_ok hback]
    show Except.ok (map (.ofList children.toList)) = _
    rw [hchildren.ofList_toList]
  | color channels =>
    have hback := Token.ofJson_toJson (consistent_color_iff.mp h)
    rw [Token.toJson_mapping, Token.ofJson_object] at hback
    -- The channels come back as a token does from its document, numbers as they were written.
    rw [toJson_color, node, ofJson_color (kind?_node .color _) rfl]
    exact congrArg (Except.ok ∘ color) (Token.mapping.inj hback)
  | boolean value => exact ofJson_boolean (kind?_node .boolean _) rfl

/-- The rules that documents denote are exactly those whose maps are all consistent and whose numbers,
at every depth, are finite and have no empty unit: with all keys and channels in their order and all
numbers in their representation. So no number that was read is written as an infinity, or as no
number. -/
theorem ofJson_image :
    (∀ rule : Rule, (∃ json : Json, json.UniqueKeys ∧ ofJson json = .ok rule) ↔
      rule.Consistent ∧ rule.Normalized) ∧
    (∀ rule : Rule, rule.Normalized ↔ ∀ value unit, number value unit ∈ rule.preorder →
      (∃ x, value = .finite x) ∧ unit ≠ some "") ∧
    ∀ (json : Json) (rule : Rule), ofJson json = .ok rule →
      ∀ value unit, number value unit ∈ rule.preorder →
        value.tokenText ∉ ["NaN", "Infinity", "-Infinity"] := by
  refine ⟨fun rule => ⟨?_, ?_⟩, fun rule => normalized_iff_preorder, ?_⟩
  · rintro ⟨json, -, hread⟩
    exact ⟨consistent_of_ofJson hread, normalized_of_ofJson hread⟩
  · -- The document of the rule is one that denotes it.
    rintro ⟨hconsistent, hnormal⟩
    exact ⟨rule.toJson, uniqueKeys_toJson hconsistent, ofJson_toJson hconsistent hnormal⟩
  · intro json rule hread value unit hnumber
    have hnormal := normalized_iff_preorder.mp (normalized_of_ofJson hread)
    obtain ⟨⟨x, rfl⟩, -⟩ := hnormal value unit hnumber
    exact Binary64.tokenText_finite_not_mem x

/-- A margin of minus zero, beside a list with a colour. -/
def trimRule : Rule :=
  .map (.ofList [("margin", .number (.finite (.zero true)) (some "px")),
    ("inks", .list [.color (.ofList [("r", .scalar .null)])])])

/-- The rule has a document, from which it can be read with the sign of its zero. No number is read
as no number, and no unit as an empty one. -/
theorem ofJson_image_trimRule :
    (∃ json : Json, json.UniqueKeys ∧ ofJson json = .ok trimRule) ∧
    (Binary64.finite (.zero true)).tokenText ∉ ["NaN", "Infinity", "-Infinity"] ∧
    (¬ ∃ json : Json, json.UniqueKeys ∧ ofJson json = .ok (list [number .nan none])) ∧
    ¬ ∃ json : Json, json.UniqueKeys ∧
      ofJson json = .ok (number (.finite (.zero false)) (some "")) := by
  obtain ⟨himage, hnormal, htext⟩ := ofJson_image
  have hconsistent : trimRule.Consistent := by
    refine consistent_map_ofList fun entry hentry => ?_
    rcases List.mem_pair.mp hentry with rfl | rfl
    · trivial
    · rw [consistent_list_iff]
      intro item hitem
      rw [List.mem_singleton.mp hitem, consistent_color_iff, Token.consistent_mapping_iff]
      refine ⟨OrderedMap.consistent_ofList _, fun entry hentry => ?_⟩
      rw [List.mem_singleton.mp hentry]
      trivial
  have hread := (himage trimRule).mpr ⟨hconsistent, ⟨rfl, by decide⟩, ⟨trivial, trivial⟩, trivial⟩
  refine ⟨hread, ?_, ?_, ?_⟩
  · obtain ⟨json, -, hjson⟩ := hread
    exact htext json trimRule hjson _ (some "px") (.tail _ (.head _))
  · intro hjson
    obtain ⟨⟨x, hx⟩, -⟩ :=
      (hnormal _).mp ((himage _).mp hjson).2 .nan none (.tail _ (.head _))
    exact nomatch hx
  · intro hjson
    exact ((himage _).mp hjson).2.2 rfl

end DesignTokens.Rule

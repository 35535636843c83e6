import DesignTokens.Conversion.Basic
import DesignTokens.OrderedMap.Lemmas
import DesignTokens.Proofs.OrderedMap.Entries
import DesignTokens.Sheet.Contribution

/-!
# The token of each kind of rule

Conversion passes through lists and maps and writes records as it goes. These equations say what
the token of a rule is, one kind at a time, with the records left out.

* `Rule.value_convertLogged`: whether a rule is part of another does not show in its token.
* `Rule.convert_string` to `Rule.convert_boolean`: the six kinds.
* `Rule.toList_ofList_convertedChildren`: no child of a map is lost.
* `Rule.convert_eq_underName`: what a name adds to the token without one.
-/

namespace DesignTokens

/-- An empty name is none. -/
@[simp]
theorem Token.underName_empty (token : Token) : underName "" token = token := rfl

/-- A name that is not empty becomes the key of the only entry. -/
theorem Token.underName_of_ne {name : String} (h : name ≠ "") (token : Token) :
    underName name token = .mapping (.singleton name token) := by
  have hempty : ¬ name.isEmpty = true := by simpa using h
  rw [underName, if_neg hempty]
  rfl

namespace Rule

variable (settings : Settings) (name : String)

/-- Whether a rule is part of another shows in the records only. -/
theorem value_convertLogged (nested : Bool) (rule : Rule) :
    (convertLogged settings name nested rule).value = rule.convert settings name := by
  cases rule <;> simp [convert, convertLogged]

/-- The items of a list become tokens without a name. -/
theorem value_convertItems (items : List Rule) :
    (convertItems settings items).value = items.map (convert settings "") := by
  induction items with
  | nil => simp [convertItems]
  | cons item items ih => simp [convertItems, ih, value_convertLogged]

/-- The tokens of children, which have no name of their own, are written under their keys. -/
theorem value_convertChildren (entries : Mapping) (children : List (String × Rule)) :
    (convertChildren settings entries children).value =
      entries.insertMany (children.map fun child => (child.1, child.2.convert settings "")) := by
  induction children generalizing entries with
  | nil => simp [convertChildren, OrderedMap.insertMany]
  | cons child children ih =>
    simp [convertChildren, ih, value_convertLogged, OrderedMap.insertMany]

/-- A string stays what it is. -/
@[simp]
theorem convert_string (value : String) :
    (string value).convert settings name = .underName name (.ofText value) := by
  simp [convert, convertLogged]

/-- A number becomes text with its unit. -/
@[simp]
theorem convert_number (value : Binary64) (unit : Option String) :
    (number value unit).convert settings name =
      .underName name (.ofText (value.tokenText ++ unit.getD "")) := by
  simp [convert, convertLogged]

/-- A list becomes the sequence of the tokens of its items. -/
@[simp]
theorem convert_list (items : List Rule) :
    (list items).convert settings name =
      .underName name (.sequence (items.map (convert settings ""))) := by
  simp [convert, convertLogged, value_convertItems]

/-- A map becomes the mapping of the tokens of its children, and its name is dropped where names
of maps are. -/
theorem convert_map (children : OrderedMap Rule) :
    (map children).convert settings name =
      .underName (if settings.mapNaming = .flatten then "" else name)
        (.mapping (.ofList (convertedChildren settings children))) := by
  obtain ⟨⟨children⟩, slots⟩ := children
  -- The children are written one by one into a mapping that is empty at first.
  have hentries : (convertChildren settings ∅ children).value =
      .ofList (convertedChildren settings ⟨⟨children⟩, slots⟩) :=
    value_convertChildren settings ∅ children
  cases hnaming : settings.mapNaming with
  | flatten => simp [convert, convertLogged, hnaming, hentries]
  | nest => simp [convert, convertLogged, hnaming, hentries]

/-- A colour becomes a copy of its channels. -/
@[simp]
theorem convert_color (channels : Mapping) :
    (color channels).convert settings name = .underName name (.mapping channels) := by
  simp [convert, convertLogged]

/-- A truth value stays what it is. -/
@[simp]
theorem convert_boolean (value : Bool) :
    (boolean value).convert settings name = .underName name (.ofBool value) := by
  simp [convert, convertLogged]

/-- The keys of the tokens of children are those of the children. -/
theorem keys_convertedChildren (children : OrderedMap Rule) :
    (convertedChildren settings children).map (·.1) = children.keys := by
  rw [convertedChildren, List.map_map]
  rfl

/-- The token of a map holds the tokens of its children, in their order. -/
theorem toList_ofList_convertedChildren {children : OrderedMap Rule} (h : children.Consistent) :
    (OrderedMap.ofList (convertedChildren settings children)).toList =
      convertedChildren settings children :=
  OrderedMap.toList_ofList_of_nodup (keys_convertedChildren settings children ▸ h.nodup_keys)

/-- A name is put around the token that the rule has without one, unless the rule is a map and
names of maps are dropped. -/
theorem convert_eq_underName (rule : Rule) :
    rule.convert settings name =
      .underName (if rule.kind = .map ∧ settings.mapNaming = .flatten then "" else name)
        (rule.convert settings "") := by
  cases rule with
  | map children => simp [convert_map, kind]
  | _ => simp [kind]

end Rule

end DesignTokens

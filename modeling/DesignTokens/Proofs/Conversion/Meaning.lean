import DesignTokens.Conversion.Meaning
import DesignTokens.Proofs.Conversion.Equations
import DesignTokens.Proofs.Rule.Reading
import DesignTokens.Proofs.Token.Json
import DesignTokens.Rule.Encoding

/-!
# Conversion and meaning

Reading a document, converting the rule and writing the token takes three trees one after the
other; the meaning of the document is read off it in one pass. The two agree.

* `Rule.toJson_convert`: the token of a rule that was read stands for the meaning of its document.
* `Rule.convertJson_meaning`: the same under a name, for every document that can be read.
-/

namespace DesignTokens.Rule

/-! ## The meaning of each kind of node -/

section Meaning

variable {members : List (String × Json)} {value : Json}

theorem meaningOfItems_eq_map (items : List Json) : meaningOfItems items = items.map meaning := by
  induction items with
  | nil => rfl
  | cons item items ih => rw [meaningOfItems, ih, List.map_cons]

theorem meaningOfChildren_eq_map (children : List (String × Json)) :
    meaningOfChildren children = children.map fun child => (child.1, meaning child.2) := by
  induction children with
  | nil => rfl
  | cons child children ih => rw [meaningOfChildren, ih, List.map_cons]

/-- The meaning of an object depends on its first payload alone. -/
theorem meaning_of_lookup (hvalue : members.lookup "value" = some value) :
    meaning (.object members) =
      meaningOfMembers (Json.object members).kind? (unitText members) [("value", value)] := by
  rw [meaning]
  refine search_eq_of_lookup (fun name value members hname => ?_) (fun value members => ?_) hvalue
  · rw [meaningOfMembers.eq_def]
    simp [hname]
  · rw [meaningOfMembers.eq_def, meaningOfMembers.eq_def]
    simp

theorem meaning_number {n : Json.Number} (hkind : (Json.object members).kind? = some .number)
    (hvalue : members.lookup "value" = some (.number n)) :
    meaning (.object members) = .string (n.toBinary64.tokenText ++ unitText members) := by
  rw [meaning_of_lookup hvalue, hkind, meaningOfMembers.eq_def]
  simp

theorem meaning_list {items : List Json} (hkind : (Json.object members).kind? = some .list)
    (hvalue : members.lookup "value" = some (.array items)) :
    meaning (.object members) = .array (items.map meaning) := by
  rw [meaning_of_lookup hvalue, hkind, meaningOfMembers.eq_def, ← meaningOfItems_eq_map]
  simp

theorem meaning_map {children : List (String × Json)}
    (hkind : (Json.object members).kind? = some .map)
    (hvalue : members.lookup "value" = some (.object children)) :
    meaning (.object members) = .object (children.map fun child => (child.1, meaning child.2)) := by
  rw [meaning_of_lookup hvalue, hkind, meaningOfMembers.eq_def, ← meaningOfChildren_eq_map]
  simp

/-- A node that is neither a number nor a list nor a map stands for its payload. -/
theorem meaning_of_ne {kind : Kind} (hkind : (Json.object members).kind? = some kind)
    (hvalue : members.lookup "value" = some value) (hnumber : kind ≠ .number)
    (hlist : kind ≠ .list) (hmap : kind ≠ .map) : meaning (.object members) = value := by
  rw [meaning_of_lookup hvalue, hkind, meaningOfMembers.eq_def]
  cases kind <;> simp_all

/-- The unit that was read is the text that the node writes after its number. -/
theorem getD_eq_unitText {unit : Option String} (hunit : readUnit members = .ok unit) :
    unit.getD "" = unitText members := by
  unfold readUnit at hunit
  unfold unitText
  cases hlookup : members.lookup "unit" with
  | none =>
    rw [hlookup] at hunit
    cases hunit
    rfl
  | some value =>
    rw [hlookup] at hunit
    cases value with
    | null =>
      cases hunit
      rfl
    | string text =>
      -- An empty unit is read as none, and the text of none is empty.
      cases hunit
      split
      · next hempty => exact (String.isEmpty_iff.mp hempty).symm
      · rfl
    | _ => exact nomatch hunit

end Meaning

/-! ## The two ways to a token's JSON value -/

/-- The token of a rule that was read stands for the meaning of its document. -/
theorem toJson_convert (settings : Settings) {json : Json} (h : json.UniqueKeys) {rule : Rule}
    (hok : ofJson json = .ok rule) : (rule.convert settings "").toJson = meaning json := by
  induction json using node_induction generalizing rule with
  | step node ih =>
    -- A document that was read is sound, and each kind leaves one rule it can have been read as.
    obtain ⟨members, rfl, hsound⟩ := soundNode_of_ofJson hok
    cases hsound with
    | string text hkind hvalue =>
      rw [ofJson_string hkind hvalue] at hok
      cases hok
      rw [convert_string, meaning_of_ne hkind hvalue (by decide) (by decide) (by decide)]
      rfl
    | number n unit hkind hvalue hunit =>
      rw [ofJson_number hkind hvalue, hunit] at hok
      cases hok
      rw [convert_number, meaning_number hkind hvalue, getD_eq_unitText hunit]
      rfl
    | list items hkind hvalue =>
      rw [ofJson_list hkind hvalue, map_eq_ok_iff] at hok
      obtain ⟨rules, hrules, rfl⟩ := hok
      -- The hypothesis on the nodes inside this one is about the items.
      have hinside : ∀ item ∈ items, item ∈ subnodes (.object members) := by
        rw [subnodes_list hkind hvalue]
        exact fun item hitem => hitem
      rw [convert_list, Token.underName_empty, Token.toJson_sequence, meaning_list hkind hvalue,
        List.map_map]
      congr 1
      exact map_eq_map_of_mapM hrules fun item hitem rule hrule =>
        ih item (hinside item hitem) (uniqueKeys_of_mem_subnodes h (hinside item hitem)) hrule
    | map children hkind hvalue =>
      rw [ofJson_map hkind hvalue, map_eq_ok_iff] at hok
      obtain ⟨rules, hrules, rfl⟩ := hok
      have hinside : ∀ child ∈ children, child.2 ∈ subnodes (.object members) := by
        rw [subnodes_map hkind hvalue]
        exact fun child hchild => List.mem_map_of_mem hchild
      -- The names come through as they are, so both maps on the way keep every entry.
      have hkeys : rules.map (·.1) = children.map (·.1) :=
        map_eq_map_of_mapM hrules fun child _ rule hrule => (ofMember_eq_ok_iff.mp hrule).1
      have hnodup : (rules.map (·.1)).Nodup := hkeys ▸ (h.of_get? hvalue).nodup
      have hentries : (OrderedMap.ofList (convertedChildren settings (.ofList rules))).toList =
          rules.map fun rule => (rule.1, rule.2.convert settings "") := by
        rw [toList_ofList_convertedChildren settings (OrderedMap.consistent_ofList rules),
          convertedChildren, OrderedMap.toList_ofList_of_nodup hnodup]
      rw [convert_map, ite_self, Token.underName_empty, Token.toJson_mapping, hentries,
        meaning_map hkind hvalue, List.map_map]
      congr 1
      refine map_eq_map_of_mapM hrules fun child hchild rule hrule => ?_
      obtain ⟨hname, hrule⟩ := ofMember_eq_ok_iff.mp hrule
      exact Prod.ext hname (ih child.2 (hinside child hchild)
        (uniqueKeys_of_mem_subnodes h (hinside child hchild)) hrule)
    | color channels hkind hvalue =>
      -- Nothing inside a colour is a node: its channels are read as tokens and written back.
      rw [ofJson_color hkind hvalue] at hok
      cases hok
      rw [convert_color, meaning_of_ne hkind hvalue (by decide) (by decide) (by decide),
        Token.underName_empty, ← Token.ofJson_object, Token.toJson_ofJson (h.of_get? hvalue)]
    | boolean value hkind hvalue =>
      rw [ofJson_boolean hkind hvalue] at hok
      cases hok
      rw [convert_boolean, meaning_of_ne hkind hvalue (by decide) (by decide) (by decide)]
      rfl

/-- The token of a rule that was read stands, under a name, for the meaning of its document under
that name. -/
theorem toJson_convert_underName (settings : Settings) (name : String) {json : Json}
    (h : json.UniqueKeys) {rule : Rule} (hok : ofJson json = .ok rule) :
    (rule.convert settings name).toJson = meaningUnderName settings name json := by
  rw [convert_eq_underName, meaningUnderName, kind?_of_ofJson hok]
  simp only [Option.some.injEq]
  by_cases hdropped : rule.kind = .map ∧ settings.mapNaming = .flatten
  · -- A map whose name is dropped stands for what it stands for without one.
    rw [if_pos hdropped, if_pos (.inr hdropped), Token.underName_empty, toJson_convert settings h hok]
  · rw [if_neg hdropped]
    by_cases hname : name.isEmpty = true
    · rw [Token.underName, if_pos hname, if_pos (.inl hname), toJson_convert settings h hok]
    · have hkept : ¬ (name.isEmpty = true ∨ rule.kind = .map ∧ settings.mapNaming = .flatten) :=
        not_or.mpr ⟨hname, hdropped⟩
      rw [Token.underName, if_neg hname, if_neg hkept, Token.toJson_named,
        toJson_convert settings h hok]

theorem value_convertJson (settings : Settings) (name : String) (nested : Bool) (json : Json) :
    (convertJson settings name nested json).value =
      (ofJson json).map (convert settings name) := by
  unfold convertJson
  cases ofJson json with
  | error error => rfl
  | ok rule => exact congrArg Except.ok (value_convertLogged settings name nested rule)

/-- A document without repeated names is converted exactly when none of its nodes has a fault, and
the JSON value of its token is then the meaning of the document under its name. -/
theorem convertJson_meaning (settings : Settings) (name : String) (nested : Bool) {json : Json}
    (h : json.UniqueKeys) :
    ((∃ token, (convertJson settings name nested json).value = .ok token) ↔
        ∀ node ∈ nodes json, nodeError? node = none) ∧
      ∀ token, (convertJson settings name nested json).value = .ok token →
        token.toJson = meaningUnderName settings name json := by
  rw [value_convertJson, ← exists_ofJson_eq_ok_iff]
  constructor
  · simp [map_eq_ok_iff]
  · intro token htoken
    obtain ⟨rule, hrule, rfl⟩ := map_eq_ok_iff.mp htoken
    exact toJson_convert_underName settings name h hrule

/-- A map of a number with a unit and of a colour whose channels look like the node of a list. -/
def themeDocument : Json :=
  node .map (.object [
    ("gap", .object [("type", .string "SassNumber"), ("value", .number (.int 10 (by decide))),
      ("unit", .string "px")]),
    ("brand", node .color (.object [("type", .string "SassList"), ("value", .null)]))])

/-- The colour of the document comes out as it stands, and the number as text. -/
theorem convertJson_meaning_themeDocument :
    themeDocument.UniqueKeys ∧
      ∃ token, (convertJson ⟨.nest⟩ "theme" true themeDocument).value = .ok token ∧
        token.toJson = .object [("theme", .object [("gap", .string "10px"),
          ("brand", .object [("type", .string "SassList"), ("value", .null)])])] := by
  have hunique : themeDocument.UniqueKeys := by
    simp [themeDocument, node, Json.UniqueKeys, Json.UniqueKeysInMembers]
  have hmeaning := convertJson_meaning ⟨.nest⟩ "theme" true hunique
  obtain ⟨token, htoken⟩ := hmeaning.1.mpr (exists_ofJson_eq_ok_iff.mp ⟨_, rfl⟩)
  refine ⟨hunique, token, htoken, ?_⟩
  have hten : (Json.Number.int 10 (by decide)).toBinary64.tokenText = "10" := by decide +kernel
  have hmap : themeDocument.kind? = some .map := rfl
  have hnumber : (Json.object [("type", .string "SassNumber"),
      ("value", .number (.int 10 (by decide))), ("unit", .string "px")]).kind? = some .number := rfl
  have hcolor : (node .color (.object [("type", .string "SassList"), ("value", .null)])).kind? =
      some .color := rfl
  have hgap := meaning_number hnumber rfl
  rw [hten] at hgap
  rw [hmeaning.2 token htoken, meaningUnderName, if_neg (by simp), themeDocument, node,
    meaning_map hmap rfl]
  simp only [List.map_cons, List.map_nil]
  rw [hgap, node, meaning_of_ne hcolor rfl (by decide) (by decide) (by decide)]
  rfl

end DesignTokens.Rule

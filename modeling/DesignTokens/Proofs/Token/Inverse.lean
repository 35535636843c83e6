import DesignTokens.Proofs.Token.Buildable
import DesignTokens.Proofs.Token.Json

/-!
# Tokens and JSON values, one for one

Writing a token as a JSON value and reading it back gives the token, and reading a JSON value and
writing it back gives the value: with every member in its place and every number in its
representation.

* `Token.uniqueKeys_toJson`, `Token.ofJson_toJson`: a consistent token is written without repeated
  names and comes back as it was.
* `Token.buildable_ofJson`: a token that was read is one that can be built.
* `Token.ofJson_inverse_toJson`: between the tokens that can be built and the JSON values with
  unique keys, the two are inverse to each other.
-/

namespace DesignTokens

namespace Token

/-- The members of a mapping have the names of its entries. -/
theorem keys_entriesToJson (entries : List (String × Token)) :
    (entries.map fun entry => (entry.1, entry.2.toJson)).map (·.1) = entries.map (·.1) := by
  rw [List.map_map]
  rfl

/-- A consistent token is written without repeated names. -/
theorem uniqueKeys_toJson {token : Token} (h : token.Consistent) : token.toJson.UniqueKeys := by
  induction token with
  | scalar value => cases value <;> trivial
  | sequence items ih =>
    rw [consistent_sequence_iff] at h
    rw [toJson_sequence, Json.UniqueKeys, Json.uniqueKeysInItems_iff]
    intro json hjson
    obtain ⟨item, hitem, rfl⟩ := List.mem_map.mp hjson
    exact ih item hitem (h item hitem)
  | mapping entries ih =>
    obtain ⟨hentries, htokens⟩ := consistent_mapping_iff.mp h
    rw [toJson_mapping, Json.UniqueKeys, Json.uniqueKeysInMembers_iff, keys_entriesToJson]
    refine ⟨hentries.nodup_keys, fun member hmember => ?_⟩
    obtain ⟨entry, hentry, rfl⟩ := List.mem_map.mp hmember
    exact ih entry hentry (htokens entry hentry)

/-- A consistent token is that of its JSON value. -/
theorem ofJson_toJson {token : Token} (h : token.Consistent) : ofJson token.toJson = token := by
  induction token with
  | scalar value => cases value <;> rfl
  | sequence items ih =>
    rw [consistent_sequence_iff] at h
    have hitems : items.map (ofJson ∘ toJson) = items.map id :=
      List.map_congr_left fun item hitem => ih item hitem (h item hitem)
    rw [toJson_sequence, ofJson_array, List.map_map, hitems, List.map_id]
  | mapping entries ih =>
    obtain ⟨hentries, htokens⟩ := consistent_mapping_iff.mp h
    -- Each entry comes back under its key, and the index is rebuilt from the keys.
    have hback : (entries.toList.map fun entry => (entry.1, entry.2.toJson)).map
        (fun member => (member.1, ofJson member.2)) = entries.toList := by
      rw [List.map_map]
      refine (List.map_congr_left fun entry hentry => ?_).trans (List.map_id entries.toList)
      exact Prod.ext rfl (ih entry hentry (htokens entry hentry))
    rw [toJson_mapping, ofJson_object, Mapping.ofMembers_eq_ofList, hback, hentries.ofList_toList]

/-- What was read can be built. -/
theorem buildable_ofJson (json : Json) : (ofJson json).Buildable := by
  induction json with
  | null | boolean | number | string => exact .scalar _
  | array items ih =>
    rw [ofJson_array]
    refine .sequence fun token htoken => ?_
    obtain ⟨item, hitem, rfl⟩ := List.mem_map.mp htoken
    exact ih item hitem
  | object members ih =>
    -- Members are written into an empty mapping.
    rw [ofJson_object, Mapping.ofMembers_eq_ofList]
    refine (Buildable.create 0).extend fun entry hentry => ?_
    obtain ⟨member, hmember, rfl⟩ := List.mem_map.mp hentry
    exact ih member hmember

end Token

namespace Mapping

/-- The members that the entries of a mapping are written as. -/
def members (entries : Mapping) : List (String × Json) :=
  entries.toList.map fun entry => (entry.1, entry.2.toJson)

/-- The object of a mapping has its members, however it collects them. -/
theorem toJson_eq_object (entries : Mapping) : entries.toJson = .object entries.members :=
  Token.toJson_mapping entries

end Mapping

namespace Token

/-- Writing tokens as JSON values and reading JSON values as tokens are inverse to each other,
between the tokens that can be built and the values in which no object repeats a name. The same
holds of mappings and objects: the members of an object are the entries of the mapping in their
order, and none is lost when the object collects them one by one. -/
theorem ofJson_inverse_toJson :
    (∀ token : Token, token.Buildable →
      token.toJson.UniqueKeys ∧ ofJson token.toJson = token) ∧
    (∀ json : Json, json.UniqueKeys →
      (ofJson json).Buildable ∧ (ofJson json).toJson = json) ∧
    (∀ entries : Mapping, entries.Buildable →
      entries.toJson = .object entries.members ∧
      Json.ofMembers entries.members = .object entries.members ∧
      (Json.object entries.members).UniqueKeys ∧
      Mapping.ofMembers entries.members = entries) ∧
    ∀ members : List (String × Json), (Json.object members).UniqueKeys →
      (Mapping.ofMembers members).Buildable ∧
      (Mapping.ofMembers members).members = members ∧
      (Mapping.ofMembers members).toJson = .object members := by
  refine ⟨fun token h => ?_, fun json h => ?_, fun entries h => ?_, fun members h => ?_⟩
  · have hconsistent := h.consistent
    exact ⟨uniqueKeys_toJson hconsistent, ofJson_toJson hconsistent⟩
  · exact ⟨buildable_ofJson json, toJson_ofJson h⟩
  · have hconsistent : (mapping entries).Consistent := Buildable.consistent h
    have hobject : (mapping entries).toJson = .object entries.members := toJson_mapping entries
    have hunique : (Json.object entries.members).UniqueKeys :=
      hobject ▸ uniqueKeys_toJson hconsistent
    have hback := ofJson_toJson hconsistent
    rw [hobject, ofJson_object] at hback
    exact ⟨hobject, Json.ofMembers_eq_object hunique.nodup, hunique, mapping.inj hback⟩
  · have hback : (Mapping.ofMembers members).toJson = .object members := by
      rw [Mapping.toJson, ← ofJson_object, toJson_ofJson h]
    have hbuildable := buildable_ofJson (.object members)
    rw [ofJson_object] at hbuildable
    refine ⟨hbuildable, ?_, hback⟩
    exact Json.object.inj ((Mapping.toJson_eq_object _).symm.trans hback)

/-- A mapping in which one key was written twice, with numbers of both representations. -/
def palette : Mapping :=
  ((OrderedMap.singleton "red" (ofText "deep")).insert "alpha" (ofBool true)).insert "red"
    (.sequence [.scalar (.number (.float (.zero true))), .scalar (.number (.int 0 (by decide)))])

/-- The members of the palette. -/
def paletteMembers : List (String × Json) :=
  [("red", .array [.number (.float (.zero true)), .number (.int 0 (by decide))]),
    ("alpha", .boolean true)]

/-- The palette and its object are read back as they were, with the sign of zero and with the keys
in the order in which they first came. -/
theorem ofJson_inverse_toJson_palette :
    (mapping palette).Buildable ∧ palette.members = paletteMembers ∧
      ofJson (mapping palette).toJson = .mapping palette ∧
      Mapping.ofMembers palette.members = palette ∧
      (Json.object paletteMembers).UniqueKeys ∧
      (ofJson (.object paletteMembers)).toJson = .object paletteMembers ∧
      (Mapping.ofMembers paletteMembers).members = paletteMembers := by
  have hsequence : (sequence [.scalar (.number (.float (.zero true))),
      .scalar (.number (.int 0 (by decide)))]).Buildable := by
    refine .sequence fun item hitem => ?_
    rcases List.mem_pair.mp hitem with rfl | rfl
    · exact .scalar _
    · exact .scalar _
  have hbuildable : (mapping palette).Buildable :=
    (((Buildable.create 1).insert "red" (.scalar _)).insert "alpha" (.scalar _)).insert "red"
      hsequence
  have hunique : (Json.object paletteMembers).UniqueKeys := by
    simp [paletteMembers, Json.UniqueKeys, Json.UniqueKeysInItems, Json.UniqueKeysInMembers]
  obtain ⟨htoken, hjson, hmapping, hobject⟩ := ofJson_inverse_toJson
  exact ⟨hbuildable, rfl, (htoken _ hbuildable).2, (hmapping palette hbuildable).2.2.2, hunique,
    (hjson _ hunique).2, (hobject paletteMembers hunique).2.1⟩

end Token

end DesignTokens

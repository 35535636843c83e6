import DesignTokens.Proofs.Json.Tree
import DesignTokens.Proofs.OrderedMap.Entries
import DesignTokens.Token.Json

/-!
# Tokens of JSON values

Reading a JSON value as a token and writing the token back, list by list.

* `Token.toJson_mapping`, `Token.ofJson_object`: a mapping is written entry by entry, and an
  object is read member by member.
* `Token.toJson_ofJson`: a value without repeated names comes back as it was, with its members
  in their order and its numbers in their representation.
-/

namespace DesignTokens

namespace Token

theorem itemsToJson_eq_map (items : List Token) : itemsToJson items = items.map toJson := by
  induction items with
  | nil => rfl
  | cons token items ih => rw [itemsToJson, ih, List.map_cons]

theorem entriesToJson_eq_map (entries : List (String × Token)) :
    entriesToJson entries = entries.map fun entry => (entry.1, entry.2.toJson) := by
  induction entries with
  | nil => rfl
  | cons entry entries ih => rw [entriesToJson, ih, List.map_cons]

/-- The JSON value of a sequence holds those of its items. -/
@[simp]
theorem toJson_sequence (items : List Token) :
    (sequence items).toJson = .array (items.map toJson) := by
  rw [toJson, itemsToJson_eq_map]

/-- The JSON value of a mapping holds those of its entries, in their order. -/
@[simp]
theorem toJson_mapping (entries : Mapping) :
    (mapping entries).toJson =
      .object (entries.toList.map fun entry => (entry.1, entry.2.toJson)) := by
  obtain ⟨⟨entries⟩, slots⟩ := entries
  rw [toJson, entriesToJson_eq_map]
  rfl

/-- The JSON value of a token under a name has that name alone. -/
@[simp]
theorem toJson_named (name : String) (token : Token) :
    (named name token).toJson = .object [(name, token.toJson)] := by
  rw [named, toJson_mapping, OrderedMap.toList_singleton, List.map_singleton]

theorem itemsOfJson_eq_map (items : List Json) : itemsOfJson items = items.map ofJson := by
  induction items with
  | nil => rfl
  | cons item items ih => rw [itemsOfJson, ih, List.map_cons]

theorem insertMembers_eq_insertMany (entries : Mapping) (members : List (String × Json)) :
    insertMembers entries members =
      entries.insertMany (members.map fun member => (member.1, ofJson member.2)) := by
  induction members generalizing entries with
  | nil => rfl
  | cons member members ih =>
    rw [insertMembers, ih]
    rfl

/-- The token of an array is the sequence of the tokens of its items. -/
@[simp]
theorem ofJson_array (items : List Json) : ofJson (.array items) = .sequence (items.map ofJson) := by
  rw [ofJson, itemsOfJson_eq_map]

/-- The token of an object is the mapping of its members. -/
theorem ofJson_object (members : List (String × Json)) :
    ofJson (.object members) = .mapping (Mapping.ofMembers members) := by
  rw [ofJson, Mapping.ofMembers]

end Token

/-- The mapping of an object writes the tokens of its members in order. -/
theorem Mapping.ofMembers_eq_ofList (members : List (String × Json)) :
    Mapping.ofMembers members =
      .ofList (members.map fun member => (member.1, Token.ofJson member.2)) :=
  Token.insertMembers_eq_insertMany ∅ members

/-- The mapping of an object with unique names has its members as entries. -/
theorem Mapping.toList_ofMembers {members : List (String × Json)}
    (h : (members.map (·.1)).Nodup) :
    (Mapping.ofMembers members).toList =
      members.map fun member => (member.1, Token.ofJson member.2) := by
  rw [Mapping.ofMembers_eq_ofList, OrderedMap.toList_ofList_of_nodup]
  rwa [List.map_map]

/-- A JSON value without repeated names is that of its token. -/
theorem Token.toJson_ofJson {json : Json} (h : json.UniqueKeys) : (ofJson json).toJson = json := by
  induction json with
  | null => rfl
  | boolean value => rfl
  | number value => rfl
  | string value => rfl
  | array items ih =>
    rw [Json.UniqueKeys, Json.uniqueKeysInItems_iff] at h
    have hitems : items.map (toJson ∘ ofJson) = items.map id :=
      List.map_congr_left fun item hitem => ih item hitem (h item hitem)
    rw [ofJson_array, toJson_sequence, List.map_map, hitems, List.map_id]
  | object members ih =>
    rw [Json.UniqueKeys, Json.uniqueKeysInMembers_iff] at h
    -- No name is written twice, so every member comes back as an entry of its own.
    have hmembers : members.map (fun member => (member.1, (ofJson member.2).toJson)) =
        members.map id :=
      List.map_congr_left fun member hmember =>
        Prod.ext rfl (ih member hmember (h.2 member hmember))
    rw [ofJson_object, toJson_mapping, Mapping.toList_ofMembers h.1, List.map_map]
    rw [List.map_id] at hmembers
    exact congrArg Json.object hmembers

end DesignTokens

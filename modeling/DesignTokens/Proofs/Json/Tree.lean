import DesignTokens.Json.Nesting
import DesignTokens.Proofs.OrderedMap.Entries

/-!
# Induction on JSON values

A JSON value is a tree, and so is each item of an array and each member's value of an object.

* `Json.induction`: what passes from all items to their array, and from all members' values to
  their object, holds of every value.
* `Json.UniqueKeys.of_mem_items`, `Json.UniqueKeys.of_mem_members`, `Json.UniqueKeys.of_get?`:
  the parts of a value with unique keys have unique keys.
* `Json.IntegersOnly.of_mem_items`, `Json.exists_levels_of_items` and those for members: the parts
  of a value without doubles have none, and they are less deep.
* `Json.ofMembers_eq_object`: an object that collects members with distinct names.
-/

namespace DesignTokens.Json

/-- What holds of an array if it holds of its items, and of an object if it holds of its members'
values, holds of every value. -/
@[elab_as_elim, induction_eliminator]
theorem induction {motive : Json → Prop} (null : motive .null)
    (boolean : ∀ value, motive (.boolean value)) (number : ∀ value, motive (.number value))
    (string : ∀ value, motive (.string value))
    (array : ∀ items, (∀ item ∈ items, motive item) → motive (.array items))
    (object : ∀ members, (∀ member ∈ members, motive member.2) → motive (.object members))
    (json : Json) : motive json := by
  -- Of a list of items or members the recursor is told that each has the property.
  refine @Json.rec motive (fun items => ∀ item ∈ items, motive item)
    (fun members => ∀ member ∈ members, motive member.2) (fun member => motive member.2)
    null boolean number string array object ?_ ?_ ?_ ?_ ?_ json
  · simp
  · intro item items hitem hitems
    simpa using ⟨hitem, hitems⟩
  · simp
  · intro member members hmember hmembers
    simpa using ⟨hmember, fun name value => hmembers (name, value)⟩
  · intro _ _ hvalue
    exact hvalue

/-- Every item has unique keys, one by one. -/
theorem uniqueKeysInItems_iff {items : List Json} :
    UniqueKeysInItems items ↔ ∀ item ∈ items, item.UniqueKeys := by
  induction items with
  | nil => simp [UniqueKeysInItems]
  | cons item items ih => simp [UniqueKeysInItems, ih]

/-- Every member's value has unique keys, one by one. -/
theorem uniqueKeysInMembers_iff {members : List (String × Json)} :
    UniqueKeysInMembers members ↔ ∀ member ∈ members, member.2.UniqueKeys := by
  induction members with
  | nil => simp [UniqueKeysInMembers]
  | cons member members ih => simp [UniqueKeysInMembers, ih]

/-- The names of an object with unique keys are distinct. -/
theorem UniqueKeys.nodup {members : List (String × Json)} (h : (object members).UniqueKeys) :
    (members.map (·.1)).Nodup := by
  rw [UniqueKeys] at h
  exact h.1

theorem UniqueKeys.of_mem_items {items : List Json} (h : (array items).UniqueKeys) {item : Json}
    (hitem : item ∈ items) : item.UniqueKeys := by
  rw [UniqueKeys, uniqueKeysInItems_iff] at h
  exact h item hitem

theorem UniqueKeys.of_mem_members {members : List (String × Json)}
    (h : (object members).UniqueKeys) {member : String × Json} (hmember : member ∈ members) :
    member.2.UniqueKeys := by
  rw [UniqueKeys, uniqueKeysInMembers_iff] at h
  exact h.2 member hmember

/-- Members with distinct names stay as they are when an object collects them one by one. -/
theorem ofMembers_eq_object {members : List (String × Json)}
    (h : (members.map (·.1)).Nodup) : ofMembers members = .object members := by
  rw [ofMembers, OrderedMap.toList_ofList_of_nodup h]

/-- No item has a double, one by one. -/
theorem integersOnlyInItems_iff {items : List Json} :
    IntegersOnlyInItems items ↔ ∀ item ∈ items, item.IntegersOnly := by
  induction items with
  | nil => simp [IntegersOnlyInItems]
  | cons item items ih => simp [IntegersOnlyInItems, ih]

/-- No member's value has a double, one by one. -/
theorem integersOnlyInMembers_iff {members : List (String × Json)} :
    IntegersOnlyInMembers members ↔ ∀ member ∈ members, member.2.IntegersOnly := by
  induction members with
  | nil => simp [IntegersOnlyInMembers]
  | cons member members ih => simp [IntegersOnlyInMembers, ih]

theorem IntegersOnly.of_mem_items {items : List Json} (h : (array items).IntegersOnly)
    {item : Json} (hitem : item ∈ items) : item.IntegersOnly := by
  rw [IntegersOnly, integersOnlyInItems_iff] at h
  exact h item hitem

theorem IntegersOnly.of_mem_members {members : List (String × Json)}
    (h : (object members).IntegersOnly) {member : String × Json} (hmember : member ∈ members) :
    member.2.IntegersOnly := by
  rw [IntegersOnly, integersOnlyInMembers_iff] at h
  exact h member hmember

/-- The depth of items is bounded one by one. -/
theorem depthOfItems_le_iff {items : List Json} {bound : Nat} :
    depthOfItems items ≤ bound ↔ ∀ item ∈ items, item.depth ≤ bound := by
  induction items with
  | nil => simp [depthOfItems]
  | cons item items ih => simp [depthOfItems, ih]

/-- The depth of members' values is bounded one by one. -/
theorem depthOfMembers_le_iff {members : List (String × Json)} {bound : Nat} :
    depthOfMembers members ≤ bound ↔ ∀ member ∈ members, member.2.depth ≤ bound := by
  induction members with
  | nil => simp [depthOfMembers]
  | cons member members ih => simp [depthOfMembers, ih]

/-- An array takes one level, and its items the others. -/
theorem exists_levels_of_items {items : List Json} {levels : Nat}
    (h : (array items).depth ≤ levels) :
    ∃ inner, levels = inner + 1 ∧ ∀ item ∈ items, item.depth ≤ inner := by
  rw [depth] at h
  refine ⟨levels - 1, by omega, depthOfItems_le_iff.mp ?_⟩
  omega

/-- An object takes one level, and its members' values the others. -/
theorem exists_levels_of_members {members : List (String × Json)} {levels : Nat}
    (h : (object members).depth ≤ levels) :
    ∃ inner, levels = inner + 1 ∧ ∀ member ∈ members, member.2.depth ≤ inner := by
  rw [depth] at h
  refine ⟨levels - 1, by omega, depthOfMembers_le_iff.mp ?_⟩
  omega

/-- A node with a member is an object. -/
theorem exists_members_of_get? {node value : Json} {name : String}
    (h : node.get? name = some value) :
    ∃ members, node = .object members ∧ members.lookup name = some value := by
  cases node with
  | object members => exact ⟨members, rfl, h⟩
  | _ => exact nomatch h

theorem mem_of_lookup {members : List (String × Json)} {name : String} {value : Json}
    (h : members.lookup name = some value) : (name, value) ∈ members := by
  obtain ⟨before, after, rfl, -⟩ := List.lookup_eq_some_iff.mp h
  simp

/-- A member's value is smaller than the object. -/
theorem sizeOf_lt_of_get? {node value : Json} {name : String} (h : node.get? name = some value) :
    sizeOf value < sizeOf node := by
  obtain ⟨members, rfl, hlookup⟩ := exists_members_of_get? h
  have hmember := List.sizeOf_lt_of_mem (mem_of_lookup hlookup)
  simp only [Prod.mk.sizeOf_spec] at hmember
  simp only [object.sizeOf_spec]
  omega

/-- A member's value has unique keys if the object has. -/
theorem UniqueKeys.of_get? {node value : Json} {name : String} (h : node.UniqueKeys)
    (hvalue : node.get? name = some value) : value.UniqueKeys := by
  obtain ⟨members, rfl, hlookup⟩ := exists_members_of_get? hvalue
  exact h.of_mem_members (mem_of_lookup hlookup)

end DesignTokens.Json

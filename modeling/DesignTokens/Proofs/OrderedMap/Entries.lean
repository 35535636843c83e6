import DesignTokens.OrderedMap.Lemmas
import Mathlib.Data.Finset.Card
import Mathlib.Data.Finset.Dedup

/-!
# Writing many entries

What a list of entries holds after many writes, in closed form. The first write of a key decides
its place and the last one its value.

* `Entries.keys_insertMany`: the keys are the distinct keys written, in the order of their first
  writes.
* `Entries.lookup_insertMany`: the value of a key is the one written last.
* `Entries.insertMany_eq_append`: writes of new keys append.
* `Entries.insertMany_insertMany`: writing the result of writes is making them.
* `OrderedMap.keys_ofList`, `OrderedMap.get?_ofList`, `OrderedMap.Consistent.merge_ofList`: the
  same of maps.
-/

namespace DesignTokens

namespace Entries

variable {α : Type}

/-- Look-up compares the key of the entry in front, and searches the rest if it is another. -/
theorem lookup_cons_eq_ite (key k : String) (value : α) (rest : List (String × α)) :
    ((k, value) :: rest).lookup key = if key = k then some value else rest.lookup key := by
  by_cases hk : key = k
  · rw [if_pos hk, hk, List.lookup_cons_self]
  · rw [if_neg hk, List.lookup_cons, beq_false_of_ne hk]

/-- What is made of each value is found where the value was. -/
theorem lookup_map_values {β : Type} (f : α → β) (entries : List (String × α)) (key : String) :
    (entries.map fun entry => (entry.1, f entry.2)).lookup key = (entries.lookup key).map f := by
  induction entries with
  | nil => rfl
  | cons entry rest ih =>
    obtain ⟨k, value⟩ := entry
    rw [List.map_cons, lookup_cons_eq_ite, lookup_cons_eq_ite, ih]
    split <;> rfl

/-- Writing leaves the keys as they are, or appends the key if it is new. -/
theorem keys_insert (key : String) (value : α) (entries : List (String × α)) :
    (insert key value entries).map (·.1) =
      if key ∈ entries.map (·.1) then entries.map (·.1) else entries.map (·.1) ++ [key] := by
  induction entries with
  | nil => rfl
  | cons entry rest ih =>
    obtain ⟨k, old⟩ := entry
    by_cases hk : k = key
    · simp [insert, hk]
    · -- The front stays as it is, so the key is new if it is neither there nor in the rest.
      rw [insert, if_neg hk, List.map_cons, ih, List.map_cons]
      by_cases hmem : key ∈ rest.map (·.1)
      · rw [if_pos hmem, if_pos (List.mem_cons_of_mem k hmem)]
      · have hnew : key ∉ k :: rest.map (·.1) := by
          rw [List.mem_cons, not_or]
          exact ⟨Ne.symm hk, hmem⟩
        rw [if_neg hmem, if_neg hnew, List.cons_append]

/-- A written value is found at its key, and every other key keeps its value. -/
theorem lookup_insert (key k : String) (value : α) (entries : List (String × α)) :
    (insert key value entries).lookup k = if k = key then some value else entries.lookup k := by
  induction entries with
  | nil => rw [insert, lookup_cons_eq_ite]
  | cons entry rest ih =>
    obtain ⟨k', old⟩ := entry
    by_cases hk : k' = key
    · subst hk
      rw [insert, if_pos rfl, lookup_cons_eq_ite, lookup_cons_eq_ite]
      split <;> rfl
    · rw [insert, if_neg hk, lookup_cons_eq_ite, lookup_cons_eq_ite, ih]
      by_cases hkk : k = k'
      · -- The entry in front has another key than the one written.
        rw [if_pos hkk, if_pos hkk, if_neg (hkk ▸ hk)]
      · rw [if_neg hkk, if_neg hkk]

/-- An entry after a write is the one written or was there before. -/
theorem eq_or_mem_of_mem_insert {key : String} {value : α} {entries : List (String × α)}
    {entry : String × α} (h : entry ∈ insert key value entries) :
    entry = (key, value) ∨ entry ∈ entries := by
  induction entries with
  | nil => exact .inl (List.mem_singleton.mp h)
  | cons first rest ih =>
    obtain ⟨k, old⟩ := first
    rw [insert] at h
    split at h
    · next hk =>
      -- The front is replaced under its own key, and the rest stays.
      rcases List.mem_cons.mp h with rfl | hrest
      · exact .inl (by rw [hk])
      · exact .inr (List.mem_cons_of_mem _ hrest)
    · rcases List.mem_cons.mp h with rfl | hrest
      · exact .inr List.mem_cons_self
      · exact (ih hrest).imp_right (List.mem_cons_of_mem _)

/-- An entry after many writes is one of those written or was there before. -/
theorem mem_or_mem_of_mem_insertMany {entries more : List (String × α)} {entry : String × α}
    (h : entry ∈ insertMany entries more) : entry ∈ more ∨ entry ∈ entries := by
  induction more generalizing entries with
  | nil => exact .inr h
  | cons first more ih =>
    rcases ih h with hmore | hentries
    · exact .inl (List.mem_cons_of_mem _ hmore)
    · rcases eq_or_mem_of_mem_insert hentries with rfl | hentry
      · exact .inl List.mem_cons_self
      · exact .inr hentry

/-- Writing keeps keys distinct. -/
theorem nodup_keys_insert {entries : List (String × α)} (h : (entries.map (·.1)).Nodup)
    (key : String) (value : α) : ((insert key value entries).map (·.1)).Nodup := by
  rw [keys_insert]
  split
  · exact h
  · next hnew =>
    refine List.nodup_append.mpr ⟨h, by simp, fun a ha b hb hab => hnew ?_⟩
    rw [← List.mem_singleton.mp hb, ← hab]
    exact ha

/-- After many writes a key has the value written to it last, or else the value it had. -/
theorem lookup_insertMany (entries more : List (String × α)) (key : String) :
    (insertMany entries more).lookup key = (more.reverse.lookup key).or (entries.lookup key) := by
  induction more generalizing entries with
  | nil => rfl
  | cons entry more ih =>
    obtain ⟨k, value⟩ := entry
    -- The first write comes last in the reversed list, so any later one is found before it.
    show (insertMany (insert k value entries) more).lookup key = _
    rw [ih, lookup_insert, List.reverse_cons, List.lookup_append, lookup_cons_eq_ite,
      Option.or_assoc]
    split <;> rfl

/-- Nothing is erased from a list without duplicates. -/
theorem eraseDups_eq_self {keys : List String} (h : keys.Nodup) : keys.eraseDups = keys := by
  induction keys with
  | nil => rfl
  | cons key keys ih =>
    rw [List.nodup_cons] at h
    -- Erasing removes what equals the front from the rest, and nothing there does.
    have hfilter : keys.filter (fun k => !k == key) = keys := by
      rw [List.filter_eq_self]
      intro k hk
      have hne : k ≠ key := fun e => h.1 (e ▸ hk)
      simpa using hne
    rw [List.eraseDups_cons, hfilter, ih h.2]

/-- After many writes the keys stand in the order of their first writes. -/
theorem keys_insertMany {entries : List (String × α)} (h : (entries.map (·.1)).Nodup)
    (more : List (String × α)) :
    (insertMany entries more).map (·.1) = (entries.map (·.1) ++ more.map (·.1)).eraseDups := by
  induction more generalizing entries with
  | nil =>
    rw [List.map_nil, List.append_nil, eraseDups_eq_self h]
    rfl
  | cons entry more ih =>
    show (insertMany (insert entry.1 entry.2 entries) more).map (·.1) = _
    rw [ih (nodup_keys_insert h entry.1 entry.2), keys_insert, List.map_cons]
    split
    · next hmem =>
      -- A key that is there already is erased as a duplicate.
      rw [List.eraseDups_append, List.eraseDups_append, List.cons_removeAll,
        List.contains_iff_mem.mpr hmem]
      rfl
    · -- A new key is appended, where the list of all keys has it too.
      rw [List.append_assoc, List.singleton_append]

/-- Writing entries whose keys are new, and distinct, appends them. -/
theorem insertMany_eq_append {entries more : List (String × α)}
    (h : ((entries ++ more).map (·.1)).Nodup) : insertMany entries more = entries ++ more := by
  induction more generalizing entries with
  | nil => rw [List.append_nil]; rfl
  | cons entry more ih =>
    have hnew : entry.1 ∉ entries.map (·.1) := by
      rw [List.map_append, List.nodup_append] at h
      intro hmem
      exact h.2.2 _ hmem _ (by simp) rfl
    have hassoc : entries ++ entry :: more = (entries ++ [entry]) ++ more := by simp
    show insertMany (insert entry.1 entry.2 entries) more = _
    rw [insert_eq_append hnew, hassoc]
    exact ih (hassoc ▸ h)

/-- A second write of a key leaves nothing of the first but its place. -/
theorem insert_insert_self (key : String) (old value : α) (entries : List (String × α)) :
    insert key value (insert key old entries) = insert key value entries := by
  induction entries with
  | nil => simp [insert]
  | cons entry rest ih =>
    obtain ⟨k, v⟩ := entry
    by_cases hk : k = key
    · simp [insert, hk]
    · simp [insert, hk, ih]

/-- A write in place can be made before a write of another key or after it. -/
theorem insert_comm {key k : String} (hne : k ≠ key) (value v : α)
    {entries : List (String × α)} (hmem : key ∈ entries.map (·.1)) :
    insert key value (insert k v entries) = insert k v (insert key value entries) := by
  induction entries with
  | nil => simp at hmem
  | cons entry rest ih =>
    obtain ⟨k', v'⟩ := entry
    by_cases hk : k' = key
    · subst hk
      simp [insert, hne.symm]
    · have hrest : key ∈ rest.map (·.1) := by
        rw [List.map_cons, List.mem_cons] at hmem
        exact hmem.resolve_left fun e => hk e.symm
      by_cases hkk : k' = k
      · simp [insert, hkk, hne]
      · simp [insert, hk, hkk, ih hrest]

/-- A write in place can be made before writes of other keys or after them. -/
theorem insert_insertMany {key : String} (value : α) {entries more : List (String × α)}
    (hmem : key ∈ entries.map (·.1)) (hnew : key ∉ more.map (·.1)) :
    insert key value (insertMany entries more) = insertMany (insert key value entries) more := by
  induction more generalizing entries with
  | nil => rfl
  | cons entry more ih =>
    rw [List.map_cons, List.mem_cons, not_or] at hnew
    -- The key stays present, so its write can pass the first of the others.
    have hmem' : key ∈ (insert entry.1 entry.2 entries).map (·.1) := by
      rw [keys_insert]
      split
      · exact hmem
      · exact List.mem_append_left _ hmem
    show insert key value (insertMany (insert entry.1 entry.2 entries) more) = _
    rw [ih hmem' hnew.2, insert_comm (Ne.symm hnew.1) value entry.2 hmem]
    rfl

/-- Writing the result of one more write is writing all that came before, and then that. -/
theorem insertMany_insert (entries : List (String × α)) {more : List (String × α)}
    (h : (more.map (·.1)).Nodup) (key : String) (value : α) :
    insertMany entries (insert key value more) = insert key value (insertMany entries more) := by
  induction more generalizing entries with
  | nil => rfl
  | cons entry more ih =>
    obtain ⟨k, old⟩ := entry
    rw [List.map_cons, List.nodup_cons] at h
    by_cases hk : k = key
    · -- The new value replaces the one in front. Written last instead, it passes the other writes,
      -- none of which is to its key, and meets the old value.
      subst hk
      have hmem : k ∈ (insert k old entries).map (·.1) := by
        rw [keys_insert]
        split
        · assumption
        · simp
      rw [insert, if_pos rfl]
      show insertMany (insert k value entries) more =
        insert k value (insertMany (insert k old entries) more)
      rw [insert_insertMany value hmem h.1, insert_insert_self]
    · rw [insert, if_neg hk]
      exact ih (insert k old entries) h.2

/-- Writing the result of writes is making them. -/
theorem insertMany_insertMany (entries : List (String × α)) {more : List (String × α)}
    (h : (more.map (·.1)).Nodup) (last : List (String × α)) :
    insertMany entries (insertMany more last) = insertMany (insertMany entries more) last := by
  induction last generalizing more with
  | nil => rfl
  | cons entry last ih =>
    show insertMany entries (insertMany (insert entry.1 entry.2 more) last) = _
    rw [ih (nodup_keys_insert h entry.1 entry.2), insertMany_insert entries h]
    rfl

end Entries

namespace OrderedMap

variable {α : Type} {m : OrderedMap α}

/-- Room reserved for entries makes no difference. -/
theorem emptyWithCapacity_eq (capacity : Nat) :
    (emptyWithCapacity capacity : OrderedMap α) = ∅ := rfl

/-- The map with one entry has that entry. -/
@[simp]
theorem toList_singleton (key : String) (value : α) :
    (singleton key value).toList = [(key, value)] :=
  consistent_empty.toList_insert key value

/-- The entries of the map of a list are what its writes leave. -/
theorem toList_ofList (entries : List (String × α)) :
    (ofList entries).toList = Entries.insertMany [] entries :=
  consistent_empty.toList_insertMany entries

/-- A list with distinct keys is the list of entries of its map. -/
theorem toList_ofList_of_nodup {entries : List (String × α)} (h : (entries.map (·.1)).Nodup) :
    (ofList entries).toList = entries := by
  rw [toList_ofList, Entries.insertMany_eq_append (by simpa using h), List.nil_append]

/-- A consistent map is the map of its entries. -/
theorem Consistent.ofList_toList (h : m.Consistent) : ofList m.toList = m :=
  (consistent_ofList m.toList).ext h (toList_ofList_of_nodup h.nodup_keys)

/-- The map that has a value made of each value of a consistent map, under the same keys in the same
order, has the value made of what is at a key. -/
theorem Consistent.get?_ofList_map {β : Type} (h : m.Consistent) (f : α → β) (key : String) :
    (ofList (m.toList.map fun entry => (entry.1, f entry.2))).get? key = (m.get? key).map f := by
  have hnodup : ((m.toList.map fun entry => (entry.1, f entry.2)).map (·.1)).Nodup := by
    rw [List.map_map]
    exact h.nodup_keys
  rw [(consistent_ofList _).get?_eq_lookup, toList_ofList_of_nodup hnodup,
    Entries.lookup_map_values, h.get?_eq_lookup]

/-- The keys of the map of a list are its distinct keys, in the order in which they first come. -/
theorem keys_ofList (entries : List (String × α)) :
    (ofList entries).keys = (entries.map (·.1)).eraseDups := by
  have hnil : (([] : List (String × α)).map (·.1)).Nodup := List.nodup_nil
  rw [keys, toList_ofList, Entries.keys_insertMany hnil, List.map_nil, List.nil_append]

/-- The map of a list has at each key the value that comes last. -/
theorem get?_ofList (entries : List (String × α)) (key : String) :
    (ofList entries).get? key = entries.reverse.lookup key := by
  rw [(consistent_ofList entries).get?_eq_lookup, toList_ofList, Entries.lookup_insertMany,
    List.lookup_nil, Option.or_none]

/-- The map of a list has an entry for each key that occurs. -/
theorem size_ofList (entries : List (String × α)) :
    (ofList entries).size = (entries.map (·.1)).toFinset.card := by
  -- The keys of the map are as many as its entries, because they are distinct.
  have hkeys : (entries.map (·.1)).toFinset = (ofList entries).keys.toFinset := by
    ext key
    rw [List.mem_toFinset, List.mem_toFinset, keys_ofList, List.mem_eraseDups]
  rw [hkeys, List.toFinset_card_of_nodup (consistent_ofList entries).nodup_keys, keys,
    List.length_map]
  rfl

/-- The entries are the keys with the values found at them. -/
theorem Consistent.mem_toList_iff (h : m.Consistent) (key : String) (value : α) :
    (key, value) ∈ m.toList ↔ m.get? key = some value := by
  rw [h.get?_eq_lookup]
  constructor
  · intro hmem
    obtain ⟨slot, hslot⟩ := List.getElem?_of_mem hmem
    exact Entries.lookup_of_getElem? h.nodup_keys hslot
  · intro hlookup
    obtain ⟨before, after, hentries, -⟩ := List.lookup_eq_some_iff.mp hlookup
    rw [hentries]
    exact List.mem_append_right _ List.mem_cons_self

/-- A written value is found at its key, and every other key keeps its value. -/
theorem Consistent.get?_insert (h : m.Consistent) (key k : String) (value : α) :
    (m.insert key value).get? k = if k = key then some value else m.get? k := by
  rw [(h.insert key value).get?_eq_lookup, h.toList_insert, Entries.lookup_insert,
    h.get?_eq_lookup]

/-- Writing leaves the keys as they are, or appends the key if it is new. -/
theorem Consistent.keys_insert (h : m.Consistent) (key : String) (value : α) :
    (m.insert key value).keys = if key ∈ m.keys then m.keys else m.keys ++ [key] := by
  rw [keys, h.toList_insert, Entries.keys_insert]
  rfl

/-- A key at which a value is found is one of the keys. -/
theorem Consistent.mem_keys_of_get? (h : m.Consistent) {key : String} {value : α}
    (hfound : m.get? key = some value) : key ∈ m.keys :=
  List.mem_map_of_mem ((h.mem_toList_iff key value).mpr hfound)

/-- Merging writes the entries of the other map. -/
theorem Consistent.toList_merge (h : m.Consistent) (other : OrderedMap α) :
    (m.merge other).toList = Entries.insertMany m.toList other.toList :=
  h.toList_insertMany other.toList

/-- Merging the map of a list is writing the list. -/
theorem Consistent.merge_ofList (h : m.Consistent) (entries : List (String × α)) :
    m.merge (ofList entries) = m.insertMany entries := by
  have hnil : (([] : List (String × α)).map (·.1)).Nodup := List.nodup_nil
  -- Both maps are consistent, so that it is enough to compare their entries.
  refine (h.merge _).ext (h.insertMany entries) ?_
  rw [h.toList_merge, h.toList_insertMany, toList_ofList, Entries.insertMany_insertMany _ hnil]
  rfl

end OrderedMap

end DesignTokens

import DesignTokens.OrderedMap.Basic
import DesignTokens.OrderedMap.Entries

/-!
# Insertion-ordered maps through their entries

On a consistent map every operation is described by the list of entries alone, and keeps the map
consistent.

* `Consistent.get?_eq_lookup`: look-up through the index is a search of the entries.
* `Consistent.toList_insert`, `Consistent.insert`: writing changes the entries as
  `Entries.insert` does.
* `Consistent.ext`: consistent maps with the same entries are the same.
-/

namespace DesignTokens.OrderedMap

variable {α : Type} {m n : OrderedMap α}

@[simp]
theorem toList_empty : (∅ : OrderedMap α).toList = [] := rfl

@[simp]
theorem keys_empty : (∅ : OrderedMap α).keys = [] := rfl

/-- The map without entries is consistent. -/
theorem consistent_empty : (∅ : OrderedMap α).Consistent := by
  refine ⟨List.nodup_nil, fun key slot => ?_⟩
  change (∅ : Std.ExtTreeMap String Nat)[key]? = some slot ↔ _
  simp

theorem getElem?_entries (m : OrderedMap α) (slot : Nat) : m.entries[slot]? = m.toList[slot]? := by
  simp [toList]

/-- A key without a slot has no entry. -/
theorem Consistent.not_mem_keys (h : m.Consistent) {key : String} (hk : m.slots[key]? = none) :
    key ∉ m.keys := by
  intro hmem
  obtain ⟨slot, hlt, hs⟩ := List.getElem_of_mem hmem
  have := (h.slots_iff key slot).mpr (List.getElem?_eq_some_iff.mpr ⟨hlt, hs⟩)
  rw [hk] at this
  exact nomatch this

/-- A key with a slot has its entry there. -/
theorem Consistent.exists_entry (h : m.Consistent) {key : String} {slot : Nat}
    (hk : m.slots[key]? = some slot) : ∃ value, m.toList[slot]? = some (key, value) := by
  have := (h.slots_iff key slot).mp hk
  rw [keys, List.getElem?_map, Option.map_eq_some_iff] at this
  obtain ⟨entry, he, rfl⟩ := this
  exact ⟨entry.2, he⟩

/-- Look-up through the index finds what a search of the entries finds. -/
theorem Consistent.get?_eq_lookup (h : m.Consistent) (key : String) :
    m.get? key = m.toList.lookup key := by
  unfold get?
  cases hk : m.slots[key]? with
  | none =>
    have := h.not_mem_keys hk
    rw [eq_comm, Option.bind_none, List.lookup_eq_none_iff]
    intro entry he
    simpa using fun e : key = entry.1 => this (e ▸ List.mem_map_of_mem (f := (·.1)) he)
  | some slot =>
    obtain ⟨value, he⟩ := h.exists_entry hk
    simp [getElem?_entries, he, Entries.lookup_of_getElem? h.nodup_keys he]

/-- A key is present exactly when a search of the entries finds it. -/
theorem Consistent.contains_eq (h : m.Consistent) (key : String) :
    m.contains key = (m.toList.lookup key).isSome := by
  rw [contains, Std.ExtTreeMap.contains_eq_isSome_getElem?]
  cases hk : m.slots[key]? with
  | none =>
    have := h.not_mem_keys hk
    rw [eq_comm, Option.isSome_none, Option.isSome_eq_false_iff, Option.isNone_iff_eq_none,
      List.lookup_eq_none_iff]
    intro entry he
    simpa using fun e : key = entry.1 => this (e ▸ List.mem_map_of_mem (f := (·.1)) he)
  | some slot =>
    obtain ⟨value, he⟩ := h.exists_entry hk
    simp [Entries.lookup_of_getElem? h.nodup_keys he]

/-- Replacing the value at a key returns the value found there, and writes the entry in
place. -/
theorem Consistent.replace?_eq (h : m.Consistent) (key : String) (value : α) :
    (m.replace? key value).map (fun result => (result.1, result.2.toList)) =
      (m.toList.lookup key).map fun old => (old, Entries.insert key value m.toList) := by
  rw [← h.get?_eq_lookup]
  unfold replace? get?
  cases hk : m.slots[key]? with
  | none => simp
  | some slot =>
    obtain ⟨old, he⟩ := h.exists_entry hk
    rw [Entries.insert_eq_set h.nodup_keys he]
    simp only [Option.bind_some, getElem?_entries, he, Option.map_some]
    simp [toList]

theorem replace?_eq_none_iff (h : m.Consistent) {key : String} {value : α} :
    m.replace? key value = none ↔ m.toList.lookup key = none := by
  have := h.replace?_eq key value
  cases hr : m.replace? key value <;> cases hl : m.toList.lookup key <;> simp_all

/-- Writing a value returns the value that was at the key. -/
theorem Consistent.getThenInsert?_fst (h : m.Consistent) (key : String) (value : α) :
    (m.getThenInsert? key value).1 = m.toList.lookup key := by
  have := h.replace?_eq key value
  unfold getThenInsert?
  cases hr : m.replace? key value <;> cases hl : m.toList.lookup key <;> simp_all

/-- Writing a value changes the entries as `Entries.insert` does. -/
theorem Consistent.toList_insert (h : m.Consistent) (key : String) (value : α) :
    (m.insert key value).toList = Entries.insert key value m.toList := by
  have hr := h.replace?_eq key value
  unfold insert getThenInsert?
  cases hc : m.replace? key value with
  | some result =>
    rw [hc] at hr
    obtain ⟨old, hl, he⟩ := Option.map_eq_some_iff.mp hr.symm
    exact (congrArg Prod.snd he).symm
  | none =>
    rw [replace?_eq_none_iff h] at hc
    have : key ∉ m.toList.map (·.1) := by
      intro hmem
      obtain ⟨entry, he, rfl⟩ := List.mem_map.mp hmem
      rw [List.lookup_eq_none_iff] at hc
      simpa using hc entry he
    rw [Entries.insert_eq_append this]
    simp [append, toList]

/-- Replacing a value leaves the keys as they are. -/
theorem keys_of_replace? {key : String} {value old : α}
    (hr : m.replace? key value = some (old, n)) : n.keys = m.keys := by
  unfold replace? at hr
  rw [Option.bind_eq_some_iff] at hr
  obtain ⟨slot, -, hr⟩ := hr
  rw [Option.map_eq_some_iff] at hr
  obtain ⟨entry, he, hn⟩ := hr
  simp only [Prod.mk.injEq] at hn
  obtain ⟨-, rfl⟩ := hn
  rw [getElem?_entries] at he
  -- The new entry has the key of the old one, so the list of keys is set to what it has already.
  have hk : m.keys[slot]? = some entry.1 := by simp [keys, he]
  change (m.entries.setIfInBounds slot (entry.1, value)).toList.map (·.1) = m.keys
  rw [Array.toList_setIfInBounds, List.map_set]
  obtain ⟨hlt, hk⟩ := List.getElem?_eq_some_iff.mp hk
  rw [← hk]
  exact List.set_getElem_self hlt

/-- Replacing a value keeps a map consistent. -/
theorem Consistent.of_replace? (h : m.Consistent) {key : String} {value old : α}
    (hr : m.replace? key value = some (old, n)) : n.Consistent := by
  have hkeys := keys_of_replace? hr
  have hslots : n.slots = m.slots := by
    unfold replace? at hr
    rw [Option.bind_eq_some_iff] at hr
    obtain ⟨slot, -, hr⟩ := hr
    rw [Option.map_eq_some_iff] at hr
    obtain ⟨entry, -, hn⟩ := hr
    simp only [Prod.mk.injEq] at hn
    obtain ⟨-, rfl⟩ := hn
    rfl
  exact ⟨hkeys ▸ h.nodup_keys, fun k i => by rw [hslots, hkeys]; exact h.slots_iff k i⟩

/-- Appending an entry under a new key keeps a map consistent. -/
theorem Consistent.append (h : m.Consistent) {key : String} (hk : key ∉ m.keys) (value : α) :
    (m.append key value).Consistent := by
  have hkeys : (m.append key value).keys = m.keys ++ [key] := by
    simp [OrderedMap.append, keys, toList]
  refine ⟨?_, fun k i => ?_⟩
  · rw [hkeys, List.nodup_append]
    refine ⟨h.nodup_keys, by simp, fun a ha b hb => ?_⟩
    rw [List.mem_singleton.mp hb]
    rintro rfl
    exact hk ha
  · have hsize : m.entries.size = m.keys.length := by simp [keys, toList]
    change (m.slots.insert key m.entries.size)[k]? = some i ↔ _
    rw [hkeys, Std.ExtTreeMap.getElem?_insert, hsize, List.getElem?_append]
    by_cases hkk : key = k
    · subst hkk
      rw [if_pos (Std.compare_self), Option.some.injEq]
      split
      · next hi =>
        refine ⟨fun e => absurd e (by omega), fun e => absurd (List.mem_of_getElem? e) hk⟩
      · next hi =>
        rw [List.getElem?_singleton]
        split
        · simp; omega
        · simp; omega
    · rw [if_neg (by simpa using hkk), h.slots_iff]
      split
      · exact Iff.rfl
      · next hi =>
        rw [List.getElem?_eq_none (by omega), List.getElem?_singleton]
        simp [hkk]

/-- Writing a value keeps a map consistent. -/
theorem Consistent.getThenInsert? (h : m.Consistent) (key : String) (value : α) :
    (m.getThenInsert? key value).2.Consistent := by
  unfold OrderedMap.getThenInsert?
  cases hr : m.replace? key value with
  | some result => exact h.of_replace? hr
  | none =>
    rw [replace?_eq_none_iff h] at hr
    refine h.append (fun hmem => ?_) value
    obtain ⟨entry, he, rfl⟩ := List.mem_map.mp hmem
    rw [List.lookup_eq_none_iff] at hr
    simpa using hr entry he

/-- Writing a value keeps a map consistent. -/
theorem Consistent.insert (h : m.Consistent) (key : String) (value : α) :
    (m.insert key value).Consistent :=
  h.getThenInsert? key value

/-- Writing entries keeps a map consistent. -/
theorem Consistent.insertMany (h : m.Consistent) (entries : List (String × α)) :
    (m.insertMany entries).Consistent := by
  induction entries generalizing m with
  | nil => exact h
  | cons entry entries ih => exact ih (h.insert entry.1 entry.2)

/-- Writing entries changes the entries as `Entries.insertMany` does. -/
theorem Consistent.toList_insertMany (h : m.Consistent) (entries : List (String × α)) :
    (m.insertMany entries).toList = Entries.insertMany m.toList entries := by
  induction entries generalizing m with
  | nil => rfl
  | cons entry entries ih =>
    change ((m.insert entry.1 entry.2).insertMany entries).toList = _
    rw [ih (h.insert entry.1 entry.2), h.toList_insert]
    rfl

/-- The map of a list of entries is consistent. -/
theorem consistent_ofList (entries : List (String × α)) : (ofList entries).Consistent :=
  consistent_empty.insertMany entries

/-- Merging keeps a map consistent. -/
theorem Consistent.merge (h : m.Consistent) (other : OrderedMap α) : (m.merge other).Consistent :=
  h.insertMany other.toList

/-- Consistent maps with the same entries are the same. -/
theorem Consistent.ext (hm : m.Consistent) (hn : n.Consistent) (h : m.toList = n.toList) :
    m = n := by
  have hkeys : m.keys = n.keys := by rw [keys, keys, h]
  have hslots : m.slots = n.slots := by
    apply Std.ExtTreeMap.ext_getElem?
    intro key
    apply Option.ext
    intro slot
    rw [hm.slots_iff, hn.slots_iff, hkeys]
  obtain ⟨⟨entries⟩, slots⟩ := m
  obtain ⟨⟨entries'⟩, slots'⟩ := n
  cases hslots
  cases h
  rfl

end DesignTokens.OrderedMap

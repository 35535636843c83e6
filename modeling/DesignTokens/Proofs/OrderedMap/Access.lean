import DesignTokens.OrderedMap.Lemmas

/-!
# Access through the index

Look-up and writing go to the position that the index gives for a key, and rely on the entry there.

* `OrderedMap.Accessible`: no access through the index fails or goes to another key's entry.
* `OrderedMap.accessible_iff_consistent`: this is what consistency comes to.
* `OrderedMap.replace?_eq_map_get?`, `OrderedMap.lend?_eq_map_get?`: what can be found can be
  replaced and lent out.
-/

namespace DesignTokens.OrderedMap

variable {α : Type} {m : OrderedMap α}

/-- Keys are distinct, the index sends a key to a position exactly when the position lies within the
entries and the entry there has the key, and every operation that goes to such a position finds that
entry. -/
structure Accessible (m : OrderedMap α) : Prop where
  nodup_keys : m.keys.Nodup
  slots_iff (key : String) (slot : Nat) :
    m.slots[key]? = some slot ↔ ∃ h : slot < m.entries.size, m.entries[slot].1 = key
  get?_of_slot {key : String} {slot : Nat} (hslot : m.slots[key]? = some slot) :
    ∃ h : slot < m.entries.size, m.get? key = some m.entries[slot].2
  replace?_of_slot {key : String} {slot : Nat} (hslot : m.slots[key]? = some slot) (value : α) :
    ∃ h : slot < m.entries.size, m.replace? key value =
      some (m.entries[slot].2, { m with entries := m.entries.set slot (key, value) })
  getThenInsert?_of_slot {key : String} {slot : Nat} (hslot : m.slots[key]? = some slot)
    (value : α) : ∃ h : slot < m.entries.size, m.getThenInsert? key value =
      (some m.entries[slot].2, { m with entries := m.entries.set slot (key, value) })

/-- A position is that of a key exactly when it lies within the entries and has the key there. -/
theorem getElem?_keys_eq_some_iff {key : String} {slot : Nat} :
    m.keys[slot]? = some key ↔ ∃ h : slot < m.entries.size, m.entries[slot].1 = key := by
  rw [keys, toList, List.getElem?_map, Array.getElem?_toList, Option.map_eq_some_iff]
  constructor
  · rintro ⟨entry, hentry, hkey⟩
    obtain ⟨hlt, rfl⟩ := Array.getElem?_eq_some_iff.mp hentry
    exact ⟨hlt, hkey⟩
  · rintro ⟨hlt, hkey⟩
    exact ⟨m.entries[slot], Array.getElem?_eq_getElem hlt, hkey⟩

/-- Replacing the value at a slot that the index gives. -/
theorem Consistent.replace?_of_slot (h : m.Consistent) {key : String} {slot : Nat}
    (hslot : m.slots[key]? = some slot) (value : α) :
    ∃ hlt : slot < m.entries.size, m.replace? key value =
      some (m.entries[slot].2, { m with entries := m.entries.set slot (key, value) }) := by
  obtain ⟨hlt, hkey⟩ := getElem?_keys_eq_some_iff.mp ((h.slots_iff key slot).mp hslot)
  refine ⟨hlt, ?_⟩
  rw [replace?, hslot, Option.bind_some, Array.getElem?_eq_getElem hlt, Option.map_some, hkey,
    Array.setIfInBounds, dif_pos hlt]

/-- No access through the index fails exactly when the index agrees with the entries. -/
theorem accessible_iff_consistent : m.Accessible ↔ m.Consistent := by
  constructor
  · intro h
    refine ⟨h.nodup_keys, fun key slot => ?_⟩
    rw [h.slots_iff, getElem?_keys_eq_some_iff]
  · intro h
    -- Each operation looks at the entry only after the index has given its position.
    refine ⟨h.nodup_keys, fun key slot => ?_, fun {key slot} hslot => ?_,
      fun hslot value => h.replace?_of_slot hslot value, fun {key slot} hslot value => ?_⟩
    · rw [h.slots_iff, getElem?_keys_eq_some_iff]
    · obtain ⟨hlt, -⟩ := getElem?_keys_eq_some_iff.mp ((h.slots_iff key slot).mp hslot)
      refine ⟨hlt, ?_⟩
      rw [get?, hslot, Option.bind_some, Array.getElem?_eq_getElem hlt, Option.map_some]
    · obtain ⟨hlt, hreplace⟩ := h.replace?_of_slot hslot value
      exact ⟨hlt, by rw [getThenInsert?, hreplace]⟩

/-- What can be found can be replaced, and that leaves what writing at the same key does. -/
theorem replace?_eq_map_get? (m : OrderedMap α) (key : String) (value : α) :
    m.replace? key value = (m.get? key).map fun old => (old, m.insert key value) := by
  unfold insert getThenInsert?
  cases hreplace : m.replace? key value with
  | some result =>
    obtain ⟨slot, hslot, hresult⟩ := Option.bind_eq_some_iff.mp hreplace
    obtain ⟨entry, hentry, rfl⟩ := Option.map_eq_some_iff.mp hresult
    rw [get?, hslot, Option.bind_some, hentry]
    rfl
  | none =>
    -- Both fail at the same point: at the index, or else at the entry.
    have hget : m.get? key = none := by
      rw [replace?, Option.bind_eq_none_iff] at hreplace
      rw [get?, Option.bind_eq_none_iff]
      intro slot hslot
      rw [Option.map_eq_none_iff]
      exact Option.map_eq_none_iff.mp (hreplace slot hslot)
    rw [hget]
    rfl

/-- Writing a value returns what is found at the key. -/
theorem getThenInsert?_eq (m : OrderedMap α) (key : String) (value : α) :
    m.getThenInsert? key value = (m.get? key, m.insert key value) := by
  unfold insert getThenInsert?
  rw [replace?_eq_map_get?]
  cases m.get? key with
  | none => rfl
  | some old => rfl

/-- What can be found can be lent out, and what comes back is written at the same key. -/
theorem lend?_eq_map_get? {β : Type} (m : OrderedMap α) (key : String) (use : α → β × α) :
    m.lend? key use =
      (m.get? key).map fun value => ((use value).1, m.insert key (use value).2) := by
  -- Lending is replacing by a value that depends on the one in the place.
  have hlend : m.lend? key use = (m.get? key).bind fun value =>
      (m.replace? key (use value).2).map fun result => ((use value).1, result.2) := by
    unfold lend? get? replace?
    cases hslot : m.slots[key]? with
    | none => rfl
    | some slot =>
      cases hentry : m.entries[slot]? with
      | none => simp [hentry]
      | some entry => simp [hentry]
  rw [hlend]
  cases hfound : m.get? key with
  | none => rfl
  | some value =>
    rw [Option.bind_some, replace?_eq_map_get?, hfound]
    rfl

end DesignTokens.OrderedMap

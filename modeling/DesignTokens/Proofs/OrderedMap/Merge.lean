import DesignTokens.Proofs.OrderedMap.Entries

/-!
# Merging maps

Merging writes the entries of one map into another: a key keeps the place of its first write and
gets the value of its last. Consistent maps form an idempotent monoid under it.

* `OrderedMap.Consistent.merge_assoc`: three maps can be merged in either grouping.
* `OrderedMap.Consistent.empty_merge`, `OrderedMap.merge_empty`: the empty map changes nothing.
* `OrderedMap.Consistent.merge_self`: neither does the map itself.
* `OrderedMap.ofList_append`: the map of two lists in a row is that of the first, merged with that
  of the second.
-/

namespace DesignTokens

namespace Entries

variable {α : Type}

/-- Writing the value that a key has already changes nothing. -/
theorem insert_eq_self {key : String} {value : α} {entries : List (String × α)}
    (h : entries.lookup key = some value) : insert key value entries = entries := by
  induction entries with
  | nil => exact nomatch h
  | cons entry rest ih =>
    obtain ⟨k, old⟩ := entry
    rw [lookup_cons_eq_ite] at h
    rw [insert]
    split at h
    · next hk =>
      -- The search ends at the front, so this is the value there.
      rw [if_pos hk.symm, ← Option.some.inj h]
    · next hk => rw [if_neg (Ne.symm hk), ih h]

/-- Writing values that their keys have already changes nothing. -/
theorem insertMany_eq_self {entries more : List (String × α)}
    (h : ∀ entry ∈ more, entries.lookup entry.1 = some entry.2) :
    insertMany entries more = entries := by
  induction more with
  | nil => rfl
  | cons entry more ih =>
    have hentry := h entry List.mem_cons_self
    show insertMany (insert entry.1 entry.2 entries) more = entries
    rw [insert_eq_self hentry]
    exact ih fun later hlater => h later (List.mem_cons_of_mem _ hlater)

end Entries

namespace OrderedMap

variable {α : Type} {a b c : OrderedMap α}

/-- Writing the value found at a key leaves a map as it is. -/
theorem Consistent.insert_of_get? (ha : a.Consistent) {key : String} {value : α}
    (hfound : a.get? key = some value) : a.insert key value = a := by
  rw [ha.get?_eq_lookup] at hfound
  refine (ha.insert key value).ext ha ?_
  rw [ha.toList_insert, Entries.insert_eq_self hfound]

/-- Merging with the empty map leaves a map as it is. -/
theorem merge_empty (a : OrderedMap α) : a.merge ∅ = a := rfl

/-- Merging a map into the empty one gives that map. -/
theorem Consistent.empty_merge (ha : a.Consistent) : OrderedMap.merge ∅ a = a :=
  ha.ofList_toList

/-- Merging a map into itself leaves it as it is. -/
theorem Consistent.merge_self (ha : a.Consistent) : a.merge a = a := by
  refine (ha.merge a).ext ha ?_
  rw [ha.toList_merge]
  refine Entries.insertMany_eq_self fun entry hentry => ?_
  obtain ⟨slot, hslot⟩ := List.getElem?_of_mem hentry
  exact Entries.lookup_of_getElem? ha.nodup_keys hslot

/-- Of three maps, the last two can be merged first. -/
theorem Consistent.merge_assoc (ha : a.Consistent) (hb : b.Consistent) (c : OrderedMap α) :
    (a.merge b).merge c = a.merge (b.merge c) := by
  refine ((ha.merge b).merge c).ext (ha.merge _) ?_
  -- Writing the merged entries is writing those of the one map and then those of the other.
  calc ((a.merge b).merge c).toList
      = Entries.insertMany (Entries.insertMany a.toList b.toList) c.toList := by
        rw [(ha.merge b).toList_merge, ha.toList_merge]
    _ = Entries.insertMany a.toList (Entries.insertMany b.toList c.toList) :=
        (Entries.insertMany_insertMany a.toList hb.nodup_keys c.toList).symm
    _ = (a.merge (b.merge c)).toList := by rw [ha.toList_merge, hb.toList_merge]

/-- The map of two lists in a row is that of the first, merged with that of the second. -/
theorem ofList_append (first second : List (String × α)) :
    ofList (first ++ second) = (ofList first).merge (ofList second) := by
  rw [(consistent_ofList first).merge_ofList]
  exact List.foldl_append

end OrderedMap

end DesignTokens

/-!
# Lists of entries

The plain counterpart of an insertion-ordered map: a list of entries, searched from the front.
Its operations say what those of `OrderedMap` do to the list of their entries.
-/

namespace DesignTokens.Entries

variable {α : Type}

/-- Writes a value at a key: in place if the key has an entry, and at the end if not. -/
def insert (key : String) (value : α) : List (String × α) → List (String × α)
  | [] => [(key, value)]
  | (k, old) :: entries =>
    if k = key then (k, value) :: entries else (k, old) :: insert key value entries

/-- Writes entries one after the other. -/
def insertMany (entries : List (String × α)) (more : List (String × α)) : List (String × α) :=
  more.foldl (fun entries entry => insert entry.1 entry.2 entries) entries

/-- In a list of entries with distinct keys, look-up finds the entry at every position. -/
theorem lookup_of_getElem? {entries : List (String × α)} (h : (entries.map (·.1)).Nodup)
    {slot : Nat} {key : String} {value : α} (hs : entries[slot]? = some (key, value)) :
    entries.lookup key = some value := by
  induction entries generalizing slot with
  | nil => simp at hs
  | cons entry rest ih =>
    obtain ⟨k, v⟩ := entry
    simp only [List.map_cons, List.nodup_cons] at h
    cases slot with
    | zero =>
      simp only [List.getElem?_cons_zero, Option.some.injEq, Prod.mk.injEq] at hs
      obtain ⟨rfl, rfl⟩ := hs
      simp
    | succ slot =>
      rw [List.getElem?_cons_succ] at hs
      -- The key of a later entry is not the key of the first.
      have hne : key ≠ k := by
        rintro rfl
        exact h.1 (List.mem_map_of_mem (f := (·.1)) (List.mem_of_getElem? hs))
      rw [List.lookup_cons, beq_false_of_ne hne]
      exact ih h.2 hs

/-- Writing at a key with an entry replaces the value there. -/
theorem insert_eq_set {entries : List (String × α)} (h : (entries.map (·.1)).Nodup)
    {slot : Nat} {key : String} {old : α} (hs : entries[slot]? = some (key, old)) (value : α) :
    insert key value entries = entries.set slot (key, value) := by
  induction entries generalizing slot with
  | nil => simp at hs
  | cons entry rest ih =>
    obtain ⟨k, v⟩ := entry
    simp only [List.map_cons, List.nodup_cons] at h
    cases slot with
    | zero =>
      simp only [List.getElem?_cons_zero, Option.some.injEq, Prod.mk.injEq] at hs
      simp [insert, hs.1]
    | succ slot =>
      rw [List.getElem?_cons_succ] at hs
      have hne : k ≠ key := by
        rintro rfl
        exact h.1 (List.mem_map_of_mem (f := (·.1)) (List.mem_of_getElem? hs))
      simp [insert, hne, ih h.2 hs]

/-- Writing at a key without an entry appends one. -/
theorem insert_eq_append {entries : List (String × α)} {key : String}
    (h : key ∉ entries.map (·.1)) (value : α) :
    insert key value entries = entries ++ [(key, value)] := by
  induction entries with
  | nil => rfl
  | cons entry rest ih =>
    simp only [List.map_cons, List.mem_cons, not_or] at h
    simp [insert, Ne.symm h.1, ih h.2]

end DesignTokens.Entries

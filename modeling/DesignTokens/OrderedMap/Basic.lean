import Std.Data.ExtTreeMap

/-!
# Insertion-ordered maps

A map from text keys to values that remembers the order in which its keys first came. Writing an
existing key replaces the value at its place; writing a new key appends an entry. The entries
are kept in an array and found through an index from keys to positions in it.

* `OrderedMap.get?`, `OrderedMap.insert`, `OrderedMap.merge`: look-up and the two ways of
  writing.
* `OrderedMap.replace?`, `OrderedMap.lend?`: writing at a key that must be present, a value or
  whatever becomes of the value there.
* `OrderedMap.Consistent`: the index and the entries agree.
-/

namespace DesignTokens

/-- A map that keeps the order of insertion. -/
structure OrderedMap (α : Type) where
  /-- The entries in the order in which their keys first came. -/
  entries : Array (String × α)
  /-- The position of each key in the entries. -/
  slots : Std.ExtTreeMap String Nat

namespace OrderedMap

variable {α : Type}

/-- The map without entries. -/
def empty : OrderedMap α :=
  ⟨#[], ∅⟩

instance : EmptyCollection (OrderedMap α) := ⟨empty⟩

instance : Inhabited (OrderedMap α) := ⟨empty⟩

/-- The map without entries, with room reserved for some. -/
def emptyWithCapacity (capacity : Nat) : OrderedMap α :=
  ⟨Array.emptyWithCapacity capacity, ∅⟩

/-- The number of entries. -/
def size (m : OrderedMap α) : Nat :=
  m.entries.size

/-- Whether there are no entries. -/
def isEmpty (m : OrderedMap α) : Bool :=
  m.entries.isEmpty

/-- The entries in order. -/
def toList (m : OrderedMap α) : List (String × α) :=
  m.entries.toList

/-- The keys in order. -/
def keys (m : OrderedMap α) : List String :=
  m.toList.map (·.1)

/-- The values in order. -/
def values (m : OrderedMap α) : List α :=
  m.toList.map (·.2)

/-- Whether the key has an entry. -/
def contains (m : OrderedMap α) (key : String) : Bool :=
  m.slots.contains key

/-- The value at a key. -/
def get? (m : OrderedMap α) (key : String) : Option α :=
  (m.slots[key]?).bind fun slot => (m.entries[slot]?).map (·.2)

/-- Replaces the value at a key that has one, and returns the value replaced. -/
def replace? (m : OrderedMap α) (key : String) (value : α) : Option (α × OrderedMap α) :=
  (m.slots[key]?).bind fun slot => (m.entries[slot]?).map fun entry =>
    (entry.2, { m with entries := m.entries.setIfInBounds slot (entry.1, value) })

/-- Lends out the value at a key that has one, and puts what comes back into its place. -/
def lend? {β : Type} (m : OrderedMap α) (key : String) (use : α → β × α) :
    Option (β × OrderedMap α) :=
  (m.slots[key]?).bind fun slot => (m.entries[slot]?).map fun entry =>
    let (answer, back) := use entry.2
    (answer, { m with entries := m.entries.setIfInBounds slot (entry.1, back) })

/-- Appends an entry whose key is new. -/
def append (m : OrderedMap α) (key : String) (value : α) : OrderedMap α :=
  ⟨m.entries.push (key, value), m.slots.insert key m.entries.size⟩

/-- Writes a value at a key, and returns the value replaced, if the key had one. -/
def getThenInsert? (m : OrderedMap α) (key : String) (value : α) : Option α × OrderedMap α :=
  match m.replace? key value with
  | some (old, replaced) => (some old, replaced)
  | none => (none, m.append key value)

/-- Writes a value at a key. -/
def insert (m : OrderedMap α) (key : String) (value : α) : OrderedMap α :=
  (m.getThenInsert? key value).2

/-- Writes entries one after the other. -/
def insertMany (m : OrderedMap α) (entries : List (String × α)) : OrderedMap α :=
  entries.foldl (fun m entry => m.insert entry.1 entry.2) m

/-- The map that results from writing the entries one after the other. -/
def ofList (entries : List (String × α)) : OrderedMap α :=
  empty.insertMany entries

/-- The map with one entry. -/
def singleton (key : String) (value : α) : OrderedMap α :=
  (emptyWithCapacity 1).insert key value

/-- Writes the entries of another map, in its order. -/
def merge (m other : OrderedMap α) : OrderedMap α :=
  m.insertMany other.toList

/-- Maps are equal when they have equal entries in the same order. -/
instance [BEq α] : BEq (OrderedMap α) where
  beq m n := m.toList == n.toList

/-- The index and the entries agree: keys are distinct, and the index sends a key to a position
exactly when it is the key of the entry there. -/
structure Consistent (m : OrderedMap α) : Prop where
  nodup_keys : m.keys.Nodup
  slots_iff (key : String) (slot : Nat) :
    m.slots[key]? = some slot ↔ m.keys[slot]? = some key

end OrderedMap

end DesignTokens

import DesignTokens.Proofs.OrderedMap.Entries
import DesignTokens.Token.Consistent
import DesignTokens.Token.Path

/-!
# Tokens that can be built

A mapping is written through a few operations only, and reading, conversion and editing come down
to them. So a token can be built exactly when every mapping in it is consistent.

* `Token.induction`: what passes from all items to their sequence, and from all entries to their
  mapping, holds of every token.
* `Token.Consistent.insertMany`, `Token.Consistent.of_step?`: what keeps a token consistent.
* `Token.Buildable`: what can be built from scalars and empty mappings.
* `Token.buildable_iff_consistent`: the tokens that can be built are the consistent ones.
-/

namespace DesignTokens

namespace Token

/-- What holds of a sequence if it holds of its items, and of a mapping if it holds of its entries'
tokens, holds of every token. -/
@[elab_as_elim, induction_eliminator]
theorem induction {motive : Token → Prop} (scalar : ∀ value, motive (.scalar value))
    (sequence : ∀ items, (∀ item ∈ items, motive item) → motive (.sequence items))
    (mapping : ∀ entries : Mapping, (∀ entry ∈ entries.toList, motive entry.2) →
      motive (.mapping entries))
    (token : Token) : motive token := by
  -- Between a mapping and its tokens stand the map, its array, the list in it, and the pairs.
  refine @Token.rec motive (fun items => ∀ item ∈ items, motive item)
    (fun entries : Mapping => ∀ entry ∈ entries.toList, motive entry.2)
    (fun entries => ∀ entry ∈ entries.toList, motive entry.2)
    (fun entries => ∀ entry ∈ entries, motive entry.2) (fun entry => motive entry.2)
    scalar sequence mapping ?_ ?_ ?_ ?_ ?_ ?_ ?_ token
  · simp
  · intro item items hitem hitems
    simpa using ⟨hitem, hitems⟩
  · intro _ _ hentries
    exact hentries
  · intro _ hentries
    exact hentries
  · simp
  · intro entry entries hentry hentries
    simpa using ⟨hentry, fun name value => hentries (name, value)⟩
  · intro _ _ htoken
    exact htoken

/-- There is no mapping in a scalar. -/
theorem consistent_scalar (value : Scalar) : (scalar value).Consistent := trivial

/-- A sequence is consistent exactly when its items are. -/
theorem consistent_sequence_iff {items : List Token} :
    (sequence items).Consistent ↔ ∀ item ∈ items, item.Consistent := by
  rw [Consistent, consistentItems_iff]

/-- A mapping is consistent through and through exactly when it is itself, and all its tokens
are. -/
theorem consistent_mapping_iff {entries : Mapping} :
    (mapping entries).Consistent ↔
      OrderedMap.Consistent entries ∧ ∀ entry ∈ entries.toList, entry.2.Consistent := by
  obtain ⟨⟨entries⟩, slots⟩ := entries
  rw [Consistent, consistentEntries_iff]
  rfl

/-- Writing consistent tokens keeps a mapping consistent through and through. -/
theorem Consistent.insertMany {entries : Mapping} (h : (mapping entries).Consistent)
    {more : List (String × Token)} (hmore : ∀ entry ∈ more, entry.2.Consistent) :
    (mapping (entries.insertMany more)).Consistent := by
  obtain ⟨hentries, htokens⟩ := consistent_mapping_iff.mp h
  refine consistent_mapping_iff.mpr ⟨hentries.insertMany more, fun entry hentry => ?_⟩
  rw [hentries.toList_insertMany] at hentry
  rcases Entries.mem_or_mem_of_mem_insertMany hentry with hentry | hentry
  · exact hmore entry hentry
  · exact htokens entry hentry

/-- Writing a consistent token keeps a mapping consistent through and through. -/
theorem Consistent.insert {entries : Mapping} (h : (mapping entries).Consistent) (key : String)
    {value : Token} (hvalue : value.Consistent) :
    (mapping (entries.insert key value)).Consistent := by
  have hmore : ∀ entry ∈ [(key, value)], entry.2.Consistent := by simpa using hvalue
  exact h.insertMany hmore

/-- A mapping without entries is consistent through and through. -/
theorem consistent_mapping_empty (capacity : Nat) :
    (mapping (.emptyWithCapacity capacity)).Consistent :=
  consistent_mapping_iff.mpr ⟨OrderedMap.consistent_empty, fun _ h => nomatch h⟩

/-- The mapping of a list of entries is consistent through and through if their tokens are. -/
theorem consistent_mapping_ofList {entries : List (String × Token)}
    (h : ∀ entry ∈ entries, entry.2.Consistent) : (mapping (.ofList entries)).Consistent :=
  (consistent_mapping_empty 0).insertMany h

/-- A token under a name is consistent if the token is. -/
theorem Consistent.named {token : Token} (h : token.Consistent) (name : String) :
    (named name token).Consistent :=
  (consistent_mapping_empty 1).insert name h

/-- A step into a consistent token leads to a consistent token. -/
theorem Consistent.of_step? {token child : Token} (h : token.Consistent) {step : PathStep}
    (hchild : token.step? step = some child) : child.Consistent := by
  cases token with
  | scalar value => cases step <;> exact nomatch hchild
  | sequence items =>
    cases step with
    | position position =>
      rw [consistent_sequence_iff] at h
      exact h child (List.mem_of_getElem? hchild)
    | name name => exact nomatch hchild
  | mapping entries =>
    cases step with
    | name name =>
      obtain ⟨hentries, htokens⟩ := consistent_mapping_iff.mp h
      exact htokens (name, child) ((hentries.mem_toList_iff name child).mpr hchild)
    | position position => exact nomatch hchild

/-- What is found at a name in a consistent mapping is consistent. -/
theorem Consistent.of_get? {entries : Mapping} (h : (mapping entries).Consistent) {name : String}
    {child : Token} (hchild : entries.get? name = some child) : child.Consistent := by
  have hstep : (mapping entries).step? (.name name) = some child := hchild
  exact h.of_step? hstep

/-- The tokens that can be built. Scalars and sequences are free, and a mapping is what the
operations that write mappings make of an empty one. -/
inductive Buildable : Token → Prop
  | scalar (value : Scalar) : Buildable (.scalar value)
  | sequence {items : List Token} (hitems : ∀ item ∈ items, Buildable item) :
      Buildable (.sequence items)
  | create (capacity : Nat) : Buildable (.mapping (.emptyWithCapacity capacity))
  | insert {entries : Mapping} {value : Token} (hentries : Buildable (.mapping entries))
      (key : String) (hvalue : Buildable value) : Buildable (.mapping (entries.insert key value))
  /-- The value at a key is assigned in place. -/
  | assign {entries changed : Mapping} {key : String} {old value : Token}
      (hentries : Buildable (.mapping entries)) (hvalue : Buildable value)
      (hassign : entries.replace? key value = some (old, changed)) : Buildable (.mapping changed)
  | extend {entries : Mapping} {more : List (String × Token)}
      (hentries : Buildable (.mapping entries)) (hmore : ∀ entry ∈ more, Buildable entry.2) :
      Buildable (.mapping (entries.insertMany more))
  | merge {entries other : Mapping} (hentries : Buildable (.mapping entries))
      (hother : Buildable (.mapping other)) : Buildable (.mapping (entries.merge other))

/-- Whatever is built is consistent. -/
theorem Buildable.consistent {token : Token} (h : token.Buildable) : token.Consistent := by
  induction h with
  | scalar value => exact consistent_scalar value
  | sequence _ ih => exact consistent_sequence_iff.mpr ih
  | create capacity => exact consistent_mapping_empty capacity
  | insert _ key _ ih ihvalue => exact ih.insert key ihvalue
  | @assign entries changed key old value _ _ hassign ih ihvalue =>
    -- An assignment leaves what inserting at the same key would.
    have hinsert : entries.insert key value = changed := by
      simp [OrderedMap.insert, OrderedMap.getThenInsert?, hassign]
    exact hinsert ▸ ih.insert key ihvalue
  | extend _ _ ih ihmore => exact ih.insertMany ihmore
  | merge _ _ ih ihother => exact ih.insertMany (consistent_mapping_iff.mp ihother).2

/-- What holds of scalars, and passes from all items to their sequence and from the tokens of a list
of entries to the mapping of this list, holds of every consistent token. -/
theorem Consistent.induction {motive : Token → Prop} (scalar : ∀ value, motive (.scalar value))
    (sequence : ∀ items, (∀ item ∈ items, motive item) → motive (.sequence items))
    (mapping : ∀ entries : List (String × Token), (∀ entry ∈ entries, motive entry.2) →
      motive (.mapping (.ofList entries)))
    {token : Token} (h : token.Consistent) : motive token := by
  induction token with
  | scalar value => exact scalar value
  | sequence items ih =>
    rw [consistent_sequence_iff] at h
    exact sequence items fun item hitem => ih item hitem (h item hitem)
  | mapping entries ih =>
    obtain ⟨hentries, htokens⟩ := consistent_mapping_iff.mp h
    -- The mapping is what its own entries make of an empty one.
    rw [← hentries.ofList_toList]
    exact mapping entries.toList fun entry hentry => ih entry hentry (htokens entry hentry)

/-- A token can be built exactly when every mapping in it is consistent. -/
theorem buildable_iff_consistent {token : Token} : token.Buildable ↔ token.Consistent := by
  refine ⟨Buildable.consistent, fun h => ?_⟩
  refine Consistent.induction Buildable.scalar ?sequence ?mapping h
  case sequence => exact fun _ ih => .sequence ih
  case mapping =>
    intro entries ih
    have hempty : (mapping (.emptyWithCapacity 0)).Buildable := .create 0
    exact hempty.extend ih

end Token

/-- A mapping can be built if it can be as a token. -/
def Mapping.Buildable (entries : Mapping) : Prop :=
  (Token.mapping entries).Buildable

end DesignTokens

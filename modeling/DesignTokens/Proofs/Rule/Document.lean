import DesignTokens.Proofs.Json.Tree
import DesignTokens.Proofs.OrderedMap.Entries
import DesignTokens.Rule.Nodes

/-!
# Rule documents

A node of a rule document is read by looking for its tag and its payload; what stands directly
inside it are the items of a list and the values of a map's members.

* `Rule.subnodes`, `Rule.node_induction`: the nodes directly inside a node, and induction from
  them to the node.
* `Rule.nodes_eq`: the nodes of a document are the document and the nodes of its subnodes.
* `Rule.search_eq_of_lookup`: a search for the payload depends on the first payload alone.
-/

namespace DesignTokens.Rule

/-! ## From a node to those inside it -/

/-- The nodes directly inside a node: the items of a list, and the values of a map's members. -/
def subnodes (node : Json) : List Json :=
  match node.kind?, node.get? "value" with
  | some .list, some (.array items) => items
  | some .map, some (.object members) => members.map (·.2)
  | _, _ => []

/-- A node is larger than those inside it. -/
theorem sizeOf_lt_of_mem_subnodes {node child : Json} (h : child ∈ subnodes node) :
    sizeOf child < sizeOf node := by
  unfold subnodes at h
  split at h
  · next items _ hvalue =>
    -- The items are smaller than the array, and the array is smaller than the node.
    have hnode := Json.sizeOf_lt_of_get? hvalue
    have hchild := List.sizeOf_lt_of_mem h
    simp only [Json.array.sizeOf_spec] at hnode
    omega
  · next members _ hvalue =>
    obtain ⟨member, hmember, rfl⟩ := List.mem_map.mp h
    have hnode := Json.sizeOf_lt_of_get? hvalue
    have hchild := List.sizeOf_lt_of_mem hmember
    obtain ⟨name, value⟩ := member
    simp only [Json.object.sizeOf_spec] at hnode
    simp only [Prod.mk.sizeOf_spec] at hchild
    simp only
    omega
  · exact absurd h List.not_mem_nil

/-- What passes from the nodes directly inside a node to the node holds of every document. -/
theorem node_induction {motive : Json → Prop}
    (step : ∀ node, (∀ child ∈ subnodes node, motive child) → motive node) (json : Json) :
    motive json :=
  step json fun child _ => node_induction step child
termination_by sizeOf json
decreasing_by exact sizeOf_lt_of_mem_subnodes ‹_›

/-- The nodes inside a node have unique keys if it has. -/
theorem uniqueKeys_of_mem_subnodes {node child : Json} (h : node.UniqueKeys)
    (hchild : child ∈ subnodes node) : child.UniqueKeys := by
  unfold subnodes at hchild
  split at hchild
  · next items _ hvalue => exact (h.of_get? hvalue).of_mem_items hchild
  · next members _ hvalue =>
    obtain ⟨member, hmember, rfl⟩ := List.mem_map.mp hchild
    exact (h.of_get? hvalue).of_mem_members hmember
  · exact absurd hchild List.not_mem_nil

/-! ## Looking for the payload -/

/-- A search through members that skips all but payloads, and stops at the first payload, gives
what it gives for that payload alone. -/
theorem search_eq_of_lookup {β : Type} {search : List (String × Json) → β}
    (skip : ∀ name value members, name ≠ "value" →
      search ((name, value) :: members) = search members)
    (stop : ∀ value members, search (("value", value) :: members) = search [("value", value)])
    {members : List (String × Json)} {value : Json} (h : members.lookup "value" = some value) :
    search members = search [("value", value)] := by
  induction members with
  | nil => exact nomatch h
  | cons member members ih =>
    obtain ⟨name, other⟩ := member
    rw [Entries.lookup_cons_eq_ite] at h
    split at h
    · next hname =>
      cases h
      rw [← hname, stop]
    · next hname => rw [skip name other members (Ne.symm hname), ih h]

/-- A search through members that skips all but payloads finds nothing where there is none. -/
theorem search_eq_of_lookup_none {β : Type} {search : List (String × Json) → β}
    (skip : ∀ name value members, name ≠ "value" →
      search ((name, value) :: members) = search members)
    {members : List (String × Json)} (h : members.lookup "value" = none) :
    search members = search [] := by
  induction members with
  | nil => rfl
  | cons member members ih =>
    obtain ⟨name, other⟩ := member
    rw [Entries.lookup_cons_eq_ite] at h
    split at h
    · exact nomatch h
    · next hname => rw [skip name other members (Ne.symm hname), ih h]

theorem nodesOfItems_eq_flatMap (items : List Json) : nodesOfItems items = items.flatMap nodes := by
  induction items with
  | nil => rfl
  | cons item items ih => rw [nodesOfItems, ih, List.flatMap_cons]

theorem nodesOfMembers_eq_flatMap (members : List (String × Json)) :
    nodesOfMembers members = (members.map (·.2)).flatMap nodes := by
  induction members with
  | nil => rfl
  | cons member members ih => rw [nodesOfMembers, ih, List.map_cons, List.flatMap_cons]

/-- The nodes of a document are the document itself and the nodes of those directly inside. -/
theorem nodes_eq (node : Json) : nodes node = node :: (subnodes node).flatMap nodes := by
  cases node with
  | object members =>
    rw [nodes]
    congr 1
    -- The search below the node ends at its first payload, which is the one that `get?` finds.
    have skip : ∀ kind? name value members, name ≠ "value" →
        nodesBelow kind? ((name, value) :: members) = nodesBelow kind? members := by
      intro kind? name value members hname
      rw [nodesBelow.eq_def]
      simp [hname]
    have stop : ∀ kind? value members,
        nodesBelow kind? (("value", value) :: members) = nodesBelow kind? [("value", value)] := by
      intro kind? value members
      rw [nodesBelow.eq_def, nodesBelow.eq_def]
      simp
    unfold subnodes
    cases hvalue : members.lookup "value" with
    | none =>
      rw [search_eq_of_lookup_none (skip _) hvalue]
      simp [nodesBelow, Json.get?, hvalue]
    | some value =>
      have hget : (Json.object members).get? "value" = some value := hvalue
      rw [search_eq_of_lookup (skip _) (stop _) hvalue, hget, nodesBelow.eq_def]
      -- Both sides look at nothing but the kind and the payload.
      generalize (Json.object members).kind? = kind?
      rcases kind? with _ | kind
      · simp
      · cases kind <;> cases value <;>
          simp [nodesOfItems_eq_flatMap, nodesOfMembers_eq_flatMap]
  | _ => simp [nodes, subnodes, Json.kind?, Json.tag?, Json.get?]

end DesignTokens.Rule

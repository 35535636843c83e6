import DesignTokens.Proofs.Token.Buildable
import DesignTokens.Rule.Consistent
import DesignTokens.Rule.Preorder

/-!
# Induction on rules

A rule is a tree, and so is each item of a list and each child of a map. The channels of a colour
are no rules.

* `Rule.induction`: what passes from all items to their list, and from all children to their map,
  holds of every rule that has it as a leaf.
* `Rule.consistent_list_iff`, `Rule.consistent_map_iff`, `Rule.consistent_color_iff`: consistency of
  a rule in terms of what it holds.
* `Rule.normalized_list_iff`, `Rule.normalized_map_iff`: the same of normal forms, and
  `Rule.normalized_iff_preorder` in terms of the numbers at all depths.
* `Rule.Consistent.insertMany`, `Rule.Consistent.of_step?`, `Rule.Consistent.of_at?`: writing
  consistent rules keeps a map consistent, and the rule that a step or a path leads to is
  consistent.
* `Rule.mem_preorder_of_at?`: what a path leads to is one of the rules inside.
-/

namespace DesignTokens.Rule

/-- What holds of strings, numbers, colours and truth values, of a list if it holds of its items,
and of a map if it holds of its children, holds of every rule. -/
@[elab_as_elim, induction_eliminator]
theorem induction {motive : Rule → Prop} (string : ∀ value, motive (.string value))
    (number : ∀ value unit, motive (.number value unit))
    (list : ∀ items, (∀ item ∈ items, motive item) → motive (.list items))
    (map : ∀ children : OrderedMap Rule, (∀ child ∈ children.toList, motive child.2) →
      motive (.map children))
    (color : ∀ channels, motive (.color channels)) (boolean : ∀ value, motive (.boolean value))
    (rule : Rule) : motive rule := by
  -- Between a map and its children stand the map's structure, its array, the list in it, and pairs.
  refine @Rule.rec motive (fun items => ∀ item ∈ items, motive item)
    (fun children : OrderedMap Rule => ∀ child ∈ children.toList, motive child.2)
    (fun children => ∀ child ∈ children.toList, motive child.2)
    (fun children => ∀ child ∈ children, motive child.2) (fun child => motive child.2)
    string number list map color boolean ?_ ?_ ?_ ?_ ?_ ?_ ?_ rule
  · simp
  · intro item items hitem hitems
    simpa using ⟨hitem, hitems⟩
  · intro _ _ hchildren
    exact hchildren
  · intro _ hchildren
    exact hchildren
  · simp
  · intro child children hchild hchildren
    simpa using ⟨hchild, fun name rule => hchildren (name, rule)⟩
  · intro _ _ hrule
    exact hrule

/-- Consistency of all items, one by one. -/
theorem consistentItems_iff {items : List Rule} :
    ConsistentItems items ↔ ∀ item ∈ items, item.Consistent := by
  induction items with
  | nil => simp [ConsistentItems]
  | cons item items ih => simp [ConsistentItems, ih]

/-- Consistency of all children, one by one. -/
theorem consistentChildren_iff {children : List (String × Rule)} :
    ConsistentChildren children ↔ ∀ child ∈ children, child.2.Consistent := by
  induction children with
  | nil => simp [ConsistentChildren]
  | cons child children ih => simp [ConsistentChildren, ih]

/-- A list is consistent exactly when its items are. -/
theorem consistent_list_iff {items : List Rule} :
    (list items).Consistent ↔ ∀ item ∈ items, item.Consistent := by
  rw [Consistent, consistentItems_iff]

/-- A map is consistent through and through exactly when it is itself, and all its children are. -/
theorem consistent_map_iff {children : OrderedMap Rule} :
    (map children).Consistent ↔
      OrderedMap.Consistent children ∧ ∀ child ∈ children.toList, child.2.Consistent := by
  obtain ⟨⟨children⟩, slots⟩ := children
  rw [Consistent, consistentChildren_iff]
  rfl

/-- A map without children is consistent through and through. -/
theorem consistent_map_empty (capacity : Nat) :
    (map (.emptyWithCapacity capacity)).Consistent :=
  consistent_map_iff.mpr ⟨OrderedMap.consistent_empty, fun _ h => nomatch h⟩

/-- Writing consistent rules keeps a map consistent through and through. -/
theorem Consistent.insertMany {children : OrderedMap Rule} (h : (map children).Consistent)
    {more : List (String × Rule)} (hmore : ∀ entry ∈ more, entry.2.Consistent) :
    (map (children.insertMany more)).Consistent := by
  obtain ⟨hchildren, hrules⟩ := consistent_map_iff.mp h
  refine consistent_map_iff.mpr ⟨hchildren.insertMany more, fun entry hentry => ?_⟩
  rw [hchildren.toList_insertMany] at hentry
  rcases Entries.mem_or_mem_of_mem_insertMany hentry with hentry | hentry
  · exact hmore entry hentry
  · exact hrules entry hentry

/-- Writing a consistent rule keeps a map consistent through and through. -/
theorem Consistent.insert {children : OrderedMap Rule} (h : (map children).Consistent)
    (name : String) {child : Rule} (hchild : child.Consistent) :
    (map (children.insert name child)).Consistent := by
  have hmore : ∀ entry ∈ [(name, child)], entry.2.Consistent := by simpa using hchild
  exact h.insertMany hmore

/-- The map of consistent rules is consistent, however often a key is written. -/
theorem consistent_map_ofList {entries : List (String × Rule)}
    (h : ∀ entry ∈ entries, entry.2.Consistent) : (map (.ofList entries)).Consistent :=
  (consistent_map_empty 0).insertMany h

/-- A colour is consistent exactly when its channels are. -/
theorem consistent_color_iff {channels : Mapping} :
    (color channels).Consistent ↔ (Token.mapping channels).Consistent := by
  rw [Consistent]

/-- Normal form of all items, one by one. -/
theorem normalizedItems_iff {items : List Rule} :
    NormalizedItems items ↔ ∀ item ∈ items, item.Normalized := by
  induction items with
  | nil => simp [NormalizedItems]
  | cons item items ih => simp [NormalizedItems, ih]

/-- Normal form of all children, one by one. -/
theorem normalizedChildren_iff {children : List (String × Rule)} :
    NormalizedChildren children ↔ ∀ child ∈ children, child.2.Normalized := by
  induction children with
  | nil => simp [NormalizedChildren]
  | cons child children ih => simp [NormalizedChildren, ih]

/-- A list is in normal form exactly when its items are. -/
theorem normalized_list_iff {items : List Rule} :
    (list items).Normalized ↔ ∀ item ∈ items, item.Normalized := by
  rw [Normalized, normalizedItems_iff]

/-- A map is in normal form exactly when its children are. -/
theorem normalized_map_iff {children : OrderedMap Rule} :
    (map children).Normalized ↔ ∀ child ∈ children.toList, child.2.Normalized := by
  obtain ⟨⟨children⟩, slots⟩ := children
  rw [Normalized, normalizedChildren_iff]
  rfl

/-- The rules in a list are the list itself and those in its items. -/
theorem preorder_list (items : List Rule) :
    (list items).preorder = list items :: items.flatMap preorder := by
  have hitems : preorderItems items = items.flatMap preorder := by
    induction items with
    | nil => rfl
    | cons item items ih => rw [preorderItems, ih, List.flatMap_cons]
  rw [preorder, hitems]

/-- The rules in a map are the map itself and those in its children. -/
theorem preorder_map (children : OrderedMap Rule) :
    (map children).preorder = map children :: children.toList.flatMap (·.2.preorder) := by
  obtain ⟨⟨children⟩, slots⟩ := children
  have hchildren : preorderChildren children = children.flatMap (·.2.preorder) := by
    induction children with
    | nil => rfl
    | cons child children ih => rw [preorderChildren, ih, List.flatMap_cons]
  rw [preorder, hchildren]
  rfl

/-- A rule is in normal form exactly when every number in it, at any depth, is finite and has no
empty unit. -/
theorem normalized_iff_preorder {rule : Rule} :
    rule.Normalized ↔ ∀ value unit, number value unit ∈ rule.preorder →
      (∃ x, value = .finite x) ∧ unit ≠ some "" := by
  induction rule with
  | number value unit =>
    have hfinite : value.finite?.isSome ↔ ∃ x, value = .finite x := by
      cases value <;> simp [Binary64.finite?]
    simp [Normalized, preorder, hfinite]
  | list items ih =>
    simp only [normalized_list_iff, preorder_list, List.mem_cons, List.mem_flatMap, reduceCtorEq,
      false_or]
    exact ⟨fun h value unit ⟨item, hitem, hmem⟩ => (ih item hitem).mp (h item hitem) value unit hmem,
      fun h item hitem => (ih item hitem).mpr fun value unit hmem => h value unit ⟨item, hitem, hmem⟩⟩
  | map children ih =>
    simp only [normalized_map_iff, preorder_map, List.mem_cons, List.mem_flatMap, reduceCtorEq,
      false_or]
    exact ⟨fun h value unit ⟨child, hchild, hmem⟩ =>
        (ih child hchild).mp (h child hchild) value unit hmem,
      fun h child hchild =>
        (ih child hchild).mpr fun value unit hmem => h value unit ⟨child, hchild, hmem⟩⟩
  | _ => simp [Normalized, preorder]

/-- A step into a consistent rule leads to a consistent rule. -/
theorem Consistent.of_step? {rule child : Rule} (h : rule.Consistent) {step : PathStep}
    (hchild : rule.step? step = some child) : child.Consistent := by
  cases rule with
  | list items =>
    cases step with
    | position position =>
      rw [consistent_list_iff] at h
      exact h child (List.mem_of_getElem? hchild)
    | name name => exact nomatch hchild
  | map children =>
    cases step with
    | name name =>
      obtain ⟨hchildren, hrules⟩ := consistent_map_iff.mp h
      exact hrules (name, child) ((hchildren.mem_toList_iff name child).mpr hchild)
    | position position => exact nomatch hchild
  | _ => cases step <;> exact nomatch hchild

/-- So does a path. -/
theorem Consistent.of_at? {rule inner : Rule} (h : rule.Consistent) {path : Path}
    (hinner : rule.at? path = some inner) : inner.Consistent := by
  induction path generalizing rule with
  | nil =>
    cases hinner
    exact h
  | cons step path ih =>
    rw [at?, Option.bind_eq_some_iff] at hinner
    obtain ⟨child, hchild, hinner⟩ := hinner
    exact ih (h.of_step? hchild) hinner

/-- What a step leads to is inside, with all that is inside of it. -/
theorem mem_preorder_of_step? {rule child inner : Rule} (h : rule.Consistent) {step : PathStep}
    (hchild : rule.step? step = some child) (hinner : inner ∈ child.preorder) :
    inner ∈ rule.preorder := by
  cases rule with
  | list items =>
    cases step with
    | position position =>
      rw [preorder_list]
      exact .tail _ (List.mem_flatMap.mpr ⟨child, List.mem_of_getElem? hchild, hinner⟩)
    | name name => exact nomatch hchild
  | map children =>
    cases step with
    | name name =>
      obtain ⟨hchildren, -⟩ := consistent_map_iff.mp h
      have hmem : (name, child) ∈ children.toList :=
        (hchildren.mem_toList_iff name child).mpr hchild
      rw [preorder_map]
      exact .tail _ (List.mem_flatMap.mpr ⟨(name, child), hmem, hinner⟩)
    | position position => exact nomatch hchild
  | _ => cases step <;> exact nomatch hchild

/-- What a path leads to is inside. -/
theorem mem_preorder_of_at? {rule inner : Rule} (h : rule.Consistent) {path : Path}
    (hinner : rule.at? path = some inner) : inner ∈ rule.preorder := by
  induction path generalizing rule with
  | nil =>
    rw [← Option.some.inj hinner]
    cases rule <;> exact .head _
  | cons step path ih =>
    rw [at?, Option.bind_eq_some_iff] at hinner
    obtain ⟨child, hchild, hinner⟩ := hinner
    exact mem_preorder_of_step? h hchild (ih (h.of_step? hchild) hinner)

end DesignTokens.Rule

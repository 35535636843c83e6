import DesignTokens.Proofs.Rule.Document
import DesignTokens.Proofs.Traversal

/-!
# Reading one node

What reading a node of a rule document does, given what reading the nodes directly inside it does.

* `Rule.failure?_ofJson`: a node fails by its own fault, or else as the first node inside it that
  fails.
* `Rule.SoundNode`: the nodes without a fault; `Rule.ofJson_string` to `Rule.ofJson_boolean` say
  what they are read as.
* `Rule.failure?_ofJson_eq_findSome?`: a document fails as the first of its nodes with a fault.
-/

namespace DesignTokens.Rule

/-- The child that a member of a map's payload denotes. -/
def ofMember (member : String × Json) : Except Error (String × Rule) :=
  (ofJson member.2).map (member.1, ·)

theorem ofItems_eq_mapM (items : List Json) : ofItems items = items.mapM ofJson := by
  induction items with
  | nil => rfl
  | cons item items ih => rw [ofItems, ih, List.mapM_cons]

theorem insertChildren_eq_mapM (children : OrderedMap Rule) (members : List (String × Json)) :
    insertChildren children members = (members.mapM ofMember).map children.insertMany := by
  induction members generalizing children with
  | nil => rfl
  | cons member members ih =>
    obtain ⟨name, value⟩ := member
    rw [insertChildren, List.mapM_cons, ofMember]
    cases ofJson value with
    | error error => rfl
    | ok rule =>
      show insertChildren (children.insert name rule) members = _
      rw [ih]
      cases members.mapM ofMember <;> rfl

/-! ## The payload -/

section Payload

variable {members : List (String × Json)} {value : Json} (kind : Kind)
  (unit : Except Error (Option String))

theorem ofMembers_cons_of_ne {name : String} (hname : name ≠ "value") :
    ofMembers kind unit ((name, value) :: members) = ofMembers kind unit members := by
  rw [ofMembers.eq_def]
  simp [hname]

/-- The rule of a node depends on its first payload alone. -/
theorem ofMembers_of_lookup (h : members.lookup "value" = some value) :
    ofMembers kind unit members = ofMembers kind unit [("value", value)] := by
  refine search_eq_of_lookup (fun _ _ _ => ofMembers_cons_of_ne kind unit) (fun value _ => ?_) h
  rw [ofMembers.eq_def, ofMembers.eq_def]
  simp

/-- A node without a payload denotes no rule. -/
theorem ofMembers_of_lookup_none (h : members.lookup "value" = none) :
    ofMembers kind unit members = .error (.defectiveRule kind .missingValue) := by
  rw [search_eq_of_lookup_none (fun _ _ _ => ofMembers_cons_of_ne kind unit) h]
  rfl

/-- A node whose payload has the wrong shape denotes no rule. -/
theorem ofMembers_of_shape_ne (h : value.shape ≠ kind.payloadShape) :
    ofMembers kind unit [("value", value)] =
      .error (.defectiveRule kind (.wrongShape value.shape)) := by
  rw [ofMembers.eq_def]
  cases kind <;> cases value <;> simp_all [Json.shape, Kind.payloadShape]

end Payload

/-! ## Nodes without a fault -/

/-- The members of a node without a fault, one kind at a time. -/
inductive SoundNode (members : List (String × Json)) : Prop
  | string (text : String) (hkind : (Json.object members).kind? = some .string)
      (hvalue : members.lookup "value" = some (.string text))
  | number (n : Json.Number) (unit : Option String)
      (hkind : (Json.object members).kind? = some .number)
      (hvalue : members.lookup "value" = some (.number n)) (hunit : readUnit members = .ok unit)
  | list (items : List Json) (hkind : (Json.object members).kind? = some .list)
      (hvalue : members.lookup "value" = some (.array items))
  | map (children : List (String × Json)) (hkind : (Json.object members).kind? = some .map)
      (hvalue : members.lookup "value" = some (.object children))
  | color (channels : List (String × Json)) (hkind : (Json.object members).kind? = some .color)
      (hvalue : members.lookup "value" = some (.object channels))
  | boolean (value : Bool) (hkind : (Json.object members).kind? = some .boolean)
      (hvalue : members.lookup "value" = some (.boolean value))

/-- Reading a unit fails exactly on a unit that is neither a string nor null. -/
theorem failure?_readUnit (members : List (String × Json)) :
    failure? (readUnit members) =
      match members.lookup "unit" with
      | none | some .null | some (.string _) => none
      | some other => some (.defectiveRule .number (.unitNotString other.shape)) := by
  unfold readUnit
  cases members.lookup "unit" with
  | none => rfl
  | some unit => cases unit <;> rfl

/-- Past its tag and its payload, a node can only have a fault in its unit. -/
theorem nodeError?_of_shape_eq {members : List (String × Json)} {kind : Kind} {value : Json}
    (hkind : (Json.object members).kind? = some kind)
    (hvalue : members.lookup "value" = some value) (hshape : value.shape = kind.payloadShape) :
    nodeError? (.object members) =
      if kind = .number then failure? (readUnit members) else none := by
  have hget : (Json.object members).get? "value" = some value := hvalue
  have hunit : (Json.object members).get? "unit" = members.lookup "unit" := rfl
  rw [nodeError?, hkind, failure?_readUnit, hunit]
  simp only [hget, hshape, ne_eq, not_true_eq_false, ↓reduceIte]
  split
  · next hnumber =>
    subst hnumber
    cases members.lookup "unit" with
    | none => rfl
    | some unit => cases unit <;> rfl
  · rfl

/-- A node without a fault is an object of a known kind with a payload that fits. -/
theorem soundNode_of_nodeError? {node : Json} (h : nodeError? node = none) :
    ∃ members, node = .object members ∧ SoundNode members := by
  have hnode := h
  unfold nodeError? at h
  split at h
  · exact nomatch h
  next kind hkind =>
    split at h
    · exact nomatch h
    next value hget =>
      obtain ⟨members, rfl, hvalue⟩ := Json.exists_members_of_get? hget
      refine ⟨members, rfl, ?_⟩
      split at h
      · exact nomatch h
      next hshape =>
        rw [ne_eq, not_not] at hshape
        rw [nodeError?_of_shape_eq hkind hvalue hshape] at hnode
        -- Each kind leaves one shape of payload.
        cases kind with
        | string =>
          cases value with
          | string text => exact .string text hkind hvalue
          | _ => exact nomatch hshape
        | number =>
          cases value with
          | number n =>
            obtain ⟨unit, hunit⟩ := failure?_eq_none_iff.mp hnode
            exact .number n unit hkind hvalue hunit
          | _ => exact nomatch hshape
        | list =>
          cases value with
          | array items => exact .list items hkind hvalue
          | _ => exact nomatch hshape
        | map =>
          cases value with
          | object children => exact .map children hkind hvalue
          | _ => exact nomatch hshape
        | color =>
          cases value with
          | object channels => exact .color channels hkind hvalue
          | _ => exact nomatch hshape
        | boolean =>
          cases value with
          | boolean value => exact .boolean value hkind hvalue
          | _ => exact nomatch hshape

/-! ## What a node is read as -/

theorem ofJson_of_kind?_none {node : Json} (h : node.kind? = none) :
    ofJson node = .error (.unknownKind node) := by
  cases node with
  | object members => rw [ofJson, h]
  | _ => rw [ofJson]; simp

theorem ofJson_of_lookup {members : List (String × Json)} {kind : Kind} {value : Json}
    (hkind : (Json.object members).kind? = some kind)
    (hvalue : members.lookup "value" = some value) :
    ofJson (.object members) = ofMembers kind (readUnit members) [("value", value)] := by
  rw [ofJson, hkind]
  exact ofMembers_of_lookup kind _ hvalue

/-- A node with a fault is not read, whatever stands inside it. -/
theorem ofJson_of_nodeError? {node : Json} {error : Error} (h : nodeError? node = some error) :
    ofJson node = .error error := by
  -- The faults are gone through in the order in which reading meets them.
  cases hkind : node.kind? with
  | none =>
    rw [nodeError?, hkind] at h
    rw [ofJson_of_kind?_none hkind]
    exact congrArg Except.error (Option.some.inj h)
  | some kind =>
    cases node with
    | object members =>
      cases hvalue : members.lookup "value" with
      | none =>
        have hget : (Json.object members).get? "value" = none := hvalue
        simp only [nodeError?, hkind, hget, Option.some.injEq] at h
        rw [ofJson, hkind, ← h]
        exact ofMembers_of_lookup_none kind _ hvalue
      | some value =>
        by_cases hshape : value.shape = kind.payloadShape
        · -- The payload fits, so that only the unit of a number is left.
          rw [nodeError?_of_shape_eq hkind hvalue hshape] at h
          split at h
          · next hnumber =>
            subst hnumber
            rw [ofJson_of_lookup hkind hvalue, failure?_eq_some_iff.mp h]
            cases value with
            | number n => rfl
            | _ => exact nomatch hshape
          · exact nomatch h
        · have hget : (Json.object members).get? "value" = some value := hvalue
          simp only [nodeError?, hkind, hget, ne_eq, hshape, not_false_eq_true, ↓reduceIte,
            Option.some.injEq] at h
          rw [ofJson_of_lookup hkind hvalue, ofMembers_of_shape_ne kind _ hshape, h]
    | _ => exact nomatch hkind

/-- A node that is read has no fault. -/
theorem soundNode_of_ofJson {node : Json} {rule : Rule} (h : ofJson node = .ok rule) :
    ∃ members, node = .object members ∧ SoundNode members := by
  apply soundNode_of_nodeError?
  by_contra hne
  obtain ⟨error, herror⟩ := Option.ne_none_iff_exists'.mp hne
  exact nomatch h.symm.trans (ofJson_of_nodeError? herror)

/-- The child of a member has the member's name, and the rule that its value denotes. -/
theorem ofMember_eq_ok_iff {member : String × Json} {child : String × Rule} :
    ofMember member = .ok child ↔ child.1 = member.1 ∧ ofJson member.2 = .ok child.2 := by
  rw [ofMember, map_eq_ok_iff]
  constructor
  · rintro ⟨rule, hrule, rfl⟩
    exact ⟨rfl, hrule⟩
  · rintro ⟨hname, hrule⟩
    exact ⟨child.2, hrule, Prod.ext hname.symm rfl⟩

section Sound

variable {members : List (String × Json)}

theorem ofJson_string {text : String} (hkind : (Json.object members).kind? = some .string)
    (hvalue : members.lookup "value" = some (.string text)) :
    ofJson (.object members) = .ok (.string text) := by
  rw [ofJson_of_lookup hkind hvalue]
  rfl

theorem ofJson_number {n : Json.Number} (hkind : (Json.object members).kind? = some .number)
    (hvalue : members.lookup "value" = some (.number n)) :
    ofJson (.object members) = (readUnit members).map (.number n.toBinary64) := by
  rw [ofJson_of_lookup hkind hvalue]
  rfl

theorem ofJson_list {items : List Json} (hkind : (Json.object members).kind? = some .list)
    (hvalue : members.lookup "value" = some (.array items)) :
    ofJson (.object members) = (items.mapM ofJson).map .list := by
  rw [ofJson_of_lookup hkind hvalue, ← ofItems_eq_mapM]
  rfl

theorem ofJson_map {children : List (String × Json)}
    (hkind : (Json.object members).kind? = some .map)
    (hvalue : members.lookup "value" = some (.object children)) :
    ofJson (.object members) = (children.mapM ofMember).map fun rules => .map (.ofList rules) := by
  rw [ofJson_of_lookup hkind hvalue]
  show (insertChildren ∅ children).map Rule.map = _
  rw [insertChildren_eq_mapM]
  cases children.mapM ofMember <;> rfl

theorem ofJson_color {channels : List (String × Json)}
    (hkind : (Json.object members).kind? = some .color)
    (hvalue : members.lookup "value" = some (.object channels)) :
    ofJson (.object members) = .ok (.color (Mapping.ofMembers channels)) := by
  rw [ofJson_of_lookup hkind hvalue]
  rfl

theorem ofJson_boolean {value : Bool} (hkind : (Json.object members).kind? = some .boolean)
    (hvalue : members.lookup "value" = some (.boolean value)) :
    ofJson (.object members) = .ok (.boolean value) := by
  rw [ofJson_of_lookup hkind hvalue]
  rfl

theorem subnodes_list {items : List Json} (hkind : (Json.object members).kind? = some .list)
    (hvalue : members.lookup "value" = some (.array items)) :
    subnodes (.object members) = items := by
  have hget : (Json.object members).get? "value" = some (.array items) := hvalue
  rw [subnodes, hkind, hget]

theorem subnodes_map {children : List (String × Json)}
    (hkind : (Json.object members).kind? = some .map)
    (hvalue : members.lookup "value" = some (.object children)) :
    subnodes (.object members) = children.map (·.2) := by
  have hget : (Json.object members).get? "value" = some (.object children) := hvalue
  rw [subnodes, hkind, hget]

/-- Nothing stands inside a node that is neither a list nor a map. -/
theorem subnodes_of_ne {kind : Kind} (hkind : (Json.object members).kind? = some kind)
    (hlist : kind ≠ .list) (hmap : kind ≠ .map) : subnodes (.object members) = [] := by
  rw [subnodes, hkind]
  split
  · next hkind' _ => exact absurd (Option.some.inj hkind') hlist
  · next hkind' _ => exact absurd (Option.some.inj hkind') hmap
  · rfl

end Sound

/-- The kind of a node that is read is that of its rule. -/
theorem kind?_of_ofJson {node : Json} {rule : Rule} (h : ofJson node = .ok rule) :
    node.kind? = some rule.kind := by
  obtain ⟨members, rfl, hsound⟩ := soundNode_of_ofJson h
  cases hsound with
  | string text hkind hvalue =>
    rw [ofJson_string hkind hvalue] at h
    cases h
    exact hkind
  | number n unit hkind hvalue hunit =>
    rw [ofJson_number hkind hvalue, hunit] at h
    cases h
    exact hkind
  | list items hkind hvalue =>
    rw [ofJson_list hkind hvalue, map_eq_ok_iff] at h
    obtain ⟨rules, -, rfl⟩ := h
    exact hkind
  | map children hkind hvalue =>
    rw [ofJson_map hkind hvalue, map_eq_ok_iff] at h
    obtain ⟨rules, -, rfl⟩ := h
    exact hkind
  | color channels hkind hvalue =>
    rw [ofJson_color hkind hvalue] at h
    cases h
    exact hkind
  | boolean value hkind hvalue =>
    rw [ofJson_boolean hkind hvalue] at h
    cases h
    exact hkind

/-- A node fails by its own fault, or else as the first node inside it that fails. -/
theorem failure?_ofJson (node : Json) :
    failure? (ofJson node) =
      (nodeError? node).or ((subnodes node).findSome? fun child => failure? (ofJson child)) := by
  cases hnode : nodeError? node with
  | some error =>
    rw [ofJson_of_nodeError? hnode]
    rfl
  | none =>
    -- A sound node of another kind than list and map is read, and has nothing inside it.
    obtain ⟨members, rfl, hsound⟩ := soundNode_of_nodeError? hnode
    rw [Option.none_or]
    cases hsound with
    | string text hkind hvalue =>
      rw [ofJson_string hkind hvalue, subnodes_of_ne hkind nofun nofun]
      rfl
    | number n unit hkind hvalue hunit =>
      rw [ofJson_number hkind hvalue, hunit, subnodes_of_ne hkind nofun nofun]
      rfl
    | list items hkind hvalue =>
      rw [ofJson_list hkind hvalue, subnodes_list hkind hvalue, failure?_map, failure?_mapM]
    | map children hkind hvalue =>
      rw [ofJson_map hkind hvalue, subnodes_map hkind hvalue, failure?_map, failure?_mapM,
        List.findSome?_map]
      simp [ofMember, Function.comp_def]
    | color channels hkind hvalue =>
      rw [ofJson_color hkind hvalue, subnodes_of_ne hkind nofun nofun]
      rfl
    | boolean value hkind hvalue =>
      rw [ofJson_boolean hkind hvalue, subnodes_of_ne hkind nofun nofun]
      rfl

/-- A document fails as the first of its nodes that has a fault. -/
theorem failure?_ofJson_eq_findSome? (json : Json) :
    failure? (ofJson json) = (nodes json).findSome? nodeError? := by
  induction json using node_induction with
  | step node ih =>
    -- Preorder is what makes the node's own fault come before those inside it.
    rw [failure?_ofJson, nodes_eq, List.findSome?_cons, findSome?_flatMap_eq ih]
    cases nodeError? node <;> rfl

/-- A document denotes a rule exactly when none of its nodes has a fault. -/
theorem exists_ofJson_eq_ok_iff {json : Json} :
    (∃ rule, ofJson json = .ok rule) ↔ ∀ node ∈ nodes json, nodeError? node = none := by
  rw [← failure?_eq_none_iff, failure?_ofJson_eq_findSome?, List.findSome?_eq_none_iff]

end DesignTokens.Rule

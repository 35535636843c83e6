import DesignTokens.Proofs.Rule.Reading
import DesignTokens.Rule.Encoding

/-!
# The first fault of a document

Which documents denote a rule, and which error the others are refused with, in terms of their
nodes alone.

* `Rule.Faulty`: a node that cannot be read, whatever stands inside it.
* `Rule.FirstFault`: the error of a faulty node, which is that of its first fault.
* `Rule.ofJson_firstFault`: a document denotes a rule exactly when none of its nodes is faulty,
  and is refused with the error of the first node that is.
-/

namespace DesignTokens

/-- A node is of some kind exactly when it has the tag of that kind. -/
theorem Json.kind?_eq_some_iff {node : Json} {kind : Kind} :
    node.kind? = some kind ↔ node.tag? = some kind.tag := by
  rw [Json.kind?, Option.bind_eq_some_iff]
  constructor
  · rintro ⟨tag, htag, hkind⟩
    rw [htag, Kind.ofTag?_eq_some_iff.mp hkind]
  · intro h
    exact ⟨kind.tag, h, Kind.ofTag?_eq_some_iff.mpr rfl⟩

/-- A node is of no kind exactly when it has the tag of none. -/
theorem Json.kind?_eq_none_iff {node : Json} :
    node.kind? = none ↔ ∀ kind : Kind, node.tag? ≠ some kind.tag := by
  rw [Option.eq_none_iff_forall_ne_some]
  exact forall_congr' fun kind => not_congr Json.kind?_eq_some_iff

/-- A node has the tag of one kind at most. -/
theorem Json.kind_unique {node : Json} {kind kind' : Kind} (h : node.tag? = some kind.tag)
    (h' : node.tag? = some kind'.tag) : kind = kind' := by
  rw [← Json.kind?_eq_some_iff] at h h'
  exact Option.some.inj (h.symm.trans h')

namespace Rule

/-- What can be wrong with a node taken by itself. -/
inductive Faulty (node : Json) : Prop
  | notAnObject (hshape : node.shape ≠ .object)
  | noKnownTag (htag : ∀ kind : Kind, node.tag? ≠ some kind.tag)
  | noPayload (hvalue : node.get? "value" = none)
  | wrongShape {kind : Kind} {value : Json} (htag : node.tag? = some kind.tag)
      (hvalue : node.get? "value" = some value) (hshape : value.shape ≠ kind.payloadShape)
  | unitNotString {unit : Json} (htag : node.tag? = some Kind.number.tag)
      (hunit : node.get? "unit" = some unit) (hnull : unit.shape ≠ .null)
      (hstring : unit.shape ≠ .string)

/-- The error that a faulty node is refused with. Faults are looked for in the order of
`Faulty`, and each case here rules out the faults before it. -/
inductive FirstFault (node : Json) : Error → Prop
  | notAnObject (hshape : node.shape ≠ .object) : FirstFault node (.unknownKind node)
  | noKnownTag (hshape : node.shape = .object) (htag : ∀ kind : Kind, node.tag? ≠ some kind.tag) :
      FirstFault node (.unknownKind node)
  | noPayload {kind : Kind} (htag : node.tag? = some kind.tag) (hvalue : node.get? "value" = none) :
      FirstFault node (.defectiveRule kind .missingValue)
  | wrongShape {kind : Kind} {value : Json} (htag : node.tag? = some kind.tag)
      (hvalue : node.get? "value" = some value) (hshape : value.shape ≠ kind.payloadShape) :
      FirstFault node (.defectiveRule kind (.wrongShape value.shape))
  | unitNotString {value unit : Json} (htag : node.tag? = some Kind.number.tag)
      (hvalue : node.get? "value" = some value) (hshape : value.shape = .number)
      (hunit : node.get? "unit" = some unit) (hnull : unit.shape ≠ .null)
      (hstring : unit.shape ≠ .string) :
      FirstFault node (.defectiveRule .number (.unitNotString unit.shape))

/-- The error of a node taken by itself is that of its first fault. -/
theorem nodeError?_eq_some_iff {node : Json} {error : Error} :
    nodeError? node = some error ↔ FirstFault node error := by
  constructor
  · -- The definition asks for one fault after the other, and each answer but the last ends it.
    intro h
    unfold nodeError? at h
    split at h
    · next hkind =>
      cases h
      rw [Json.kind?_eq_none_iff] at hkind
      by_cases hshape : node.shape = .object
      · exact .noKnownTag hshape hkind
      · exact .notAnObject hshape
    next kind hkind =>
      rw [Json.kind?_eq_some_iff] at hkind
      split at h
      · next hvalue =>
        cases h
        exact .noPayload hkind hvalue
      next value hvalue =>
        split at h
        · next hshape =>
          cases h
          exact .wrongShape hkind hvalue hshape
        next hshape =>
          rw [ne_eq, not_not] at hshape
          split at h
          · next hnumber =>
            subst hnumber
            cases hunit : node.get? "unit" with
            | none =>
              rw [hunit] at h
              exact nomatch h
            | some unit =>
              -- Null stands for no unit, and a string for itself.
              rw [hunit] at h
              cases unit with
              | null => exact nomatch h
              | string text => exact nomatch h
              | _ =>
                cases h
                exact .unitNotString hkind hvalue hshape hunit nofun nofun
          · exact nomatch h
  · -- A case of `FirstFault` settles every question up to its own fault.
    intro h
    cases h with
    | notAnObject hshape =>
      cases node with
      | object members => exact absurd rfl hshape
      | _ => rfl
    | noKnownTag hshape htag =>
      rw [nodeError?, Json.kind?_eq_none_iff.mpr htag]
    | noPayload htag hvalue =>
      simp only [nodeError?, Json.kind?_eq_some_iff.mpr htag, hvalue]
    | wrongShape htag hvalue hshape =>
      simp only [nodeError?, Json.kind?_eq_some_iff.mpr htag, hvalue, if_pos hshape]
    | @unitNotString value unit htag hvalue hshape hunit hnull hstring =>
      have hfits : ¬ value.shape ≠ Kind.number.payloadShape := not_not.mpr hshape
      simp only [nodeError?, Json.kind?_eq_some_iff.mpr htag, hvalue, if_neg hfits, hunit]
      cases unit with
      | null => exact absurd rfl hnull
      | string text => exact absurd rfl hstring
      | _ => rfl

/-- A node has a first fault exactly when it is faulty. -/
theorem exists_firstFault_iff {node : Json} : (∃ error, FirstFault node error) ↔ Faulty node := by
  constructor
  · rintro ⟨error, h⟩
    cases h with
    | notAnObject hshape => exact .notAnObject hshape
    | noKnownTag _ htag => exact .noKnownTag htag
    | noPayload _ hvalue => exact .noPayload hvalue
    | wrongShape htag hvalue hshape => exact .wrongShape htag hvalue hshape
    | unitNotString htag _ _ hunit hnull hstring => exact .unitNotString htag hunit hnull hstring
  · -- Whichever fault there is, one of the earlier ones may stand before it.
    intro h
    by_cases hobject : node.shape = .object
    swap
    · exact ⟨_, .notAnObject hobject⟩
    by_cases htag : ∀ kind : Kind, node.tag? ≠ some kind.tag
    · exact ⟨_, .noKnownTag hobject htag⟩
    push Not at htag
    obtain ⟨kind, htag⟩ := htag
    cases hvalue : node.get? "value" with
    | none => exact ⟨_, .noPayload htag hvalue⟩
    | some value =>
      by_cases hshape : value.shape = kind.payloadShape
      swap
      · exact ⟨_, .wrongShape htag hvalue hshape⟩
      -- The payload fits, so only a unit can be at fault.
      cases h with
      | notAnObject h => exact absurd hobject h
      | noKnownTag h => exact absurd htag (h kind)
      | noPayload h => exact nomatch hvalue.symm.trans h
      | wrongShape htag' hvalue' hshape' =>
        cases Json.kind_unique htag htag'
        cases hvalue.symm.trans hvalue'
        exact absurd hshape hshape'
      | unitNotString htag' hunit hnull hstring =>
        cases Json.kind_unique htag htag'
        exact ⟨_, .unitNotString htag hvalue hshape hunit hnull hstring⟩

/-- A node taken by itself has no error exactly when it is not faulty. -/
theorem nodeError?_eq_none_iff {node : Json} : nodeError? node = none ↔ ¬ Faulty node := by
  rw [← exists_firstFault_iff, not_exists, Option.eq_none_iff_forall_ne_some]
  exact forall_congr' fun error => not_congr nodeError?_eq_some_iff

namespace FirstFault

variable {node : Json} {error : Error}

/-- The first fault of a node is attributed to no variable. -/
theorem innermost_eq (h : FirstFault node error) : error.innermost = error := by
  cases h <;> rfl

/-- The kind of a node is unknown if the node is not an object or has no known tag, and for no
fault looked for later. -/
theorem isUnknownKind_iff (h : FirstFault node error) :
    error.isUnknownKind = true ↔
      node.shape ≠ .object ∨ ∀ kind : Kind, node.tag? ≠ some kind.tag := by
  -- A node with a known tag is an object that has one.
  have hknown {kind : Kind} (htag : node.tag? = some kind.tag) :
      ¬ (node.shape ≠ .object ∨ ∀ kind : Kind, node.tag? ≠ some kind.tag) := by
    rintro (hshape | hnone)
    · cases node with
      | object members => exact hshape rfl
      | _ => exact nomatch htag
    · exact hnone kind htag
  cases h with
  | notAnObject hshape => exact iff_of_true rfl (.inl hshape)
  | noKnownTag _ htag => exact iff_of_true rfl (.inr htag)
  | noPayload htag _ => exact iff_of_false nofun (hknown htag)
  | wrongShape htag _ _ => exact iff_of_false nofun (hknown htag)
  | unitNotString htag _ _ _ _ _ => exact iff_of_false nofun (hknown htag)

/-- The error of an unknown kind shows the text of the node at fault, and its tag, which is that
of no kind. -/
theorem shows_node (h : FirstFault node error) (hunknown : error.isUnknownKind = true) :
    error.dump? = some node.compact ∧ error.tag? = node.tag? ∧
      ∀ kind : Kind, error.tag? ≠ some kind.tag := by
  cases h with
  | notAnObject hshape =>
    refine ⟨rfl, rfl, fun kind => ?_⟩
    cases node with
    | object members => exact absurd rfl hshape
    | _ => exact nofun
  | noKnownTag _ htag => exact ⟨rfl, rfl, htag⟩
  | noPayload _ _ => exact nomatch hunknown
  | wrongShape _ _ _ => exact nomatch hunknown
  | unitNotString _ _ _ _ _ _ => exact nomatch hunknown

/-- Every error but that of an unknown kind is a defect of the kind that the node's tag names. -/
theorem defectiveRule_of_not_unknown (h : FirstFault node error)
    (hknown : error.isUnknownKind ≠ true) :
    ∃ kind defect, node.tag? = some kind.tag ∧ error = .defectiveRule kind defect := by
  cases h with
  | notAnObject _ => exact absurd rfl hknown
  | noKnownTag _ _ => exact absurd rfl hknown
  | noPayload htag _ => exact ⟨_, _, htag, rfl⟩
  | wrongShape htag _ _ => exact ⟨_, _, htag, rfl⟩
  | unitNotString htag _ _ _ _ _ => exact ⟨_, _, htag, rfl⟩

end FirstFault

/-- The error of a rule says that a tag names no kind, or tells a defect of a rule. -/
theorem error_of_ofJson {json : Json} {error : Error} (h : ofJson json = .error error) :
    (∃ node, error = .unknownKind node) ∨ ∃ kind defect, error = .defectiveRule kind defect := by
  rw [← failure?_eq_some_iff, failure?_ofJson_eq_findSome?] at h
  obtain ⟨node, -, hnode⟩ := List.exists_of_findSome?_eq_some h
  cases nodeError?_eq_some_iff.mp hnode with
  | notAnObject _ => exact .inl ⟨_, rfl⟩
  | noKnownTag _ _ => exact .inl ⟨_, rfl⟩
  | noPayload _ _ => exact .inr ⟨_, _, rfl⟩
  | wrongShape _ _ _ => exact .inr ⟨_, _, rfl⟩
  | unitNotString _ _ _ _ _ _ => exact .inr ⟨_, _, rfl⟩

/-- A document denotes a rule exactly when none of its nodes is faulty. Any other is refused with
the error of the first node that is, parents before children and children in order. -/
theorem ofJson_firstFault (json : Json) :
    ((∃ rule, ofJson json = .ok rule) ↔ ∀ node ∈ nodes json, ¬ Faulty node) ∧
      (∀ error, ofJson json = .error error ↔
        ∃ before node after, nodes json = before ++ node :: after ∧
          (∀ earlier ∈ before, ¬ Faulty earlier) ∧ FirstFault node error) ∧
      ∀ node error, FirstFault node error →
        error.innermost = error ∧
        (error.isUnknownKind = true ↔
          node.shape ≠ .object ∨ ∀ kind : Kind, node.tag? ≠ some kind.tag) ∧
        (error.isUnknownKind = true →
          error.dump? = some node.compact ∧ error.tag? = node.tag? ∧
            ∀ kind : Kind, error.tag? ≠ some kind.tag) ∧
        (error.isUnknownKind ≠ true →
          ∃ kind defect, node.tag? = some kind.tag ∧ error = .defectiveRule kind defect) := by
  refine ⟨?_, fun error => ?_, fun node error h => ?_⟩
  · rw [exists_ofJson_eq_ok_iff]
    exact forall₂_congr fun node _ => nodeError?_eq_none_iff
  · -- The search through the nodes ends at the first with an error, and splits the nodes there.
    rw [← failure?_eq_some_iff, failure?_ofJson_eq_findSome?, List.findSome?_eq_some_iff]
    constructor
    · rintro ⟨before, node, after, hnodes, hnode, hbefore⟩
      exact ⟨before, node, after, hnodes,
        fun earlier hearlier => nodeError?_eq_none_iff.mp (hbefore earlier hearlier),
        nodeError?_eq_some_iff.mp hnode⟩
    · rintro ⟨before, node, after, hnodes, hbefore, hnode⟩
      exact ⟨before, node, after, hnodes, nodeError?_eq_some_iff.mpr hnode,
        fun earlier hearlier => nodeError?_eq_none_iff.mpr (hbefore earlier hearlier)⟩
  · exact ⟨h.innermost_eq, h.isUnknownKind_iff, h.shows_node, h.defectiveRule_of_not_unknown⟩

/-- Of two faulty items of a list, the first is reported, and neither the list nor the item before
them. -/
theorem ofJson_firstFault_item :
    ofJson (node .list (.array [node .boolean (.boolean true),
        .object [("type", .string "SassNull"), ("value", .null)], .null])) =
      .error (.unknownKind (.object [("type", .string "SassNull"), ("value", .null)])) := by
  refine ((ofJson_firstFault _).2.1 _).mpr
    ⟨[_, node .boolean (.boolean true)], _, [.null], rfl, ?_, .noKnownTag rfl ?_⟩
  · intro earlier hearlier
    rw [← nodeError?_eq_none_iff]
    rcases List.mem_pair.mp hearlier with rfl | rfl
    · rfl
    · rfl
  · intro kind
    cases kind <;> decide

end Rule

end DesignTokens

import DesignTokens.Proofs.Conversion.Equations

/-!
# Converting a map and writing it

The children of a map and the entries of its token are kept in two maps of the same kind. A write to
the one is matched by a write to the other, so it makes no difference whether a map is written first
and then converted, or its children are converted first and their tokens written.

* `Entries.map_values_insert`: what is made of each value can be made before a write or after it.
* `Rule.convertedChildren_insertMany`: the tokens of the children after writes to their map.
* `Rule.ofList_convertedChildren_insertMany`: writes to a map are writes to its token.
* `Rule.convert_map_ofList`: the token of a map that was collected from pairs is collected from the
  pairs with converted values, and every further write to the map is matched by one to the token.
-/

namespace DesignTokens

namespace Entries

variable {α β : Type} (f : α → β)

/-- Values can be replaced by what is made of them before a write or after it. -/
theorem map_values_insert (key : String) (value : α) (entries : List (String × α)) :
    (insert key value entries).map (fun entry => (entry.1, f entry.2)) =
      insert key (f value) (entries.map fun entry => (entry.1, f entry.2)) := by
  induction entries with
  | nil => rfl
  | cons entry rest ih =>
    obtain ⟨k, old⟩ := entry
    -- Both searches compare the same keys, and stop at the same place.
    rw [insert, List.map_cons, insert]
    split
    · rw [List.map_cons]
    · rw [List.map_cons, ih]

/-- So it is with many writes. -/
theorem map_values_insertMany (entries more : List (String × α)) :
    (insertMany entries more).map (fun entry => (entry.1, f entry.2)) =
      insertMany (entries.map fun entry => (entry.1, f entry.2))
        (more.map fun entry => (entry.1, f entry.2)) := by
  induction more generalizing entries with
  | nil => rfl
  | cons entry more ih =>
    show (insertMany (insert entry.1 entry.2 entries) more).map _ = _
    rw [ih, map_values_insert]
    rfl

end Entries

namespace Rule

variable (settings : Settings) {children : OrderedMap Rule}

/-- Writing children writes their tokens, in the same order. -/
theorem convertedChildren_insertMany (h : children.Consistent) (pairs : List (String × Rule)) :
    convertedChildren settings (children.insertMany pairs) =
      Entries.insertMany (convertedChildren settings children)
        (pairs.map fun pair => (pair.1, pair.2.convert settings "")) := by
  rw [convertedChildren, h.toList_insertMany, Entries.map_values_insertMany, convertedChildren]

/-- Writes to a map, once converted, are writes to the token of the map. -/
theorem ofList_convertedChildren_insertMany (h : children.Consistent)
    (pairs : List (String × Rule)) :
    OrderedMap.ofList (convertedChildren settings (children.insertMany pairs)) =
      (OrderedMap.ofList (convertedChildren settings children)).insertMany
        (pairs.map fun pair => (pair.1, pair.2.convert settings "")) := by
  have hconverted := OrderedMap.consistent_ofList (convertedChildren settings children)
  refine (OrderedMap.consistent_ofList _).ext (hconverted.insertMany _) ?_
  rw [toList_ofList_convertedChildren settings (h.insertMany pairs), hconverted.toList_insertMany,
    toList_ofList_convertedChildren settings h, convertedChildren_insertMany settings h]

/-- The child that a write replaces, once converted, is the token that the write of its token
replaces. -/
theorem getThenInsert?_ofList_convertedChildren (h : children.Consistent) (key : String)
    (child : Rule) (token : Token) :
    ((OrderedMap.ofList (convertedChildren settings children)).getThenInsert? key token).1 =
      (children.getThenInsert? key child).1.map (convert settings "") := by
  rw [(OrderedMap.consistent_ofList _).getThenInsert?_fst, h.getThenInsert?_fst,
    toList_ofList_convertedChildren settings h, convertedChildren, Entries.lookup_map_values]

/-- Converting a map that is collected from pairs of keys and rules comes to collecting the pairs of
the keys and the converted rules, however often a key occurs. One write at a time: for every map of
rules, writing a rule and converting the map comes to converting the map and writing the converted
rule, and the rule that the write replaced is converted to the token that is replaced. -/
theorem convert_map_ofList :
    (∀ pairs : List (String × Rule),
      (map (.ofList pairs)).convert settings "" =
        .mapping (.ofList (pairs.map fun pair => (pair.1, pair.2.convert settings "")))) ∧
    ∀ children : OrderedMap Rule, children.Consistent →
      ∃ converted : Mapping, (map children).convert settings "" = .mapping converted ∧
        converted.toList = children.toList.map (fun child => (child.1, child.2.convert settings "")) ∧
        ∀ (key : String) (child : Rule),
          (map (children.insert key child)).convert settings "" =
            .mapping (converted.insert key (child.convert settings "")) ∧
          (converted.getThenInsert? key (child.convert settings "")).1 =
            (children.getThenInsert? key child).1.map (convert settings "") := by
  -- Without a name the setting has nothing to drop.
  have hmap : ∀ children : OrderedMap Rule, (map children).convert settings "" =
      .mapping (.ofList (convertedChildren settings children)) := by
    intro children
    rw [convert_map, ite_self, Token.underName_empty]
  refine ⟨fun pairs => ?_, fun children h => ?_⟩
  · rw [hmap]
    exact congrArg _
      (ofList_convertedChildren_insertMany settings OrderedMap.consistent_empty pairs)
  · refine ⟨_, hmap children, toList_ofList_convertedChildren settings h, fun key child => ⟨?_, ?_⟩⟩
    · rw [hmap]
      exact congrArg _ (ofList_convertedChildren_insertMany settings h [(key, child)])
    · exact getThenInsert?_ofList_convertedChildren settings h key child _

/-- Pairs of keys and rules in which keys are repeated. -/
def repeatedPairs : List (String × Rule) :=
  [("gap", .string "1px"), ("theme", .map (.ofList [("ink", .boolean true)])),
    ("gap", .number (.finite (.zero true)) (some "px")), ("ink", .string "black")]

/-- A key that is written three times keeps its first place, in the map and in its token, and what
the last write replaces is what the one before it wrote. -/
theorem convert_map_ofList_repeatedPairs :
    (map (.ofList repeatedPairs)).convert ⟨.nest⟩ "" =
      .mapping (.ofList [("gap", .ofText "1px"),
        ("theme", .mapping (.ofList [("ink", .ofBool true)])), ("gap", .ofText "0px"),
        ("ink", .ofText "black")]) ∧
    ∃ converted : Mapping,
      (map (.ofList repeatedPairs)).convert ⟨.nest⟩ "" = .mapping converted ∧
      (map (OrderedMap.insert (.ofList repeatedPairs) "gap" (.list []))).convert ⟨.nest⟩ "" =
        .mapping (converted.insert "gap" (.sequence [])) ∧
      (converted.getThenInsert? "gap" (.sequence [])).1 = some (.ofText "0px") := by
  obtain ⟨hcollect, hwrite⟩ := convert_map_ofList ⟨.nest⟩
  have hzero : (Binary64.finite (.zero true)).tokenText = "0" := by decide +kernel
  have hlast : (OrderedMap.getThenInsert? (.ofList repeatedPairs) "gap" (.list [])).1 =
      some (.number (.finite (.zero true)) (some "px")) := rfl
  have hnumber : (number (.finite (.zero true)) (some "px")).convert ⟨.nest⟩ "" =
      .ofText "0px" := by
    rw [convert_number, hzero]
    rfl
  obtain ⟨converted, hconverted, -, hstep⟩ := hwrite _ (OrderedMap.consistent_ofList repeatedPairs)
  obtain ⟨hinsert, hreplaced⟩ := hstep "gap" (.list [])
  refine ⟨?_, converted, hconverted, hinsert, ?_⟩
  · rw [hcollect, repeatedPairs]
    simp only [List.map_cons, List.map_nil, hnumber, convert_string, hcollect, convert_boolean,
      Token.underName_empty]
  · rw [hlast, Option.map_some, hnumber] at hreplaced
    exact hreplaced

end Rule

end DesignTokens

import DesignTokens.Proofs.Conversion.Equations
import DesignTokens.Proofs.Rule.Image
import DesignTokens.Proofs.Sheet.Reading
import DesignTokens.Proofs.Sheet.Schedule

/-!
# Conversion keeps consistency

The mappings that conversion writes are new, apart from the channels of colours, which are copied.

* `Rule.Consistent.convert`: the token of a consistent rule is consistent.
* `Sheet.consistent_of_mergeFragments`: a root stays consistent while fragments are merged into it.
* `Sheet.consistent_of_convert`, `Sheet.consistent_of_convertScheduled`,
  `Sheet.consistent_of_convertJson`: so are the roots of sheets.
-/

namespace DesignTokens

/-- A token under a name, which may be none, is consistent if the token is. -/
theorem Token.Consistent.underName {token : Token} (h : token.Consistent) (name : String) :
    (underName name token).Consistent := by
  rw [Token.underName]
  split
  · exact h
  · exact h.named name

/-- The token of a consistent rule is consistent. -/
theorem Rule.Consistent.convert {rule : Rule} (h : rule.Consistent) (settings : Settings)
    (name : String) : (rule.convert settings name).Consistent := by
  induction rule generalizing name with
  | string value =>
    rw [convert_string]
    exact (Token.consistent_scalar _).underName name
  | number value unit =>
    rw [convert_number]
    exact (Token.consistent_scalar _).underName name
  | list items ih =>
    rw [consistent_list_iff] at h
    rw [convert_list]
    refine Token.Consistent.underName (Token.consistent_sequence_iff.mpr ?_) name
    intro token htoken
    obtain ⟨item, hitem, rfl⟩ := List.mem_map.mp htoken
    exact ih item hitem (h item hitem) ""
  | map children ih =>
    -- The mapping is written anew, so only the children of the map matter here, and not its index.
    obtain ⟨-, hrules⟩ := consistent_map_iff.mp h
    rw [convert_map]
    refine Token.Consistent.underName (Token.consistent_mapping_ofList ?_) _
    intro entry hentry
    obtain ⟨child, hchild, rfl⟩ := List.mem_map.mp hentry
    exact ih child hchild (hrules child hchild) ""
  | color channels =>
    -- The channels are the one mapping that is copied with its index.
    rw [convert_color]
    exact (consistent_color_iff.mp h).underName name
  | boolean value =>
    rw [convert_boolean]
    exact (Token.consistent_scalar _).underName name

namespace Sheet

/-- A root stays consistent while consistent fragments are merged into it. -/
theorem consistent_of_mergeFragments {root merged : Mapping} {index : Nat} {fragments : List Token}
    (hroot : (Token.mapping root).Consistent) (hfragments : ∀ token ∈ fragments, token.Consistent)
    (hmerged : mergeFragments root index fragments = .ok merged) :
    (Token.mapping merged).Consistent := by
  induction fragments generalizing root index with
  | nil =>
    cases hmerged
    exact hroot
  | cons token fragments ih =>
    have hrest : ∀ token ∈ fragments, token.Consistent :=
      fun later hlater => hfragments later (List.mem_cons_of_mem _ hlater)
    -- Only a mapping can be merged, and its entries are written into the root.
    cases token with
    | mapping entries =>
      have hentries := Token.consistent_mapping_iff.mp (hfragments _ List.mem_cons_self)
      exact ih (hroot.insertMany hentries.2) hrest hmerged
    | scalar value => exact nomatch hmerged
    | sequence items => exact nomatch hmerged

variable {settings : Settings} {sheet : Sheet}

/-- The fragments of consistent rules are consistent. -/
theorem consistent_fragments (h : ∀ entry ∈ sheet, entry.rule.Consistent) :
    ∀ token ∈ sheet.map (Variable.fragment settings), token.Consistent := by
  intro token htoken
  obtain ⟨entry, hentry, rfl⟩ := List.mem_map.mp htoken
  exact (h entry hentry).convert settings entry.name

/-- The root of a sheet of consistent rules is consistent. -/
theorem consistent_of_convert (h : ∀ entry ∈ sheet, entry.rule.Consistent) {root : Mapping}
    (hroot : (convert settings sheet).value = .ok root) : (Token.mapping root).Consistent := by
  rw [value_convert, value_mergeInto_eq] at hroot
  exact consistent_of_mergeFragments (Token.consistent_mapping_empty 0) (consistent_fragments h) hroot

/-- So is its root on any schedule. -/
theorem consistent_of_convertScheduled (h : ∀ entry ∈ sheet, entry.rule.Consistent)
    {schedule : Schedule sheet} {root : Mapping}
    (hroot : (convertScheduled settings sheet schedule).value = .ok root) :
    (Token.mapping root).Consistent := by
  rw [value_convertScheduled] at hroot
  exact consistent_of_mergeFragments (Token.consistent_mapping_empty 0) (consistent_fragments h) hroot

/-- The rules of a sheet that was read are consistent. -/
theorem consistent_of_ofJson {json : Json} (h : ofJson json = .ok sheet) :
    ∀ entry ∈ sheet, entry.rule.Consistent := by
  intro entry hentry
  cases hentries : entries? json with
  | none =>
    rw [ofJson_of_entries?_eq_none hentries] at h
    exact nomatch h
  | some entries =>
    rw [ofJson_of_entries? hentries] at h
    obtain ⟨given, -, hread⟩ := exists_of_mem_of_mapM h hentry
    obtain ⟨name, value, rule, -, -, hrule, rfl⟩ := Entry.read_eq_ok_iff.mp hread
    exact Rule.consistent_of_ofJson hrule

/-- The root of a sheet that was read is consistent. -/
theorem consistent_of_convertJson {json : Json} {root : Mapping}
    (h : (convertJson settings json).value = .ok root) : (Token.mapping root).Consistent := by
  cases hread : ofJson json with
  | error error =>
    rw [convertJson_of_error settings hread] at h
    exact nomatch h
  | ok sheet =>
    rw [convertJson_of_ok settings hread] at h
    exact consistent_of_convert (consistent_of_ofJson hread) h

end Sheet

end DesignTokens

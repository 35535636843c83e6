import DesignTokens.Proofs.Conversion.Equations
import DesignTokens.Proofs.OrderedMap.Entries
import DesignTokens.Sheet.Contribution

/-!
# The root of a sheet

Each variable is converted and merged in its turn, so the root holds what the variables
contribute, written one after the other.

* `Variable.exists_mapping_of_mergeable`: the fragment of a variable that can be merged writes its
  contribution.
* `Sheet.value_mergeInto`: the first variable that cannot be merged ends the work, and otherwise
  all contributions are written.
* `Sheet.convert_root`: when a sheet has a root, and the keys and values of the root.
-/

namespace DesignTokens

namespace Variable

variable (settings : Settings) {entry : Variable}

/-- Merging a token under a name writes one entry. -/
theorem merge_singleton (root : Mapping) (name : String) (token : Token) :
    root.merge (.singleton name token) = root.insertMany [(name, token)] := by
  rw [OrderedMap.merge, OrderedMap.toList_singleton]

/-- A map without a name of its own, or whose name is dropped, contributes its children. -/
theorem contribution_map {name : String} (children : OrderedMap Rule)
    (h : name = "" ∨ settings.mapNaming = .flatten) :
    contribution settings ⟨name, .map children⟩ = Rule.convertedChildren settings children := by
  have hdropped : name.isEmpty = true ∨ settings.mapNaming = .flatten := by simpa using h
  show (if name.isEmpty = true ∨ settings.mapNaming = .flatten then _ else _) = _
  rw [if_pos hdropped]

/-- A variable that keeps its name contributes one entry. -/
theorem contribution_of_name {name : String} {rule : Rule} (hname : name ≠ "")
    (hkept : ¬ (rule.kind = .map ∧ settings.mapNaming = .flatten)) :
    contribution settings ⟨name, rule⟩ = [(name, rule.convert settings "")] := by
  cases rule with
  | map children =>
    have hnest : ¬ settings.mapNaming = .flatten := fun h => hkept ⟨rfl, h⟩
    simp [contribution, hname, hnest]
  | color channels => simp [contribution, hname]
  | _ => rfl

/-- The fragment of a variable that can be merged is a mapping, and merging it writes what the
variable contributes. -/
theorem exists_mapping_of_mergeable (h : entry.Mergeable) :
    ∃ entries, entry.rule.convert settings entry.name = .mapping entries ∧
      ∀ root : Mapping, root.Consistent →
        root.merge entries = root.insertMany (entry.contribution settings) := by
  obtain ⟨name, rule⟩ := entry
  -- A fragment holds one entry under the name unless there is none, or it is a map's and dropped.
  by_cases hkept : name ≠ "" ∧ ¬ (rule.kind = .map ∧ settings.mapNaming = .flatten)
  · refine ⟨.singleton name (rule.convert settings ""), ?_, fun root _ => ?_⟩
    · rw [Rule.convert_eq_underName, if_neg hkept.2, Token.underName_of_ne hkept.1]
    · rw [merge_singleton, contribution_of_name settings hkept.1 hkept.2]
  · rw [not_and_or, not_not, not_not] at hkept
    cases rule with
    | map children =>
      have hdropped : name = "" ∨ settings.mapNaming = .flatten := hkept.imp_right (·.2)
      have hname : (if settings.mapNaming = .flatten then "" else name) = "" := by
        rcases hdropped with rfl | hflatten
        · exact ite_self ""
        · exact if_pos hflatten
      refine ⟨.ofList (Rule.convertedChildren settings children), ?_, fun root hroot => ?_⟩
      · rw [Rule.convert_map, hname, Token.underName_empty]
      · rw [hroot.merge_ofList, contribution_map settings children hdropped]
    | color channels =>
      -- The name of a colour is never dropped, so there is none.
      obtain rfl : name = "" := by
        refine hkept.resolve_right ?_
        rintro ⟨hmap, -⟩
        cases hmap
      refine ⟨channels, ?_, fun root _ => rfl⟩
      rw [Rule.convert_color, Token.underName_empty]
    | _ =>
      -- Nothing else can be merged without a name.
      obtain rfl : name = "" := by
        refine hkept.resolve_right ?_
        rintro ⟨hmap, -⟩
        cases hmap
      simp [Mergeable, Rule.kind] at h

/-- The fragment of a variable that cannot be merged is no mapping. -/
theorem ne_mapping_of_not_mergeable (h : ¬ entry.Mergeable) (entries : Mapping) :
    entry.rule.convert settings entry.name ≠ .mapping entries := by
  obtain ⟨name, rule⟩ := entry
  simp only [Mergeable, not_or, not_not] at h
  obtain ⟨rfl, hmap, hcolor⟩ := h
  -- Without a name the fragment is the token of the rule.
  cases rule with
  | map children => exact absurd rfl hmap
  | color channels => exact absurd rfl hcolor
  | _ => simp [Token.ofText, Token.ofBool]

end Variable

namespace Sheet

variable (settings : Settings)

/-- The entries that the variables of a sheet contribute, in the order of the declarations. -/
def contributions (sheet : Sheet) : List (String × Token) :=
  sheet.flatMap (Variable.contribution settings)

/-- The first variable of a sheet that cannot be merged is at this index. -/
def FirstUnmergeable (sheet : Sheet) (index : Nat) : Prop :=
  ∃ before entry after, sheet = before ++ entry :: after ∧ before.length = index ∧
    (∀ earlier ∈ before, earlier.Mergeable) ∧ ¬ entry.Mergeable

/-- Some variable is the first that cannot be merged unless all can. -/
theorem exists_firstUnmergeable {sheet : Sheet} (h : ¬ ∀ entry ∈ sheet, entry.Mergeable) :
    ∃ index, FirstUnmergeable sheet index := by
  cases hfind : sheet.find? (fun entry => decide (¬ entry.Mergeable)) with
  | none =>
    rw [List.find?_eq_none] at hfind
    refine absurd (fun entry hentry => ?_) h
    have hentry := hfind entry hentry
    rwa [decide_eq_true_iff, not_not] at hentry
  | some entry =>
    obtain ⟨hentry, before, after, hsheet, hbefore⟩ := List.find?_eq_some_iff_append.mp hfind
    refine ⟨before.length, before, entry, after, hsheet, rfl, fun earlier hearlier => ?_,
      of_decide_eq_true hentry⟩
    simpa using hbefore earlier hearlier

/-- A variable that can be merged writes its contribution before the rest is merged. -/
theorem value_mergeInto_of_mergeable {root : Mapping} (hroot : root.Consistent) (index : Nat)
    {entry : Variable} (h : entry.Mergeable) (rest : Sheet) :
    (mergeInto settings root index (entry :: rest)).value =
      (mergeInto settings (root.insertMany (entry.contribution settings)) (index + 1) rest).value := by
  obtain ⟨entries, hconvert, hmerge⟩ := Variable.exists_mapping_of_mergeable settings h
  rw [mergeInto, Logged.value_bind, Rule.value_convertLogged, hconvert, ← hmerge root hroot]

/-- A variable that cannot be merged ends the work at its index. -/
theorem value_mergeInto_of_not_mergeable (root : Mapping) (index : Nat) {entry : Variable}
    (h : ¬ entry.Mergeable) (rest : Sheet) :
    (mergeInto settings root index (entry :: rest)).value = .error (.unmergeable index) := by
  rw [mergeInto, Logged.value_bind, Rule.value_convertLogged]
  split
  · next entries hconvert =>
    exact absurd hconvert (Variable.ne_mapping_of_not_mergeable settings h entries)
  · rfl

/-- Variables that can be merged write what they contribute before the rest is merged. -/
theorem value_mergeInto_append {root : Mapping} (hroot : root.Consistent) (index : Nat)
    {before : Sheet} (h : ∀ entry ∈ before, entry.Mergeable) (rest : Sheet) :
    (mergeInto settings root index (before ++ rest)).value =
      (mergeInto settings (root.insertMany (contributions settings before))
        (index + before.length) rest).value := by
  -- The root stays consistent, which is what lets each fragment be merged entry by entry.
  induction before generalizing root index with
  | nil => rfl
  | cons entry before ih =>
    have hentry : entry.Mergeable := h entry List.mem_cons_self
    have hbefore : ∀ entry ∈ before, entry.Mergeable := fun e he => h e (List.mem_cons_of_mem _ he)
    have hwritten : root.insertMany (contributions settings (entry :: before)) =
        (root.insertMany (entry.contribution settings)).insertMany
          (contributions settings before) := List.foldl_append
    rw [List.cons_append, value_mergeInto_of_mergeable settings hroot index hentry,
      ih (hroot.insertMany _) _ hbefore, hwritten, List.length_cons]
    congr 2
    omega

/-- A record of a merge does not change its outcome. -/
theorem value_recordMerge (sheet : Sheet) (outcome : Except Error Mapping) :
    (recordMerge sheet outcome).value = outcome := by
  cases outcome <;> rfl

theorem value_convert (sheet : Sheet) :
    (convert settings sheet).value = (mergeInto settings ∅ 0 sheet).value := by
  rw [convert, Logged.value_bind, value_recordMerge, OrderedMap.emptyWithCapacity_eq]

/-- The root of a sheet whose variables can all be merged holds what they contribute. -/
theorem value_convert_of_mergeable {sheet : Sheet} (h : ∀ entry ∈ sheet, entry.Mergeable) :
    (convert settings sheet).value = .ok (.ofList (contributions settings sheet)) := by
  have hmerge := value_mergeInto_append settings OrderedMap.consistent_empty 0 h []
  rw [List.append_nil] at hmerge
  rw [value_convert, hmerge]
  rfl

/-- A sheet with a variable that cannot be merged has no root, and the error tells the first. -/
theorem value_convert_of_firstUnmergeable {sheet : Sheet} {index : Nat}
    (h : FirstUnmergeable sheet index) :
    (convert settings sheet).value = .error (.unmergeable index) := by
  obtain ⟨before, entry, after, rfl, rfl, hbefore, hentry⟩ := h
  -- What comes before is merged, and whatever comes after is not reached.
  rw [value_convert, value_mergeInto_append settings OrderedMap.consistent_empty 0 hbefore,
    value_mergeInto_of_not_mergeable settings _ _ hentry, Nat.zero_add]

/-- A sheet has a root exactly when all its variables can be merged. -/
theorem exists_convert_eq_ok_iff (sheet : Sheet) :
    (∃ root, (convert settings sheet).value = .ok root) ↔ ∀ entry ∈ sheet, entry.Mergeable := by
  constructor
  · rintro ⟨root, hroot⟩
    by_contra h
    obtain ⟨index, hindex⟩ := exists_firstUnmergeable h
    rw [value_convert_of_firstUnmergeable settings hindex] at hroot
    exact nomatch hroot
  · intro h
    exact ⟨_, value_convert_of_mergeable settings h⟩

/-- A sheet has the root that its variables' contributions make, and only if all can be merged. -/
theorem convert_eq_ok_iff (sheet : Sheet) (root : Mapping) :
    (convert settings sheet).value = .ok root ↔
      (∀ entry ∈ sheet, entry.Mergeable) ∧ root = .ofList (contributions settings sheet) := by
  constructor
  · intro h
    have hmergeable := (exists_convert_eq_ok_iff settings sheet).mp ⟨root, h⟩
    rw [value_convert_of_mergeable settings hmergeable] at h
    exact ⟨hmergeable, (Except.ok.inj h).symm⟩
  · rintro ⟨hmergeable, rfl⟩
    exact value_convert_of_mergeable settings hmergeable

/-- A root is consistent. -/
theorem consistent_of_convert_eq_ok {sheet : Sheet} {root : Mapping}
    (h : (convert settings sheet).value = .ok root) : OrderedMap.Consistent root := by
  rw [((convert_eq_ok_iff settings sheet root).mp h).2]
  exact OrderedMap.consistent_ofList _

/-- The error of a sheet without a root tells the first variable that cannot be merged. -/
theorem convert_eq_error_iff (sheet : Sheet) (error : Error) :
    (convert settings sheet).value = .error error ↔
      ∃ index, FirstUnmergeable sheet index ∧ error = .unmergeable index := by
  constructor
  · intro herror
    have hnot : ¬ ∀ entry ∈ sheet, entry.Mergeable := by
      intro h
      rw [value_convert_of_mergeable settings h] at herror
      exact nomatch herror
    obtain ⟨index, hindex⟩ := exists_firstUnmergeable hnot
    rw [value_convert_of_firstUnmergeable settings hindex] at herror
    exact ⟨index, hindex, (Except.error.inj herror).symm⟩
  · rintro ⟨index, hindex, rfl⟩
    exact value_convert_of_firstUnmergeable settings hindex

/-- A sheet has a root exactly when all its variables can be merged. Otherwise the error tells the
first that cannot, whatever is done with the names of maps. The keys of the root are the distinct
keys of what the variables contribute, in the order in which they first occur, and each key has
the value that it is given last. -/
theorem convert_root (settings : Settings) (sheet : Sheet) :
    ((∃ root, (convert settings sheet).value = .ok root) ↔ ∀ entry ∈ sheet, entry.Mergeable) ∧
    (∀ error, (convert settings sheet).value = .error error ↔
      ∃ index, FirstUnmergeable sheet index ∧ error = .unmergeable index) ∧
    (∀ (other : Settings) (error : Error),
      (convert settings sheet).value = .error error ↔
        (convert other sheet).value = .error error) ∧
    ∀ root, (convert settings sheet).value = .ok root →
      root.keys = ((contributions settings sheet).map (·.1)).eraseDups ∧
      (∀ key, root.get? key = (contributions settings sheet).reverse.lookup key) ∧
      (∀ key value, (key, value) ∈ root.toList ↔
        (contributions settings sheet).reverse.lookup key = some value) ∧
      root.size = ((contributions settings sheet).map (·.1)).toFinset.card := by
  refine ⟨exists_convert_eq_ok_iff settings sheet, convert_eq_error_iff settings sheet,
    fun other error => ?_, fun root hroot => ?_⟩
  · -- Which variable cannot be merged is decided by names and kinds alone.
    rw [convert_eq_error_iff, convert_eq_error_iff]
  · have hmergeable := (exists_convert_eq_ok_iff settings sheet).mp ⟨root, hroot⟩
    rw [value_convert_of_mergeable settings hmergeable] at hroot
    obtain rfl := Except.ok.inj hroot
    refine ⟨OrderedMap.keys_ofList _, OrderedMap.get?_ofList _, fun key value => ?_,
      OrderedMap.size_ofList _⟩
    rw [(OrderedMap.consistent_ofList _).mem_toList_iff, OrderedMap.get?_ofList]

/-- A variable, a colour without a name and a map, whose keys overlap. -/
def overlappingSheet : Sheet :=
  [⟨"gap", .string "1px"⟩,
    ⟨"", .color (.ofList [("gap", .ofText "2px"), ("ink", .ofText "black")])⟩,
    ⟨"theme", .map (.ofList [("ink", .boolean true), ("paper", .string "white")])⟩]

/-- Keys stand where they first came, with the values that came last. -/
theorem convert_root_overlappingSheet :
    ∃ root, (convert ⟨.flatten⟩ overlappingSheet).value = .ok root ∧
      root.keys = ["gap", "ink", "paper"] ∧ root.get? "gap" = some (.ofText "2px") ∧
      root.get? "ink" = some (.ofBool true) ∧ root.size = 3 := by
  have hconvert := convert_root ⟨.flatten⟩ overlappingSheet
  have hmergeable : ∀ entry ∈ overlappingSheet, entry.Mergeable := by decide
  obtain ⟨root, hroot⟩ := hconvert.1.mpr hmergeable
  obtain ⟨hkeys, hget, -, hsize⟩ := hconvert.2.2.2 root hroot
  have hwritten : contributions ⟨.flatten⟩ overlappingSheet =
      [("gap", .ofText "1px"), ("gap", .ofText "2px"), ("ink", .ofText "black"),
        ("ink", .ofBool true), ("paper", .ofText "white")] := rfl
  rw [hwritten] at hkeys hget hsize
  exact ⟨root, hroot, hkeys.trans rfl, (hget _).trans rfl, (hget _).trans rfl, hsize.trans rfl⟩
end Sheet

end DesignTokens

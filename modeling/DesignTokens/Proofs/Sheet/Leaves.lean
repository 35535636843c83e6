import DesignTokens.Proofs.Conversion.Consistent
import DesignTokens.Proofs.Conversion.Paths
import DesignTokens.Proofs.Token.Preorder

/-!
# Where raw leaves come from

Conversion writes text and truth values. Numbers and nulls get into a token only with the channels of
a colour, which are copied as they are.

* `Scalar.Raw`: the leaves that conversion does not write itself.
* `Rule.CopiedInto`: a path of a token runs through a copy of a channel of a rule.
* `Rule.copiedInto_convert`: every raw leaf of a rule's token is in such a copy.
* `Sheet.copiedInto_of_convert`: every raw leaf of a root is in a copy of a channel of some variable.
* `Sheet.rawLeaves_copied`: rules and roots together, and what follows where there are no colours.
-/

namespace DesignTokens

/-- Numbers and nulls are raw. -/
def Scalar.Raw : Scalar → Prop
  | .number _ | .null => True
  | .text _ | .boolean _ => False

/-- Every other leaf is text or a truth value. -/
theorem Scalar.not_raw_iff {value : Scalar} :
    ¬ value.Raw ↔ (∃ text, value = .text text) ∨ ∃ truth, value = .boolean truth := by
  cases value <;> simp [Raw]

/-- The path runs through a copy of a channel of a colour in the rule: the value of the channel stands
in the token under the channel's key, and what the path leads to is inside, in the same place as in
the value. -/
def Rule.CopiedInto (rule : Rule) (token : Token) (path : Path) : Prop :=
  ∃ channels key value before after, .color channels ∈ rule.preorder ∧
    channels.get? key = some value ∧ path = before ++ .name key :: after ∧
    token.at? (before ++ [.name key]) = some value ∧ value.at? after = token.at? path

/-- Under a name stands the token that was given the name, and nothing else. -/
theorem Token.eq_of_step?_named {name : String} {token child : Token} {step : PathStep}
    (h : (Token.mapping (.singleton name token)).step? step = some child) : token = child := by
  cases step with
  | position position => exact nomatch h
  | name key =>
    have hconsistent : (OrderedMap.singleton name token).Consistent :=
      OrderedMap.consistent_empty.insert name token
    have hmem := (hconsistent.mem_toList_iff key child).mpr h
    rw [OrderedMap.toList_singleton, List.mem_singleton] at hmem
    exact (congrArg Prod.snd hmem).symm

namespace Rule

variable {rule : Rule} {token : Token}

/-- A path that goes on below a copied channel leads to what it leads to in the channel. -/
theorem copiedInto_of_channel {channels : Mapping} (hcolor : .color channels ∈ rule.preorder)
    {key : String} {value : Token} (hvalue : channels.get? key = some value) {before : Path}
    (hcopy : token.at? (before ++ [.name key]) = some value) (after : Path) :
    rule.CopiedInto token (before ++ .name key :: after) := by
  refine ⟨channels, key, value, before, after, hcolor, hvalue, rfl, hcopy, ?_⟩
  rw [List.append_cons, Token.at?_append, hcopy]
  rfl

/-- What is copied from a rule inside another is copied from the outer one. -/
theorem CopiedInto.of_subset {inner : Rule} {path : Path} (h : inner.CopiedInto token path)
    (hinner : inner.preorder ⊆ rule.preorder) : rule.CopiedInto token path := by
  obtain ⟨channels, key, value, before, after, hcolor, hcopied⟩ := h
  exact ⟨channels, key, value, before, after, hinner hcolor, hcopied⟩

/-- What is copied into a part of a token is copied into the token. -/
theorem CopiedInto.of_step? {child : Token} {path : Path} (h : rule.CopiedInto child path)
    {step : PathStep} (hchild : token.step? step = some child) :
    rule.CopiedInto token (step :: path) := by
  obtain ⟨channels, key, value, before, after, hcolor, hvalue, rfl, hcopy, -⟩ := h
  have hbelow : token.at? (step :: before ++ [.name key]) = some value := by
    rw [List.cons_append, Token.at?, hchild]
    exact hcopy
  exact copiedInto_of_channel hcolor hvalue hbelow after

variable (settings : Settings)

/-- No rule becomes a raw leaf: a leaf is the token of a string, a number or a truth value. -/
theorem not_raw_of_convert_eq {rule : Rule} {value : Scalar}
    (h : Token.scalar value = rule.convert settings "") : ¬ value.Raw := by
  cases rule with
  | string text | number number unit | boolean truth =>
    simp only [convert_string, convert_number, convert_boolean, Token.underName_empty] at h
    rw [Token.scalar.inj h]
    exact id
  | list items =>
    rw [convert_list, Token.underName_empty] at h
    exact nomatch h
  | map children =>
    rw [convert_map, ite_self, Token.underName_empty] at h
    exact nomatch h
  | color channels =>
    rw [convert_color, Token.underName_empty] at h
    exact nomatch h

/-- A raw leaf of a rule's token is in a copy of a channel. -/
theorem copiedInto_convert_empty (h : rule.Consistent) {path : Path} {value : Scalar}
    (hleaf : (rule.convert settings "").at? path = some (.scalar value)) (hraw : value.Raw) :
    rule.CopiedInto (rule.convert settings "") path := by
  rcases exists_of_at?_convert settings h hleaf with
    ⟨inner, -, hinner⟩ | ⟨before, after, channels, rfl, hafter, hcolor, hchannel⟩
  · exact absurd hraw (not_raw_of_convert_eq settings hinner)
  · -- The path goes on into the channels of a colour, and its next step is the key of one of them.
    cases after with
    | nil => exact absurd rfl hafter
    | cons step after =>
      cases step with
      | position position => exact nomatch hchannel
      | name key =>
        obtain ⟨channel, hvalue, -⟩ := Option.bind_eq_some_iff.mp hchannel
        refine copiedInto_of_channel (mem_preorder_of_at? h hcolor) hvalue ?_ after
        rw [Token.at?_append, at?_convert settings h hcolor, convert_color, Token.underName_empty,
          Option.bind_some, Token.at?, hvalue]
        rfl

/-- So is a raw leaf of its token under a name. -/
theorem copiedInto_convert (h : rule.Consistent) (name : String) {path : Path} {value : Scalar}
    (hleaf : (rule.convert settings name).at? path = some (.scalar value)) (hraw : value.Raw) :
    rule.CopiedInto (rule.convert settings name) path := by
  rw [convert_eq_underName] at hleaf ⊢
  generalize (if rule.kind = .map ∧ settings.mapNaming = .flatten then "" else name) = kept
    at hleaf ⊢
  by_cases hkept : kept = ""
  · subst hkept
    exact copiedInto_convert_empty settings h hleaf hraw
  · -- The path to a leaf passes the name first, and goes on in the token without it.
    rw [Token.underName_of_ne hkept] at hleaf ⊢
    cases path with
    | nil => exact nomatch hleaf
    | cons step path =>
      obtain ⟨child, hchild, hleaf⟩ := Option.bind_eq_some_iff.mp hleaf
      obtain rfl := Token.eq_of_step?_named hchild
      exact (copiedInto_convert_empty settings h hleaf hraw).of_step? hchild

end Rule

/-! ## Roots -/

/-- What a variable contributes is a child of a map, a channel of a colour, or its token under its
name. -/
theorem Variable.mem_contribution {settings : Settings} {entry : Variable} {key : String}
    {token : Token} (h : (key, token) ∈ entry.contribution settings) :
    (∃ children child, entry.rule = .map children ∧ (key, child) ∈ children.toList ∧
        token = child.convert settings "") ∨
      (∃ channels, entry.rule = .color channels ∧ (key, token) ∈ channels.toList) ∨
      token = entry.rule.convert settings "" := by
  obtain ⟨name, rule⟩ := entry
  have hsingle : (key, token) ∈ [(name, rule.convert settings "")] →
      token = rule.convert settings "" := fun h => congrArg Prod.snd (List.mem_singleton.mp h)
  cases rule with
  | map children =>
    have hmem : (key, token) ∈ if name.isEmpty ∨ settings.mapNaming = .flatten then
        Rule.convertedChildren settings children
      else [(name, (Rule.map children).convert settings "")] := h
    split at hmem
    · obtain ⟨child, hchild, heq⟩ := List.mem_map.mp hmem
      obtain ⟨rfl, rfl⟩ := Prod.mk.inj heq
      exact .inl ⟨children, child.2, rfl, hchild, rfl⟩
    · exact .inr (.inr (hsingle hmem))
  | color channels =>
    have hmem : (key, token) ∈ if name.isEmpty then channels.toList
      else [(name, (Rule.color channels).convert settings "")] := h
    split at hmem
    · exact .inr (.inl ⟨channels, rfl, hmem⟩)
    · exact .inr (.inr (hsingle hmem))
  | _ => exact .inr (.inr (hsingle h))

/-- A raw leaf of what a variable contributes under a key is in a copy of a channel of the variable,
wherever that contribution stands under its key. -/
theorem Variable.copiedInto_of_mem_contribution (settings : Settings) {entry : Variable}
    (h : entry.rule.Consistent) {key : String} {token : Token}
    (hmem : (key, token) ∈ entry.contribution settings) {root : Mapping}
    (hroot : root.get? key = some token) {path : Path} {value : Scalar}
    (hleaf : token.at? path = some (.scalar value)) (hraw : value.Raw) :
    entry.rule.CopiedInto (.mapping root) (.name key :: path) := by
  have hstep : (Token.mapping root).step? (.name key) = some token := hroot
  -- A variable contributes its children, or its channels, or else its token under its name.
  rcases mem_contribution hmem with
    ⟨children, child, hrule, hchild, rfl⟩ | ⟨channels, hrule, hchannel⟩ | rfl
  · obtain ⟨-, hrules⟩ := Rule.consistent_map_iff.mp (hrule ▸ h)
    have hcopied := Rule.copiedInto_convert_empty settings (hrules _ hchild) hleaf hraw
    refine (hcopied.of_step? hstep).of_subset ?_
    rw [hrule, Rule.preorder_map]
    exact fun inner hinner => .tail _ (List.mem_flatMap.mpr ⟨(key, child), hchild, hinner⟩)
  · have hcolor : Rule.color channels ∈ entry.rule.preorder := by
      rw [hrule]
      exact .head _
    obtain ⟨hchannels, -⟩ := Token.consistent_mapping_iff.mp (Rule.consistent_color_iff.mp (hrule ▸ h))
    have hvalue : channels.get? key = some token :=
      (hchannels.mem_toList_iff key token).mp hchannel
    have hcopy : (Token.mapping root).at? ([] ++ [.name key]) = some token := by
      rw [List.nil_append, Token.at?, hstep]
      rfl
    exact Rule.copiedInto_of_channel hcolor hvalue hcopy path
  · exact (Rule.copiedInto_convert_empty settings h hleaf hraw).of_step? hstep

namespace Sheet

variable (settings : Settings)

/-- A raw leaf of a root is in a copy of a channel of one of the variables. -/
theorem copiedInto_of_convert {sheet : Sheet} (h : ∀ entry ∈ sheet, entry.rule.Consistent)
    {root : Mapping} (hroot : (convert settings sheet).value = .ok root) {path : Path}
    {value : Scalar} (hleaf : (Token.mapping root).at? path = some (.scalar value))
    (hraw : value.Raw) : ∃ entry ∈ sheet, entry.rule.CopiedInto (.mapping root) path := by
  cases path with
  | nil => exact nomatch hleaf
  | cons step path =>
    cases step with
    | position position => exact nomatch hleaf
    | name key =>
      obtain ⟨token, hget, hinside⟩ : ∃ token, root.get? key = some token ∧
          token.at? path = some (.scalar value) := Option.bind_eq_some_iff.mp hleaf
      -- Whatever was written under the key before, the value is the last one contributed to it.
      obtain ⟨-, rfl⟩ := (convert_eq_ok_iff settings sheet root).mp hroot
      have hlast := hget
      rw [OrderedMap.get?_ofList] at hlast
      obtain ⟨before, after, hwritten, -⟩ := List.lookup_eq_some_iff.mp hlast
      have hmem : (key, token) ∈ (contributions settings sheet).reverse := by
        rw [hwritten]
        exact List.mem_append_right _ List.mem_cons_self
      obtain ⟨entry, hentry, hmem⟩ := List.mem_flatMap.mp (List.mem_reverse.mp hmem)
      exact ⟨entry, hentry,
        Variable.copiedInto_of_mem_contribution settings (h entry hentry) hmem hget hinside hraw⟩

/-- The mapping is the root of the sheet: converted in turn, on a schedule, or from a document that
holds the sheet. -/
def HasRoot (sheet : Sheet) (root : Mapping) : Prop :=
  (convert settings sheet).value = .ok root ∨
    (∃ schedule, (convertScheduled settings sheet schedule).value = .ok root) ∨
    ∃ json, ofJson json = .ok sheet ∧ (convertJson settings json).value = .ok root

/-- However a sheet is converted, its root is that of converting it in turn. -/
theorem HasRoot.convert_eq_ok {sheet : Sheet} {root : Mapping} (h : HasRoot settings sheet root) :
    (convert settings sheet).value = .ok root := by
  rcases h with hroot | ⟨schedule, hroot⟩ | ⟨json, hread, hroot⟩
  · exact hroot
  · rw [value_convert, value_mergeInto_eq]
    rwa [value_convertScheduled] at hroot
  · rwa [convertJson_of_ok settings hread] at hroot

/-- In the token of a rule, and in the root of a sheet however it is converted, every number and every
null is in a copy of a channel of a colour: the value of the channel stands there under its key, and
the leaf in it where it is in the value. So a root has only text and truth values for leaves if there
is no colour in its sheet, at any depth of any rule. -/
theorem rawLeaves_copied :
    (∀ rule : Rule, rule.Consistent → ∀ name path value,
      (rule.convert settings name).at? path = some (.scalar value) → value.Raw →
        rule.CopiedInto (rule.convert settings name) path) ∧
    ∀ (sheet : Sheet) (root : Mapping), (∀ entry ∈ sheet, entry.rule.Consistent) →
      HasRoot settings sheet root →
      (∀ path value, (Token.mapping root).at? path = some (.scalar value) → value.Raw →
        ∃ entry ∈ sheet, entry.rule.CopiedInto (.mapping root) path) ∧
      ((∀ entry ∈ sheet, ∀ channels, .color channels ∉ entry.rule.preorder) →
        ∀ value, .scalar value ∈ (Token.mapping root).preorder →
          (∃ text, value = .text text) ∨ ∃ truth, value = .boolean truth) := by
  refine ⟨fun rule h name path value hleaf hraw =>
    Rule.copiedInto_convert settings h name hleaf hraw, fun sheet root h hroot => ?_⟩
  have hconvert := hroot.convert_eq_ok settings
  refine ⟨fun path value hleaf hraw => copiedInto_of_convert settings h hconvert hleaf hraw,
    fun hcolors value hmem => ?_⟩
  -- A leaf at any depth has a path, and a raw one would need a colour to be copied from.
  obtain ⟨path, hleaf⟩ :=
    Token.exists_at?_of_mem_preorder (consistent_of_convert h hconvert) hmem
  refine Scalar.not_raw_iff.mp fun hraw => ?_
  obtain ⟨entry, hentry, channels, -, -, -, -, hcolor, -⟩ :=
    copiedInto_of_convert settings h hconvert hleaf hraw
  exact hcolors entry hentry channels hcolor

/-- The key `"r"` is first a channel of a colour, then text in a map, and then a channel again. -/
def repaintedSheet : Sheet :=
  [⟨"", .color (.ofList [("r", .scalar .null)])⟩,
    ⟨"theme", .map (.ofList [("r", .string "red"), ("dim", .number .nan (some "px"))])⟩,
    ⟨"", .color (.ofList [("r", .sequence [.scalar (.number (.int 255 (by decide)))])])⟩]

/-- The root of the sheet. -/
def repaintedRoot : Mapping :=
  .ofList [("r", .sequence [.scalar (.number (.int 255 (by decide)))]), ("dim", .ofText "NaNpx")]

/-- The map of the sheet alone. -/
def paintlessSheet : Sheet :=
  [⟨"theme", .map (.ofList [("r", .string "red"), ("dim", .number .nan (some "px"))])⟩]

/-- The number in the root is in a copy of the later channel, in the same place as there. Without the
colours every leaf is text or a truth value, even that of a number that is none. -/
theorem rawLeaves_copied_repaintedSheet :
    HasRoot ⟨.flatten⟩ repaintedSheet repaintedRoot ∧
    (∃ entry ∈ repaintedSheet,
      entry.rule.CopiedInto (.mapping repaintedRoot) [.name "r", .position 0]) ∧
    ∃ root, HasRoot ⟨.flatten⟩ paintlessSheet root ∧
      ∀ value, .scalar value ∈ (Token.mapping root).preorder →
        (∃ text, value = .text text) ∨ ∃ truth, value = .boolean truth := by
  have hmap : (Rule.map (.ofList [("r", .string "red"),
      ("dim", .number .nan (some "px"))])).Consistent := by
    refine Rule.consistent_map_ofList fun entry hentry => ?_
    rcases List.mem_pair.mp hentry with rfl | rfl <;> trivial
  have hpaintless : ∀ entry ∈ paintlessSheet, entry.rule.Consistent :=
    List.forall_mem_singleton.mpr hmap
  have hrepainted : ∀ entry ∈ repaintedSheet, entry.rule.Consistent := by
    intro entry hentry
    rcases List.mem_cons.mp hentry with rfl | hentry
    · exact Rule.consistent_color_iff.mpr
        (Token.consistent_mapping_ofList (List.forall_mem_singleton.mpr trivial))
    rcases List.mem_pair.mp hentry with rfl | rfl
    · exact hmap
    · exact Rule.consistent_color_iff.mpr (Token.consistent_mapping_ofList
        (List.forall_mem_singleton.mpr
          (Token.consistent_sequence_iff.mpr (List.forall_mem_singleton.mpr trivial))))
  have hroot : HasRoot ⟨.flatten⟩ repaintedSheet repaintedRoot := .inl rfl
  obtain ⟨-, hsheets⟩ := rawLeaves_copied ⟨.flatten⟩
  refine ⟨hroot, (hsheets _ _ hrepainted hroot).1 _ _ rfl trivial, _, .inl rfl, ?_⟩
  refine (hsheets _ _ hpaintless (.inl rfl)).2 fun entry hentry channels hmem => ?_
  obtain rfl := List.mem_singleton.mp hentry
  rcases hmem with _ | ⟨_, _ | ⟨_, _ | ⟨_, hmem⟩⟩⟩
  exact nomatch hmem

end Sheet

end DesignTokens

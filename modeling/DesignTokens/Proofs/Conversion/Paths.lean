import DesignTokens.Proofs.Conversion.Naming

/-!
# Places before and after conversion

The token of a rule has its places where the rule has them, and besides these only what lies inside
the channels of colours.

* `Rule.exists_of_step?_convert`, `Rule.exists_of_at?_convert`: what a step or a path leads to in the
  token comes from the place in the rule, or from the channels of a colour on the way.
* `Rule.convert_paths`: both directions together, with the sizes and keys of the containers passed.
-/

namespace DesignTokens.Rule

variable (s : Settings)

/-- The mapping of a map has the keys of the map in their order. -/
theorem keys_ofList_convertedChildren {children : OrderedMap Rule} (h : children.Consistent) :
    (OrderedMap.ofList (convertedChildren s children)).keys = children.keys := by
  rw [OrderedMap.keys, toList_ofList_convertedChildren s h, keys_convertedChildren]

/-- A step into the token of a rule leads to the token of what it leads to in the rule, unless the
rule is a colour: then the step goes into the channels. -/
theorem exists_of_step?_convert {rule : Rule} (h : rule.Consistent) {step : PathStep}
    {token : Token} (htoken : (rule.convert s "").step? step = some token) :
    (∃ child, rule.step? step = some child ∧ token = child.convert s "") ∨
      ∃ channels, rule = .color channels ∧ (Token.mapping channels).step? step = some token := by
  cases rule with
  | list items =>
    rw [convert_list, Token.underName_empty] at htoken
    cases step with
    | position position =>
      have hitem : (items.map (convert s ""))[position]? = some token := htoken
      rw [List.getElem?_map, Option.map_eq_some_iff] at hitem
      obtain ⟨child, hchild, rfl⟩ := hitem
      exact .inl ⟨child, hchild, rfl⟩
    | name name => exact absurd htoken.symm (Option.some_ne_none token)
  | map children =>
    obtain ⟨hchildren, -⟩ := consistent_map_iff.mp h
    rw [convert_map, ite_self, Token.underName_empty] at htoken
    cases step with
    | name name =>
      -- The mapping was written anew, and its index finds what that of the map finds.
      have hfound : (OrderedMap.ofList (convertedChildren s children)).get? name = some token :=
        htoken
      rw [convertedChildren, hchildren.get?_ofList_map, Option.map_eq_some_iff] at hfound
      obtain ⟨child, hchild, rfl⟩ := hfound
      exact .inl ⟨child, hchild, rfl⟩
    | position position => exact absurd htoken.symm (Option.some_ne_none token)
  | color channels =>
    rw [convert_color, Token.underName_empty] at htoken
    exact .inr ⟨channels, rfl, htoken⟩
  | string value | number value unit | boolean value =>
    -- There is no way into a scalar.
    simp only [convert_string, convert_number, convert_boolean, Token.underName_empty] at htoken
    cases step <;> exact absurd htoken.symm (Option.some_ne_none token)

/-- A path into the token of a rule leads to the token of what it leads to in the rule, or else goes
through a colour of the rule and ends in its channels. -/
theorem exists_of_at?_convert {rule : Rule} (h : rule.Consistent) {path : Path} {token : Token}
    (htoken : (rule.convert s "").at? path = some token) :
    (∃ inner, rule.at? path = some inner ∧ token = inner.convert s "") ∨
      ∃ before after channels, path = before ++ after ∧ after ≠ [] ∧
        rule.at? before = some (.color channels) ∧
        (Token.mapping channels).at? after = some token := by
  induction path generalizing rule with
  | nil =>
    cases htoken
    exact .inl ⟨rule, rfl, rfl⟩
  | cons step path ih =>
    rw [Token.at?, Option.bind_eq_some_iff] at htoken
    obtain ⟨next, hnext, htoken⟩ := htoken
    rcases exists_of_step?_convert s h hnext with ⟨child, hchild, rfl⟩ | ⟨channels, rfl, hchannel⟩
    · -- The step leads to a child, and the rest of the path is one into its token.
      rcases ih (h.of_step? hchild) htoken with
        ⟨inner, hinner, rfl⟩ | ⟨before, after, channels, rfl, hafter, hcolor, hchannel⟩
      · refine .inl ⟨inner, ?_, rfl⟩
        rw [at?, hchild]
        exact hinner
      · refine .inr ⟨step :: before, after, channels, rfl, hafter, ?_, hchannel⟩
        rw [at?, hchild]
        exact hcolor
    · -- The step goes into the channels of a colour, and nothing brings the path out of them.
      refine .inr ⟨[], step :: path, channels, rfl, List.cons_ne_nil _ _, rfl, ?_⟩
      rw [Token.at?, hchannel]
      exact htoken

/-- Every path that leads to a rule inside a rule leads to the token of the inner rule in the token
of the outer one, and what it passes or reaches has kept its size and its keys in their order. A path
that leads anywhere in the token leads to a rule, or goes on from a colour into its channels and
finds what it finds there. -/
theorem convert_paths (settings : Settings) {rule : Rule} (h : rule.Consistent) :
    (∀ path inner, rule.at? path = some inner →
      (rule.convert settings "").at? path = some (inner.convert settings "")) ∧
    (∀ path items, rule.at? path = some (.list items) →
      ∃ tokens, (rule.convert settings "").at? path = some (.sequence tokens) ∧
        tokens.length = items.length) ∧
    (∀ path children, rule.at? path = some (.map children) →
      ∃ entries, (rule.convert settings "").at? path = some (.mapping entries) ∧
        entries.keys = children.keys) ∧
    (∀ path channels, rule.at? path = some (.color channels) →
      (rule.convert settings "").at? path = some (.mapping channels)) ∧
    ∀ path token, (rule.convert settings "").at? path = some token →
      (∃ inner, rule.at? path = some inner ∧ token = inner.convert settings "") ∨
        ∃ before after channels, path = before ++ after ∧ after ≠ [] ∧
          rule.at? before = some (.color channels) ∧
          (Token.mapping channels).at? after = some token := by
  refine ⟨fun path inner hinner => at?_convert settings h hinner,
    fun path items hitems => ?_, fun path children hchildren => ?_,
    fun path channels hchannels => ?_,
    fun path token htoken => exists_of_at?_convert settings h htoken⟩
  · refine ⟨items.map (convert settings ""), ?_, List.length_map _⟩
    rw [at?_convert settings h hitems, convert_list, Token.underName_empty]
  · refine ⟨.ofList (convertedChildren settings children), ?_, ?_⟩
    · rw [at?_convert settings h hchildren, convert_map, ite_self, Token.underName_empty]
    · -- The map inside is consistent as the rule is, so none of its keys is lost.
      have hinner := consistent_map_iff.mp (h.of_at? hchildren)
      exact keys_ofList_convertedChildren settings hinner.1
  · rw [at?_convert settings h hchannels, convert_color, Token.underName_empty]

/-- A colour in a list in a map. One of its channels has a mapping of its own. -/
def swatchRule : Rule :=
  .map (.ofList [("gap", .string "4px"), ("inks", .list [.boolean false,
    .color (.ofList [("r", .scalar .null), ("meta", .named "space" (.ofText "lab"))])])])

/-- The colour stands in the token where it stands in the rule. The path that goes on into its
channels leads to no rule, and in the token to what the channels hold. -/
theorem convert_paths_swatchRule :
    swatchRule.Consistent ∧
    (∃ entries, (swatchRule.convert ⟨.nest⟩ "").at? [] = some (.mapping entries) ∧
      entries.keys = ["gap", "inks"]) ∧
    (∃ tokens, (swatchRule.convert ⟨.nest⟩ "").at? [.name "inks"] = some (.sequence tokens) ∧
      tokens.length = 2) ∧
    swatchRule.at? [.name "inks", .position 1, .name "meta", .name "space"] = none ∧
    ∃ before after channels, [.name "inks", .position 1, .name "meta", .name "space"] =
        before ++ after ∧ after ≠ [] ∧ swatchRule.at? before = some (.color channels) ∧
      (Token.mapping channels).at? after = some (.ofText "lab") := by
  have hconsistent : swatchRule.Consistent := by
    refine consistent_map_ofList fun entry hentry => ?_
    rcases List.mem_pair.mp hentry with rfl | rfl
    · trivial
    · rw [consistent_list_iff]
      intro item hitem
      rcases List.mem_pair.mp hitem with rfl | rfl
      · trivial
      · refine consistent_color_iff.mpr (Token.consistent_mapping_ofList fun entry hentry => ?_)
        rcases List.mem_pair.mp hentry with rfl | rfl
        · trivial
        · exact (Token.consistent_scalar _).named "space"
  obtain ⟨-, hlists, hmaps, -, hback⟩ := convert_paths ⟨.nest⟩ hconsistent
  refine ⟨hconsistent, hmaps [] _ rfl, hlists [.name "inks"] _ rfl, rfl, ?_⟩
  refine (hback [.name "inks", .position 1, .name "meta", .name "space"] (.ofText "lab")
    rfl).resolve_left ?_
  rintro ⟨inner, hinner, -⟩
  exact nomatch hinner

end DesignTokens.Rule

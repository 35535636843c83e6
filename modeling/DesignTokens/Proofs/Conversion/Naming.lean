import DesignTokens.Proofs.Conversion.Equations
import DesignTokens.Proofs.Rule.Tree
import DesignTokens.Token.Path

/-!
# Names of maps

A map under a name is wrapped in it or not, as the settings say. Items of lists and children of maps
are converted without a name, so the settings show around the outermost map and nowhere else.

* `Rule.convert_empty_eq`: without a name, all settings give the same token.
* `Rule.at?_convert`: the token at a place inside is that of the rule at this place.
* `Rule.convert_nest`: with names of maps kept, a map with a name is what it is with them dropped,
  wrapped once; every other rule is the same.
* `Rule.convert_naming`: the two settings side by side, for all kinds of rules and all names.
-/

namespace DesignTokens

/-- No token is itself wrapped in a name. -/
theorem Token.named_ne_self (name : String) (token : Token) : named name token ≠ token := by
  induction token with
  | scalar value => exact nofun
  | sequence items _ => exact nofun
  | mapping entries ih =>
    intro h
    -- The only entry of the mapping would be the mapping, and smaller than it.
    have hentries : OrderedMap.singleton name (mapping entries) = entries := Token.mapping.inj h
    have hentry : (name, mapping entries) ∈
        (OrderedMap.singleton name (mapping entries)).toList := by
      rw [OrderedMap.toList_singleton]
      exact List.mem_singleton_self _
    rw [hentries] at hentry
    exact ih _ hentry h

namespace Rule

variable (s t : Settings)

/-- Without a name, the treatment of names makes no difference at any depth. -/
theorem convert_empty_eq (rule : Rule) : rule.convert s "" = rule.convert t "" := by
  induction rule with
  | string value => rw [convert_string, convert_string]
  | number value unit => rw [convert_number, convert_number]
  | list items ih => rw [convert_list, convert_list, List.map_congr_left ih]
  | map children ih =>
    -- The children have no name either, whatever becomes of that of the map.
    have hchildren : convertedChildren s children = convertedChildren t children :=
      List.map_congr_left fun child hchild => Prod.ext rfl (ih child hchild)
    rw [convert_map, convert_map, ite_self, ite_self, hchildren]
  | color channels => rw [convert_color, convert_color]
  | boolean value => rw [convert_boolean, convert_boolean]

/-- A step that leads to a rule leads, in the token, to the token of that rule. -/
theorem step?_convert {rule child : Rule} (h : rule.Consistent) {step : PathStep}
    (hchild : rule.step? step = some child) :
    (rule.convert s "").step? step = some (child.convert s "") := by
  -- Only a position leads into a list, and only a name into a map.
  cases rule with
  | list items =>
    cases step with
    | position position =>
      have hitem : items[position]? = some child := hchild
      rw [convert_list, Token.underName_empty]
      show (items.map (convert s ""))[position]? = _
      rw [List.getElem?_map, hitem]
      rfl
    | name name => cases hchild
  | map children =>
    cases step with
    | name name =>
      obtain ⟨hchildren, -⟩ := consistent_map_iff.mp h
      have hfound : children.get? name = some child := hchild
      rw [convert_map, ite_self, Token.underName_empty]
      show (OrderedMap.ofList (convertedChildren s children)).get? name = _
      rw [convertedChildren, hchildren.get?_ofList_map, hfound]
      rfl
    | position position => cases hchild
  | _ => cases step <;> cases hchild

/-- A path that leads to a rule leads, in the token, to the token of that rule. -/
theorem at?_convert {rule inner : Rule} (h : rule.Consistent) {path : Path}
    (hinner : rule.at? path = some inner) :
    (rule.convert s "").at? path = some (inner.convert s "") := by
  induction path generalizing rule with
  | nil =>
    cases hinner
    rfl
  | cons step path ih =>
    rw [at?, Option.bind_eq_some_iff] at hinner
    obtain ⟨child, hchild, hinner⟩ := hinner
    rw [Token.at?, step?_convert s h hchild]
    exact ih (h.of_step? hchild) hinner

/-- A map drops its name where names of maps are dropped. -/
theorem convert_map_of_flatten {settings : Settings} (h : settings.mapNaming = .flatten)
    {rule : Rule} (hmap : rule.kind = .map) (name : String) :
    rule.convert settings name = rule.convert settings "" := by
  rw [convert_eq_underName, if_pos ⟨hmap, h⟩, Token.underName_empty]

/-- A name that is not dropped is wrapped around the token without one. -/
theorem convert_eq_named {settings : Settings} {rule : Rule}
    (h : ¬ (rule.kind = .map ∧ settings.mapNaming = .flatten)) {name : String} (hname : name ≠ "") :
    rule.convert settings name = .named name (rule.convert settings "") := by
  rw [convert_eq_underName, if_neg h, Token.underName_of_ne hname]
  rfl

/-- Where names of maps are kept, every name is wrapped around the token without one. -/
theorem convert_nest_eq_named (rule : Rule) {name : String} (hname : name ≠ "") :
    rule.convert ⟨.nest⟩ name = .named name (rule.convert ⟨.nest⟩ "") := by
  have hkept : ¬ (rule.kind = .map ∧ (⟨.nest⟩ : Settings).mapNaming = .flatten) := nofun
  exact convert_eq_named hkept hname

/-- Where names of maps are kept, a rule becomes what it does where they are dropped, wrapped once if
it is a map and has a name. -/
theorem convert_nest (rule : Rule) (name : String) :
    rule.convert ⟨.nest⟩ name =
      if rule.kind = .map ∧ name ≠ "" then .named name (rule.convert ⟨.flatten⟩ name)
      else rule.convert ⟨.flatten⟩ name := by
  by_cases hname : name = ""
  · -- Without a name there is nothing to wrap.
    subst hname
    rw [if_neg fun h => h.2 rfl]
    exact convert_empty_eq _ _ rule
  · rw [convert_nest_eq_named rule hname, convert_empty_eq ⟨.nest⟩ ⟨.flatten⟩]
    -- The name was wrapped on the left; on the right it was, unless the rule is a map.
    by_cases hmap : rule.kind = .map
    · rw [if_pos ⟨hmap, hname⟩, convert_map_of_flatten rfl hmap name]
    · rw [if_neg fun h => hmap h.1, convert_eq_named (fun h => hmap h.1) hname]

/-- The treatment of names shows around the outermost map of a rule with a name, and nowhere else.
Without a name all settings give the same token. A name is wrapped around that token, except around
that of a map where names of maps are dropped, which stays as it is. So the token with names of maps
kept is the one with them dropped, wrapped once, exactly if the rule is a map and has a name, and the
same in every other case. At each place inside the rule stands the token of the rule there, whatever
the settings. -/
theorem convert_naming (rule : Rule) (name : String) :
    (∀ settings nested,
      (convertLogged settings name nested rule).value = rule.convert settings name) ∧
    (∀ s t : Settings, rule.convert s "" = rule.convert t "") ∧
    (name ≠ "" → rule.convert ⟨.nest⟩ name = .named name (rule.convert ⟨.nest⟩ "")) ∧
    (name ≠ "" → rule.kind ≠ .map →
      rule.convert ⟨.flatten⟩ name = .named name (rule.convert ⟨.flatten⟩ "")) ∧
    (rule.kind = .map → rule.convert ⟨.flatten⟩ name = rule.convert ⟨.flatten⟩ "") ∧
    (rule.convert ⟨.nest⟩ name = .named name (rule.convert ⟨.flatten⟩ name) ↔
      rule.kind = .map ∧ name ≠ "") ∧
    (rule.convert ⟨.nest⟩ name = rule.convert ⟨.flatten⟩ name ↔
      ¬ (rule.kind = .map ∧ name ≠ "")) ∧
    (rule.Consistent → ∀ path inner, rule.at? path = some inner → ∀ s t : Settings,
      (rule.convert s "").at? path = some (inner.convert t "")) := by
  refine ⟨fun settings nested => value_convertLogged settings name nested rule,
    fun s t => convert_empty_eq s t rule, convert_nest_eq_named rule,
    fun hname hmap => convert_eq_named (fun h => hmap h.1) hname,
    fun hmap => convert_map_of_flatten rfl hmap name, ?_, ?_, ?_⟩
  · -- A token that is not wrapped is not the wrapped one either.
    rw [convert_nest]
    split
    · next h => exact iff_of_true rfl h
    · next h => exact iff_of_false (fun heq => Token.named_ne_self name _ heq.symm) h
  · rw [convert_nest]
    split
    · next h => exact iff_of_false (Token.named_ne_self name _) (not_not_intro h)
    · next h => exact iff_of_true rfl h
  · intro hconsistent path inner hinner s t
    rw [at?_convert s hconsistent hinner, convert_empty_eq s t]

/-- A map in a list in a map. -/
def layeredRule : Rule :=
  .map (.ofList [("steps", .list [.map (.ofList [("ink", .boolean true)])])])

/-- The outer map is wrapped in its name or not, and the inner map is not in either case. -/
theorem convert_naming_layeredRule :
    layeredRule.convert ⟨.nest⟩ "theme" = .named "theme" (layeredRule.convert ⟨.flatten⟩ "theme") ∧
    layeredRule.convert ⟨.nest⟩ "theme" = .named "theme" (layeredRule.convert ⟨.nest⟩ "") ∧
    layeredRule.convert ⟨.flatten⟩ "theme" = layeredRule.convert ⟨.flatten⟩ "" ∧
    (list [layeredRule]).convert ⟨.flatten⟩ "themes" =
      .named "themes" ((list [layeredRule]).convert ⟨.flatten⟩ "") ∧
    (layeredRule.convert ⟨.nest⟩ "").at? [.name "steps", .position 0] =
      some (.mapping (.ofList [("ink", .ofBool true)])) := by
  obtain ⟨-, -, hnest, -, hflatten, hwrapped, -, hinside⟩ := convert_naming layeredRule "theme"
  obtain ⟨-, -, -, hlist, -⟩ := convert_naming (list [layeredRule]) "themes"
  have hconsistent : layeredRule.Consistent := by
    refine consistent_map_ofList fun entry hentry => ?_
    rw [List.mem_singleton.mp hentry, consistent_list_iff]
    intro item hitem
    rw [List.mem_singleton.mp hitem]
    refine consistent_map_ofList fun entry hentry => ?_
    rw [List.mem_singleton.mp hentry]
    trivial
  have hinner := hinside hconsistent [.name "steps", .position 0] _ rfl ⟨.nest⟩ ⟨.flatten⟩
  exact ⟨hwrapped.mpr ⟨rfl, by decide⟩, hnest (by decide), hflatten rfl,
    hlist (by decide) (by decide), hinner.trans rfl⟩

end Rule

end DesignTokens

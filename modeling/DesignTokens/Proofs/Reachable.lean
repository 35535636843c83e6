import DesignTokens.Proofs.Conversion.Consistent
import DesignTokens.Proofs.Token.Edit
import DesignTokens.Proofs.Token.Preorder

/-!
# What can be reached

Rules and tokens come from documents, from constructors, from conversion and from edits in place, and
each of these may be given what another one made. However they are combined, every map at every depth
has an index that agrees with its entries.

* `Rule.Reachable`, `Token.Reachable`: the rules and tokens that can be reached.
* `Rule.reachable_iff_consistent`, `Token.reachable_iff_consistent`: they are the consistent ones.
* `Rule.consistent_iff_preorder`, `Token.consistent_iff_preorder`: consistency in terms of the maps
  at all depths.
* `reachable_accessible`: no access through an index fails in anything that can be reached.
-/

namespace DesignTokens

mutual

/-- The rules that can be reached: rules that were read, what the constructors and the operations on
maps make of rules and channels that can be reached, and the parts of such rules. -/
inductive Rule.Reachable : Rule → Prop
  | read {json : Json} {rule : Rule} (hread : Rule.ofJson json = .ok rule) : rule.Reachable
  -- The constructors of the six kinds.
  | string (value : String) : (Rule.string value).Reachable
  | number (value : Binary64) (unit : Option String) : (Rule.number value unit).Reachable
  | boolean (value : Bool) : (Rule.boolean value).Reachable
  | list {items : List Rule} (hitems : ∀ item ∈ items, item.Reachable) :
      (Rule.list items).Reachable
  -- A map is created empty and written child by child, or collected from a list of children.
  | create (capacity : Nat) : (Rule.map (.emptyWithCapacity capacity)).Reachable
  | insert {children : OrderedMap Rule} {child : Rule} (hchildren : (Rule.map children).Reachable)
      (name : String) (hchild : child.Reachable) : (Rule.map (children.insert name child)).Reachable
  | collect {children : List (String × Rule)} (hchildren : ∀ child ∈ children, child.2.Reachable) :
      (Rule.map (.ofList children)).Reachable
  -- Channels are tokens, and so may have been converted and edited themselves.
  | color {channels : Mapping} (hchannels : (Token.mapping channels).Reachable) :
      (Rule.color channels).Reachable
  | part {rule child : Rule} {step : PathStep} (hrule : rule.Reachable)
      (hchild : rule.step? step = some child) : child.Reachable

/-- The tokens that can be reached: tokens that were read or converted from a rule, the roots of
sheets, what the operations on mappings make of tokens that can be reached, the parts of such tokens,
the channels of colours, and whatever an edit in place leaves. -/
inductive Token.Reachable : Token → Prop
  | read (json : Json) : (Token.ofJson json).Reachable
  | scalar (value : Scalar) : (Token.scalar value).Reachable
  | sequence {items : List Token} (hitems : ∀ item ∈ items, item.Reachable) :
      (Token.sequence items).Reachable
  -- What writes mappings.
  | create (capacity : Nat) : (Token.mapping (.emptyWithCapacity capacity)).Reachable
  | extend {entries : Mapping} {more : List (String × Token)}
      (hentries : (Token.mapping entries).Reachable) (hmore : ∀ entry ∈ more, entry.2.Reachable) :
      (Token.mapping (entries.insertMany more)).Reachable
  | merge {entries other : Mapping} (hentries : (Token.mapping entries).Reachable)
      (hother : (Token.mapping other).Reachable) : (Token.mapping (entries.merge other)).Reachable
  | named {token : Token} (name : String) (htoken : token.Reachable) :
      (Token.named name token).Reachable
  -- What is taken out of a token or of a colour.
  | part {token child : Token} {step : PathStep} (htoken : token.Reachable)
      (hchild : token.step? step = some child) : child.Reachable
  | channels {channels : Mapping} (hcolor : (Rule.color channels).Reachable) :
      (Token.mapping channels).Reachable
  -- What conversion gives, for one rule and for sheets of any rules.
  | converted {rule : Rule} (settings : Settings) (name : String) (nested : Bool)
      (hrule : rule.Reachable) : (rule.convertLogged settings name nested).value.Reachable
  | root {settings : Settings} {sheet : Sheet} {root : Mapping}
      (hsheet : ∀ entry ∈ sheet, entry.rule.Reachable)
      (hroot : (Sheet.convert settings sheet).value = .ok root) : (Token.mapping root).Reachable
  | scheduledRoot {settings : Settings} {sheet : Sheet} {schedule : Sheet.Schedule sheet}
      {root : Mapping} (hsheet : ∀ entry ∈ sheet, entry.rule.Reachable)
      (hroot : (Sheet.convertScheduled settings sheet schedule).value = .ok root) :
      (Token.mapping root).Reachable
  | documentRoot {settings : Settings} {json : Json} {root : Mapping}
      (hroot : (Sheet.convertJson settings json).value = .ok root) : (Token.mapping root).Reachable
  -- What an edit leaves, which may put down any token that can be reached.
  | edited {token changed : Token} {edit : Token.Edit} (htoken : token.Reachable)
      (hvalue : edit.value.Reachable) (hedit : edit.run? token = some changed) : changed.Reachable

end

/-! ## Everything that can be reached is consistent -/

-- Colours hold tokens and tokens come from rules, so the two inductions are one.
mutual

/-- A rule that can be reached is consistent. -/
theorem Rule.Reachable.consistent {rule : Rule} (h : rule.Reachable) : rule.Consistent :=
  match h with
  | .read hread => Rule.consistent_of_ofJson hread
  | .string _ => trivial
  | .number _ _ => trivial
  | .boolean _ => trivial
  | .list hitems =>
    Rule.consistent_list_iff.mpr fun item hitem => (hitems item hitem).consistent
  | .create capacity => Rule.consistent_map_empty capacity
  | .insert hchildren name hchild =>
    Rule.Consistent.insert hchildren.consistent name hchild.consistent
  | .collect hchildren =>
    Rule.consistent_map_ofList fun child hchild => (hchildren child hchild).consistent
  | .color hchannels => Rule.consistent_color_iff.mpr hchannels.consistent
  | .part hrule hchild => hrule.consistent.of_step? hchild

/-- A token that can be reached is consistent. -/
theorem Token.Reachable.consistent {token : Token} (h : token.Reachable) : token.Consistent :=
  match h with
  | .read json => (Token.buildable_ofJson json).consistent
  | .scalar value => Token.consistent_scalar value
  | .sequence hitems =>
    Token.consistent_sequence_iff.mpr fun item hitem => (hitems item hitem).consistent
  | .create capacity => Token.consistent_mapping_empty capacity
  | .extend hentries hmore =>
    hentries.consistent.insertMany fun entry hentry => (hmore entry hentry).consistent
  | .merge hentries hother =>
    hentries.consistent.insertMany (Token.consistent_mapping_iff.mp hother.consistent).2
  | .named name htoken => htoken.consistent.named name
  | .part htoken hchild => htoken.consistent.of_step? hchild
  | .channels hcolor => Rule.consistent_color_iff.mp hcolor.consistent
  | .converted settings name nested hrule => by
    rw [Rule.value_convertLogged]
    exact hrule.consistent.convert settings name
  | .root hsheet hroot =>
    Sheet.consistent_of_convert (fun entry hentry => (hsheet entry hentry).consistent) hroot
  | .scheduledRoot hsheet hroot =>
    Sheet.consistent_of_convertScheduled (fun entry hentry => (hsheet entry hentry).consistent) hroot
  | .documentRoot hroot => Sheet.consistent_of_convertJson hroot
  | .edited htoken hvalue hedit =>
    Token.Edit.consistent_of_run? htoken.consistent hvalue.consistent hedit

end

/-! ## Everything that is consistent can be reached -/

/-- A token can be reached exactly when every mapping in it is consistent. -/
theorem Token.reachable_iff_consistent {token : Token} : token.Reachable ↔ token.Consistent := by
  refine ⟨Reachable.consistent, fun h => ?_⟩
  refine Consistent.induction Reachable.scalar ?sequence ?mapping h
  case sequence => exact fun _ ih => .sequence ih
  case mapping =>
    intro entries ih
    have hempty : (mapping (.emptyWithCapacity 0)).Reachable := .create 0
    exact hempty.extend ih

/-- A rule can be reached exactly when every map in it is consistent. -/
theorem Rule.reachable_iff_consistent {rule : Rule} : rule.Reachable ↔ rule.Consistent := by
  refine ⟨Reachable.consistent, fun h => ?_⟩
  induction rule with
  | string value => exact .string value
  | number value unit => exact .number value unit
  | list items ih =>
    rw [consistent_list_iff] at h
    exact .list fun item hitem => ih item hitem (h item hitem)
  | map children ih =>
    obtain ⟨hchildren, hrules⟩ := consistent_map_iff.mp h
    have hbuilt := Reachable.collect fun child hchild => ih child hchild (hrules child hchild)
    rwa [hchildren.ofList_toList] at hbuilt
  | color channels =>
    exact .color (Token.reachable_iff_consistent.mpr (consistent_color_iff.mp h))
  | boolean value => exact .boolean value

/-- Edits that write tokens that can be reached lead from such a token to another one. -/
theorem Token.Reachable.runAll {token : Token} (h : token.Reachable) {edits : List Edit}
    (hvalues : ∀ edit ∈ edits, edit.value.Reachable) : (Edit.runAll edits token).Reachable :=
  reachable_iff_consistent.mpr
    (Edit.consistent_runAll h.consistent fun edit hedit => (hvalues edit hedit).consistent)

/-- So does writing an entry into the mapping at a path of names. -/
theorem Token.Reachable.insertAt? {token changed value : Token} (h : token.Reachable)
    (hvalue : value.Reachable) {path : List String} {key : String} {replaced : Option Token}
    (hinsert : token.insertAt? path key value = some (replaced, changed)) : changed.Reachable := by
  have hrun := insertAt?_eq_run? token path key value
  rw [hinsert, Option.map_some] at hrun
  have hwritten : (path.foldr Edit.within (.insert key value)).value.Reachable := by
    rw [Edit.value_foldr_within]
    exact hvalue
  exact .edited h hwritten hrun.symm

/-! ## The maps at all depths -/

namespace Token

/-- A token is consistent exactly when every mapping in it, at any depth, is. -/
theorem consistent_iff_preorder {token : Token} :
    token.Consistent ↔
      ∀ entries : Mapping, mapping entries ∈ token.preorder → entries.Consistent := by
  induction token with
  | scalar value => simp [consistent_scalar, preorder]
  | sequence items ih =>
    simp only [consistent_sequence_iff, preorder_sequence, List.mem_cons, List.mem_flatMap,
      reduceCtorEq, false_or]
    constructor
    · rintro h entries ⟨item, hitem, hmem⟩
      exact (ih item hitem).mp (h item hitem) entries hmem
    · intro h item hitem
      exact (ih item hitem).mpr fun entries hmem => h entries ⟨item, hitem, hmem⟩
  | mapping entries ih =>
    rw [consistent_mapping_iff, preorder_mapping]
    constructor
    · -- A mapping in the token is the token itself, or in the token of one of its entries.
      rintro ⟨hentries, htokens⟩ inner hinner
      rcases List.mem_cons.mp hinner with heq | hmem
      · rw [mapping.inj heq]
        exact hentries
      · obtain ⟨entry, hentry, hmem⟩ := List.mem_flatMap.mp hmem
        exact (ih entry hentry).mp (htokens entry hentry) inner hmem
    · intro h
      refine ⟨h entries List.mem_cons_self, fun entry hentry => (ih entry hentry).mpr ?_⟩
      intro inner hmem
      exact h inner (List.mem_cons_of_mem _ (List.mem_flatMap.mpr ⟨entry, hentry, hmem⟩))

end Token

/-- A rule is consistent exactly when every map in it and every mapping in its colours, at any depth,
is. -/
theorem Rule.consistent_iff_preorder {rule : Rule} :
    rule.Consistent ↔
      (∀ children, map children ∈ rule.preorder → children.Consistent) ∧
      ∀ channels, color channels ∈ rule.preorder → (Token.mapping channels).Consistent := by
  induction rule with
  | list items ih =>
    simp only [consistent_list_iff, preorder_list, List.mem_cons, List.mem_flatMap, reduceCtorEq,
      false_or]
    constructor
    · intro h
      exact ⟨fun children ⟨item, hitem, hmem⟩ => ((ih item hitem).mp (h item hitem)).1 children hmem,
        fun channels ⟨item, hitem, hmem⟩ => ((ih item hitem).mp (h item hitem)).2 channels hmem⟩
    · rintro ⟨hmaps, hcolors⟩ item hitem
      exact (ih item hitem).mpr ⟨fun children hmem => hmaps children ⟨item, hitem, hmem⟩,
        fun channels hmem => hcolors channels ⟨item, hitem, hmem⟩⟩
  | map children ih =>
    simp only [consistent_map_iff, preorder_map, List.mem_cons, List.mem_flatMap, map.injEq,
      reduceCtorEq, false_or]
    constructor
    · rintro ⟨hchildren, hrules⟩
      refine ⟨?_, fun channels ⟨child, hchild, hmem⟩ =>
        ((ih child hchild).mp (hrules child hchild)).2 channels hmem⟩
      rintro inner (rfl | ⟨child, hchild, hmem⟩)
      · exact hchildren
      · exact ((ih child hchild).mp (hrules child hchild)).1 inner hmem
    · rintro ⟨hmaps, hcolors⟩
      exact ⟨hmaps children (.inl rfl), fun child hchild => (ih child hchild).mpr
        ⟨fun inner hmem => hmaps inner (.inr ⟨child, hchild, hmem⟩),
          fun channels hmem => hcolors channels ⟨child, hchild, hmem⟩⟩⟩
  | color channels => simp [consistent_color_iff, preorder]
  | _ => simp [Consistent, preorder]

/-! ## Accesses -/

/-- In every rule and every token that can be reached, at any depth and in the channels of colours
too, each map has distinct keys and an index that sends a key to a position exactly when the entry
there has it, so that no look-up, no replacement and no insertion goes to a position without an
entry. Edits in place, in any number, lead to such tokens again, and so does writing at a path. -/
theorem reachable_accessible :
    (∀ rule : Rule, rule.Reachable →
      (∀ children, .map children ∈ rule.preorder → children.Accessible) ∧
      ∀ channels, .color channels ∈ rule.preorder →
        ∀ entries : Mapping, .mapping entries ∈ (Token.mapping channels).preorder →
          entries.Accessible) ∧
    (∀ token : Token, token.Reachable →
      ∀ entries : Mapping, .mapping entries ∈ token.preorder → entries.Accessible) ∧
    (∀ token : Token, token.Reachable → ∀ edits : List Token.Edit,
      (∀ edit ∈ edits, edit.value.Reachable) → (Token.Edit.runAll edits token).Reachable) ∧
    (∀ token value : Token, token.Reachable → value.Reachable → ∀ path key replaced changed,
      token.insertAt? path key value = some (replaced, changed) → changed.Reachable) ∧
    (∀ rule : Rule, rule.Reachable ↔ rule.Consistent) ∧
    ∀ token : Token, token.Reachable ↔ token.Consistent := by
  refine ⟨fun rule hrule => ?_, fun token htoken entries hentries => ?_,
    fun token htoken edits hvalues => htoken.runAll hvalues,
    fun token value htoken hvalue path key replaced changed hinsert =>
      htoken.insertAt? hvalue hinsert,
    fun rule => Rule.reachable_iff_consistent, fun token => Token.reachable_iff_consistent⟩
  · obtain ⟨hmaps, hcolors⟩ := Rule.consistent_iff_preorder.mp hrule.consistent
    refine ⟨fun children hchildren => OrderedMap.accessible_iff_consistent.mpr
      (hmaps children hchildren), fun channels hchannels entries hentries => ?_⟩
    have hinner := Token.consistent_iff_preorder.mp (hcolors channels hchannels) entries hentries
    exact OrderedMap.accessible_iff_consistent.mpr hinner
  · have hinner := Token.consistent_iff_preorder.mp htoken.consistent entries hentries
    exact OrderedMap.accessible_iff_consistent.mpr hinner

/-- The channels of a colour. -/
def inkChannels : Mapping :=
  .ofList [("r", .scalar .null)]

/-- A colour in a list in a map. -/
def inkRule : Rule :=
  .map (.ofList [("inks", .list [.color inkChannels])])

/-- Writes an entry two mappings down, and then puts a mapping in the place of its value. The last
edit leads nowhere. -/
def inkEdits : List Token.Edit :=
  [.within "theme" (.insert "lines" (.sequence [])),
    .within "theme" (.within "lines" (.assign (.named "width" (.scalar .null)))),
    .within "themes" (.insert "lines" (.scalar .null))]

/-- The mapping that an edit put in place of a sequence is accessible, as are the channels that were
copied from the rule, and those in the rule. -/
theorem reachable_accessible_inkRule :
    Token.Edit.runAll inkEdits (inkRule.convert ⟨.nest⟩ "theme") =
      .named "theme" (.mapping (.ofList [("inks", .sequence [.mapping inkChannels]),
        ("lines", .named "width" (.scalar .null))])) ∧
    (OrderedMap.singleton "width" (Token.scalar .null)).Accessible ∧
    inkChannels.Accessible ∧
    (OrderedMap.ofList [("inks", Rule.list [.color inkChannels])]).Accessible := by
  obtain ⟨hrules, htokens, hedits, -⟩ := reachable_accessible
  have hchannels : (Token.mapping inkChannels).Reachable :=
    (Token.Reachable.create 0).extend (List.forall_mem_singleton.mpr (.scalar .null))
  have hcolor : ∀ item ∈ [Rule.color inkChannels], item.Reachable :=
    List.forall_mem_singleton.mpr (.color hchannels)
  have hrule : inkRule.Reachable := .collect (List.forall_mem_singleton.mpr (.list hcolor))
  have hconverted := Token.Reachable.converted ⟨.nest⟩ "theme" false hrule
  have hvalues : ∀ edit ∈ inkEdits, edit.value.Reachable := by
    intro edit hedit
    rcases List.mem_cons.mp hedit with rfl | hedit
    · exact .sequence fun _ hitem => nomatch hitem
    · rcases List.mem_pair.mp hedit with rfl | rfl
      · exact .named "width" (.scalar .null)
      · exact .scalar .null
  have heq : Token.Edit.runAll inkEdits (inkRule.convert ⟨.nest⟩ "theme") =
      .named "theme" (.mapping (.ofList [("inks", .sequence [.mapping inkChannels]),
        ("lines", .named "width" (.scalar .null))])) := rfl
  have hedited := htokens _ (heq ▸ hedits _ hconverted inkEdits hvalues)
  refine ⟨heq, hedited _ ?_, ?_, ?_⟩
  · exact .tail _ (.tail _ (.tail _ (.tail _ (.tail _ (.head _)))))
  · exact (hrules inkRule hrule).2 inkChannels (.tail _ (.tail _ (.head _))) _ (.head _)
  · exact (hrules inkRule hrule).1 _ (.head _)

end DesignTokens

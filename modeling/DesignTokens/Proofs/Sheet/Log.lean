import DesignTokens.Proofs.Rule.Tree
import DesignTokens.Proofs.Sheet.Schedule

/-!
# What conversion writes into the log

Conversion leaves one record for each rule, and in the order in which the rules stand: a rule before
those inside it. Settings do not show in the records, and of the rules only the kinds do.

* `Rule.trace`: the records of a rule, read off its preorder.
* `Rule.log_convertLogged`: these are the records that converting the rule writes.
* `Sheet.log_convert_of_mergeable`, `Sheet.log_convert_of_not_mergeable`: the records of a sheet
  that has a root, and of one that has none.
* `Sheet.log_eq_preorder`: all of this, and what settings and the mark of a nested rule change.
-/

namespace DesignTokens

namespace Rule

/-- The record of a rule inside another one, which has no name of its own. -/
def nestedRecord (rule : Rule) : Record :=
  .converting rule.kind "" true

/-- The records of a rule: its own, with the name and the mark it is given, and those of the rules
inside it, in preorder. -/
def trace (name : String) (nested : Bool) (rule : Rule) : List Record :=
  .converting rule.kind name nested :: rule.preorder.tail.map nestedRecord

/-- The preorder of a rule begins with the rule. -/
theorem preorder_eq_cons (rule : Rule) : rule.preorder = rule :: rule.preorder.tail := by
  cases rule with
  | list items => rw [preorder_list, List.tail_cons]
  | map children => rw [preorder_map, List.tail_cons]
  | _ => rfl

/-- Inside another rule, every rule of the preorder has the same record. -/
theorem trace_nested (rule : Rule) : rule.trace "" true = rule.preorder.map nestedRecord := by
  rw [preorder_eq_cons rule, List.map_cons]
  rfl

variable (settings : Settings)

/-- The items of a list write their records one after the other. -/
theorem log_convertItems (items : List Rule) :
    (convertItems settings items).log =
      items.flatMap fun item => (convertLogged settings "" true item).log := by
  induction items with
  | nil => rfl
  | cons item items ih =>
    rw [convertItems, Logged.log_bind, Logged.log_bind, Logged.log_pure, List.append_nil, ih,
      List.flatMap_cons]

/-- So do the children of a map, whatever their tokens are written into. -/
theorem log_convertChildren (entries : Mapping) (children : List (String × Rule)) :
    (convertChildren settings entries children).log =
      children.flatMap fun child => (convertLogged settings "" true child.2).log := by
  induction children generalizing entries with
  | nil => rfl
  | cons child children ih =>
    rw [convertChildren, Logged.log_bind, ih, List.flatMap_cons]

/-- Converting a rule writes its records. -/
theorem log_convertLogged (name : String) (nested : Bool) (rule : Rule) :
    (convertLogged settings name nested rule).log = rule.trace name nested := by
  -- What is inside has no name and is marked as nested, whatever the rule itself is given.
  induction rule generalizing name nested with
  | list items ih =>
    have hitems : (convertItems settings items).log =
        (items.flatMap preorder).map nestedRecord := by
      rw [log_convertItems, List.map_flatMap]
      exact List.flatMap_congr fun item hitem => (ih item hitem "" true).trans (trace_nested item)
    simp [convertLogged, trace, preorder_list, hitems]
  | map children ih =>
    obtain ⟨⟨children⟩, slots⟩ := children
    have hchildren : (convertChildren settings ∅ children).log =
        (children.flatMap (·.2.preorder)).map nestedRecord := by
      rw [log_convertChildren, List.map_flatMap]
      exact List.flatMap_congr fun child hchild =>
        (ih child hchild "" true).trans (trace_nested child.2)
    -- The two ways to name the token differ only after the last record.
    cases hnaming : settings.mapNaming with
    | flatten => simp [convertLogged, trace, preorder_map, hnaming, hchildren, OrderedMap.toList]
    | nest => simp [convertLogged, trace, preorder_map, hnaming, hchildren, OrderedMap.toList]
  | _ => simp [convertLogged, trace, preorder]

end Rule

namespace Sheet

variable (settings : Settings)

/-- The records of a variable are those of its rule, under its name. -/
theorem records_eq_trace :
    Variable.records settings = fun entry => entry.rule.trace entry.name false := by
  funext entry
  exact Rule.log_convertLogged settings entry.name false entry.rule

/-- A sheet whose variables can all be merged writes the records of all of them, and that of the
merge. -/
theorem log_convert_of_mergeable {sheet : Sheet} (h : ∀ entry ∈ sheet, entry.Mergeable) :
    ∃ root, (convert settings sheet).value = .ok root ∧
      (convert settings sheet).log =
        (sheet.flatMap fun entry => entry.rule.trace entry.name false) ++
          [.merged sheet.length root.size] := by
  have hroot := value_convert_of_mergeable settings h
  refine ⟨_, hroot, ?_⟩
  rw [log_convert, hroot, reached_of_mergeable h, records_eq_trace]
  rfl

/-- A sheet with a variable that cannot be merged writes the records of those before it and its own,
and nothing more. -/
theorem log_convert_of_not_mergeable {before after : Sheet} {entry : Variable}
    (hbefore : ∀ earlier ∈ before, earlier.Mergeable) (hentry : ¬ entry.Mergeable) :
    (convert settings (before ++ entry :: after)).value = .error (.unmergeable before.length) ∧
      (convert settings (before ++ entry :: after)).log =
        (before.flatMap fun earlier => earlier.rule.trace earlier.name false) ++
          entry.rule.trace entry.name false := by
  have hfirst : FirstUnmergeable (before ++ entry :: after) before.length :=
    ⟨before, entry, after, rfl, rfl, hbefore, hentry⟩
  have herror := value_convert_of_firstUnmergeable settings hfirst
  refine ⟨herror, ?_⟩
  rw [log_convert, herror, reached_of_firstUnmergeable hfirst, List.take_length_add_append,
    records_eq_trace, List.flatMap_append]
  simp [recordMerge]

/-- Converting a rule writes one record for each rule in it, in preorder: the first with the kind of
the rule and the name and the mark it is given, and each other with the kind of its rule, no name
and the mark of a nested rule. So the records are the same under all settings, and another mark
changes the first record only, and not the token. A sheet writes the records of its variables in
their order: of all of them, and then one of the merge, with the numbers of variables and of
entries, if all can be merged; and else of those up to the first that cannot be merged, and nothing
more. -/
theorem log_eq_preorder (settings : Settings) :
    (∀ (rule : Rule) (name : String) (nested : Bool),
      rule.preorder = rule :: rule.preorder.tail ∧
      (rule.convertLogged settings name nested).log =
        .converting rule.kind name nested ::
          rule.preorder.tail.map (fun inner => .converting inner.kind "" true) ∧
      (∀ other : Settings, (rule.convertLogged other name nested).log =
        (rule.convertLogged settings name nested).log) ∧
      ∀ mark : Bool,
        (rule.convertLogged settings name mark).log.tail =
          (rule.convertLogged settings name nested).log.tail ∧
        (rule.convertLogged settings name mark).value =
          (rule.convertLogged settings name nested).value) ∧
    ∀ sheet : Sheet,
      ((∀ entry ∈ sheet, entry.Mergeable) →
        ∃ root, (convert settings sheet).value = .ok root ∧
          (convert settings sheet).log =
            (sheet.flatMap fun entry => entry.rule.trace entry.name false) ++
              [.merged sheet.length root.size]) ∧
      ∀ before entry after, sheet = before ++ entry :: after →
        (∀ earlier ∈ before, earlier.Mergeable) → ¬ entry.Mergeable →
          (convert settings sheet).value = .error (.unmergeable before.length) ∧
          (convert settings sheet).log =
            (before.flatMap fun earlier => earlier.rule.trace earlier.name false) ++
              entry.rule.trace entry.name false := by
  refine ⟨fun rule name nested => ⟨rule.preorder_eq_cons, ?_, fun other => ?_, fun mark => ⟨?_, ?_⟩⟩,
    fun sheet => ⟨log_convert_of_mergeable settings, ?_⟩⟩
  · exact Rule.log_convertLogged settings name nested rule
  · rw [Rule.log_convertLogged, Rule.log_convertLogged]
  · rw [Rule.log_convertLogged, Rule.log_convertLogged]
    rfl
  · rw [Rule.value_convertLogged, Rule.value_convertLogged]
  · rintro before entry after rfl hbefore hentry
    exact log_convert_of_not_mergeable settings hbefore hentry

/-- A map with a colour and a list in it, a boolean, and a string without a name. -/
def loggedSheet : Sheet :=
  [⟨"theme", .map (.ofList [("ink", .color (.ofList [("r", .scalar .null)])),
      ("gaps", .list [.string "1px", .string "2px"])])⟩,
    ⟨"dark", .boolean true⟩, ⟨"", .string "lost"⟩]

/-- The channels of the colour leave no record. The variable that cannot be merged does, but not the
merge; without that variable there is a record of the merge, and nothing else changes. -/
theorem log_eq_preorder_loggedSheet :
    (convert ⟨.nest⟩ loggedSheet).value = .error (.unmergeable 2) ∧
    (convert ⟨.nest⟩ loggedSheet).log =
      [.converting .map "theme" false, .converting .color "" true, .converting .list "" true,
        .converting .string "" true, .converting .string "" true,
        .converting .boolean "dark" false, .converting .string "" false] ∧
    ∃ root, (convert ⟨.nest⟩ (loggedSheet.take 2)).value = .ok root ∧
      (convert ⟨.nest⟩ (loggedSheet.take 2)).log =
        [.converting .map "theme" false, .converting .color "" true, .converting .list "" true,
          .converting .string "" true, .converting .string "" true,
          .converting .boolean "dark" false, .merged 2 root.size] := by
  obtain ⟨-, hsheet⟩ := log_eq_preorder ⟨.nest⟩
  obtain ⟨hvalue, hlog⟩ := (hsheet loggedSheet).2 (loggedSheet.take 2) ⟨"", .string "lost"⟩ [] rfl
    (by decide) (by decide)
  exact ⟨hvalue, hlog.trans rfl, (hsheet (loggedSheet.take 2)).1 (by decide)⟩

end Sheet

end DesignTokens

import DesignTokens.Proofs.Conversion.Equality
import DesignTokens.Proofs.Sheet.Schedule
import DesignTokens.Proofs.Token.Session

/-!
# Equal sheets, equal roots

Equality of rules, of tokens and of mappings is kept by all that is done with them. What is equal
need not be the same: it may differ in the signs of zeros, and mappings in how they came to be.

* `Variable.beq_iff`: equality of variables.
* `Sheet.OutcomesAgree`: equal roots, or the same variable that cannot be merged.
* `Sheet.outcomesAgree_mergeFragments`, `Sheet.outcomesAgree_convert`: equal fragments are merged to
  equal outcomes, and so equal sheets have equal outcomes.
* `beq_respected`: conversion, sheets and the operations on mappings together.
-/

namespace DesignTokens

/-- Variables are equal when they have the same name and equal rules. -/
theorem Variable.beq_iff {a b : Variable} : a == b ↔ a.name = b.name ∧ a.rule == b.rule := by
  show (a.name == b.name && a.rule == b.rule) = true ↔ _
  simp

namespace Sheet

/-- Both outcomes are roots, and the roots are equal, or both are errors that tell the same variable
that cannot be merged. -/
def OutcomesAgree (first second : Except Error Mapping) : Prop :=
  (∃ root other, first = .ok root ∧ second = .ok other ∧ root == other) ∨
    ∃ index, first = .error (.unmergeable index) ∧ second = .error (.unmergeable index)

/-- Equal fragments, merged into equal roots, come to outcomes that agree. -/
theorem outcomesAgree_mergeFragments {root other : Mapping} (hroot : root.Consistent)
    (hother : other.Consistent) (h : root == other) (index : Nat) {fragments others : List Token}
    (hfragments : List.Forall₂ (fun t u => t == u) fragments others) :
    OutcomesAgree (mergeFragments root index fragments) (mergeFragments other index others) := by
  induction hfragments generalizing root other index with
  | nil => exact .inl ⟨root, other, rfl, rfl, h⟩
  | @cons t u fragments others htu _ ih =>
    cases t with
    | mapping entries =>
      cases u with
      | mapping entries' =>
        -- The roots stay consistent, so that writes of equal values keep them equal.
        rw [Token.mapping_beq] at htu
        exact ih (hroot.merge entries) (hother.merge entries') (hroot.beq_merge hother h htu) _
      | scalar | sequence => exact nomatch htu
    | scalar | sequence =>
      cases u with
      | mapping => exact nomatch htu
      | scalar | sequence => exact .inr ⟨index, rfl, rfl⟩

variable (settings : Settings)

/-- Equal sheets have equal fragments. -/
theorem fragments_beq {xs ys : Sheet} (h : xs == ys) :
    List.Forall₂ (fun t u => t == u) (xs.map (Variable.fragment settings))
      (ys.map (Variable.fragment settings)) := by
  rw [list_beq_iff] at h
  rw [List.forall₂_map_left_iff, List.forall₂_map_right_iff]
  refine h.imp fun a b hab => ?_
  obtain ⟨hname, hrule⟩ := Variable.beq_iff.mp hab
  rw [Variable.fragment, Variable.fragment, hname]
  exact Rule.convert_beq settings hrule b.name

/-- Equal sheets come to outcomes that agree. -/
theorem outcomesAgree_convert {xs ys : Sheet} (h : xs == ys) :
    OutcomesAgree (convert settings xs).value (convert settings ys).value := by
  have hempty : (∅ : Mapping) == ∅ := OrderedMap.beq_iff.mpr .nil
  rw [value_convert, value_convert, value_mergeInto_eq, value_mergeInto_eq]
  exact outcomesAgree_mergeFragments OrderedMap.consistent_empty OrderedMap.consistent_empty hempty
    0 (fragments_beq settings h)

end Sheet

/-- Equality is respected throughout. Equal rules have equal tokens, under every name and with all
settings, and where there is no colour in them even the same token, with the same text. Equal sheets
have equal roots, or fail at the same variable. Mappings that two sessions have come to, and that are
equal, have equal values at every key, and stay equal when equal values are written to one key or
equal mappings are merged into them. -/
theorem beq_respected :
    (∀ (settings : Settings) (name : String) (nested : Bool) (a b : Rule), a == b →
      (a.convertLogged settings name nested).value ==
        (b.convertLogged settings name nested).value ∧
      ((∀ channels, .color channels ∉ a.preorder) →
        (a.convertLogged settings name nested).value =
          (b.convertLogged settings name nested).value ∧
        (a.convertLogged settings name nested).value.compact =
          (b.convertLogged settings name nested).value.compact)) ∧
    (∀ (settings : Settings) (xs ys : Sheet), xs == ys →
      Sheet.OutcomesAgree (Sheet.convert settings xs).value (Sheet.convert settings ys).value) ∧
    ∀ (steps steps' : List (String × Mapping.Step)) (register register' : String) (a b : Mapping),
      a = Mapping.Registers.initial.after steps register →
      b = Mapping.Registers.initial.after steps' register' → a == b →
      (∀ key, a.get? key == b.get? key) ∧
      (∀ key v w, v == w → a.insert key v == b.insert key w ∧
        (a.getThenInsert? key v).1 == (b.getThenInsert? key w).1) ∧
      ∀ c d : Mapping, c == d → a.merge c == b.merge d := by
  refine ⟨fun settings name nested a b h => ?_,
    fun settings xs ys h => Sheet.outcomesAgree_convert settings h,
    fun steps steps' register register' a b ha hb h => ?_⟩
  · rw [Rule.value_convertLogged, Rule.value_convertLogged]
    refine ⟨Rule.convert_beq settings h name, fun hcolor => ?_⟩
    have hsame := Rule.convert_eq_of_beq settings h hcolor name
    exact ⟨hsame, congrArg Token.compact hsame⟩
  · -- Whatever the sessions did, the indexes of their mappings agree with the entries.
    have hconsistent (steps : List (String × Mapping.Step)) (register : String) :
        (Mapping.Registers.initial.after steps register).Consistent :=
      (Mapping.Registers.refines_initial.after steps).consistent register
    have hac : a.Consistent := ha ▸ hconsistent steps register
    have hbc : b.Consistent := hb ▸ hconsistent steps' register'
    exact ⟨hac.get?_beq hbc h,
      fun key v w hvw => ⟨hac.beq_insert hbc h key hvw, hac.getThenInsert?_beq hbc h key v w⟩,
      fun c d hcd => hac.beq_merge hbc h hcd⟩

/-- A zero of the given sign, as a token. -/
def zeroToken (negative : Bool) : Token :=
  .scalar (.number (.float (.zero negative)))

/-- A zero of the given sign, with a unit. -/
def zeroGap (negative : Bool) : Rule :=
  .number (.finite (.zero negative)) (some "px")

/-- A number and a colour, with zeros of the given sign in both. -/
def zeroTheme (negative : Bool) : Rule :=
  .map (.ofList [("gap", zeroGap negative), ("ink", .color (.ofList [("r", zeroToken negative)]))])

/-- Themes with zeros of different signs are equal, and remain so as tokens and in roots, although
these are not the same; the text of a number does not tell the zeros apart. The two mappings are
written in different ways. -/
theorem beq_respected_zeroTheme :
    zeroTheme true == zeroTheme false ∧
    (zeroTheme true).convert ⟨.nest⟩ "theme" == (zeroTheme false).convert ⟨.nest⟩ "theme" ∧
    (zeroGap true).convert ⟨.nest⟩ "gap" = (zeroGap false).convert ⟨.nest⟩ "gap" ∧
    Sheet.OutcomesAgree (Sheet.convert ⟨.flatten⟩ [⟨"theme", zeroTheme true⟩]).value
      (Sheet.convert ⟨.flatten⟩ [⟨"theme", zeroTheme false⟩]).value ∧
    (OrderedMap.singleton "r" (zeroToken true)).insert "g" (.ofText "0") ==
      (OrderedMap.singleton "r" (zeroToken false)).insert "g" (.ofText "0") := by
  obtain ⟨hrules, hsheets, hmaps⟩ := beq_respected
  have htheme : zeroTheme true == zeroTheme false := rfl
  have hsheet : ([⟨"theme", zeroTheme true⟩] : Sheet) == [⟨"theme", zeroTheme false⟩] := rfl
  have hgap : ∀ channels, .color channels ∉ (zeroGap true).preorder := by
    intro channels hmem
    exact nomatch List.mem_singleton.mp hmem
  -- One mapping is created with room for more, and in the other a first value is replaced.
  have hinsert := (hmaps [("m", .createWithCapacity 8), ("m", .insert "r" (zeroToken true))]
    [("n", .single "r" (.scalar .null)), ("n", .assign "r" (zeroToken false))] "m" "n"
    (.singleton "r" (zeroToken true)) (.singleton "r" (zeroToken false)) rfl rfl rfl).2.1
  exact ⟨htheme, (hrules ⟨.nest⟩ "theme" false _ _ htheme).1,
    ((hrules ⟨.nest⟩ "gap" false (zeroGap true) (zeroGap false) rfl).2 hgap).1,
    hsheets ⟨.flatten⟩ _ _ hsheet, (hinsert "g" (.ofText "0") (.ofText "0") rfl).1⟩

end DesignTokens

import DesignTokens.Proofs.Sheet.Root
import Mathlib.Data.List.Perm.Basic

/-!
# Schedules

The conversions of a sheet's variables may finish in any order: every fragment is put back into
the place of its variable before the first of them is merged.

* `Sheet.gather_eq_of_perm`: fragments that finished in any order are gathered in that of the sheet.
* `Sheet.value_mergeInto_eq`: converting and merging in turn comes to what merging all fragments
  does.
* `Sheet.log_mergeInto`: in turn, nothing is converted after the first variable that cannot be
  merged.
* `Sheet.convertScheduled_eq_convert`: every schedule comes to what conversion in turn does.
-/

namespace DesignTokens

/-! ## Traversals that write records -/

namespace Logged

variable {α β : Type}

/-- The values of a traversal are those of its steps. -/
theorem value_mapM (f : α → Logged β) (xs : List α) :
    (xs.mapM f).value = xs.map fun x => (f x).value := by
  induction xs with
  | nil => rfl
  | cons x xs ih => rw [List.mapM_cons, value_bind, value_bind, value_pure, ih, List.map_cons]

/-- A traversal writes what its steps write, in their order. -/
theorem log_mapM (f : α → Logged β) (xs : List α) :
    (xs.mapM f).log = xs.flatMap fun x => (f x).log := by
  induction xs with
  | nil => rfl
  | cons x xs ih =>
    rw [List.mapM_cons, log_bind, log_bind, log_pure, List.append_nil, ih, List.flatMap_cons]

end Logged

namespace Variable

/-- The token that a variable is converted to, under its name. -/
def fragment (settings : Settings) (entry : Variable) : Token :=
  entry.rule.convert settings entry.name

/-- The records that converting a variable writes. -/
def records (settings : Settings) (entry : Variable) : List Record :=
  (entry.rule.convertLogged settings entry.name false).log

end Variable

namespace Sheet

/-! ## Fragments in their places -/

/-- Sorting puts what is finished in the order of the positions. -/
theorem pairwise_mergeSort_position (finished : List (Nat × Token)) :
    (finished.mergeSort fun a b => a.1 ≤ b.1).Pairwise (fun a b => a.1 ≤ b.1) := by
  refine (List.pairwise_mergeSort ?_ ?_ finished).imp of_decide_eq_true
  · intro a b c hab hbc
    exact decide_eq_true ((of_decide_eq_true hab).trans (of_decide_eq_true hbc))
  · intro a b
    simpa using Nat.le_total a.1 b.1

/-- The fragments of a sheet stand in the order of their positions. -/
theorem pairwise_zipIdx_position (fragments : List Token) :
    (fragments.zipIdx.map Prod.swap).Pairwise (fun a b => a.1 ≤ b.1) := by
  have hpositions : (fragments.zipIdx.map Prod.swap).map Prod.fst =
      List.range' 0 fragments.length := by
    rw [List.map_map]
    exact List.zipIdx_map_snd 0 fragments
  exact List.pairwise_map.mp (hpositions ▸ List.pairwise_le_range' 1)

/-- Fragments that finished in any order are gathered in the order of their positions. -/
theorem gather_eq_of_perm {finished : List (Nat × Token)} {fragments : List Token}
    (h : finished.Perm (fragments.zipIdx.map Prod.swap)) : gather finished = fragments := by
  have hperm := (List.mergeSort_perm finished fun a b => a.1 ≤ b.1).trans h
  -- There is one fragment for each position, so sorting by position leaves no choice.
  have heq : (finished.mergeSort fun a b => a.1 ≤ b.1) = fragments.zipIdx.map Prod.swap := by
    refine hperm.eq_of_pairwise ?_ (pairwise_mergeSort_position finished)
      (pairwise_zipIdx_position fragments)
    intro a b ha hb hab hba
    obtain ⟨⟨token, slot⟩, hmem, rfl⟩ := List.mem_map.mp (hperm.mem_iff.mp ha)
    obtain ⟨⟨token', slot'⟩, hmem', rfl⟩ := List.mem_map.mp hb
    obtain rfl : slot = slot' := Nat.le_antisymm hab hba
    rw [List.mk_mem_zipIdx_iff_getElem?] at hmem hmem'
    rw [Option.some.inj (hmem.symm.trans hmem')]
  rw [gather, heq, List.map_map]
  exact List.zipIdx_map_fst 0 fragments

variable (settings : Settings)

/-- Whatever the schedule, the fragments are gathered in the order of the sheet. -/
theorem gather_schedule {sheet : Sheet} (schedule : Schedule sheet) :
    gather (schedule.order.map fun item => (item.2, item.1.fragment settings)) =
      sheet.map (Variable.fragment settings) := by
  apply gather_eq_of_perm
  rw [← List.map_zipIdx, List.map_map]
  exact schedule.perm.map _

/-- Converting and merging in turn comes to what merging all fragments does: neither reads more
than the fragments up to the first that is not a mapping. -/
theorem value_mergeInto_eq (root : Mapping) (index : Nat) (sheet : Sheet) :
    (mergeInto settings root index sheet).value =
      mergeFragments root index (sheet.map (Variable.fragment settings)) := by
  induction sheet generalizing root index with
  | nil => rfl
  | cons entry rest ih =>
    have hfragment : (entry.rule.convertLogged settings entry.name false).value =
        entry.fragment settings := Rule.value_convertLogged settings entry.name false entry.rule
    rw [mergeInto, Logged.value_bind, hfragment, List.map_cons]
    cases entry.fragment settings with
    | mapping entries => exact ih (root.merge entries) (index + 1)
    | scalar value => rfl
    | sequence items => rfl

/-! ## What is converted -/

/-- The variables that are converted in turn: all up to the first that cannot be merged, and that
one too. -/
def reached : Sheet → Sheet
  | [] => []
  | entry :: rest => entry :: if entry.Mergeable then reached rest else []

/-- If all variables can be merged, all are reached. -/
theorem reached_of_mergeable {sheet : Sheet} (h : ∀ entry ∈ sheet, entry.Mergeable) :
    reached sheet = sheet := by
  induction sheet with
  | nil => rfl
  | cons entry rest ih =>
    rw [reached, if_pos (h entry List.mem_cons_self),
      ih fun later hlater => h later (List.mem_cons_of_mem _ hlater)]

/-- Nothing after the first variable that cannot be merged is reached. -/
theorem reached_of_firstUnmergeable {sheet : Sheet} {index : Nat}
    (h : FirstUnmergeable sheet index) : reached sheet = sheet.take (index + 1) := by
  obtain ⟨before, entry, after, rfl, rfl, hbefore, hentry⟩ := h
  induction before with
  | nil => simp [reached, hentry]
  | cons first before ih =>
    have hrest := ih fun earlier hearlier => hbefore earlier (List.mem_cons_of_mem _ hearlier)
    rw [List.cons_append, reached, if_pos (hbefore first List.mem_cons_self), hrest,
      List.length_cons, List.take_succ_cons]

/-- Converting in turn writes the records of the variables that are reached. -/
theorem log_mergeInto (root : Mapping) (index : Nat) (sheet : Sheet) :
    (mergeInto settings root index sheet).log =
      (reached sheet).flatMap (Variable.records settings) := by
  induction sheet generalizing root index with
  | nil => rfl
  | cons entry rest ih =>
    rw [mergeInto, Logged.log_bind, reached, List.flatMap_cons, Rule.value_convertLogged]
    refine congrArg (Variable.records settings entry ++ ·) ?_
    by_cases h : entry.Mergeable
    · obtain ⟨entries, hconvert, -⟩ := Variable.exists_mapping_of_mergeable settings h
      rw [if_pos h, hconvert]
      exact ih (root.merge entries) (index + 1)
    · rw [if_neg h]
      split
      · next entries hconvert =>
        exact absurd hconvert (Variable.ne_mapping_of_not_mergeable settings h entries)
      · rfl

/-! ## Schedules -/

/-- On a schedule, the fragments are merged in the order of the sheet. -/
theorem value_convertScheduled {sheet : Sheet} (schedule : Schedule sheet) :
    (convertScheduled settings sheet schedule).value =
      mergeFragments ∅ 0 (sheet.map (Variable.fragment settings)) := by
  rw [convertScheduled, Logged.value_bind, value_recordMerge, OrderedMap.emptyWithCapacity_eq,
    Logged.value_mapM, ← gather_schedule settings schedule]
  rfl

/-- On a schedule, all variables are converted before any fragment is merged. -/
theorem log_convertScheduled {sheet : Sheet} (schedule : Schedule sheet) :
    (convertScheduled settings sheet schedule).log =
      schedule.order.flatMap (fun item => item.1.records settings) ++
        (recordMerge sheet (convertScheduled settings sheet schedule).value).log := by
  have hrecords : ∀ item ∈ schedule.order,
      (do return (item.2, ← item.1.rule.convertLogged settings item.1.name false) :
        Logged (Nat × Token)).log = item.1.records settings := by
    intro item _
    rw [Logged.log_bind, Logged.log_pure, List.append_nil]
    rfl
  rw [convertScheduled, Logged.log_bind, Logged.log_mapM, Logged.value_bind, value_recordMerge,
    List.flatMap_congr hrecords]

/-- Conversion in turn writes the records of the variables that are reached, and that of the merge
if there is a root. -/
theorem log_convert (sheet : Sheet) :
    (convert settings sheet).log =
      (reached sheet).flatMap (Variable.records settings) ++
        (recordMerge sheet (convert settings sheet).value).log := by
  rw [convert, Logged.log_bind, Logged.value_bind, value_recordMerge, log_mergeInto]

/-- Every schedule comes to what conversion in turn does: the same root, with the same entries in
the same order, or the same error. If some variables cannot be merged, the error tells the first of
them, although on a schedule all variables are converted and in turn none after that one. -/
theorem convertScheduled_eq_convert (sheet : Sheet) (schedule : Schedule sheet) :
    (convertScheduled settings sheet schedule).value = (convert settings sheet).value ∧
    ∀ index, FirstUnmergeable sheet index →
      (convertScheduled settings sheet schedule).value = .error (.unmergeable index) ∧
      (convertScheduled settings sheet schedule).log =
        schedule.order.flatMap (fun item => item.1.records settings) ∧
      (convert settings sheet).log =
        (sheet.take (index + 1)).flatMap (Variable.records settings) := by
  have hvalue : (convertScheduled settings sheet schedule).value =
      (convert settings sheet).value := by
    rw [value_convertScheduled, value_convert, value_mergeInto_eq]
  refine ⟨hvalue, fun index h => ?_⟩
  have herror := value_convert_of_firstUnmergeable settings h
  refine ⟨hvalue.trans herror, ?_, ?_⟩
  · rw [log_convertScheduled, hvalue, herror]
    exact List.append_nil _
  · rw [log_convert, herror, reached_of_firstUnmergeable h]
    exact List.append_nil _

/-- Two variables write one key, and two have no name and are no mappings. -/
def crossedSheet : Sheet :=
  [⟨"gap", .string "1px"⟩, ⟨"", .list [.string "a"]⟩, ⟨"gap", .string "2px"⟩, ⟨"", .boolean true⟩]

/-- The last variable is finished first and cannot be merged, but the second is the one reported;
and in turn, the two after it are not converted. -/
theorem convertScheduled_eq_convert_crossedSheet :
    (convertScheduled ⟨.nest⟩ crossedSheet (.reversed crossedSheet)).value =
      .error (.unmergeable 1) ∧
    (convertScheduled ⟨.nest⟩ crossedSheet (.reversed crossedSheet)).log =
      [.converting .boolean "" false, .converting .string "gap" false, .converting .list "" false,
        .converting .string "" true, .converting .string "gap" false] ∧
    (convert ⟨.nest⟩ crossedSheet).log =
      [.converting .string "gap" false, .converting .list "" false, .converting .string "" true] := by
  have hfirst : FirstUnmergeable crossedSheet 1 :=
    ⟨[⟨"gap", .string "1px"⟩], ⟨"", .list [.string "a"]⟩,
      [⟨"gap", .string "2px"⟩, ⟨"", .boolean true⟩], rfl, rfl, by decide, by decide⟩
  exact (convertScheduled_eq_convert ⟨.nest⟩ crossedSheet (.reversed crossedSheet)).2 1 hfirst

end Sheet

end DesignTokens

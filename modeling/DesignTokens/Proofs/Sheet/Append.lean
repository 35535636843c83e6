import DesignTokens.Proofs.OrderedMap.Merge
import DesignTokens.Proofs.Sheet.Root

/-!
# Sheets in a row

A sheet can be cut anywhere: what its parts are converted to tells what the whole is converted to.

* `Sheet.FirstUnmergeable.append_right`, `Sheet.FirstUnmergeable.append_left`: the first variable
  that cannot be merged, in two sheets in a row.
* `Sheet.convert_append`: roots are merged as mappings are, and merging mappings is associative and
  idempotent, with the empty mapping as its unit.
-/

namespace DesignTokens.Sheet

open Token (ofText ofBool)

/-- What two sheets in a row contribute. -/
theorem contributions_append (settings : Settings) (first second : Sheet) :
    contributions settings (first ++ second) =
      contributions settings first ++ contributions settings second :=
  List.flatMap_append

/-- The first variable that cannot be merged stays the first, whatever comes after. -/
theorem FirstUnmergeable.append_right {sheet : Sheet} {index : Nat}
    (h : FirstUnmergeable sheet index) (rest : Sheet) : FirstUnmergeable (sheet ++ rest) index := by
  obtain ⟨before, entry, after, rfl, hlength, hbefore, hentry⟩ := h
  exact ⟨before, entry, after ++ rest, by simp, hlength, hbefore, hentry⟩

/-- The first variable that cannot be merged moves by the number of those put before it, if they
can be. -/
theorem FirstUnmergeable.append_left {sheet : Sheet} {index : Nat}
    (h : FirstUnmergeable sheet index) {first : Sheet} (hfirst : ∀ entry ∈ first, entry.Mergeable) :
    FirstUnmergeable (first ++ sheet) (first.length + index) := by
  obtain ⟨before, entry, after, rfl, rfl, hbefore, hentry⟩ := h
  refine ⟨first ++ before, entry, after, by simp, by simp, fun earlier hearlier => ?_, hentry⟩
  rcases List.mem_append.mp hearlier with hearlier | hearlier
  · exact hfirst earlier hearlier
  · exact hbefore earlier hearlier

variable (settings : Settings) {first second : Sheet}

/-- If the first sheet has no root, neither have both in a row, and for the same reason. -/
theorem convert_append_of_error {error : Error}
    (h : (convert settings first).value = .error error) (second : Sheet) :
    (convert settings (first ++ second)).value = .error error := by
  obtain ⟨index, hindex, rfl⟩ := (convert_eq_error_iff settings first error).mp h
  exact value_convert_of_firstUnmergeable settings (hindex.append_right second)

/-- If only the second sheet has no root, the error tells the same variable, by its place among
all. -/
theorem convert_append_of_ok_error {root : Mapping} {error : Error}
    (hfirst : (convert settings first).value = .ok root)
    (hsecond : (convert settings second).value = .error error) :
    ∃ index, error = .unmergeable index ∧
      (convert settings (first ++ second)).value = .error (.unmergeable (first.length + index)) := by
  obtain ⟨index, hindex, rfl⟩ := (convert_eq_error_iff settings second error).mp hsecond
  obtain ⟨hmergeable, -⟩ := (convert_eq_ok_iff settings first root).mp hfirst
  exact ⟨index, rfl, value_convert_of_firstUnmergeable settings (hindex.append_left hmergeable)⟩

/-- Two sheets in a row have a root exactly when both have one, and it is the two merged. -/
theorem convert_append_eq_ok_iff (first second : Sheet) (root : Mapping) :
    (convert settings (first ++ second)).value = .ok root ↔
      ∃ left right, (convert settings first).value = .ok left ∧
        (convert settings second).value = .ok right ∧ root = left.merge right := by
  simp only [convert_eq_ok_iff, contributions_append, OrderedMap.ofList_append, List.mem_append]
  constructor
  · rintro ⟨hmergeable, rfl⟩
    exact ⟨_, _, ⟨fun entry hentry => hmergeable entry (.inl hentry), rfl⟩,
      ⟨fun entry hentry => hmergeable entry (.inr hentry), rfl⟩, rfl⟩
  · rintro ⟨left, right, ⟨hfirst, rfl⟩, ⟨hsecond, rfl⟩, rfl⟩
    exact ⟨fun entry hentry => hentry.elim (hfirst entry) (hsecond entry), rfl⟩

/-- A sheet written twice comes to the same as written once. -/
theorem convert_append_self (sheet : Sheet) :
    (convert settings (sheet ++ sheet)).value = (convert settings sheet).value := by
  cases h : (convert settings sheet).value with
  | error error => exact convert_append_of_error settings h sheet
  | ok root =>
    have hconsistent := consistent_of_convert_eq_ok settings h
    exact (convert_append_eq_ok_iff settings sheet sheet root).mpr
      ⟨root, root, h, h, hconsistent.merge_self.symm⟩

/-- Merging mappings is associative and idempotent, and the empty mapping is its unit on either
side. Two sheets in a row are converted to what the sheets are, merged: if the first has no root,
to its error; if only the second has none, to its error with the index counted from the start; and
otherwise to the root of the first merged with that of the second. -/
theorem convert_append :
    (∀ a b c : Mapping, a.Consistent → b.Consistent → c.Consistent →
      (a.merge b).merge c = a.merge (b.merge c)) ∧
    (∀ a : Mapping, a.Consistent →
      OrderedMap.merge ∅ a = a ∧ a.merge ∅ = a ∧ a.merge a = a) ∧
    ∀ first second : Sheet,
      (∀ error, (convert settings first).value = .error error →
        (convert settings (first ++ second)).value = .error error) ∧
      (∀ root error, (convert settings first).value = .ok root →
        (convert settings second).value = .error error →
        ∃ index, error = .unmergeable index ∧ (convert settings (first ++ second)).value =
          .error (.unmergeable (first.length + index))) ∧
      (∀ root, (convert settings (first ++ second)).value = .ok root ↔
        ∃ left right, (convert settings first).value = .ok left ∧
          (convert settings second).value = .ok right ∧ root = left.merge right) ∧
      (convert settings (first ++ first)).value = (convert settings first).value := by
  refine ⟨fun a b c ha hb _ => ha.merge_assoc hb c,
    fun a ha => ⟨ha.empty_merge, a.merge_empty, ha.merge_self⟩, fun first second => ?_⟩
  exact ⟨fun error h => convert_append_of_error settings h second,
    fun root error => convert_append_of_ok_error settings,
    convert_append_eq_ok_iff settings first second, convert_append_self settings first⟩

/-- A variable, and a map under a name. -/
def spacing : Sheet :=
  [⟨"gap", .string "1px"⟩, ⟨"theme", .map (.ofList [("ink", .boolean true)])⟩]

/-- A variable that writes a key of `spacing` again, and one without a name. -/
def overrides : Sheet :=
  [⟨"gap", .string "2px"⟩, ⟨"", .string "lost"⟩]

/-- Mappings with overlapping keys are merged in either grouping. A key that two sheets share keeps
its first place and gets its last value, and an index counts through both sheets. -/
theorem convert_append_overrides :
    ((OrderedMap.ofList [("x", ofText "1"), ("y", ofText "2")]).merge
        (.ofList [("y", ofText "3"), ("z", ofText "4")])).merge (.ofList [("z", ofText "5")]) =
      (OrderedMap.ofList [("x", ofText "1"), ("y", ofText "2")]).merge
        ((OrderedMap.ofList [("y", ofText "3"), ("z", ofText "4")]).merge
          (.ofList [("z", ofText "5")])) ∧
    (OrderedMap.ofList [("x", ofText "1")]).merge (.ofList [("x", ofText "1")]) =
      .ofList [("x", ofText "1")] ∧
    (convert ⟨.flatten⟩ (overrides ++ spacing)).value = .error (.unmergeable 1) ∧
    (convert ⟨.flatten⟩ (spacing ++ overrides)).value = .error (.unmergeable 3) ∧
    ∃ root, (convert ⟨.flatten⟩ (spacing ++ overrides.take 1)).value = .ok root ∧
      root.toList = [("gap", .ofText "2px"), ("ink", .ofBool true)] := by
  obtain ⟨hassoc, hunit, happend⟩ := convert_append ⟨.flatten⟩
  have hoverrides : (convert ⟨.flatten⟩ overrides).value = .error (.unmergeable 1) := rfl
  have hspacing : (convert ⟨.flatten⟩ spacing).value =
      .ok (.ofList [("gap", ofText "1px"), ("ink", ofBool true)]) := rfl
  have hgap : (convert ⟨.flatten⟩ (overrides.take 1)).value =
      .ok (.ofList [("gap", ofText "2px")]) := rfl
  refine ⟨hassoc _ _ _ (OrderedMap.consistent_ofList _) (OrderedMap.consistent_ofList _)
      (OrderedMap.consistent_ofList _),
    (hunit _ (OrderedMap.consistent_ofList _)).2.2, (happend _ _).1 _ hoverrides, ?_,
    _, ((happend _ _).2.2.1 _).mpr ⟨_, _, hspacing, hgap, rfl⟩, rfl⟩
  obtain ⟨index, hindex, hconvert⟩ := (happend _ _).2.1 _ _ hspacing hoverrides
  cases hindex
  exact hconvert

end DesignTokens.Sheet

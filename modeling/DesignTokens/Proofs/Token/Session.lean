import DesignTokens.Proofs.OrderedMap.Entries
import DesignTokens.Proofs.Token.Json
import DesignTokens.Token.EntrySession

/-!
# Sessions on mappings and on lists

A session on mappings answers what the same session on plain lists of entries answers. What the
steps keep is that each mapping is consistent and has the entries of the list in its register.

* `Mapping.Registers.Refines`: registers of mappings agree with registers of lists.
* `Mapping.Registers.Refines.answer_eq`, `Mapping.Registers.Refines.step`: a step answers the same
  and keeps the agreement.
* `Mapping.Registers.Refines.run_eq`, `Mapping.Registers.Refines.after`: so does a session.
-/

namespace DesignTokens.Mapping

/-- The registers after the steps of a session. -/
def Registers.after (registers : Registers) (steps : List (String × Step)) : Registers :=
  steps.foldl (fun registers step => (registers.step step.1 step.2).2) registers

/-- A session takes its first step, and then the others from the registers left by it. -/
theorem Registers.run_cons (registers : Registers) (register : String) (step : Step)
    (steps : List (String × Step)) :
    registers.run ((register, step) :: steps) =
      ((registers.step register step).1, (registers.step register step).2 register) ::
        (registers.step register step).2.run steps := rfl

/-- The registers after the steps of a session. -/
def EntryRegisters.after (lists : EntryRegisters) (steps : List (String × Step)) :
    EntryRegisters :=
  steps.foldl (fun lists step => (lists.step step.1 step.2).2) lists

/-- A session takes its first step, and then the others from the registers left by it. -/
theorem EntryRegisters.run_cons (lists : EntryRegisters) (register : String) (step : Step)
    (steps : List (String × Step)) :
    lists.run ((register, step) :: steps) =
      ((lists.step register step).1, (lists.step register step).2 register) ::
        (lists.step register step).2.run steps := rfl

namespace Registers

/-- Every register holds a consistent mapping, with the entries of the list of the same
register. -/
structure Refines (registers : Registers) (lists : EntryRegisters) : Prop where
  consistent (register : String) : (registers register).Consistent
  toList_eq (register : String) : (registers register).toList = lists register

/-- Registers that were never written agree. -/
theorem refines_initial : initial.Refines EntryRegisters.initial :=
  ⟨fun _ => OrderedMap.consistent_empty, fun _ => rfl⟩

namespace Refines

variable {registers : Registers} {lists : EntryRegisters}

/-- Registers agree after a mapping was put into one of them, and its entries into the other. -/
theorem put (h : registers.Refines lists) (register : String) {mapping : Mapping}
    (hmapping : mapping.Consistent) {entries : List (String × Token)}
    (hentries : mapping.toList = entries) :
    (registers.put register mapping).Refines (lists.put register entries) := by
  constructor
  · intro r
    by_cases hr : r = register
    · rw [Registers.put, if_pos hr]
      exact hmapping
    · rw [Registers.put, if_neg hr]
      exact h.consistent r
  · intro r
    by_cases hr : r = register
    · rw [Registers.put, EntryRegisters.put, if_pos hr, if_pos hr]
      exact hentries
    · rw [Registers.put, EntryRegisters.put, if_neg hr, if_neg hr]
      exact h.toList_eq r

/-- Replacing the value at a key does on both sides what a search of the list decides: nothing, or
a write in place that returns the value found. -/
theorem replace?_cases (h : registers.Refines lists) (register key : String) (value : Token) :
    ((registers register).replace? key value = none ∧ (lists register).lookup key = none) ∨
    ∃ old changed, (registers register).replace? key value = some (old, changed) ∧
      (lists register).lookup key = some old ∧ changed.Consistent ∧
      changed.toList = Entries.insert key value (lists register) := by
  have hreplace := (h.consistent register).replace?_eq key value
  rw [h.toList_eq] at hreplace
  cases hfound : (lists register).lookup key with
  | none =>
    rw [hfound, Option.map_none, Option.map_eq_none_iff] at hreplace
    exact .inl ⟨hreplace, rfl⟩
  | some old =>
    rw [hfound, Option.map_some, Option.map_eq_some_iff] at hreplace
    obtain ⟨⟨replaced, changed⟩, hchanged, heq⟩ := hreplace
    obtain ⟨rfl, hentries⟩ := Prod.mk.inj heq
    exact .inr ⟨replaced, changed, hchanged, rfl, (h.consistent register).of_replace? hchanged,
      hentries⟩

/-- A step on a mapping answers what it answers on the list. -/
theorem answer_eq (h : registers.Refines lists) (register : String) (step : Step) :
    (registers.step register step).1 = (lists.step register step).1 := by
  have hconsistent := h.consistent register
  have hlist := h.toList_eq register
  cases step with
  | create | createWithCapacity | single | collect | ofMembers | merge | extend | copy => rfl
  | insert key value =>
    have hreplaced := hconsistent.getThenInsert?_fst key value
    rw [hlist] at hreplaced
    exact congrArg Answer.value hreplaced
  | get key =>
    have hfound := hconsistent.get?_eq_lookup key
    rw [hlist] at hfound
    exact congrArg Answer.value hfound
  | assign key value =>
    rw [Registers.step, EntryRegisters.step]
    rcases h.replace?_cases register key value with
      ⟨hreplace, hfound⟩ | ⟨old, changed, hreplace, hfound, -, -⟩
    · rw [hreplace, hfound]
    · rw [hreplace, hfound]
  | contains key =>
    have hfound := hconsistent.contains_eq key
    rw [hlist] at hfound
    exact congrArg Answer.truth hfound
  | size => exact congrArg (fun entries => Answer.count entries.length) hlist
  | isEmpty =>
    have hempty : (registers register).isEmpty = (lists register).isEmpty := by
      rw [← hlist, OrderedMap.toList, Array.isEmpty_toList]
      rfl
    exact congrArg Answer.truth hempty
  | keys => exact congrArg (fun entries => Answer.keys (entries.map (·.1))) hlist
  | values => exact congrArg (fun entries => Answer.values (entries.map (·.2))) hlist
  | entries | drain => exact congrArg Answer.entries hlist
  | equals other =>
    -- Equality of mappings compares their entries and does not look at their indexes.
    show Answer.truth ((registers register).toList == (registers other).toList) = _
    rw [hlist, h.toList_eq other]
    rfl

/-- A step on a mapping changes its entries as it changes the list, and keeps it consistent. -/
theorem step (h : registers.Refines lists) (register : String) (step : Step) :
    (registers.step register step).2.Refines (lists.step register step).2 := by
  have hconsistent := h.consistent register
  have hlist := h.toList_eq register
  cases step with
  | create | createWithCapacity | drain => exact h.put register OrderedMap.consistent_empty rfl
  | single key value =>
    exact h.put register (OrderedMap.consistent_empty.insert key value)
      (OrderedMap.toList_singleton key value)
  | collect entries =>
    exact h.put register (OrderedMap.consistent_ofList entries) (OrderedMap.toList_ofList entries)
  | ofMembers members =>
    refine h.put register ?_ ?_
    · rw [ofMembers_eq_ofList]
      exact OrderedMap.consistent_ofList _
    · rw [ofMembers_eq_ofList, OrderedMap.toList_ofList]
  | insert key value =>
    refine h.put register (hconsistent.getThenInsert? key value) ?_
    rw [← hlist]
    exact hconsistent.toList_insert key value
  | merge source =>
    -- The source may be the register itself; its entries are read before they are written.
    refine h.put register (hconsistent.merge _) ?_
    rw [hconsistent.toList_merge, hlist, h.toList_eq source]
  | extend entries =>
    refine h.put register (hconsistent.insertMany entries) ?_
    rw [hconsistent.toList_insertMany, hlist]
  | assign key value =>
    rw [Registers.step, EntryRegisters.step]
    rcases h.replace?_cases register key value with
      ⟨hreplace, hfound⟩ | ⟨old, changed, hreplace, hfound, hchanged, hentries⟩
    · -- A key that is not there leaves the registers as they are.
      rw [hreplace, hfound]
      exact h
    · rw [hreplace, hfound]
      exact h.put register hchanged hentries
  | copy source => exact h.put register (h.consistent source) (h.toList_eq source)
  | get | contains | size | isEmpty | keys | values | entries | equals => exact h

/-- A session on mappings answers what it answers on lists, and leaves the same entries at every
step. -/
theorem run_eq (h : registers.Refines lists) (steps : List (String × Step)) :
    (registers.run steps).map (fun result => (result.1, result.2.toList)) = lists.run steps := by
  induction steps generalizing registers lists with
  | nil => rfl
  | cons first steps ih =>
    obtain ⟨register, first⟩ := first
    -- The rest of the session runs from registers that agree again.
    have hafter := h.step register first
    rw [Registers.run_cons, EntryRegisters.run_cons, List.map_cons, ih hafter,
      h.answer_eq register first, hafter.toList_eq register]

/-- Registers agree after any session. -/
theorem after (h : registers.Refines lists) (steps : List (String × Step)) :
    (registers.after steps).Refines (lists.after steps) := by
  induction steps generalizing registers lists with
  | nil => exact h
  | cons first steps ih => exact ih (h.step first.1 first.2)

end Refines

/-- A session that starts with empty mappings answers what it answers on lists of entries. Every
step leaves the entries of the list, with distinct keys, and an index that sends a key to a
position exactly when it is the key of the entry there. -/
theorem run_initial (steps : List (String × Step)) :
    (initial.run steps).map (fun result => (result.1, result.2.toList)) =
      EntryRegisters.initial.run steps ∧
    ∀ register,
      (initial.after steps register).toList = EntryRegisters.initial.after steps register ∧
      (initial.after steps register).keys.Nodup ∧
      ∀ (key : String) (slot : Nat),
        (initial.after steps register).slots[key]? = some slot ↔
          (initial.after steps register).keys[slot]? = some key := by
  refine ⟨refines_initial.run_eq steps, fun register => ?_⟩
  have hafter := refines_initial.after steps
  have hconsistent := hafter.consistent register
  exact ⟨hafter.toList_eq register, hconsistent.nodup_keys, hconsistent.slots_iff⟩

end Registers

end DesignTokens.Mapping

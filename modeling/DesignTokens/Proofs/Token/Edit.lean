import DesignTokens.Proofs.OrderedMap.Access
import DesignTokens.Proofs.Token.Buildable
import DesignTokens.Token.Edit

/-!
# What edits keep

An edit goes down through mappings by look-up, and puts what it has changed back under the names it
came by. So each mapping on the way is written at a key that it has, and stays consistent.

* `Token.Edit.run?_within`: what was found under a name can be put back there.
* `Token.insertAt?_nil`, `Token.insertAt?_cons`: writing an entry at a path of names, name by name.
* `Token.insertAt?_eq_run?`: this is an edit.
* `Token.Edit.consistent_run`, `Token.Edit.consistent_runAll`: one edit and any number of them
  keep a token consistent.
-/

namespace DesignTokens.Token

namespace Edit

/-- What was found under a name is put back there once it is edited: on the way back no key is
missing. -/
theorem run?_within (name : String) (edit : Edit) (entries : Mapping) :
    (within name edit).run? (.mapping entries) =
      ((entries.get? name).bind edit.run?).map fun child =>
        .mapping (entries.insert name child) := by
  rw [run?]
  -- If the name is there on the way down, it is there on the way back.
  cases hchild : entries.get? name with
  | none => rfl
  | some child =>
    rw [Option.bind_some, Option.bind_some]
    cases edit.run? child with
    | none => rfl
    | some changed =>
      rw [Option.bind_some, OrderedMap.replace?_eq_map_get?, hchild]
      rfl

/-- Only a mapping has anything under a name. -/
theorem exists_mapping_of_run?_within {name : String} {edit : Edit} {token changed : Token}
    (h : (within name edit).run? token = some changed) :
    ∃ entries child edited, token = .mapping entries ∧ entries.get? name = some child ∧
      edit.run? child = some edited ∧ changed = .mapping (entries.insert name edited) := by
  cases token with
  | mapping entries =>
    rw [run?_within] at h
    obtain ⟨edited, hedited, rfl⟩ := Option.map_eq_some_iff.mp h
    obtain ⟨child, hchild, hedited⟩ := Option.bind_eq_some_iff.mp hedited
    exact ⟨entries, child, edited, rfl, hchild, hedited, rfl⟩
  | scalar value => exact nomatch h
  | sequence items => exact nomatch h

/-- An edit that writes a consistent token keeps the token consistent. -/
theorem consistent_of_run? {edit : Edit} {token changed : Token} (h : token.Consistent)
    (hvalue : edit.value.Consistent) (hedit : edit.run? token = some changed) :
    changed.Consistent := by
  -- The token changes on the way down, and what the edit writes stays the same.
  induction edit generalizing token changed with
  | assign value =>
    cases hedit
    exact hvalue
  | insert key value =>
    cases token with
    | mapping entries =>
      cases hedit
      exact h.insert key hvalue
    | scalar value => exact nomatch hedit
    | sequence items => exact nomatch hedit
  | within name edit ih =>
    obtain ⟨entries, child, edited, rfl, hchild, hedited, rfl⟩ :=
      exists_mapping_of_run?_within hedit
    -- What stands under the name is consistent, so its edited form is, and that is written back.
    exact h.insert name (ih (h.of_get? hchild) hvalue hedited)

/-- An edit that writes a consistent token keeps a token consistent, whether it leads anywhere or
not. -/
theorem consistent_run {edit : Edit} {token : Token} (h : token.Consistent)
    (hvalue : edit.value.Consistent) : (edit.run token).Consistent := by
  rw [run]
  cases hedit : edit.run? token with
  | none => exact h
  | some changed => exact consistent_of_run? h hvalue hedit

/-- Edits that write consistent tokens keep a token consistent. -/
theorem consistent_runAll {edits : List Edit} {token : Token} (h : token.Consistent)
    (hvalues : ∀ edit ∈ edits, edit.value.Consistent) : (runAll edits token).Consistent := by
  induction edits generalizing token with
  | nil => exact h
  | cons edit edits ih =>
    have hfirst := consistent_run h (hvalues edit List.mem_cons_self)
    exact ih hfirst fun later hlater => hvalues later (List.mem_cons_of_mem _ hlater)

/-- However far down an edit is made, it writes the same token. -/
theorem value_foldr_within (path : List String) (edit : Edit) :
    (path.foldr within edit).value = edit.value := by
  induction path with
  | nil => rfl
  | cons name path ih => exact ih

end Edit

/-- At the end of the path the entry is written. -/
theorem insertAt?_nil (entries : Mapping) (key : String) (value : Token) :
    (mapping entries).insertAt? [] key value =
      some (entries.get? key, .mapping (entries.insert key value)) := by
  rw [insertAt?, OrderedMap.getThenInsert?_eq]

/-- Before, what is found under the next name is put back there once it is edited. -/
theorem insertAt?_cons (entries : Mapping) (name : String) (path : List String) (key : String)
    (value : Token) :
    (mapping entries).insertAt? (name :: path) key value =
      ((entries.get? name).bind (·.insertAt? path key value)).map fun result =>
        (result.1, .mapping (entries.insert name result.2)) := by
  rw [insertAt?]
  cases hchild : entries.get? name with
  | none => rfl
  | some child =>
    rw [Option.bind_some, Option.bind_some]
    cases child.insertAt? path key value with
    | none => rfl
    | some result =>
      obtain ⟨replaced, edited⟩ := result
      show (entries.replace? name edited).map _ = _
      rw [OrderedMap.replace?_eq_map_get?, hchild]
      rfl

/-- Writing an entry into the mapping at a path of names is an edit. -/
theorem insertAt?_eq_run? (token : Token) (path : List String) (key : String) (value : Token) :
    (token.insertAt? path key value).map (·.2) =
      (path.foldr Edit.within (.insert key value)).run? token := by
  induction path generalizing token with
  | nil => cases token <;> rfl
  | cons name path ih =>
    cases token with
    | mapping entries =>
      rw [List.foldr_cons, Edit.run?_within, insertAt?_cons]
      cases entries.get? name with
      | none => rfl
      | some child =>
        rw [Option.bind_some, Option.bind_some, ← ih child, Option.map_map, Option.map_map]
        rfl
    | scalar value => rfl
    | sequence items => rfl

end DesignTokens.Token

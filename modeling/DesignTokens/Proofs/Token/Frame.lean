import DesignTokens.Proofs.OrderedMap.Merge
import DesignTokens.Proofs.Reachable
import DesignTokens.Token.InPlace

/-!
# Edits of one place

An entry that is written deep inside a token changes what stands at its own place, and nothing at any
place beside it. The mappings on the way are written back as they come, with their keys in order.

* `Token.WrittenAt`: a token before and after a write, mapping by mapping down to the place.
* `Token.insertInPlace_eq`: lending places out leaves what writing at a path does, and if the path
  leads to no mapping, the token as it was.
* `Token.WrittenAt.at?_ofNames`, `Token.WrittenAt.keysAt?_ofNames`: what the path leads to after a
  write.
* `Token.WrittenAt.outside`: what every other path leads to.
* `Token.insertInPlace_frame`: all of this for the tokens that can be reached.
-/

namespace DesignTokens.Token

variable {key : String} {value : Token}

/-! ## Steps into a written mapping -/

/-- A path into a written mapping that begins with the key goes on in what was written. -/
theorem at?_mapping_insert_self {entries : Mapping} (h : entries.Consistent) (name : String)
    (child : Token) (path : Path) :
    (mapping (entries.insert name child)).at? (.name name :: path) = child.at? path := by
  show ((entries.insert name child).get? name).bind (·.at? path) = _
  rw [h.get?_insert, if_pos rfl, Option.bind_some]

/-- One that begins otherwise leads where it led before. -/
theorem at?_mapping_insert_of_ne {entries : Mapping} (h : entries.Consistent) {name : String}
    (child : Token) {step : PathStep} (hstep : step ≠ .name name) (path : Path) :
    (mapping (entries.insert name child)).at? (step :: path) =
      (mapping entries).at? (step :: path) := by
  cases step with
  | name other =>
    have hother : other ≠ name := fun h => hstep (congrArg PathStep.name h)
    show ((entries.insert name child).get? other).bind (·.at? path) = _
    rw [h.get?_insert, if_neg hother]
    rfl
  | position position => rfl

/-! ## What a walk does -/

/-- A token before and after the write of an entry at the end of a path of names. Every mapping on
the way is written with what became of the token under the next name. -/
inductive WrittenAt (key : String) (value : Token) : List String → Token → Token → Prop
  | here {entries : Mapping} (h : entries.Consistent) :
      WrittenAt key value [] (.mapping entries) (.mapping (entries.insert key value))
  | inside {entries : Mapping} {name : String} {child edited : Token} {path : List String}
      (h : entries.Consistent) (hchild : entries.get? name = some child)
      (hwritten : WrittenAt key value path child edited) :
      WrittenAt key value (name :: path) (.mapping entries) (.mapping (entries.insert name edited))

/-- A path that leads to a mapping is one at the end of which an entry can be written. The value
replaced is what the path found there before. -/
theorem exists_writtenAt {token : Token} (h : token.Consistent) {path : List String}
    {entries : Mapping} (hpath : token.at? (Path.ofNames path) = some (.mapping entries))
    (key : String) (value : Token) :
    ∃ changed, WrittenAt key value path token changed ∧
      token.insertAt? path key value =
        some (token.at? (Path.ofNames (path ++ [key])), changed) := by
  induction path generalizing token with
  | nil =>
    cases hpath
    refine ⟨_, .here (consistent_mapping_iff.mp h).1, ?_⟩
    rw [insertAt?_nil]
    have hkey : (mapping entries).at? (Path.ofNames [key]) = entries.get? key :=
      Option.bind_fun_some _
    rw [List.nil_append, hkey]
  | cons name path ih =>
    obtain ⟨child, hchild, hinner⟩ := Option.bind_eq_some_iff.mp hpath
    cases token with
    | mapping outer =>
      have hget : outer.get? name = some child := hchild
      obtain ⟨changed, hwritten, hinsert⟩ := ih (h.of_get? hget) hinner
      refine ⟨_, .inside (consistent_mapping_iff.mp h).1 hget hwritten, ?_⟩
      rw [insertAt?_cons, hget, Option.bind_some, hinsert]
      exact congrArg (fun found => some (found, _)) (at?_mapping_of_get? hget _).symm
    | scalar value => exact nomatch hchild
    | sequence items => exact nomatch hchild

/-- A path that leads to no mapping is not one at which an entry can be written. -/
theorem insertAt?_eq_none {token : Token} {path : List String}
    (hpath : ∀ entries, token.at? (Path.ofNames path) ≠ some (.mapping entries)) (key : String)
    (value : Token) : token.insertAt? path key value = none := by
  induction path generalizing token with
  | nil =>
    cases token with
    | mapping entries => exact absurd rfl (hpath entries)
    | scalar value => rfl
    | sequence items => rfl
  | cons name path ih =>
    cases token with
    | mapping entries =>
      rw [insertAt?_cons]
      cases hchild : entries.get? name with
      | none => rfl
      | some child =>
        rw [Option.bind_some, ih fun inner hinner => hpath inner ?_]
        · rfl
        · exact (at?_mapping_of_get? hchild _).trans hinner
    | scalar value => rfl
    | sequence items => rfl

/-- Lending places out leaves what writing at the path does. If the path leads to no mapping, all
values come back as they were lent out. -/
theorem insertInPlace_eq {token : Token} (h : token.Consistent) (path : List String) (key : String)
    (value : Token) :
    token.insertInPlace path key value =
      match token.insertAt? path key value with
      | some (replaced, changed) => (some replaced, changed)
      | none => (none, token) := by
  induction path generalizing token with
  | nil => cases token <;> rfl
  | cons name path ih =>
    cases token with
    | mapping entries =>
      rw [insertInPlace, OrderedMap.lend?_eq_map_get?, insertAt?_cons]
      cases hchild : entries.get? name with
      | none => rfl
      | some child =>
        rw [Option.map_some, Option.bind_some, ih (h.of_get? hchild)]
        cases child.insertAt? path key value with
        | none =>
          -- The child comes back as it was, and is what the mapping has at the name.
          show (none, mapping (entries.insert name child)) = _
          rw [(consistent_mapping_iff.mp h).1.insert_of_get? hchild]
          rfl
        | some result => rfl
    | scalar value => rfl
    | sequence items => rfl

/-! ## What stands where after a write -/

/-- Where paths lead to the same, they lead to the same keys. -/
theorem keysAt?_congr {token changed : Token} {path other : Path}
    (h : changed.at? path = token.at? other) : changed.keysAt? path = token.keysAt? other := by
  rw [keysAt?, keysAt?, h]

namespace WrittenAt

variable {path : List String} {token changed : Token}

/-- The path goes on to the written value by the key. -/
theorem at?_ofNames (h : WrittenAt key value path token changed) :
    changed.at? (Path.ofNames (path ++ [key])) = some value := by
  induction h with
  | here h => exact at?_mapping_insert_self h key value []
  | inside h hchild _ ih => exact (at?_mapping_insert_self h _ _ _).trans ih

/-- The mapping at the end of the path has the keys it had in their order, and the new one, if it is
new, as its last. -/
theorem keysAt?_ofNames (h : WrittenAt key value path token changed) :
    changed.keysAt? (Path.ofNames path) = (token.keysAt? (Path.ofNames path)).map fun keys =>
      if key ∈ keys then keys else keys ++ [key] := by
  induction h with
  | here h => exact congrArg some (h.keys_insert key value)
  | inside h hchild _ ih =>
    exact (keysAt?_congr (at?_mapping_insert_self h _ _ _)).trans
      (ih.trans (congrArg _ (keysAt?_congr (at?_mapping_of_get? hchild _)).symm))

/-- Outside what is written, a path that leads off the way of the write leads where it led before, and
a mapping on the way has the keys it had in their order, unless the way ends there. -/
theorem outside (h : WrittenAt key value path token changed) {other : Path}
    (hbeyond : ¬ Path.ofNames (path ++ [key]) <+: other) :
    (¬ other <+: Path.ofNames (path ++ [key]) → changed.at? other = token.at? other) ∧
      (other ≠ Path.ofNames path → changed.keysAt? other = token.keysAt? other) := by
  induction h generalizing other with
  | here h =>
    cases other with
    | nil => exact ⟨fun hoff => absurd List.nil_prefix hoff, fun hother => absurd rfl hother⟩
    | cons step other =>
      -- A path that begins with the key would go on from the place of the write.
      have hstep : step ≠ .name key := by
        rintro rfl
        exact hbeyond (List.cons_prefix_cons.mpr ⟨rfl, List.nil_prefix⟩)
      have hsame := at?_mapping_insert_of_ne h value hstep other
      exact ⟨fun _ => hsame, fun _ => keysAt?_congr hsame⟩
  | @inside entries name child edited path h hchild _ ih =>
    cases other with
    | nil =>
      -- The next name is a key that the mapping has already, so that none is added.
      have hkeys := h.keys_insert name edited
      rw [if_pos (h.mem_keys_of_get? hchild)] at hkeys
      exact ⟨fun hoff => absurd List.nil_prefix hoff, fun _ => congrArg some hkeys⟩
    | cons step other =>
      by_cases hstep : step = .name name
      · -- Both go the same way here, and what is to be shown is about the rest of the way.
        subst hstep
        obtain ⟨hplaces, hkeys⟩ :=
          ih fun hrest => hbeyond (List.cons_prefix_cons.mpr ⟨rfl, hrest⟩)
        constructor
        · intro hoff
          rw [at?_mapping_insert_self h, at?_mapping_of_get? hchild]
          exact hplaces fun hrest => hoff (List.cons_prefix_cons.mpr ⟨rfl, hrest⟩)
        · intro hother
          rw [keysAt?_congr (at?_mapping_insert_self h name edited other),
            keysAt?_congr (at?_mapping_of_get? hchild other)]
          exact hkeys fun hrest => hother (congrArg (List.cons _) hrest)
      · -- Here the path leaves the way of the write.
        have hsame := at?_mapping_insert_of_ne h edited hstep other
        exact ⟨fun _ => hsame, fun _ => keysAt?_congr hsame⟩

end WrittenAt

/-- An edit of a token that can be reached touches one place only. If the path leads to no mapping,
the token is left as it was. If it leads to one, the answer is what the path and then the key led to
before, and afterwards they lead to the value. Every path that is not a first part of theirs and does
not go on from their end leads where it led before, or nowhere, as before. Every mapping outside the
value has the keys it had in their order; only the one at the end of the path has the key too, as its
last, if it is new. -/
theorem insertInPlace_frame {token : Token} (h : token.Reachable) (path : List String)
    (key : String) (value : Token) :
    ((∀ entries, token.at? (Path.ofNames path) ≠ some (.mapping entries)) →
      token.insertAt? path key value = none ∧
      token.insertInPlace path key value = (none, token)) ∧
    ∀ entries, token.at? (Path.ofNames path) = some (.mapping entries) →
      ∃ changed,
        token.insertAt? path key value =
          some (token.at? (Path.ofNames (path ++ [key])), changed) ∧
        token.insertInPlace path key value =
          (some (token.at? (Path.ofNames (path ++ [key]))), changed) ∧
        changed.at? (Path.ofNames (path ++ [key])) = some value ∧
        (∀ other, ¬ other <+: Path.ofNames (path ++ [key]) →
          ¬ Path.ofNames (path ++ [key]) <+: other → changed.at? other = token.at? other) ∧
        changed.keysAt? (Path.ofNames path) =
          some (if key ∈ entries.keys then entries.keys else entries.keys ++ [key]) ∧
        ∀ other, other ≠ Path.ofNames path → ¬ Path.ofNames (path ++ [key]) <+: other →
          changed.keysAt? other = token.keysAt? other := by
  have hconsistent := h.consistent
  have hplaces := insertInPlace_eq hconsistent path key value
  constructor
  · intro hpath
    have hnone := insertAt?_eq_none hpath key value
    rw [hnone] at hplaces
    exact ⟨hnone, hplaces⟩
  · intro entries hpath
    obtain ⟨changed, hwritten, hinsert⟩ := exists_writtenAt hconsistent hpath key value
    have hbefore : token.keysAt? (Path.ofNames path) = some entries.keys := by
      rw [keysAt?, hpath]
      rfl
    have hkeys := hwritten.keysAt?_ofNames
    rw [hbefore] at hkeys
    rw [hinsert] at hplaces
    exact ⟨changed, hinsert, hplaces, hwritten.at?_ofNames,
      fun other hoff hbeyond => (hwritten.outside hbeyond).1 hoff, hkeys,
      fun other hother hbeyond => (hwritten.outside hbeyond).2 hother⟩

/-- A theme, and a scale with a mapping in a sequence. Both have an entry of the same name. -/
def themedScale : Token :=
  .mapping (.ofList [("theme", .mapping (.ofList [("ink", .ofText "red"), ("gap", .ofText "4px")])),
    ("scale", .sequence [.mapping (.ofList [("ink", .ofText "blue")])])])

/-- An entry of the theme is replaced at its place, and a new one comes last; the entry of the same
name in the scale stays as it is. Nothing is written into the sequence itself, nor under a name that
is missing. -/
theorem insertInPlace_frame_themedScale :
    themedScale.Reachable ∧
    themedScale.insertInPlace ["scale"] "ink" (.scalar .null) = (none, themedScale) ∧
    themedScale.insertInPlace ["theme", "mode"] "ink" (.scalar .null) = (none, themedScale) ∧
    (∃ changed,
      themedScale.insertInPlace ["theme"] "ink" (.sequence []) =
        (some (some (.ofText "red")), changed) ∧
      changed.at? [.name "theme", .name "ink"] = some (.sequence []) ∧
      changed.at? [.name "scale", .position 0, .name "ink"] = some (.ofText "blue") ∧
      changed.keysAt? [.name "theme"] = some ["ink", "gap"]) ∧
    ∃ changed,
      themedScale.insertInPlace ["theme"] "mode" (.sequence []) = (some none, changed) ∧
      changed.keysAt? [.name "theme"] = some ["ink", "gap", "mode"] ∧
      changed.keysAt? [] = some ["theme", "scale"] := by
  have hreachable : themedScale.Reachable := by
    refine (Reachable.create 0).extend fun entry hentry => ?_
    rcases List.mem_pair.mp hentry with rfl | rfl
    · refine (Reachable.create 0).extend fun entry hentry => ?_
      rcases List.mem_pair.mp hentry with rfl | rfl
      · exact .scalar _
      · exact .scalar _
    · refine .sequence (List.forall_mem_singleton.mpr ?_)
      exact (Reachable.create 0).extend (List.forall_mem_singleton.mpr (.scalar _))
  have hframe := insertInPlace_frame hreachable
  refine ⟨hreachable, ((hframe ["scale"] "ink" _).1 ?_).2,
    ((hframe ["theme", "mode"] "ink" _).1 ?_).2, ?_, ?_⟩
  · exact fun entries hentries => nomatch hentries
  · exact fun entries hentries => nomatch hentries
  · obtain ⟨changed, -, hanswer, hplace, hbeside, hkeys, -⟩ :=
      (hframe ["theme"] "ink" (.sequence [])).2 _ rfl
    exact ⟨changed, hanswer, hplace, hbeside _ (by decide) (by decide), hkeys⟩
  · obtain ⟨changed, -, hanswer, -, -, hkeys, hothers⟩ :=
      (hframe ["theme"] "mode" (.sequence [])).2 _ rfl
    exact ⟨changed, hanswer, hkeys, hothers [] (by decide) (by decide)⟩

end DesignTokens.Token

import DesignTokens.Proofs.Token.Buildable
import DesignTokens.Token.Preorder

/-!
# Places and parts of a token

The tokens inside a token are those that paths lead to.

* `Token.preorder_sequence`, `Token.preorder_mapping`: the tokens in a container are the container
  and those in what it holds.
* `Token.at?_append`: a path in two parts is followed one part after the other.
* `Token.mem_preorder_iff`: in a consistent token, what is inside is what some path leads to.
-/

namespace DesignTokens.Token

/-- The tokens in a sequence are the sequence itself and those in its items. -/
theorem preorder_sequence (items : List Token) :
    (sequence items).preorder = sequence items :: items.flatMap preorder := by
  have hitems : preorderItems items = items.flatMap preorder := by
    induction items with
    | nil => rfl
    | cons item items ih => rw [preorderItems, ih, List.flatMap_cons]
  rw [preorder, hitems]

/-- The tokens in a mapping are the mapping itself and those in its entries. -/
theorem preorder_mapping (entries : Mapping) :
    (mapping entries).preorder = mapping entries :: entries.toList.flatMap (·.2.preorder) := by
  obtain ⟨⟨entries⟩, slots⟩ := entries
  have hentries : preorderEntries entries = entries.flatMap (·.2.preorder) := by
    induction entries with
    | nil => rfl
    | cons entry entries ih => rw [preorderEntries, ih, List.flatMap_cons]
  rw [preorder, hentries]
  rfl

/-- A path in two parts leads where the second part leads from the end of the first. -/
theorem at?_append (token : Token) (path more : Path) :
    token.at? (path ++ more) = (token.at? path).bind (·.at? more) := by
  induction path generalizing token with
  | nil => rfl
  | cons step path ih =>
    rw [List.cons_append, at?, at?, Option.bind_assoc]
    exact Option.bind_congr fun child _ => ih child

/-- A path into a mapping goes on in what the mapping has at its first name. -/
theorem at?_mapping_of_get? {entries : Mapping} {name : String} {child : Token}
    (hchild : entries.get? name = some child) (path : Path) :
    (mapping entries).at? (.name name :: path) = child.at? path := by
  rw [at?, show (mapping entries).step? (.name name) = some child from hchild, Option.bind_some]

/-- What a step leads to is inside, with all that is inside of it. -/
theorem mem_preorder_of_step? {token child inner : Token} (h : token.Consistent) {step : PathStep}
    (hchild : token.step? step = some child) (hinner : inner ∈ child.preorder) :
    inner ∈ token.preorder := by
  cases token with
  | scalar value => cases step <;> exact nomatch hchild
  | sequence items =>
    cases step with
    | position position =>
      rw [preorder_sequence]
      exact .tail _ (List.mem_flatMap.mpr ⟨child, List.mem_of_getElem? hchild, hinner⟩)
    | name name => exact nomatch hchild
  | mapping entries =>
    cases step with
    | name name =>
      obtain ⟨hentries, -⟩ := consistent_mapping_iff.mp h
      have hentry : (name, child) ∈ entries.toList :=
        (hentries.mem_toList_iff name child).mpr hchild
      rw [preorder_mapping]
      exact .tail _ (List.mem_flatMap.mpr ⟨(name, child), hentry, hinner⟩)
    | position position => exact nomatch hchild

/-- What a path leads to is inside. -/
theorem mem_preorder_of_at? {token inner : Token} (h : token.Consistent) {path : Path}
    (hinner : token.at? path = some inner) : inner ∈ token.preorder := by
  induction path generalizing token with
  | nil =>
    rw [← Option.some.inj hinner]
    cases token <;> exact .head _
  | cons step path ih =>
    rw [at?, Option.bind_eq_some_iff] at hinner
    obtain ⟨child, hchild, hinner⟩ := hinner
    exact mem_preorder_of_step? h hchild (ih (h.of_step? hchild) hinner)

/-- Some path leads to each token inside. -/
theorem exists_at?_of_mem_preorder {token inner : Token} (h : token.Consistent)
    (hinner : inner ∈ token.preorder) : ∃ path, token.at? path = some inner := by
  induction token with
  | scalar value =>
    rw [List.mem_singleton.mp hinner]
    exact ⟨[], rfl⟩
  | sequence items ih =>
    rw [preorder_sequence, List.mem_cons, List.mem_flatMap] at hinner
    rcases hinner with rfl | ⟨item, hitem, hinner⟩
    · exact ⟨[], rfl⟩
    · -- The path begins with a position of the item that has it inside.
      obtain ⟨position, hposition⟩ := List.getElem?_of_mem hitem
      obtain ⟨path, hpath⟩ := ih item hitem (consistent_sequence_iff.mp h item hitem) hinner
      refine ⟨.position position :: path, ?_⟩
      rw [at?, show (sequence items).step? (.position position) = some item from hposition]
      exact hpath
  | mapping entries ih =>
    obtain ⟨hentries, htokens⟩ := consistent_mapping_iff.mp h
    rw [preorder_mapping, List.mem_cons, List.mem_flatMap] at hinner
    rcases hinner with rfl | ⟨entry, hentry, hinner⟩
    · exact ⟨[], rfl⟩
    · obtain ⟨path, hpath⟩ := ih entry hentry (htokens entry hentry) hinner
      have hget : entries.get? entry.1 = some entry.2 :=
        (hentries.mem_toList_iff entry.1 entry.2).mp hentry
      exact ⟨.name entry.1 :: path, (at?_mapping_of_get? hget path).trans hpath⟩

/-- In a consistent token, what is inside is what some path leads to. -/
theorem mem_preorder_iff {token inner : Token} (h : token.Consistent) :
    inner ∈ token.preorder ↔ ∃ path, token.at? path = some inner :=
  ⟨exists_at?_of_mem_preorder h, fun ⟨_, hinner⟩ => mem_preorder_of_at? h hinner⟩

end DesignTokens.Token

import DesignTokens.Proofs.Json.ReadBack
import DesignTokens.Proofs.Token.Inverse
import DesignTokens.Proofs.Token.Preorder
import DesignTokens.Token.Nesting

/-!
# Reading back written tokens

A token whose numbers are integers, and that is no deeper than the reader allows, is read back from
either of its texts.

* `Token.depth_toJson`, `Token.integersOnly_toJson`: the JSON value of a token has its depth and its
  integers.
* `Token.Legible`: the tokens that are read back.
* `Token.read_written`: both texts of a legible token denote it, and no other one.
-/

namespace DesignTokens.Token

mutual

/-- The JSON value of a token is as deep as the token. -/
theorem depth_toJson : (token : Token) → token.toJson.depth = token.depth
  | .scalar value => by cases value <;> rfl
  | .sequence items => by rw [toJson, Json.depth, depth, depth_itemsToJson items]
  | .mapping ⟨⟨entries⟩, _⟩ => by rw [toJson, Json.depth, depth, depth_entriesToJson entries]

theorem depth_itemsToJson : (items : List Token) →
    Json.depthOfItems (itemsToJson items) = depthOfItems items
  | [] => rfl
  | item :: items => by
    rw [itemsToJson, Json.depthOfItems, depthOfItems, depth_toJson item, depth_itemsToJson items]

theorem depth_entriesToJson : (entries : List (String × Token)) →
    Json.depthOfMembers (entriesToJson entries) = depthOfEntries entries
  | [] => rfl
  | (name, token) :: entries => by
    rw [entriesToJson, Json.depthOfMembers, depthOfEntries, depth_toJson token,
      depth_entriesToJson entries]

end

/-- The JSON value of a token without doubles has none. -/
theorem integersOnly_toJson {token : Token} (h : token.IntegersOnly) :
    token.toJson.IntegersOnly := by
  induction token with
  | scalar value =>
    cases value with
    | number value =>
      cases value with
      | int value inRange => trivial
      | float value => exact absurd (List.mem_singleton_self _) (h value)
    | _ => trivial
  | sequence items ih =>
    rw [toJson_sequence, Json.IntegersOnly, Json.integersOnlyInItems_iff]
    intro json hjson
    obtain ⟨item, hitem, rfl⟩ := List.mem_map.mp hjson
    refine ih item hitem fun value hvalue => h value ?_
    rw [preorder_sequence]
    exact .tail _ (List.mem_flatMap.mpr ⟨item, hitem, hvalue⟩)
  | mapping entries ih =>
    rw [toJson_mapping, Json.IntegersOnly, Json.integersOnlyInMembers_iff]
    intro member hmember
    obtain ⟨entry, hentry, rfl⟩ := List.mem_map.mp hmember
    refine ih entry hentry fun value hvalue => h value ?_
    rw [preorder_mapping]
    exact .tail _ (List.mem_flatMap.mpr ⟨entry, hentry, hvalue⟩)

/-- The tokens that are read back from their texts: numbers are integers, and at most 127 sequences
and mappings are nested in one another. -/
structure Legible (token : Token) : Prop where
  buildable : token.Buildable
  integersOnly : token.IntegersOnly
  depth_le : token.depth ≤ 127

namespace Legible

variable {token : Token}

/-- The compact text denotes the JSON value of the token. -/
theorem read_compact (h : token.Legible) : Json.read token.compact = .ok token.toJson :=
  Json.read_compact (uniqueKeys_toJson h.buildable.consistent) (integersOnly_toJson h.integersOnly)
    (depth_toJson token ▸ h.depth_le)

/-- The indented text denotes the JSON value of the token. -/
theorem read_pretty (h : token.Legible) : Json.read token.pretty = .ok token.toJson :=
  Json.read_pretty (uniqueKeys_toJson h.buildable.consistent) (integersOnly_toJson h.integersOnly)
    (depth_toJson token ▸ h.depth_le)

/-- The token is determined by either text of it. -/
theorem eq_of_text {other : Token} (h : token.Legible) (hother : other.Legible) {text : String}
    (htext : text = token.compact ∨ text = token.pretty)
    (hsame : text = other.compact ∨ text = other.pretty) : token = other := by
  have denoted {t : Token} (ht : t.Legible) (hform : text = t.compact ∨ text = t.pretty) :
      (Json.read text).map ofJson = .ok t := by
    have hread : Json.read text = .ok t.toJson := by
      rcases hform with rfl | rfl
      · exact ht.read_compact
      · exact ht.read_pretty
    rw [hread, Except.map, ofJson_toJson ht.buildable.consistent]
  exact Except.ok.inj ((denoted h htext).symm.trans (denoted hother hsame))

end Legible

/-- A legible token is what both of its texts are read as. The two texts denote the same JSON
value, and a text of another legible token is neither of them. -/
theorem read_written :
    (∀ token : Token, token.Legible →
      (Json.read token.compact).map ofJson = .ok token ∧
      (Json.read token.pretty).map ofJson = .ok token ∧
      Json.read token.compact = Json.read token.pretty) ∧
    ∀ token other : Token, token.Legible → other.Legible → token ≠ other →
      token.compact ≠ other.compact ∧ token.pretty ≠ other.pretty ∧
      token.compact ≠ other.pretty := by
  refine ⟨fun token h => ?_, fun token other h hother hne => ?_⟩
  · have hback := ofJson_toJson h.buildable.consistent
    refine ⟨?_, ?_, h.read_compact.trans h.read_pretty.symm⟩
    · rw [h.read_compact, Except.map, hback]
    · rw [h.read_pretty, Except.map, hback]
  · exact ⟨fun hsame => hne (h.eq_of_text hother (.inl rfl) (.inl hsame)),
      fun hsame => hne (h.eq_of_text hother (.inr rfl) (.inr hsame)),
      fun hsame => hne (h.eq_of_text hother (.inl rfl) (.inr hsame))⟩

/-- The items of the inscription: the greatest and the least integer, and empty containers. -/
def inscribedItems : List Token :=
  [.scalar (.number (.int 18446744073709551615 (by decide))),
    .scalar (.number (.int (-9223372036854775808) (by decide))),
    .sequence [], .mapping ∅, .scalar .null, ofBool true]

/-- A mapping with a name and a text that need escapes. -/
def inscription : Token :=
  .mapping ((OrderedMap.singleton "" (ofText "\"\\\n\u0001é😀")).insert "a\"b"
    (.sequence inscribedItems))

/-- A text is legible, whatever its characters. -/
theorem legible_ofText (text : String) : (ofText text).Legible where
  buildable := .scalar _
  integersOnly value hvalue := by simp [ofText, preorder] at hvalue
  depth_le := Nat.zero_le _

theorem legible_inscription : inscription.Legible where
  buildable := by
    have hitems : (sequence inscribedItems).Buildable := by
      refine .sequence fun item hitem => ?_
      simp only [inscribedItems, List.mem_cons, List.not_mem_nil, or_false] at hitem
      rcases hitem with rfl | rfl | rfl | rfl | rfl | rfl
      · exact .scalar _
      · exact .scalar _
      · exact .sequence fun _ h => absurd h List.not_mem_nil
      · exact .create 0
      · exact .scalar _
      · exact .scalar _
    exact ((Buildable.create 1).insert "" (.scalar _)).insert "a\"b" hitems
  integersOnly := by
    intro value hvalue
    have hinner : inscription.preorder = inscription :: ofText "\"\\\n\u0001é😀" ::
        .sequence inscribedItems :: inscribedItems := rfl
    rw [hinner] at hvalue
    simp [inscription, inscribedItems, ofText, ofBool] at hvalue
  depth_le := by decide +kernel

/-- The inscription is read back from both of its texts, and so is the text that quotes it. -/
theorem read_written_inscription :
    inscription.compact = "\x7b\"\":\"\\\"\\\\\\n\\u0001é😀\",\"a\\\"b\":" ++
        "[18446744073709551615,-9223372036854775808,[],\x7b\x7d,null,true]\x7d" ∧
      (Json.read inscription.compact).map ofJson = .ok inscription ∧
      (Json.read inscription.pretty).map ofJson = .ok inscription ∧
      (Json.read (ofText inscription.compact).compact).map ofJson =
        .ok (ofText inscription.compact) ∧
      (ofText inscription.compact).compact ≠ inscription.compact := by
  obtain ⟨hback, hdistinct⟩ := read_written
  have hinscription := hback inscription legible_inscription
  have hquotation := legible_ofText inscription.compact
  refine ⟨by decide +kernel, hinscription.1, hinscription.2.1, (hback _ hquotation).1, ?_⟩
  exact (hdistinct _ inscription hquotation legible_inscription (fun h => nomatch h)).1

end DesignTokens.Token

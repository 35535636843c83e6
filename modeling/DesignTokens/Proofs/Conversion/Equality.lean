import DesignTokens.Proofs.Conversion.Equations
import DesignTokens.Proofs.Decimal.Characters
import DesignTokens.Proofs.Rule.Tree
import DesignTokens.Proofs.Token.Equality

/-!
# Conversion of equal rules

Rules are equal by value: the zeros of both signs are equal, a number that is none is not equal to
itself, and the indexes of maps are not looked at. Equal rules may therefore differ, and so may their
tokens, but only in the channels of colours.

* `Binary64.tokenText_eq_of_beq`: equal numbers have the same text.
* `Rule.convert_related`: what relates copies of equal channels, and passes to containers, relates the
  tokens of equal rules.
* `Rule.convert_beq`: equal rules have equal tokens.
* `Rule.convert_eq_of_beq`: equal rules without colours have the same token.
-/

namespace DesignTokens

namespace Binary64

/-- Equal numbers have the same text in tokens, which does not show the sign of zero. -/
theorem tokenText_eq_of_beq {x y : Binary64} (h : x == y) : x.tokenText = y.tokenText := by
  cases x with
  | nan => exact nomatch h
  | infinite s =>
    cases y with
    | infinite t =>
      have hsign : (s == t) = true := h
      rw [eq_of_beq hsign]
    | nan | finite => exact nomatch h
  | finite x =>
    cases y with
    | finite y =>
      have hvalue : (x == y) = true := h
      rcases Finite.beq_iff.mp hvalue with rfl | ⟨hx, hy⟩
      · rfl
      · rw [tokenText_of_isZero hx, tokenText_of_isZero hy]
    | nan | infinite => exact nomatch h

end Binary64

/-- Equal tokens are equal under a name. -/
theorem Token.underName_beq {token other : Token} (h : token == other) (name : String) :
    underName name token == underName name other := by
  by_cases hname : name = ""
  · rw [hname]
    exact h
  · have hempty : (∅ : Mapping) == ∅ := OrderedMap.beq_iff.mpr .nil
    rw [underName_of_ne hname, underName_of_ne hname, mapping_beq]
    exact OrderedMap.consistent_empty.beq_insert OrderedMap.consistent_empty hempty name h

namespace Rule

/-- Lists are equal when their items are, one by one. -/
theorem list_beq (as bs : List Rule) : (list as == list bs) = (as == bs) := by
  show beqItems as bs = (as == bs)
  induction as generalizing bs with
  | nil => cases bs <;> rfl
  | cons a as ih =>
    cases bs with
    | nil => rfl
    | cons b bs =>
      rw [beqItems, ih]
      rfl

/-- Maps are equal as rules when they are as maps. -/
theorem map_beq (m n : OrderedMap Rule) : (map m == map n) = (m == n) := by
  obtain ⟨⟨as⟩, slots⟩ := m
  obtain ⟨⟨bs⟩, slots'⟩ := n
  show beqChildren as bs = (as == bs)
  induction as generalizing bs with
  | nil => cases bs <;> rfl
  | cons a as ih =>
    cases bs with
    | nil => rfl
    | cons b bs =>
      rw [beqChildren, ih]
      rfl

/-- Equal rules are of one kind. -/
theorem kind_eq_of_beq {a b : Rule} (h : a == b) : a.kind = b.kind := by
  cases a <;> cases b <;> first | rfl | exact nomatch h

variable (settings : Settings)

/-- The tokens of equal rules are related by whatever relates every token to itself, sequences with
related items, mappings with related entries, and copies of equal channels of a colour. -/
theorem convert_related {R : Token → Token → Prop} (hself : ∀ token, R token token)
    (hsequence : ∀ {as bs}, List.Forall₂ R as bs → R (.sequence as) (.sequence bs))
    (hmapping : ∀ {as bs}, Entries.Related R as bs → R (.mapping (.ofList as)) (.mapping (.ofList bs)))
    {a b : Rule} (hcolor : ∀ channels other, .color channels ∈ a.preorder → channels == other →
      R (.mapping channels) (.mapping other))
    (h : a == b) : R (a.convert settings "") (b.convert settings "") := by
  induction a generalizing b with
  | string value =>
    cases b with
    | string other =>
      have hvalue : (value == other) = true := h
      rw [eq_of_beq hvalue]
      exact hself _
    | _ => exact absurd h Bool.false_ne_true
  | number value unit =>
    cases b with
    | number other unit' =>
      have hparts : (value == other && unit == unit') = true := h
      obtain ⟨hvalue, hunit⟩ := (Bool.and_eq_true _ _).mp hparts
      rw [convert_number, convert_number, Binary64.tokenText_eq_of_beq hvalue, eq_of_beq hunit]
      exact hself _
    | _ => exact absurd h Bool.false_ne_true
  | list items ih =>
    cases b with
    | list others =>
      rw [list_beq, list_beq_iff] at h
      have hitem : ∀ item ∈ items, ∀ other, item == other →
          R (item.convert settings "") (other.convert settings "") := by
        intro item hmem other hother
        refine ih item hmem (fun channels copy hinside => hcolor channels copy ?_) hother
        rw [preorder_list]
        exact .tail _ (List.mem_flatMap.mpr ⟨item, hmem, hinside⟩)
      rw [convert_list, convert_list, Token.underName_empty, Token.underName_empty]
      apply hsequence
      rw [List.forall₂_map_left_iff, List.forall₂_map_right_iff]
      exact ((List.forall₂_and_left _ _).mpr ⟨hitem, h⟩).imp fun item other hboth =>
        hboth.1 other hboth.2
    | _ => exact absurd h Bool.false_ne_true
  | map children ih =>
    cases b with
    | map others =>
      rw [map_beq, OrderedMap.beq_iff] at h
      have hchild : ∀ child ∈ children.toList, ∀ other, child.2 == other →
          R (child.2.convert settings "") (other.convert settings "") := by
        intro child hmem other hother
        refine ih child hmem (fun channels copy hinside => hcolor channels copy ?_) hother
        rw [preorder_map]
        exact .tail _ (List.mem_flatMap.mpr ⟨child, hmem, hinside⟩)
      -- The mappings are written anew from the keys, which are the same in both.
      rw [convert_map, convert_map, ite_self, Token.underName_empty, Token.underName_empty]
      apply hmapping
      rw [Entries.Related, convertedChildren, convertedChildren, List.forall₂_map_left_iff,
        List.forall₂_map_right_iff]
      exact ((List.forall₂_and_left _ _).mpr ⟨hchild, h⟩).imp fun child other hboth =>
        ⟨hboth.2.1, hboth.1 other.2 hboth.2.2⟩
    | _ => exact absurd h Bool.false_ne_true
  | color channels =>
    cases b with
    | color other =>
      have hchannels : (channels == other) = true := h
      rw [convert_color, convert_color]
      exact hcolor channels other (.head _) hchannels
    | _ => exact absurd h Bool.false_ne_true
  | boolean value =>
    cases b with
    | boolean other =>
      have hvalue : (value == other) = true := h
      rw [eq_of_beq hvalue]
      exact hself _
    | _ => exact absurd h Bool.false_ne_true

variable {a b : Rule}

/-- Equal rules have equal tokens under every name. -/
theorem convert_beq (h : a == b) (name : String) :
    a.convert settings name == b.convert settings name := by
  have hempty : a.convert settings "" == b.convert settings "" := by
    refine convert_related settings (R := fun t u => t == u) Token.beq_self ?_ ?_ ?_ h
    · intro as bs hitems
      rwa [Token.sequence_beq, list_beq_iff]
    · intro as bs hentries
      rw [Token.mapping_beq]
      exact OrderedMap.beq_ofList hentries
    · intro channels other _ hchannels
      rwa [Token.mapping_beq]
  -- The name is kept or dropped alike, because the rules are of one kind.
  rw [convert_eq_underName, convert_eq_underName settings name b, kind_eq_of_beq h]
  exact Token.underName_beq hempty _

/-- Equal rules have the same token if there is no colour in them. -/
theorem convert_eq_of_beq (h : a == b) (hcolor : ∀ channels, .color channels ∉ a.preorder)
    (name : String) : a.convert settings name = b.convert settings name := by
  have hempty : a.convert settings "" = b.convert settings "" := by
    refine convert_related settings (R := Eq) (fun _ => rfl) ?_ ?_ ?_ h
    · intro as bs hitems
      rw [List.forall₂_eq_eq_eq] at hitems
      exact congrArg Token.sequence hitems
    · exact fun hentries => by rw [hentries.eq]
    · exact fun channels _ hmem => absurd hmem (hcolor channels)
  rw [convert_eq_underName, convert_eq_underName settings name b, kind_eq_of_beq h, hempty]

end Rule

end DesignTokens

import DesignTokens.Proofs.OrderedMap.Entries
import Mathlib.Data.List.Forall2

/-!
# Equality of maps

Maps are equal when they have the same keys in the same order and equal values under each of them.
Equality does not look at the index, and values that are equal need not be the same.

* `Entries.Related`: the same keys in the same order, with values that are related in some way.
* `Entries.Related.insert`, `Entries.Related.insertMany`, `Entries.Related.lookup`: related lists stay
  related when they are written alike, and the same look-up finds related values.
* `OrderedMap.beq_iff`: equality of maps in terms of their entries.
* `OrderedMap.Consistent.beq_insertMany`, `OrderedMap.Consistent.get?_beq`: the same of equal maps
  that are consistent.
-/

namespace DesignTokens

/-- Lists are equal exactly when their items are, one by one. -/
theorem list_beq_iff {α : Type} [BEq α] {as bs : List α} :
    as == bs ↔ List.Forall₂ (fun a b => a == b) as bs := by
  induction as generalizing bs with
  | nil => cases bs <;> simp
  | cons a as ih => cases bs <;> simp [ih]

namespace Entries

variable {α : Type} {R : α → α → Prop} {as bs : List (String × α)}

/-- The lists have the same keys in the same order, and the values under each key are related. -/
def Related (R : α → α → Prop) (as bs : List (String × α)) : Prop :=
  List.Forall₂ (fun a b => a.1 = b.1 ∧ R a.2 b.2) as bs

/-- A list is related to itself if each of its values is. -/
theorem related_self (h : ∀ entry ∈ as, R entry.2 entry.2) : Related R as as :=
  List.forall₂_same.mpr fun entry hentry => ⟨rfl, h entry hentry⟩

/-- Lists with the same values under the same keys are the same. -/
theorem Related.eq (h : Related Eq as bs) : as = bs := by
  have hentries : List.Forall₂ Eq as bs := h.imp fun a b hab => Prod.ext hab.1 hab.2
  rwa [List.forall₂_eq_eq_eq] at hentries

/-- Related lists stay related when related values are written to the same key. -/
theorem Related.insert (h : Related R as bs) (key : String) {v w : α} (hvw : R v w) :
    Related R (Entries.insert key v as) (Entries.insert key w bs) := by
  induction h with
  | nil => exact .cons ⟨rfl, hvw⟩ .nil
  | @cons a b as bs hab hrest ih =>
    obtain ⟨k, old⟩ := a
    obtain ⟨k', old'⟩ := b
    obtain ⟨rfl, hold⟩ := hab
    -- Both entries in front have the key that is written, or neither has.
    by_cases hk : k = key
    · rw [Entries.insert, Entries.insert, if_pos hk, if_pos hk]
      exact .cons ⟨rfl, hvw⟩ hrest
    · rw [Entries.insert, Entries.insert, if_neg hk, if_neg hk]
      exact .cons ⟨rfl, hold⟩ ih

/-- Related lists stay related when related lists are written into them. -/
theorem Related.insertMany (h : Related R as bs) {cs ds : List (String × α)}
    (hmore : Related R cs ds) :
    Related R (Entries.insertMany as cs) (Entries.insertMany bs ds) := by
  induction hmore generalizing as bs with
  | nil => exact h
  | @cons c d cs ds hcd _ ih =>
    obtain ⟨key, v⟩ := c
    obtain ⟨key', w⟩ := d
    obtain ⟨rfl, hvw⟩ := hcd
    exact ih (h.insert key hvw)

/-- The same look-up in related lists finds related values, or finds nothing in both. -/
theorem Related.lookup (h : Related R as bs) (key : String) :
    Option.Rel R (as.lookup key) (bs.lookup key) := by
  induction h with
  | nil => exact .none
  | @cons a b as bs hab _ ih =>
    obtain ⟨k, old⟩ := a
    obtain ⟨k', old'⟩ := b
    obtain ⟨rfl, hold⟩ := hab
    rw [lookup_cons_eq_ite, lookup_cons_eq_ite]
    split
    · exact .some hold
    · exact ih

end Entries

namespace OrderedMap

variable {α : Type} [BEq α] {m n : OrderedMap α}

/-- Maps are equal exactly when they have the same keys in the same order, with equal values. -/
theorem beq_iff : m == n ↔ Entries.Related (fun v w => v == w) m.toList n.toList := by
  have hpair : ∀ a b : String × α, a == b ↔ a.1 = b.1 ∧ a.2 == b.2 := by
    intro a b
    show (a.1 == b.1 && a.2 == b.2) = true ↔ _
    simp
  show m.toList == n.toList ↔ _
  rw [list_beq_iff, Entries.Related]
  simp only [hpair]

/-- Equal maps stay equal when equal values are written to the same keys in the same order. -/
theorem Consistent.beq_insertMany (hm : m.Consistent) (hn : n.Consistent) (h : m == n)
    {as bs : List (String × α)} (hmore : Entries.Related (fun v w => v == w) as bs) :
    m.insertMany as == n.insertMany bs := by
  rw [beq_iff, hm.toList_insertMany, hn.toList_insertMany]
  exact (beq_iff.mp h).insertMany hmore

/-- Maps of lists with the same keys and equal values are equal. -/
theorem beq_ofList {as bs : List (String × α)} (h : Entries.Related (fun v w => v == w) as bs) :
    ofList as == ofList bs :=
  consistent_empty.beq_insertMany consistent_empty (beq_iff.mpr .nil) h

/-- Equal maps stay equal when equal values are written to one key. -/
theorem Consistent.beq_insert (hm : m.Consistent) (hn : n.Consistent) (h : m == n) (key : String)
    {v w : α} (hvw : v == w) : m.insert key v == n.insert key w := by
  have hmore : Entries.Related (fun v w => v == w) [(key, v)] [(key, w)] :=
    .cons ⟨rfl, hvw⟩ .nil
  exact hm.beq_insertMany hn h hmore

/-- Equal maps stay equal when equal maps are merged into them. -/
theorem Consistent.beq_merge (hm : m.Consistent) (hn : n.Consistent) (h : m == n)
    {c d : OrderedMap α} (hcd : c == d) : m.merge c == n.merge d :=
  hm.beq_insertMany hn h (beq_iff.mp hcd)

/-- Values that are related, or both missing, are equal if related values are. -/
theorem beq_of_rel {v w : Option α} (h : Option.Rel (fun v w => v == w) v w) : v == w := by
  cases h with
  | some hvw => exact hvw
  | none => rfl

/-- Equal maps have equal values at every key. -/
theorem Consistent.get?_beq (hm : m.Consistent) (hn : n.Consistent) (h : m == n) (key : String) :
    m.get? key == n.get? key := by
  rw [hm.get?_eq_lookup, hn.get?_eq_lookup]
  exact beq_of_rel ((beq_iff.mp h).lookup key)

/-- A write to the same key of equal maps replaces equal values. -/
theorem Consistent.getThenInsert?_beq (hm : m.Consistent) (hn : n.Consistent) (h : m == n)
    (key : String) (v w : α) : (m.getThenInsert? key v).1 == (n.getThenInsert? key w).1 := by
  rw [hm.getThenInsert?_fst, hn.getThenInsert?_fst]
  exact beq_of_rel ((beq_iff.mp h).lookup key)

end OrderedMap

end DesignTokens

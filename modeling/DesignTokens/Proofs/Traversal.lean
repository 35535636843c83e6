import Mathlib.Data.List.Forall2

/-!
# Traversals that can fail

A list is gone through from the front, and the first failure ends the traversal.

* `failure?`: the error of a result that has failed.
* `mapM_eq_ok_iff`: a traversal succeeds with the results of all its steps.
* `exists_of_mem_of_mapM`, `mapM_map_eq_ok`: from a result to its step, and from all steps to the
  results.
* `map_eq_map_of_mapM`: what each result shows of its input, all results show of all inputs.
* `failure?_mapM`: a traversal fails as the first of its steps that fails.
* `mapM_eq_error_iff`: where that step is in the list.
-/

namespace DesignTokens

variable {ε α β γ : Type}

/-- The error of a result, if it is a failure. -/
def failure? : Except ε α → Option ε
  | .ok _ => none
  | .error error => some error

theorem failure?_eq_some_iff {result : Except ε α} {error : ε} :
    failure? result = some error ↔ result = .error error := by
  cases result <;> simp [failure?]

theorem failure?_eq_none_iff {result : Except ε α} :
    failure? result = none ↔ ∃ value, result = .ok value := by
  cases result <;> simp [failure?]

/-- A mapped result is a success exactly when the result is one. -/
theorem map_eq_ok_iff {f : α → β} {result : Except ε α} {b : β} :
    result.map f = .ok b ↔ ∃ a, result = .ok a ∧ f a = b := by
  cases result <;> simp [Except.map]

/-- What is done with a successful result does not make it fail. -/
@[simp]
theorem failure?_map (f : α → β) (result : Except ε α) :
    failure? (result.map f) = failure? result := by
  cases result <;> rfl

/-- A traversal succeeds exactly when all its steps do, and with their results. -/
theorem mapM_eq_ok_iff {f : α → Except ε β} {xs : List α} {ys : List β} :
    xs.mapM f = .ok ys ↔ List.Forall₂ (fun x y => f x = .ok y) xs ys := by
  induction xs generalizing ys with
  | nil =>
    rw [List.mapM_nil, List.forall₂_nil_left_iff]
    exact ⟨fun h => (Except.ok.inj h).symm, fun h => congrArg _ h.symm⟩
  | cons x xs ih =>
    rw [List.mapM_cons]
    constructor
    · -- A traversal that succeeds has no failure at the front and none in the rest.
      intro h
      cases hx : f x with
      | error error =>
        rw [hx] at h
        exact nomatch h
      | ok y =>
        cases hxs : xs.mapM f with
        | error error =>
          rw [hx, hxs] at h
          exact nomatch h
        | ok rest =>
          rw [hx, hxs] at h
          cases h
          exact .cons hx (ih.mp hxs)
    · intro h
      cases h with
      | cons hx hxs =>
        rw [hx, ih.mpr hxs]
        rfl

/-- Every result of a traversal is that of one of its steps. -/
theorem exists_of_mem_of_mapM {f : α → Except ε β} {xs : List α} {ys : List β}
    (h : xs.mapM f = .ok ys) {y : β} (hy : y ∈ ys) : ∃ x ∈ xs, f x = .ok y := by
  rw [mapM_eq_ok_iff] at h
  induction h with
  | nil => exact nomatch hy
  | @cons x first xs rest hfirst _ ih =>
    rcases List.mem_cons.mp hy with rfl | hrest
    · exact ⟨x, List.mem_cons_self, hfirst⟩
    · obtain ⟨x', hx', hresult⟩ := ih hrest
      exact ⟨x', List.mem_cons_of_mem x hx', hresult⟩

/-- A traversal of what was written from results gives the results back, if each step does. -/
theorem mapM_map_eq_ok {f : α → Except ε β} {write : β → α} {ys : List β}
    (h : ∀ y ∈ ys, f (write y) = .ok y) : (ys.map write).mapM f = .ok ys := by
  rw [mapM_eq_ok_iff, List.forall₂_map_left_iff, List.forall₂_same]
  exact h

/-- What each step's result shows of its input, the results show of the inputs. -/
theorem map_eq_map_of_mapM {f : α → Except ε β} {xs : List α} {ys : List β}
    (h : xs.mapM f = .ok ys) {g : β → γ} {g' : α → γ}
    (hstep : ∀ x ∈ xs, ∀ y, f x = .ok y → g y = g' x) : ys.map g = xs.map g' := by
  rw [mapM_eq_ok_iff] at h
  induction h with
  | nil => rfl
  | @cons x y xs ys hxy _ ih =>
    rw [List.map_cons, List.map_cons, hstep x List.mem_cons_self y hxy,
      ih fun x hx => hstep x (List.mem_cons_of_mem _ hx)]

/-- A traversal fails as the first of its steps that fails. -/
theorem failure?_mapM (f : α → Except ε β) (xs : List α) :
    failure? (xs.mapM f) = xs.findSome? fun x => failure? (f x) := by
  induction xs with
  | nil => rfl
  | cons x xs ih =>
    rw [List.mapM_cons, List.findSome?_cons, ← ih]
    -- Past a success at the front, the traversal fails exactly as its rest does.
    cases hx : f x with
    | error error => rfl
    | ok y => cases hxs : xs.mapM f <;> rfl

/-- A traversal fails exactly where one of its steps does after others that succeed. -/
theorem mapM_eq_error_iff {f : α → Except ε β} {xs : List α} {error : ε} :
    xs.mapM f = .error error ↔
      ∃ before x after, xs = before ++ x :: after ∧
        (∀ earlier ∈ before, ∃ y, f earlier = .ok y) ∧ f x = .error error := by
  rw [← failure?_eq_some_iff, failure?_mapM, List.findSome?_eq_some_iff]
  simp only [failure?_eq_some_iff, failure?_eq_none_iff, and_comm]

/-- A search through lists in a row is a search through the lists one after the other. -/
theorem findSome?_flatMap_eq {f : α → Option γ} {lists : α → List β} {g : β → Option γ}
    {xs : List α} (h : ∀ x ∈ xs, f x = (lists x).findSome? g) :
    xs.findSome? f = (xs.flatMap lists).findSome? g := by
  induction xs with
  | nil => rfl
  | cons x xs ih =>
    rw [List.findSome?_cons, List.flatMap_cons, List.findSome?_append, h x List.mem_cons_self,
      ih fun x hx => h x (List.mem_cons_of_mem _ hx)]
    cases (lists x).findSome? g <;> rfl

end DesignTokens

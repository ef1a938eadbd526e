import Mathlib.Logic.Function.Basic

/-!
# Objects under identifiers

What is found where one object has been written, and where nothing has been.
-/

namespace Objects

variable {α β : Type*} [DecidableEq α] {f : α → Option β} {a a' : α} {x y : β}

theorem update_eq_some (hget : Function.update f a (some x) a' = some y) :
    a' = a ∧ y = x ∨ a' ≠ a ∧ f a' = some y := by
  by_cases heq : a' = a
  · subst heq
    rw [Function.update_self, Option.some.injEq] at hget
    exact .inl ⟨rfl, hget.symm⟩
  · rw [Function.update_of_ne heq] at hget
    exact .inr ⟨heq, hget⟩

theorem update_ne_none (hsome : f a' ≠ none) : Function.update f a (some x) a' ≠ none := by
  by_cases heq : a' = a
  · subst heq
    simp
  · rwa [Function.update_of_ne heq]

/-- An object at a fresh identifier hides no other. -/
theorem update_fresh (hfresh : f a = none) (hget : f a' = some y) :
    Function.update f a (some x) a' = some y := by
  refine (Function.update_of_ne ?_ _ _).trans hget
  rintro rfl
  rw [hfresh] at hget
  cases hget

theorem update_eq_none (hsome : f a ≠ none) (hnone : f a' = none) :
    Function.update f a (some x) a' = none := by
  refine (Function.update_of_ne ?_ _ _).trans hnone
  rintro rfl
  exact hsome hnone

end Objects

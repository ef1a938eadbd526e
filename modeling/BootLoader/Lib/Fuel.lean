import Mathlib.Order.Filter.AtTopBot.Basic

/-!
# Loops with fuel

A loop that ends does so with all fuel from some amount on. One round takes one unit of it.
-/

open Filter

namespace Fuel

variable {P Q : Nat → Prop}

theorem eventually_succ (h : ∀ᶠ fuel in atTop, P (fuel + 1)) : ∀ᶠ fuel in atTop, P fuel := by
  rw [← map_add_atTop_eq_nat 1]
  exact h

/-- A loop that ends in its first round. -/
theorem eventually_of_succ (h : ∀ fuel, P (fuel + 1)) : ∀ᶠ fuel in atTop, P fuel :=
  eventually_succ (.of_forall h)

/-- One round before a loop that ends. -/
theorem eventually_round (h : ∀ᶠ fuel in atTop, P fuel) (hround : ∀ fuel, P fuel → Q (fuel + 1)) :
    ∀ᶠ fuel in atTop, Q fuel :=
  eventually_succ (h.mono hround)

end Fuel

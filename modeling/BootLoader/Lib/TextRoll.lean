import Mathlib.Logic.Function.Basic
import Mathlib.Tactic.SplitIfs

/-!
# Text on a roll of paper

Characters go from left to right in rows of `cols`, and there is always one more row.
-/

structure TextRoll (α : Type*) where
  row : Nat
  column : Nat
  cell : Nat → Nat → Option α

namespace TextRoll

variable {α : Type*} {t : TextRoll α} {cols r c : Nat}

def blank : TextRoll α := ⟨0, 0, fun _ _ => none⟩

def write (t : TextRoll α) (r c : Nat) (a : α) : Nat → Nat → Option α :=
  Function.update t.cell r (Function.update (t.cell r) c (some a))

/-- A full row is continued on the next one. -/
def put (cols : Nat) (t : TextRoll α) (a : α) : TextRoll α :=
  if t.column < cols then ⟨t.row, t.column + 1, t.write t.row t.column a⟩
  else ⟨t.row + 1, 1, t.write (t.row + 1) 0 a⟩

def newline (t : TextRoll α) : TextRoll α := ⟨t.row + 1, 0, t.cell⟩

/-- Nothing is written from the position on. -/
def Clean (t : TextRoll α) : Prop :=
  ∀ r c, t.row < r ∨ t.row = r ∧ t.column ≤ c → t.cell r c = none

theorem write_apply (t : TextRoll α) (r c : Nat) (a : α) (r' c' : Nat) :
    t.write r c a r' c' = if r' = r ∧ c' = c then some a else t.cell r' c' := by
  unfold write
  by_cases hr : r' = r
  · subst hr
    by_cases hc : c' = c
    · subst hc
      rw [Function.update_self, Function.update_self, if_pos ⟨rfl, rfl⟩]
    · rw [Function.update_self, Function.update_of_ne hc, if_neg fun h => hc h.2]
  · rw [Function.update_of_ne hr, if_neg fun h => hr h.1]

theorem clean_blank : (blank : TextRoll α).Clean := fun _ _ _ => rfl

theorem Clean.put (h : t.Clean) (cols : Nat) (a : α) : (t.put cols a).Clean := by
  intro r c hbehind
  unfold TextRoll.put at hbehind ⊢
  split_ifs at hbehind ⊢ with hroom
  all_goals
    dsimp only at hbehind ⊢
    rw [write_apply, if_neg (by omega)]
    exact h r c (by omega)

theorem Clean.newline (h : t.Clean) : t.newline.Clean := by
  intro r c hbehind
  unfold TextRoll.newline at hbehind ⊢
  dsimp only at hbehind ⊢
  exact h r c (by omega)

end TextRoll

import Mathlib.Data.List.Chain
import Mathlib.Data.List.GetD
import Mathlib.Logic.Function.Iterate

/-!
# Lists spelled by a successor function

A linked list whose links are kept apart from its elements, in one function for all of them.
-/

namespace Successors

variable {α : Type*} {succ : α → α} {l : List α} {stop : α}

/-- From each element `succ` leads to the next, and from the last one to `stop`. -/
def Follows (succ : α → α) (l : List α) (stop : α) : Prop :=
  (l ++ [stop]).IsChain fun a b => succ a = b

theorem Follows.succ_getD (h : Follows succ l stop) {i : Nat} (hi : i < l.length) :
    succ (l.getD i stop) = l.getD (i + 1) stop := by
  have hlink := List.isChain_iff_getElem.mp h i (by simp; omega)
  rw [List.getElem_append_left hi] at hlink
  rw [List.getD_eq_getElem _ _ hi, hlink]
  by_cases hnext : i + 1 < l.length
  · rw [List.getElem_append_left hnext, List.getD_eq_getElem _ _ hnext]
  · rw [List.getElem_append_right (by omega), List.getD_eq_default _ _ (by omega)]
    simp

theorem Follows.tail {a : α} (h : Follows succ (a :: l) stop) : Follows succ l stop :=
  List.IsChain.tail h

/-- Going `i` links on from the first element leads to the element `i`. -/
theorem Follows.iterate_eq (h : Follows succ l stop) {i : Nat} (hi : i ≤ l.length) :
    succ^[i] (l.getD 0 stop) = l.getD i stop := by
  induction i with
  | zero => rfl
  | succ i ih =>
    rw [Function.iterate_succ_apply', ih (by omega)]
    exact h.succ_getD (by omega)

/-- Where `stop` leads to itself, that is so however far one goes. -/
theorem Follows.iterate_eq_of_stop (h : Follows succ l stop) (hstop : succ stop = stop) (i : Nat) :
    succ^[i] (l.getD 0 stop) = l.getD i stop := by
  induction i with
  | zero => rfl
  | succ i ih =>
    rw [Function.iterate_succ_apply', ih]
    by_cases hi : i < l.length
    · exact h.succ_getD hi
    · rw [List.getD_eq_default _ _ (by omega), List.getD_eq_default _ _ (by omega), hstop]

/-- Every list without repetitions is spelled by some function. -/
theorem exists_follows [DecidableEq α] (hnodup : l.Nodup) (hstop : stop ∉ l) :
    ∃ succ, Follows succ l stop ∧ succ stop = stop := by
  induction l with
  | nil => exact ⟨fun _ => stop, List.isChain_singleton _, rfl⟩
  | cons a rest ih =>
    obtain ⟨ha, hrest⟩ := List.nodup_cons.mp hnodup
    rw [List.mem_cons, not_or] at hstop
    obtain ⟨hne, hstop⟩ := hstop
    obtain ⟨succ, hfollows, hself⟩ := ih hrest hstop
    refine ⟨Function.update succ a (rest.getD 0 stop), ?_, ?_⟩
    · have hold : (rest ++ [stop]).IsChain
          fun x y => Function.update succ a (rest.getD 0 stop) x = y := by
        apply List.IsChain.imp_of_mem_imp ?_ hfollows
        intro x y hx _ hxy
        have hother : x ≠ a := by
          rintro rfl
          rcases List.mem_append.mp hx with hx | hx
          · exact ha hx
          · exact hne (List.mem_singleton.mp hx).symm
        rw [Function.update_of_ne hother, hxy]
      cases rest with
      | nil => simp [Follows]
      | cons b rest => exact List.isChain_cons_cons.mpr ⟨by simp, hold⟩
    · rw [Function.update_of_ne hne, hself]

end Successors

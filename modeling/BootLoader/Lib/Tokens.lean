import Mathlib.Data.List.Basic

/-!
# Tokens of a list

The non-empty pieces between the separators of a list.
-/

namespace Tokens

variable {α : Type*} [DecidableEq α]

def tokens (sep : α) (l : List α) : List (List α) := (l.splitOn sep).filter (· ≠ [])

variable {sep : α}

@[simp] theorem tokens_nil : tokens sep [] = [] := by simp [tokens]

@[simp] theorem tokens_cons_sep (l : List α) : tokens sep (sep :: l) = tokens sep l := by
  have hsplit := List.splitOn_append_cons_self_of_not_mem (List.not_mem_nil (a := sep)) l
  rw [List.nil_append] at hsplit
  simp [tokens, hsplit]

theorem tokens_replicate_append (sep : α) (k : Nat) (l : List α) :
    tokens sep (List.replicate k sep ++ l) = tokens sep l := by
  induction k with
  | zero => rfl
  | succ k ih => rw [List.replicate_succ, List.cons_append, tokens_cons_sep, ih]

theorem tokens_self {c : List α} (hne : c ≠ []) (hsep : sep ∉ c) : tokens sep c = [c] := by
  simp [tokens, List.splitOn_eq_singleton hsep, hne]

theorem tokens_append_sep {c : List α} (hne : c ≠ []) (hsep : sep ∉ c) (l : List α) :
    tokens sep (c ++ sep :: l) = c :: tokens sep l := by
  simp [tokens, List.splitOn_append_cons_self_of_not_mem hsep, hne]

/-- A piece without a separator, and what stands behind it. -/
theorem exists_piece (sep : α) (l : List α) :
    ∃ c tail, l = c ++ tail ∧ sep ∉ c ∧ (tail = [] ∨ ∃ rest, tail = sep :: rest) := by
  induction l with
  | nil => exact ⟨[], [], rfl, List.not_mem_nil, .inl rfl⟩
  | cons x l ih =>
    by_cases hx : x = sep
    · exact ⟨[], x :: l, rfl, List.not_mem_nil, .inr ⟨l, by rw [hx]⟩⟩
    · obtain ⟨c, tail, rfl, hsep, htail⟩ := ih
      refine ⟨x :: c, tail, rfl, ?_, htail⟩
      rw [List.mem_cons, not_or]
      exact ⟨fun h => hx h.symm, hsep⟩

/-- A list is separators only, or its first token stands behind some separators. -/
theorem exists_first_token (sep : α) (l : List α) :
    ∃ k, l = List.replicate k sep ∨ ∃ c tail, l = List.replicate k sep ++ (c ++ tail) ∧
      c ≠ [] ∧ sep ∉ c ∧ (tail = [] ∨ ∃ rest, tail = sep :: rest) := by
  induction l with
  | nil => exact ⟨0, .inl rfl⟩
  | cons x l ih =>
    by_cases hx : x = sep
    · subst hx
      obtain ⟨k, rfl | ⟨c, tail, rfl, hrest⟩⟩ := ih
      · exact ⟨k + 1, .inl rfl⟩
      · exact ⟨k + 1, .inr ⟨c, tail, rfl, hrest⟩⟩
    · obtain ⟨c, tail, rfl, hsep, htail⟩ := exists_piece sep l
      refine ⟨0, .inr ⟨x :: c, tail, rfl, List.cons_ne_nil x c, ?_, htail⟩⟩
      rw [List.mem_cons, not_or]
      exact ⟨fun h => hx h.symm, hsep⟩

theorem tokens_separators (k : Nat) : tokens sep (List.replicate k sep) = [] := by
  have h := tokens_replicate_append sep k []
  rwa [List.append_nil, tokens_nil] at h

theorem length_tokens_le (l : List α) : (tokens sep l).length ≤ l.length + 1 := by
  have hsplit : (l.splitOn sep).length ≤ l.length + 1 := by
    induction l with
    | nil => simp
    | cons x l ih =>
      rw [List.splitOn_cons_eq_if_modifyHead]
      split
      · simpa using ih
      · rw [List.length_modifyHead, List.length_cons]
        omega
  exact Nat.le_trans (List.length_filter_le _ _) hsplit

end Tokens

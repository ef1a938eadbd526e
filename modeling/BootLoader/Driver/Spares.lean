import BootLoader.Driver.World

/-!
# What a call spares

The blocks handed out before a call that it neither frees nor hands out again.
-/

namespace BootLoader.Driver

variable {env : Env} {w₀ w w' : World} {b : Nat}

/-! ## What an allocation does -/

theorem alloc_refused (halloc : w.alloc env = (w', none)) :
    env.allocs w.allocs = false ∧ w'.used = w.used ∧ w'.bytes = w.bytes := by
  unfold World.alloc at halloc
  cases hserved : env.allocs w.allocs with
  | true => simp [hserved] at halloc
  | false =>
    simp only [hserved, Bool.false_eq_true, if_false, Prod.mk.injEq, and_true] at halloc
    subst halloc
    exact ⟨rfl, rfl, rfl⟩

theorem alloc_handedOut {c : Nat} (halloc : w.alloc env = (w', some c)) :
    env.allocs w.allocs = true ∧ c = w.next ∧ w'.next = w.next + 1 ∧
      w'.used = fun b => if b = w.next then true else w.used b := by
  unfold World.alloc at halloc
  cases hserved : env.allocs w.allocs with
  | true =>
    simp only [hserved, if_true, Prod.mk.injEq, Option.some.injEq] at halloc
    obtain ⟨rfl, rfl⟩ := halloc
    exact ⟨rfl, rfl, rfl, rfl⟩
  | false => simp [hserved] at halloc

theorem used_free {c : Nat} (hne : c ≠ b) (h : w.used b = true) : (w.free c).used b = true :=
  (if_neg (Ne.symm hne)).trans h

/-! ## The blocks of before -/

/-- What was handed out before is in use or not, as it was. -/
structure Spares (w w' : World) : Prop where
  next_le : w.next ≤ w'.next
  used_eq : ∀ b < w.next, w'.used b = w.used b

theorem Spares.refl (w : World) : Spares w w := ⟨Nat.le_refl _, fun _ _ => rfl⟩

theorem Spares.trans {w'' : World} (h : Spares w w') (h' : Spares w' w'') : Spares w w'' :=
  ⟨h.next_le.trans h'.next_le, fun b hb =>
    (h'.used_eq b (Nat.lt_of_lt_of_le hb h.next_le)).trans (h.used_eq b hb)⟩

theorem Spares.congr (h : Spares w₀ w) (hnext : w'.next = w.next) (hused : w'.used = w.used) :
    Spares w₀ w' :=
  ⟨hnext ▸ h.next_le, hused ▸ h.used_eq⟩

theorem Spares.alloc (h : Spares w₀ w) (env : Env) :
    (∃ w', w.alloc env = (w', none) ∧ Spares w₀ w') ∨
      ∃ w', w.alloc env = (w', some w.next) ∧ Spares w₀ w' := by
  unfold World.alloc
  split_ifs
  · refine .inr ⟨_, rfl, h.next_le.trans (Nat.le_succ _), fun b hb => ?_⟩
    have hle := h.next_le
    exact (if_neg (by omega)).trans (h.used_eq b hb)
  · exact .inl ⟨_, rfl, h.congr rfl rfl⟩

theorem spares_alloc {block : Option Nat} (halloc : w.alloc env = (w', block)) : Spares w w' := by
  rcases (Spares.refl w).alloc env with ⟨w₁, hw₁, h⟩ | ⟨w₁, hw₁, h⟩
  · obtain ⟨rfl, -⟩ := Prod.mk.inj (hw₁.symm.trans halloc)
    exact h
  · obtain ⟨rfl, -⟩ := Prod.mk.inj (hw₁.symm.trans halloc)
    exact h

theorem Spares.read (h : Spares w₀ w) (env : Env) (block lba size : Nat) :
    Spares w₀ (w.read env block lba size).1 := by
  unfold World.read
  dsimp only
  split_ifs
  · exact h.congr rfl rfl
  · exact h.congr rfl rfl

theorem Spares.free (h : Spares w₀ w) (hb : w₀.next ≤ b) : Spares w₀ (w.free b) :=
  ⟨h.next_le, fun c hc => (if_neg (by omega)).trans (h.used_eq c hc)⟩

theorem Spares.freeAll {blocks : List (Option Nat)} (h : Spares w₀ w)
    (hblocks : ∀ b, some b ∈ blocks → w₀.next ≤ b) : Spares w₀ (w.freeAll blocks) := by
  induction blocks generalizing w with
  | nil => exact h
  | cons block blocks ih =>
    have hrest := fun b hb => hblocks b (List.mem_cons_of_mem _ hb)
    cases block with
    | none => exact ih h hrest
    | some b => exact ih (h.free (hblocks b List.mem_cons_self)) hrest

/-! ## The blocks of later -/

/-- A block is free unless it was handed out. -/
def Fresh (w : World) : Prop := ∀ b, w.next ≤ b → w.used b = false

theorem Fresh.lt (h : Fresh w) (hused : w.used b = true) : b < w.next := by
  by_contra hle
  rw [h b (Nat.le_of_not_lt hle)] at hused
  contradiction

theorem Fresh.congr (h : Fresh w) (hnext : w'.next = w.next) (hused : w'.used = w.used) :
    Fresh w' := by
  intro b hle
  rw [hused]
  exact h b (hnext ▸ hle)

theorem Fresh.alloc {c : Nat} (h : Fresh w) (halloc : w.alloc env = (w', some c)) : Fresh w' := by
  obtain ⟨-, -, hnext, hused⟩ := alloc_handedOut halloc
  intro b hle
  rw [hused]
  exact (if_neg (by omega)).trans (h b (by omega))

theorem Fresh.read (h : Fresh w) (env : Env) (block lba size : Nat) :
    Fresh (w.read env block lba size).1 := by
  unfold World.read
  dsimp only
  split_ifs
  · exact h.congr rfl rfl
  · exact h.congr rfl rfl

end BootLoader.Driver

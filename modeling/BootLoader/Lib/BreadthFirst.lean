import Mathlib.Data.List.Basic

/-!
# Breadth first

The levels below some roots, and a walk with a queue that takes only so many elements.
-/

namespace BreadthFirst

variable {α : Type*} (children : α → List α)

/-- What is `n` steps below the roots. -/
def level : Nat → List α → List α
  | 0, roots => roots
  | n + 1, roots => level n (roots.flatMap children)

/-- The first `n` levels, one behind the other. -/
def order : Nat → List α → List α
  | 0, _ => []
  | n + 1, roots => roots ++ order n (roots.flatMap children)

/-- The elements that are taken out of a queue, for which there is room for `room` more. -/
def walk : Nat → List α → Nat → List α
  | 0, _, _ => []
  | _ + 1, [], _ => []
  | fuel + 1, a :: rest, room =>
    a :: walk fuel (rest ++ (children a).take room) (room - (children a).length)

variable {children} {n : Nat} {roots xs ys : List α} {a : α}

/-! ## Levels -/

theorem level_append (n : Nat) (xs ys : List α) :
    level children n (xs ++ ys) = level children n xs ++ level children n ys := by
  induction n generalizing xs ys with
  | zero => rfl
  | succ n ih => rw [level, level, level, List.flatMap_append, ih]

theorem level_flatMap (n : Nat) (roots : List α) :
    level children n (roots.flatMap children) = (level children n roots).flatMap children := by
  induction n generalizing roots with
  | zero => rfl
  | succ n ih => rw [level, level, ih]

theorem level_eq_nil_iff :
    level children n roots = [] ↔ ∀ a ∈ roots, level children n [a] = [] := by
  induction roots with
  | nil =>
    have hnil : level children n [] = [] := by
      induction n with
      | zero => rfl
      | succ n ih => exact ih
    simp [hnil]
  | cons a roots ih =>
    rw [← List.singleton_append, level_append, List.append_eq_nil_iff, ih]
    simp

theorem level_children (h : level children n roots = []) (ha : a ∈ roots) :
    level children n (children a) = [] := by
  have hone := level_eq_nil_iff.mp h a ha
  have hnext := @level_flatMap _ children n [a]
  rw [hone, List.flatMap_singleton] at hnext
  exact hnext

theorem order_append (n : Nat) (xs ys : List α) :
    order children n (xs ++ ys) ++ level children n xs =
      xs ++ order children n (ys ++ xs.flatMap children) := by
  induction n generalizing xs ys with
  | zero => simp [order, level]
  | succ n ih =>
    rw [order, order, level, List.flatMap_append, List.flatMap_append]
    simp only [List.append_assoc]
    rw [ih]

theorem order_cons (h : level children n [a] = []) (rest : List α) :
    order children n (a :: rest) = a :: order children n (rest ++ children a) := by
  have happend := @order_append _ children n [a] rest
  rwa [h, List.append_nil, List.flatMap_singleton, List.singleton_append,
    List.singleton_append] at happend

/-! ## What is reached -/

theorem mem_order_of_root (h : level children n roots = []) (ha : a ∈ roots) :
    a ∈ order children n roots := by
  cases n with
  | zero =>
    rw [level] at h
    rw [h] at ha
    cases ha
  | succ n =>
    rw [order]
    exact List.mem_append_left _ ha

theorem mem_order_of_mem {b : α} (h : level children n roots = [])
    (ha : a ∈ order children n roots) (hb : b ∈ children a) : b ∈ order children n roots := by
  induction n generalizing roots with
  | zero => cases ha
  | succ n ih =>
    rw [order, List.mem_append] at ha ⊢
    rcases ha with hroot | hbelow
    · exact .inr (mem_order_of_root h (List.mem_flatMap.mpr ⟨a, hroot, hb⟩))
    · exact .inr (ih h hbelow)

theorem forall_mem_order {P : α → Prop} (hroots : ∀ a ∈ roots, P a)
    (hchildren : ∀ a, P a → ∀ b ∈ children a, P b) : ∀ a ∈ order children n roots, P a := by
  induction n generalizing roots with
  | zero => simp [order]
  | succ n ih =>
    intro a ha
    rw [order, List.mem_append] at ha
    rcases ha with hroot | hbelow
    · exact hroots a hroot
    · refine ih (fun b hb => ?_) a hbelow
      obtain ⟨c, hc, hbc⟩ := List.mem_flatMap.mp hb
      exact hchildren c (hroots c hc) b hbc

/-! ## The walk -/

/-- The queue delivers the first elements of the levels, as many as it takes. -/
theorem walk_eq {fuel room : Nat} {queue : List α} (h : level children n queue = [])
    (hfuel : queue.length + room ≤ fuel) :
    walk children fuel queue room = (order children n queue).take (queue.length + room) := by
  induction fuel generalizing queue room with
  | zero => simp [walk, show queue.length + room = 0 by omega]
  | succ fuel ih =>
    cases queue with
    | nil =>
      have hnil : order children n [] = [] := by
        rw [List.eq_nil_iff_forall_not_mem]
        exact forall_mem_order (P := fun _ => False) (by simp) (by simp)
      simp [walk, hnil]
    | cons a rest =>
      have hrest : level children n rest = [] :=
        level_eq_nil_iff.mpr fun b hb => level_eq_nil_iff.mp h b (List.mem_cons_of_mem _ hb)
      have hbelow := level_children h List.mem_cons_self
      have hqueue : level children n (rest ++ (children a).take room) = [] := by
        rw [level_append, hrest, List.nil_append]
        exact level_eq_nil_iff.mpr fun b hb =>
          level_eq_nil_iff.mp hbelow b (List.mem_of_mem_take hb)
      have hlength : (rest ++ (children a).take room).length + (room - (children a).length) =
          rest.length + room := by
        rw [List.length_append, List.length_take]
        omega
      rw [List.length_cons] at hfuel
      rw [walk, ih hqueue (by omega), hlength, List.length_cons,
        show rest.length + 1 + room = rest.length + room + 1 by omega,
        order_cons (level_eq_nil_iff.mp h a List.mem_cons_self), List.take_succ_cons]
      rcases Nat.le_total (children a).length room with hfits | hfull
      · rw [List.take_of_length_le hfits]
      · -- The room ends among the children, and nothing behind them is taken.
        obtain ⟨k, rfl⟩ : ∃ k, n = k + 1 := by
          refine Nat.exists_eq_succ_of_ne_zero ?_
          rintro rfl
          cases h
        have hfront : ∀ front : List α, room ≤ front.length →
            (order children (k + 1) (rest ++ front)).take (rest.length + room) =
              rest ++ front.take room := by
          intro front hlong
          rw [order, List.take_append_of_le_length (by rw [List.length_append]; omega),
            List.take_length_add_append]
        rw [hfront _ hfull, hfront _ (by rw [List.length_take]; omega), List.take_take,
          Nat.min_self]

end BreadthFirst

import Mathlib.Data.Int.Order.Basic
import Mathlib.Data.List.Lex
import Mathlib.Order.Lattice

/-!
# Three-way comparison

A number that tells by its sign how two values are ordered, and sequences with a terminator, which
are compared up to the first place where they differ.
-/

namespace ThreeWay

variable {α β : Type*} [LinearOrder β] {a b c x y : β} {l l' : List β} {r r' r'' : Int}

/-- `r` is 0 for equal values, and else its sign tells their order. -/
structure Tells (r : Int) (a b : β) : Prop where
  zero : r = 0 ↔ a = b
  neg : r < 0 ↔ a < b

theorem Tells.nonpos (h : Tells r a b) : r ≤ 0 ↔ a ≤ b := by
  rw [le_iff_lt_or_eq, le_iff_lt_or_eq, h.neg, h.zero]

theorem Tells.pos (h : Tells r a b) : 0 < r ↔ b < a := by
  rw [← not_le, h.nonpos, not_le]

theorem Tells.swap (h : Tells r a b) : Tells (-r) b a where
  zero := by rw [Int.neg_eq_zero, h.zero, eq_comm]
  neg := by rw [Int.neg_neg_iff_pos, h.pos]

theorem Tells.trans (h : Tells r a b) (h' : Tells r' b c) (h'' : Tells r'' a c) (hr : r ≤ 0)
    (hr' : r' ≤ 0) : r'' ≤ 0 :=
  h''.nonpos.mpr ((h.nonpos.mp hr).trans (h'.nonpos.mp hr'))

theorem tells_sub (m n : Int) : Tells (m - n) m n where
  zero := Int.sub_eq_zero
  neg := by omega

theorem tells_self_iff : Tells r a a ↔ r = 0 := by
  constructor
  · exact fun h => h.zero.mpr rfl
  · rintro rfl
    exact ⟨iff_of_true rfl rfl, iff_of_false (lt_irrefl 0) (lt_irrefl a)⟩

theorem tells_cons_self : Tells r (a :: l) (a :: l') ↔ Tells r l l' := by
  have hneg : a :: l < a :: l' ↔ l < l' := List.cons_lt_cons_self
  constructor
  · rintro ⟨hzero, hsign⟩
    exact ⟨by rw [hzero, List.cons_inj_right], by rw [hsign, hneg]⟩
  · rintro ⟨hzero, hsign⟩
    exact ⟨by rw [hzero, List.cons_inj_right], by rw [hsign, hneg]⟩

theorem tells_cons_of_ne (hne : x ≠ y) : Tells r (x :: l) (y :: l') ↔ Tells r x y := by
  have hneg : x :: l < y :: l' ↔ x < y := by
    rw [List.cons_lt_cons_iff, or_iff_left fun h => hne h.1]
  have hzero : x :: l = y :: l' ↔ x = y :=
    iff_of_false (fun h => hne (List.cons.inj h).1) hne
  constructor
  · exact fun h => ⟨h.zero.trans hzero, h.neg.trans hneg⟩
  · exact fun h => ⟨h.zero.trans hzero.symm, h.neg.trans hneg.symm⟩

/-! ## Sequences with a terminator -/

/-- No more than the limit, where there is one. -/
def cut : Option Nat → List α → List α
  | none, t => t
  | some n, t => t.take n

/-- What is compared: the keys up to the terminator. -/
def keys (key : α → β) (nul : α) (limit : Option Nat) (t : List α) : List β :=
  cut limit ((t ++ [nul]).map key)

/-- Where a scan stops that goes on while the keys are the same and neither sequence has ended. -/
def stopAt (key : α → β) : Option Nat → List α → List α → Nat
  | _, [], _ => 0
  | _, _ :: _, [] => 0
  | limit, a :: t, b :: u =>
    if key a = key b ∧ limit.map (· - 1) ≠ some 0 then stopAt key (limit.map (· - 1)) t u + 1 else 0

variable {key : α → β} {nul d e : α} {limit : Option Nat} {t u : List α} {j k n : Nat}

theorem cut_cons (h : limit ≠ some 0) (d : α) (t : List α) :
    cut limit (d :: t) = d :: cut (limit.map (· - 1)) t := by
  rcases limit with _ | _ | n
  · rfl
  · exact absurd rfl h
  · rfl

theorem cut_map {γ : Type*} (f : α → γ) (limit : Option Nat) (t : List α) :
    cut limit (t.map f) = (cut limit t).map f := by
  cases limit with
  | none => rfl
  | some n => exact List.map_take.symm

theorem cut_zero (t : List α) : cut (some 0) t = [] := rfl

theorem stopAt_comm (limit : Option Nat) (t u : List α) :
    stopAt key limit t u = stopAt key limit u t := by
  induction t generalizing limit u with
  | nil => cases u <;> rfl
  | cons d t ih =>
    cases u with
    | nil => rfl
    | cons e u =>
      simp only [stopAt, ih _ u, eq_comm (a := key d)]

theorem stopAt_le (limit : Option Nat) (t u : List α) : stopAt key limit t u ≤ t.length := by
  induction t generalizing limit u with
  | nil => cases u <;> exact le_rfl
  | cons d t ih =>
    cases u with
    | nil => exact Nat.zero_le _
    | cons e u =>
      rw [stopAt]
      split_ifs
      · exact Nat.succ_le_succ (ih _ u)
      · exact Nat.zero_le _

theorem stopAt_lt (hn : n ≠ 0) (t u : List α) : stopAt key (some n) t u < n := by
  induction t generalizing n u with
  | nil => exact Nat.pos_of_ne_zero hn
  | cons d t ih =>
    cases u with
    | nil => exact Nat.pos_of_ne_zero hn
    | cons e u =>
      rw [stopAt]
      split_ifs with hgo
      · have hrest := ih (n := n - 1) (fun h => hgo.2 (by rw [Option.map_some, h])) u
        rw [Option.map_some]
        omega
      · exact Nat.pos_of_ne_zero hn

theorem key_eq_of_lt_stopAt (h : j < stopAt key limit t u) :
    key (t.getD j nul) = key (u.getD j nul) := by
  induction t generalizing limit u j with
  | nil => exact absurd h (by simp [stopAt])
  | cons d t ih =>
    cases u with
    | nil => exact absurd h (Nat.not_lt_zero j)
    | cons e u =>
      rw [stopAt] at h
      split_ifs at h with hgo
      · cases j with
        | zero => exact hgo.1
        | succ j => exact ih (Nat.lt_of_succ_lt_succ h)
      · exact absurd h (Nat.not_lt_zero j)

/-- The scan gets as far as the keys are the same, the sequences go on and the limit allows. -/
theorem le_stopAt (ht : k ≤ t.length) (hu : k ≤ u.length)
    (heq : ∀ j < k, key (t.getD j nul) = key (u.getD j nul)) (hlimit : ∀ n ∈ limit, k < n) :
    k ≤ stopAt key limit t u := by
  induction k generalizing limit t u with
  | zero => exact Nat.zero_le _
  | succ k ih =>
    obtain _ | ⟨d, t⟩ := t
    · exact absurd ht (Nat.not_succ_le_zero k)
    obtain _ | ⟨e, u⟩ := u
    · exact absurd hu (Nat.not_succ_le_zero k)
    have hleft : ∀ n ∈ limit.map (· - 1), k < n := by
      intro n hn
      obtain ⟨n', hn', rfl⟩ := Option.map_eq_some_iff.mp hn
      have := hlimit n' hn'
      omega
    rw [stopAt, if_pos ⟨heq 0 (Nat.succ_pos k), fun h => Nat.not_lt_zero k (hleft 0 h)⟩]
    refine Nat.succ_le_succ (ih (Nat.le_of_succ_le_succ ht) (Nat.le_of_succ_le_succ hu) ?_ hleft)
    exact fun j hj => heq (j + 1) (Nat.succ_lt_succ hj)

/-- Where the scan stops at the same keys, the limit is reached or both sequences are at an end. -/
theorem stopAt_of_key_eq (hlimit : limit ≠ some 0) (ht : ∀ d ∈ t, key d ≠ key nul)
    (hu : ∀ d ∈ u, key d ≠ key nul)
    (h : key (t.getD (stopAt key limit t u) nul) = key (u.getD (stopAt key limit t u) nul)) :
    limit = some (stopAt key limit t u + 1) ∨
      t.length = stopAt key limit t u ∧ u.length = stopAt key limit t u := by
  induction t generalizing limit u with
  | nil =>
    cases u with
    | nil => exact .inr ⟨rfl, rfl⟩
    | cons e u => exact absurd h.symm (hu e List.mem_cons_self)
  | cons d t ih =>
    cases u with
    | nil => exact absurd h (ht d List.mem_cons_self)
    | cons e u =>
      rw [stopAt] at h ⊢
      split_ifs at h ⊢ with hgo
      · rcases ih hgo.2 (fun d hd => ht d (List.mem_cons_of_mem _ hd))
          (fun d hd => hu d (List.mem_cons_of_mem _ hd)) h with hleft | ⟨ht, hu⟩
        · obtain ⟨n, hn, hpred⟩ := Option.map_eq_some_iff.mp hleft
          exact .inl (hn.trans (congrArg some (by omega)))
        · exact .inr ⟨congrArg (· + 1) ht, congrArg (· + 1) hu⟩
      · have hlast : limit.map (· - 1) = some 0 := by
          by_contra hleft
          exact hgo ⟨h, hleft⟩
        obtain ⟨n, rfl, hpred⟩ := Option.map_eq_some_iff.mp hlast
        have hn : n ≠ 0 := fun hn => hlimit (congrArg some hn)
        exact .inl (congrArg some (by omega))

theorem stopAt_of_length_lt (h : t.length < n) : stopAt key (some n) t u = stopAt key none t u := by
  induction t generalizing n u with
  | nil => rfl
  | cons d t ih =>
    cases u with
    | nil => rfl
    | cons e u =>
      rw [List.length_cons] at h
      have hleft : n - 1 ≠ 0 := by omega
      simp [stopAt, hleft, ih (n := n - 1) (u := u) (by omega)]

/-- **The scan decides.** A number tells how the keys up to the terminator are ordered exactly if it
tells how the two keys are where the scan stops. -/
theorem tells_keys_iff (hlimit : limit ≠ some 0) (ht : ∀ d ∈ t, key d ≠ key nul)
    (hu : ∀ d ∈ u, key d ≠ key nul) :
    Tells r (keys key nul limit t) (keys key nul limit u) ↔
      Tells r (key (t.getD (stopAt key limit t u) nul))
        (key (u.getD (stopAt key limit t u) nul)) := by
  induction t generalizing limit u with
  | nil =>
    cases u with
    | nil => simp only [stopAt, keys, List.getD_nil, tells_self_iff]
    | cons e u =>
      have hne : key nul ≠ key e := (hu e List.mem_cons_self).symm
      simp only [keys, List.nil_append, List.cons_append, List.map_cons, cut_cons hlimit]
      exact tells_cons_of_ne hne
  | cons d t ih =>
    cases u with
    | nil =>
      have hne : key d ≠ key nul := ht d List.mem_cons_self
      simp only [keys, List.nil_append, List.cons_append, List.map_cons, cut_cons hlimit]
      exact tells_cons_of_ne hne
    | cons e u =>
      simp only [keys, List.cons_append, List.map_cons, cut_cons hlimit, stopAt]
      split_ifs with hgo
      · rw [hgo.1, tells_cons_self]
        exact ih hgo.2 (fun d hd => ht d (List.mem_cons_of_mem _ hd))
          fun d hd => hu d (List.mem_cons_of_mem _ hd)
      · by_cases hkey : key d = key e
        · have hlast : limit.map (· - 1) = some 0 := by
            by_contra hleft
            exact hgo ⟨hkey, hleft⟩
          simp only [hlast, cut_zero, hkey, List.getD_cons_zero, tells_self_iff]
        · exact tells_cons_of_ne hkey

omit [LinearOrder β] in
theorem take_terminated_eq_iff (hl : x ∉ l) (hl' : x ∉ l') :
    (l ++ [x]).take n = (l' ++ [x]).take n ↔ l.take n = l'.take n := by
  induction l generalizing l' n with
  | nil =>
    cases n with
    | zero => rfl
    | succ n =>
      cases l' with
      | nil => exact iff_of_true rfl rfl
      | cons b l' =>
        rw [List.mem_cons, not_or] at hl'
        simp [hl'.1]
  | cons a l ih =>
    rw [List.mem_cons, not_or] at hl
    cases n with
    | zero => rfl
    | succ n =>
      cases l' with
      | nil => simp [Ne.symm hl.1]
      | cons b l' =>
        rw [List.mem_cons, not_or] at hl'
        simp only [List.cons_append, List.take_succ_cons, List.cons.injEq, ih hl.2 hl'.2]

omit [LinearOrder β] in
/-- The terminators tell no sequences apart that are the same without them. -/
theorem keys_eq_iff (ht : ∀ d ∈ t, key d ≠ key nul) (hu : ∀ d ∈ u, key d ≠ key nul) :
    keys key nul limit t = keys key nul limit u ↔
      cut limit (t.map key) = cut limit (u.map key) := by
  simp only [keys, List.map_append, List.map_singleton]
  cases limit with
  | none => exact List.append_left_inj _
  | some n =>
    refine take_terminated_eq_iff ?_ ?_
    · exact fun h => (List.mem_map.mp h).elim fun d hd => ht d hd.1 hd.2
    · exact fun h => (List.mem_map.mp h).elim fun d hd => hu d hd.1 hd.2

end ThreeWay

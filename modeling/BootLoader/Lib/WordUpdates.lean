import BootLoader.Lib.ByteMemory
import Mathlib.Data.List.Perm.Basic

/-!
# Adding to words of a memory

Words that are the same one or apart may be added to in any order; each ends up with the sum.
-/

open ByteMemory

namespace WordUpdates

/-- `amount` is added to the word of `width` bytes at `place`. -/
structure Update where
  place : Nat
  width : Nat
  amount : Nat
  deriving DecidableEq, Repr

def Update.apply (m : Mem) (u : Update) : Mem :=
  writeLE m u.place u.width (readLE m u.place u.width + u.amount)

def Update.Same (u v : Update) : Prop := u.place = v.place ∧ u.width = v.width

def Update.Apart (u v : Update) : Prop :=
  u.place + u.width ≤ v.place ∨ v.place + v.width ≤ u.place

def Update.SameOrApart (u v : Update) : Prop := u.Same v ∨ u.Apart v

variable {m : Mem} {u v : Update} {us vs : List Update}

theorem apply_outside {x : Nat} (h : x < u.place ∨ u.place + u.width ≤ x) :
    u.apply m x = m x := by
  unfold Update.apply
  exact writeLE_outside m _ h

theorem readLE_apply_same (h : v.Same u) :
    readLE (v.apply m) u.place u.width = (readLE m u.place u.width + v.amount) % 256 ^ u.width := by
  obtain ⟨hplace, hwidth⟩ := h
  unfold Update.apply
  rw [hplace, hwidth, readLE_writeLE_same]

theorem readLE_apply_apart (h : v.Apart u) :
    readLE (v.apply m) u.place u.width = readLE m u.place u.width := by
  unfold Update.apply
  exact readLE_writeLE_apart m _ h.symm

/-- A memory is settled by one of its words and by the bytes around it. -/
theorem eq_of_readLE {m m' : Mem} {a n : Nat} (hword : readLE m a n = readLE m' a n)
    (hother : ∀ x, x < a ∨ a + n ≤ x → m x = m' x) : m = m' := by
  funext x
  by_cases hx : x < a ∨ a + n ≤ x
  · exact hother x hx
  · obtain ⟨i, hi, rfl⟩ : ∃ i < n, x = a + i := ⟨x - a, by omega, by omega⟩
    exact readLE_inj hword i hi

theorem apply_comm (h : u.SameOrApart v) : v.apply (u.apply m) = u.apply (v.apply m) := by
  rcases h with hsame | hapart
  · obtain ⟨hplace, hwidth⟩ := hsame
    apply eq_of_readLE (a := v.place) (n := v.width)
    · have hu : u.Same v := ⟨hplace, hwidth⟩
      have hv : v.Same v := ⟨rfl, rfl⟩
      rw [readLE_apply_same hv, readLE_apply_same hu, readLE_apply_same hu, readLE_apply_same hv]
      rw [Nat.mod_add_mod, Nat.mod_add_mod, Nat.add_right_comm]
    · intro x hx
      have hx' : x < u.place ∨ u.place + u.width ≤ x := by omega
      rw [apply_outside hx, apply_outside hx', apply_outside hx', apply_outside hx]
  · apply eq_of_readLE (a := v.place) (n := v.width)
    · have hv : v.Same v := ⟨rfl, rfl⟩
      rw [readLE_apply_same hv, readLE_apply_apart hapart, readLE_apply_apart hapart,
        readLE_apply_same hv]
    · intro x hx
      rw [apply_outside hx]
      by_cases hin : x < u.place ∨ u.place + u.width ≤ x
      · rw [apply_outside hin, apply_outside hin, apply_outside hx]
      · have hword : readLE (v.apply m) u.place u.width = readLE m u.place u.width :=
          readLE_apply_apart hapart.symm
        unfold Update.apply at hword ⊢
        rw [hword, writeLE, writeLE, if_pos (by omega), if_pos (by omega)]

theorem foldl_outside {x : Nat} (h : ∀ u ∈ us, x < u.place ∨ u.place + u.width ≤ x) :
    us.foldl Update.apply m x = m x := by
  induction us generalizing m with
  | nil => rfl
  | cons u us ih =>
    rw [List.foldl_cons, ih fun v hv => h v (List.mem_cons_of_mem u hv)]
    exact apply_outside (h u List.mem_cons_self)

theorem readLE_foldl_apart (h : ∀ v ∈ us, v.Apart u) :
    readLE (us.foldl Update.apply m) u.place u.width = readLE m u.place u.width := by
  apply readLE_congr
  intro x hlow hhigh
  apply foldl_outside
  intro v hv
  rcases h v hv with hv | hv
  · exact Or.inr (by omega)
  · exact Or.inl (by omega)

/-- Words that are all apart get what is theirs. -/
theorem readLE_foldl_of_pairwise (h : us.Pairwise Update.Apart) (hu : u ∈ us) :
    readLE (us.foldl Update.apply m) u.place u.width =
      (readLE m u.place u.width + u.amount) % 256 ^ u.width := by
  induction us generalizing m with
  | nil => cases hu
  | cons v us ih =>
    obtain ⟨hhead, hrest⟩ := List.pairwise_cons.mp h
    rw [List.foldl_cons]
    rcases List.mem_cons.mp hu with rfl | hu
    · rw [readLE_foldl_apart fun w hw => (hhead w hw).symm, readLE_apply_same ⟨rfl, rfl⟩]
    · rw [ih hrest hu, readLE_apply_apart (hhead u hu)]

/-- **Sums.** A word ends up with what is added to it, whatever else is done in between. -/
theorem readLE_foldl (h : ∀ v ∈ us, v.SameOrApart u) (hwidth : 0 < u.width)
    (hwidths : ∀ v ∈ us, 0 < v.width) :
    readLE (us.foldl Update.apply m) u.place u.width =
      (readLE m u.place u.width +
        ((us.filter (·.place = u.place)).map Update.amount).sum) % 256 ^ u.width := by
  induction us generalizing m with
  | nil => exact (Nat.mod_eq_of_lt (readLE_lt m _ _)).symm
  | cons v us ih =>
    have hrest := ih (m := v.apply m) (fun w hw => h w (List.mem_cons_of_mem v hw))
      fun w hw => hwidths w (List.mem_cons_of_mem v hw)
    rw [List.foldl_cons, hrest, List.filter_cons]
    rcases h v List.mem_cons_self with hsame | hapart
    · rw [readLE_apply_same hsame, Nat.mod_add_mod, if_pos (by simpa using hsame.1),
        List.map_cons, List.sum_cons, Nat.add_assoc]
    · have hne : v.place ≠ u.place := by
        have hpos := hwidths v List.mem_cons_self
        unfold Update.Apart at hapart
        omega
      rw [readLE_apply_apart hapart, if_neg (by simpa using hne)]

/-- **Any order.** -/
theorem foldl_perm (hperm : us.Perm vs) (h : ∀ u ∈ us, ∀ v ∈ us, u.SameOrApart v) :
    us.foldl Update.apply m = vs.foldl Update.apply m :=
  hperm.foldl_eq' (fun u hu v hv _ => apply_comm (h u hu v hv)) m

end WordUpdates

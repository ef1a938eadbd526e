import BootLoader.Lib.RoundUp

/-!
# Placing things one after another

Two ways to walk over things that have a size and an alignment. `place` puts each at the next
multiple of its own alignment. `reserve` adds up how much room to set aside, rounding each to
the largest alignment of the things before it.
-/

open RoundUp

namespace Packing

variable {α : Type*} (size align : α → Nat)

/-- Each thing with its start. -/
def place : Nat → List α → List (Nat × α)
  | _, [] => []
  | pos, x :: rest =>
    (roundUp pos (align x), x) :: place (roundUp pos (align x) + size x) rest

/-- One past the last thing. -/
def placeEnd : Nat → List α → Nat
  | pos, [] => pos
  | pos, x :: rest => placeEnd (roundUp pos (align x) + size x) rest

/-- Room for all, `a` being the largest alignment so far. -/
def reserve : Nat → Nat → List α → Nat
  | pos, _, [] => pos
  | pos, a, x :: rest => reserve (roundUp pos a + size x) (max a (align x)) rest

def maxAlign (a : Nat) (xs : List α) : Nat := xs.foldl (fun a x => max a (align x)) a

variable {size align} {pos pos' a : Nat} {xs : List α}

/-! ## Placing -/

theorem le_placeEnd (hpos : ∀ x ∈ xs, 0 < align x) : pos ≤ placeEnd size align pos xs := by
  induction xs generalizing pos with
  | nil => exact le_rfl
  | cons x rest ih =>
    have hround := le_roundUp (x := pos) (hpos x List.mem_cons_self)
    have hrest : roundUp pos (align x) + size x ≤ placeEnd size align _ rest :=
      ih fun y hy => hpos y (List.mem_cons_of_mem _ hy)
    rw [placeEnd]
    omega

theorem place_bounds (hpos : ∀ x ∈ xs, 0 < align x) {p : Nat × α}
    (hp : p ∈ place size align pos xs) :
    pos ≤ p.1 ∧ p.1 + size p.2 ≤ placeEnd size align pos xs ∧ align p.2 ∣ p.1 ∧ p.2 ∈ xs := by
  induction xs generalizing pos with
  | nil => cases hp
  | cons x rest ih =>
    have hrest : ∀ y ∈ rest, 0 < align y := fun y hy => hpos y (List.mem_cons_of_mem _ hy)
    have hround := le_roundUp (x := pos) (hpos x List.mem_cons_self)
    rw [place] at hp
    rw [placeEnd]
    rcases List.mem_cons.mp hp with rfl | hp
    · exact ⟨hround, le_placeEnd hrest, dvd_roundUp _ _, List.mem_cons_self⟩
    · obtain ⟨hlow, hend, hdvd, hmem⟩ := ih hrest hp
      exact ⟨by omega, hend, hdvd, List.mem_cons_of_mem _ hmem⟩

theorem place_pairwise (hpos : ∀ x ∈ xs, 0 < align x) :
    (place size align pos xs).Pairwise fun p q => p.1 + size p.2 ≤ q.1 := by
  induction xs generalizing pos with
  | nil => exact .nil
  | cons x rest ih =>
    have hrest : ∀ y ∈ rest, 0 < align y := fun y hy => hpos y (List.mem_cons_of_mem _ hy)
    exact List.pairwise_cons.mpr ⟨fun q hq => (place_bounds hrest hq).1, ih hrest⟩

theorem placeEnd_le {n : Nat} (hpos : pos ≤ n)
    (h : ∀ p ∈ place size align pos xs, p.1 + size p.2 ≤ n) : placeEnd size align pos xs ≤ n := by
  induction xs generalizing pos with
  | nil => exact hpos
  | cons x rest ih =>
    exact ih (h _ List.mem_cons_self) fun p hp => h p (List.mem_cons_of_mem _ hp)

theorem placeEnd_map {β : Type*} (f : β → α) (ys : List β) :
    placeEnd size align pos (ys.map f) =
      placeEnd (fun y => size (f y)) (fun y => align (f y)) pos ys := by
  induction ys generalizing pos with
  | nil => rfl
  | cons y rest ih => exact ih

/-! ## Setting aside -/

theorem le_maxAlign (a : Nat) (xs : List α) : a ≤ maxAlign align a xs := by
  induction xs generalizing a with
  | nil => exact le_rfl
  | cons x rest ih => exact (le_max_left _ _).trans (ih _)

theorem le_maxAlign_of_mem {x : α} (hx : x ∈ xs) : align x ≤ maxAlign align a xs := by
  induction xs generalizing a with
  | nil => cases hx
  | cons y rest ih =>
    rcases List.mem_cons.mp hx with rfl | hx
    · exact (le_max_right _ _).trans (le_maxAlign _ rest)
    · exact ih hx

theorem maxAlign_two_pow {n : Nat} (ha : ∃ k < n, a = 2 ^ k)
    (hxs : ∀ x ∈ xs, align x = 0 ∨ ∃ k < n, align x = 2 ^ k) :
    ∃ k < n, maxAlign align a xs = 2 ^ k := by
  induction xs generalizing a with
  | nil => exact ha
  | cons x rest ih =>
    refine ih ?_ fun y hy => hxs y (List.mem_cons_of_mem _ hy)
    beta_reduce
    rcases le_total (align x) a with hle | hle
    · rwa [max_eq_left hle]
    · rw [max_eq_right hle]
      rcases hxs x List.mem_cons_self with hzero | hpow
      · obtain ⟨k, -, rfl⟩ := ha
        have := Nat.two_pow_pos k
        omega
      · exact hpow

theorem le_reserve (ha : 0 < a) : pos ≤ reserve size align pos a xs := by
  induction xs generalizing pos a with
  | nil => exact le_rfl
  | cons x rest ih =>
    have hround := le_roundUp (x := pos) ha
    have hrest : roundUp pos a + size x ≤ reserve size align _ (max a (align x)) rest :=
      ih (by omega)
    rw [reserve]
    omega

/-- A position at most `a` past a multiple of `a` rounds up to at most `b` past it. -/
theorem roundUp_le_past {j k r : Nat} (hr : 2 ^ j ∣ r) (h : pos ≤ r + 2 ^ j) :
    roundUp pos (2 ^ k) ≤ r + max (2 ^ j) (2 ^ k) := by
  rcases le_total k j with hkj | hjk
  · have hdvd : 2 ^ k ∣ r + 2 ^ j :=
      (Nat.dvd_add_right ((pow_dvd_pow 2 hkj).trans hr)).mpr (pow_dvd_pow 2 hkj)
    exact (roundUp_le_of_dvd (Nat.two_pow_pos k) hdvd h).trans (by omega)
  · rw [max_eq_right (Nat.pow_le_pow_right (by omega) hjk)]
    by_cases hle : pos ≤ r
    · exact (roundUp_mono _ hle).trans (le_of_lt (roundUp_lt_add (Nat.two_pow_pos k)))
    · -- `r` is `q` steps of `2 ^ k` and some steps of `2 ^ j`, so one more `2 ^ j` stays within
      -- the next.
      obtain ⟨t, rfl⟩ := hr
      obtain ⟨c, hc⟩ := pow_dvd_pow 2 hjk
      have hj := Nat.two_pow_pos j
      have hk := Nat.two_pow_pos k
      have hcpos : 0 < c := by
        rcases Nat.eq_zero_or_pos c with rfl | hpos
        · omega
        · exact hpos
      refine (roundUp_mono (2 ^ k) h).trans ?_
      have hstep : 2 ^ j * t + 2 ^ j ≤ 2 ^ k * (t / c + 1) := by
        rw [hc, mul_assoc, ← Nat.mul_succ]
        refine Nat.mul_le_mul_left _ ?_
        have hdiv := Nat.div_add_mod t c
        have hmod := Nat.mod_lt t hcpos
        rw [Nat.mul_add, Nat.mul_one]
        omega
      refine (roundUp_le_of_dvd hk (Nat.dvd_mul_right _ _) hstep).trans ?_
      have hle : 2 ^ k * (t / c) ≤ 2 ^ j * t := by
        rw [hc, mul_assoc]
        exact Nat.mul_le_mul_left _ (Nat.mul_div_le t c)
      rw [Nat.mul_add, Nat.mul_one]
      omega

/-- Placing some of the things never runs more than one alignment past what was set aside. -/
theorem placeEnd_le_reserve_add (keep : α → Bool) (ha : ∃ k, a = 2 ^ k)
    (hxs : ∀ x ∈ xs, align x = 0 ∨ ∃ k, align x = 2 ^ k)
    (hkeep : ∀ x ∈ xs, keep x = true → align x ≠ 0) (hpos : pos' ≤ pos + a) :
    placeEnd size align pos' (xs.filter keep) ≤
      reserve size align pos a xs + maxAlign align a xs := by
  induction xs generalizing pos pos' a with
  | nil => exact hpos
  | cons x rest ih =>
    obtain ⟨j, rfl⟩ := ha
    have hround := le_roundUp (x := pos) (Nat.two_pow_pos j)
    have hmax : ∃ k, max (2 ^ j) (align x) = 2 ^ k := by
      rcases hxs x List.mem_cons_self with hzero | ⟨k, hk⟩
      · exact ⟨j, by rw [hzero]; exact max_eq_left (Nat.zero_le _)⟩
      · rw [hk]
        rcases le_total (2 ^ j) (2 ^ k) with hle | hle
        · exact ⟨k, max_eq_right hle⟩
        · exact ⟨j, max_eq_left hle⟩
    have hstep : ∀ q, q ≤ roundUp pos (2 ^ j) + size x + max (2 ^ j) (align x) → _ := fun q =>
      ih hmax (fun y hy => hxs y (List.mem_cons_of_mem _ hy))
        (fun y hy => hkeep y (List.mem_cons_of_mem _ hy))
    rw [reserve, maxAlign, List.foldl_cons]
    by_cases hx : keep x = true
    · obtain ⟨k, hk⟩ := (hxs x List.mem_cons_self).resolve_left (hkeep x List.mem_cons_self hx)
      have hpast := roundUp_le_past (k := k) (dvd_roundUp pos (2 ^ j))
        (hpos.trans (by omega : pos + 2 ^ j ≤ roundUp pos (2 ^ j) + 2 ^ j))
      rw [List.filter_cons_of_pos hx, placeEnd]
      refine hstep _ ?_
      rw [hk]
      omega
    · rw [List.filter_cons_of_neg hx]
      refine hstep _ ?_
      omega

end Packing

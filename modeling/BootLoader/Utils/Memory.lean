import BootLoader.Lib.ByteMemory

/-!
# Copying and filling (`core/utils/string.c`)

Pointers are 32 bits wide and wrap.
-/

open ByteMemory

namespace BootLoader.Utils

/-- `while (n--) *d++ = *s++;` -/
def copyUp (m : Mem) (d s : Nat) : Nat → Mem
  | 0 => m
  | n + 1 => copyUp (store m d (m s)) ((d + 1) % 2 ^ 32) ((s + 1) % 2 ^ 32) n

/-- `while (n--) *--d = *--s;` -/
def copyDown (m : Mem) (d s : Nat) : Nat → Mem
  | 0 => m
  | n + 1 =>
    let d := (d + (2 ^ 32 - 1)) % 2 ^ 32
    let s := (s + (2 ^ 32 - 1)) % 2 ^ 32
    copyDown (store m d (m s)) d s n

def blMemcpy (m : Mem) (dest src n : Nat) : Mem :=
  if dest = 0 ∨ src = 0 then m
  else if dest < src then copyUp m dest src n
  else copyDown m ((dest + n) % 2 ^ 32) ((src + n) % 2 ^ 32) n

/-- `*d++ = c;`, `n` times. -/
def setUp (m : Mem) (d : Nat) (c : Byte) : Nat → Mem
  | 0 => m
  | n + 1 => setUp (store m d c) ((d + 1) % 2 ^ 32) c n

/-- `while (--n)` counts down before the first byte, so one byte less than `n` is set. -/
def blMemset (m : Mem) (s : Nat) (c : Byte) (n : Nat) : Mem :=
  if s = 0 then m else setUp m s c ((n + (2 ^ 32 - 1)) % 2 ^ 32)

variable {m : Mem} {d s n : Nat}

theorem copyUp_eq (hds : d < s) (hd : d + n ≤ 2 ^ 32) (hs : s + n ≤ 2 ^ 32) :
    copyUp m (d % 2 ^ 32) (s % 2 ^ 32) n = copyRange m d s n := by
  induction n generalizing m d s with
  | zero =>
    funext x
    rw [copyRange_outside _ _ (by omega)]
    rfl
  | succ n ih =>
    have hstep := ih (m := store m d (m s)) (show d + 1 < s + 1 by omega) (by omega) (by omega)
    rw [copyUp, Nat.mod_eq_of_lt (show d < 2 ^ 32 by omega),
      Nat.mod_eq_of_lt (show s < 2 ^ 32 by omega), hstep]
    funext x
    unfold copyRange
    -- The bytes still to be read lie above `d`, so the store does not reach them.
    split_ifs with hin hall hall
    · rw [store_other _ _ (by omega)]
      congr 1
      omega
    · omega
    · obtain rfl : x = d := by omega
      simp
    · exact store_other _ _ (by omega)

theorem copyDown_eq (hds : s ≤ d) (hd : d + n ≤ 2 ^ 32) :
    copyDown m ((d + n) % 2 ^ 32) ((s + n) % 2 ^ 32) n = copyRange m d s n := by
  induction n generalizing m with
  | zero =>
    funext x
    rw [copyRange_outside _ _ (by omega)]
    rfl
  | succ n ih =>
    have hdn : ((d + (n + 1)) % 2 ^ 32 + (2 ^ 32 - 1)) % 2 ^ 32 = (d + n) % 2 ^ 32 := by omega
    have hsn : ((s + (n + 1)) % 2 ^ 32 + (2 ^ 32 - 1)) % 2 ^ 32 = (s + n) % 2 ^ 32 := by omega
    rw [copyDown]
    simp only [hdn, hsn]
    rw [ih (by omega), Nat.mod_eq_of_lt (show d + n < 2 ^ 32 by omega),
      Nat.mod_eq_of_lt (show s + n < 2 ^ 32 by omega)]
    funext x
    unfold copyRange
    -- The bytes still to be read lie below `d + n`.
    split_ifs with hin hall hall
    · exact store_other _ _ (by omega)
    · omega
    · obtain rfl : x = d + n := by omega
      simp
    · exact store_other _ _ (by omega)

/-- The direction is chosen so that overlapping ranges are copied right. -/
theorem blMemcpy_eq (hdne : d ≠ 0) (hsne : s ≠ 0) (hd : d + n ≤ 2 ^ 32) (hs : s + n ≤ 2 ^ 32) :
    blMemcpy m d s n = copyRange m d s n := by
  rw [blMemcpy, if_neg (by omega)]
  split_ifs with hlt
  · rw [← copyUp_eq hlt hd hs]
    -- A range that starts at `2 ^ 32` is empty.
    rcases n with _ | n
    · rfl
    · rw [Nat.mod_eq_of_lt (show d < 2 ^ 32 by omega), Nat.mod_eq_of_lt (show s < 2 ^ 32 by omega)]
  · exact copyDown_eq (by omega) hd

/-! ## What is left alone, wherever the source is -/

theorem copyUp_outside {x : Nat} (hd : d + n ≤ 2 ^ 32) (hx : x < d ∨ d + n ≤ x) :
    copyUp m (d % 2 ^ 32) s n x = m x := by
  induction n generalizing m d s with
  | zero => rfl
  | succ n ih =>
    rw [copyUp, Nat.mod_eq_of_lt (show d < 2 ^ 32 by omega), ih (by omega) (by omega)]
    exact store_other _ _ (by omega)

theorem copyDown_outside {x : Nat} (hd : d + n ≤ 2 ^ 32) (hx : x < d ∨ d + n ≤ x) :
    copyDown m ((d + n) % 2 ^ 32) s n x = m x := by
  induction n generalizing m s with
  | zero => rfl
  | succ n ih =>
    have hdn : ((d + (n + 1)) % 2 ^ 32 + (2 ^ 32 - 1)) % 2 ^ 32 = (d + n) % 2 ^ 32 := by omega
    rw [copyDown]
    simp only [hdn]
    rw [ih (by omega) (by omega), Nat.mod_eq_of_lt (show d + n < 2 ^ 32 by omega)]
    exact store_other _ _ (by omega)

theorem blMemcpy_outside {x : Nat} (hd : d + n ≤ 2 ^ 32) (hx : x < d ∨ d + n ≤ x) :
    blMemcpy m d s n x = m x := by
  rw [blMemcpy]
  split_ifs
  · rfl
  · rcases Nat.lt_or_ge d (2 ^ 32) with hlt | hge
    · rw [← Nat.mod_eq_of_lt hlt]
      exact copyUp_outside hd hx
    · obtain rfl : n = 0 := by omega
      rfl
  · exact copyDown_outside hd hx

theorem setUp_outside {c : Byte} {x : Nat} (hd : d + n ≤ 2 ^ 32) (hx : x < d ∨ d + n ≤ x) :
    setUp m (d % 2 ^ 32) c n x = m x := by
  induction n generalizing m d with
  | zero => rfl
  | succ n ih =>
    rw [setUp, Nat.mod_eq_of_lt (show d < 2 ^ 32 by omega), ih (by omega) (by omega)]
    exact store_other _ _ (by omega)

theorem blMemset_outside {c : Byte} {x : Nat} (hn : n ≠ 0) (hd : d + n ≤ 2 ^ 32)
    (hx : x < d ∨ d + n ≤ x) : blMemset m d c n x = m x := by
  have hcount : (n + (2 ^ 32 - 1)) % 2 ^ 32 = n - 1 ∨ d = 0 := by omega
  rw [blMemset]
  split_ifs with hzero
  · rfl
  · rw [hcount.resolve_right hzero, ← Nat.mod_eq_of_lt (show d < 2 ^ 32 by omega)]
    exact setUp_outside (by omega) (by omega)

/-! ## All at once -/

/-- **A copy is a simultaneous one**, unless a pointer is null. -/
theorem blMemcpy_simultaneous (m : Mem) (dest src n : BitVec 32)
    (hdest : dest.toNat + n.toNat ≤ 2 ^ 32) (hsrc : src.toNat + n.toNat ≤ 2 ^ 32) :
    (dest ≠ 0 → src ≠ 0 →
      (∀ i < n.toNat, blMemcpy m dest.toNat src.toNat n.toNat (dest.toNat + i) =
        m (src.toNat + i)) ∧
      ∀ x, x < dest.toNat ∨ dest.toNat + n.toNat ≤ x →
        blMemcpy m dest.toNat src.toNat n.toNat x = m x) ∧
    (dest = 0 ∨ src = 0 → blMemcpy m dest.toNat src.toNat n.toNat = m) := by
  have hnull : ∀ p : BitVec 32, p.toNat = 0 ↔ p = 0 :=
    fun p => ⟨fun h => BitVec.eq_of_toNat_eq h, fun h => by rw [h]; rfl⟩
  constructor
  · intro hd hs
    rw [blMemcpy_eq (fun h => hd ((hnull dest).mp h)) (fun h => hs ((hnull src).mp h)) hdest hsrc]
    constructor
    · intro i hi
      exact copyRange_inside m src.toNat hi
    · intro x hx
      exact copyRange_outside m src.toNat hx
  · intro h
    unfold blMemcpy
    rw [if_pos]
    exact h.imp (hnull dest).mpr (hnull src).mpr

/-- Three bytes are moved up by one. -/
theorem blMemcpy_simultaneous_overlap :
    HasBytes (blMemcpy (ofPieces [(0x1000, [1, 2, 3])]) 0x1001 0x1000 3) 0x1001 [1, 2, 3] := by
  have hcopy := ((blMemcpy_simultaneous (ofPieces [(0x1000, [1, 2, 3])]) 0x1001 0x1000 3
    (by decide) (by decide)).1 (by decide) (by decide)).1
  exact ⟨(hcopy 0 (by decide)).trans (by decide), (hcopy 1 (by decide)).trans (by decide),
    (hcopy 2 (by decide)).trans (by decide), trivial⟩

/-- Nothing is copied to a null pointer. -/
theorem null_not_copied : ¬ ∀ (m : Mem) (dest src n : BitVec 32),
    dest.toNat + n.toNat ≤ 2 ^ 32 → src.toNat + n.toNat ≤ 2 ^ 32 →
      (∀ i < n.toNat, blMemcpy m dest.toNat src.toNat n.toNat (dest.toNat + i) =
        m (src.toNat + i)) ∧
      ∀ x, x < dest.toNat ∨ dest.toNat + n.toNat ≤ x →
        blMemcpy m dest.toNat src.toNat n.toNat x = m x := by
  intro h
  have hbyte := (h (store (fun _ => 0) 0x1000 1) 0 0x1000 1 (by decide) (by decide)).1 0 (by decide)
  exact absurd hbyte (by decide)

/-! ## What is filled -/

/-- The `n` bytes from `s` on, beyond the end of the address space too, are `c`, and no other byte
has changed. -/
structure Filled (m m' : Mem) (s n : Nat) (c : Byte) : Prop where
  filled : ∀ i < n, m' ((s + i) % 2 ^ 32) = c
  others : ∀ x < 2 ^ 32, (∀ i < n, x ≠ (s + i) % 2 ^ 32) → m' x = m x

/-- The bytes that `bl_memset` does not set, or should not, are `c` already: the last one; for no
bytes at all, all but the one before the first. -/
def UnsetRight (m : Mem) (s n : Nat) (c : Byte) : Prop :=
  if s = 0 then ∀ i < n, m i = c
  else if n = 0 then ∀ x < 2 ^ 32, (x + 1) % 2 ^ 32 ≠ s → m x = c
  else m ((s + (n - 1)) % 2 ^ 32) = c

variable {c : Byte}

theorem setUp_filled (hn : n < 2 ^ 32) : Filled m (setUp m (s % 2 ^ 32) c n) s n c := by
  induction n generalizing m s with
  | zero => exact ⟨fun i hi => absurd hi (Nat.not_lt_zero i), fun _ _ _ => rfl⟩
  | succ n ih =>
    have hnext : (s % 2 ^ 32 + 1) % 2 ^ 32 = (s + 1) % 2 ^ 32 := Nat.mod_add_mod _ _ _
    obtain ⟨hfilled, hothers⟩ := ih (m := store m (s % 2 ^ 32) c) (s := s + 1) (by omega)
    rw [setUp, hnext]
    constructor
    · intro i hi
      rcases i with _ | i
      · -- The rest does not come round to the first byte.
        simp only [Nat.add_zero]
        rw [hothers _ (Nat.mod_lt _ (by omega)) fun j hj => by omega, store_same]
      · rw [show s + (i + 1) = s + 1 + i by omega]
        exact hfilled i (by omega)
    · intro x hx hout
      have hfirst := hout 0 (by omega)
      rw [hothers x hx fun j hj => by
        rw [show s + 1 + j = s + (j + 1) by omega]
        exact hout (j + 1) (by omega)]
      exact store_other _ _ (by simpa using hfirst)

/-- One byte less than asked for is set. -/
theorem blMemset_short (hs : s < 2 ^ 32) (hsne : s ≠ 0) (hn : n < 2 ^ 32) (hnne : n ≠ 0) :
    Filled m (blMemset m s c n) s (n - 1) c := by
  have hcount : (n + (2 ^ 32 - 1)) % 2 ^ 32 = n - 1 := by omega
  have hset := setUp_filled (m := m) (s := s) (c := c) (show n - 1 < 2 ^ 32 by omega)
  rw [Nat.mod_eq_of_lt hs] at hset
  unfold blMemset
  rwa [if_neg hsne, hcount]

/-- What is cleared is zero if its last byte was. -/
theorem blMemset_cleared_iff (hs : s < 2 ^ 32) (hsne : s ≠ 0) (hn : n < 2 ^ 32) (hnne : n ≠ 0) :
    (∀ i < n, blMemset m s c n ((s + i) % 2 ^ 32) = c) ↔ m ((s + (n - 1)) % 2 ^ 32) = c := by
  have hset := blMemset_short (m := m) (c := c) hs hsne hn hnne
  have hlast : blMemset m s c n ((s + (n - 1)) % 2 ^ 32) = m ((s + (n - 1)) % 2 ^ 32) :=
    hset.others _ (Nat.mod_lt _ (by omega)) fun i hi => by omega
  constructor
  · intro h
    rw [← hlast]
    exact h (n - 1) (by omega)
  · intro h i hi
    rcases Nat.lt_or_ge i (n - 1) with hlt | hge
    · exact hset.filled i hlt
    · obtain rfl : i = n - 1 := by omega
      rw [hlast, h]

/-- For no bytes at all the counter wraps: all bytes but one are set. -/
theorem blMemset_all (hs : s < 2 ^ 32) (hsne : s ≠ 0) :
    Filled m (blMemset m s c 0) s (2 ^ 32 - 1) c := by
  have hset := setUp_filled (m := m) (s := s) (c := c) (show 2 ^ 32 - 1 < 2 ^ 32 by omega)
  rw [Nat.mod_eq_of_lt hs] at hset
  unfold blMemset
  rwa [if_neg hsne, Nat.zero_add, Nat.mod_eq_of_lt (by omega)]

theorem blMemset_none_iff (hs : s < 2 ^ 32) (hsne : s ≠ 0) :
    (∀ x < 2 ^ 32, blMemset m s c 0 x = m x) ↔ ∀ x < 2 ^ 32, (x + 1) % 2 ^ 32 ≠ s → m x = c := by
  have hset := blMemset_all (m := m) (c := c) hs hsne
  have hall : ∀ x < 2 ^ 32, (x + 1) % 2 ^ 32 ≠ s → blMemset m s c 0 x = c := by
    intro x hx hne
    have hx' := hset.filled ((x + 2 ^ 32 - s) % 2 ^ 32) (by omega)
    rwa [show (s + (x + 2 ^ 32 - s) % 2 ^ 32) % 2 ^ 32 = x by omega] at hx'
  constructor
  · intro h x hx hne
    rw [← h x hx, hall x hx hne]
  · intro h x hx
    rcases eq_or_ne ((x + 1) % 2 ^ 32) s with heq | hne
    · exact hset.others x hx fun i hi => by omega
    · rw [hall x hx hne, h x hx hne]

theorem blMemset_filled_iff (m : Mem) (c : Byte) (hs : s < 2 ^ 32) (hn : n < 2 ^ 32) :
    Filled m (blMemset m s c n) s n c ↔ UnsetRight m s n c := by
  unfold UnsetRight
  split_ifs with hnull hempty
  · -- A null pointer: nothing is set.
    have hplace : ∀ i < n, (s + i) % 2 ^ 32 = i := by omega
    unfold blMemset
    rw [if_pos hnull]
    constructor
    · intro h i hi
      rw [← h.filled i hi, hplace i hi]
    · intro h
      exact ⟨fun i hi => by rw [hplace i hi, h i hi], fun _ _ _ => rfl⟩
  · rw [hempty, ← blMemset_none_iff hs hnull]
    constructor
    · exact fun h x hx => h.others x hx fun i hi => absurd hi (Nat.not_lt_zero i)
    · exact fun h => ⟨fun i hi => absurd hi (Nat.not_lt_zero i), fun x hx _ => h x hx⟩
  · rw [← blMemset_cleared_iff hs hnull hn hempty]
    have hset := blMemset_short (m := m) (c := c) hs hnull hn hempty
    constructor
    · exact fun h => h.filled
    · exact fun h => ⟨h, fun x hx hout => hset.others x hx fun i hi => hout i (by omega)⟩

end BootLoader.Utils

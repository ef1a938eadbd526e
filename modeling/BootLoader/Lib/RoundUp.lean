import Mathlib.Data.Nat.Bitwise
import Mathlib.Tactic.Ring

/-!
# Rounding up to a multiple

`roundUp x a` is the least multiple of `a` that is at least `x`. Placing things one after
another rounds up again and again, so most lemmas are about moving and comparing rounded
positions.
-/

namespace RoundUp

def roundUp (x a : Nat) : Nat := (x + (a - 1)) / a * a

variable {x y a b k : Nat}

@[simp] theorem roundUp_one (x : Nat) : roundUp x 1 = x := by simp [roundUp]

theorem dvd_roundUp (x a : Nat) : a ∣ roundUp x a := Nat.dvd_mul_left _ _

theorem le_roundUp (ha : 0 < a) : x ≤ roundUp x a := by
  have hdiv := Nat.div_add_mod (x + (a - 1)) a
  have hmod := Nat.mod_lt (x + (a - 1)) ha
  rw [roundUp, mul_comm]
  omega

theorem roundUp_le_add (x a : Nat) : roundUp x a ≤ x + (a - 1) := Nat.div_mul_le_self _ _

theorem roundUp_lt_add (ha : 0 < a) : roundUp x a < x + a := by
  have := roundUp_le_add x a
  omega

theorem roundUp_mono (a : Nat) (h : x ≤ y) : roundUp x a ≤ roundUp y a :=
  Nat.mul_le_mul_right _ (Nat.div_le_div_right (by omega))

theorem roundUp_le_of_dvd (ha : 0 < a) (hdvd : a ∣ y) (h : x ≤ y) : roundUp x a ≤ y := by
  obtain ⟨k, rfl⟩ := hdvd
  have hdiv : (a * k + (a - 1)) / a = k := by
    rw [Nat.mul_add_div ha, Nat.div_eq_of_lt (by omega), Nat.add_zero]
  have hmono := roundUp_mono a h
  rwa [roundUp, roundUp, hdiv, mul_comm k] at hmono

theorem roundUp_of_dvd (ha : 0 < a) (h : a ∣ x) : roundUp x a = x :=
  le_antisymm (roundUp_le_of_dvd ha h le_rfl) (le_roundUp ha)

/-- A base that is a multiple of `a` moves out of the rounding. -/
theorem roundUp_add_left (ha : 0 < a) (h : a ∣ b) : roundUp (b + x) a = b + roundUp x a := by
  obtain ⟨k, rfl⟩ := h
  rw [roundUp, roundUp, show a * k + x + (a - 1) = a * k + (x + (a - 1)) by ring,
    Nat.mul_add_div ha, Nat.add_mul, mul_comm k]

/-- Rounding to a power of two keeps every power of two that already divides. -/
theorem two_pow_dvd_roundUp (k : Nat) {j : Nat} (h : 2 ^ j ∣ x) : 2 ^ j ∣ roundUp x (2 ^ k) := by
  rcases le_total j k with hjk | hkj
  · exact (pow_dvd_pow 2 hjk).trans (dvd_roundUp x (2 ^ k))
  · rwa [roundUp_of_dvd (Nat.two_pow_pos k) ((pow_dvd_pow 2 hkj).trans h)]

/-! ## The same with the bits of a machine word -/

/-- Clearing the low `k` bits of a `w`-bit word. -/
theorem and_not_low_bits {w : Nat} (hx : x < 2 ^ w) :
    x &&& (2 ^ w - 1 - (2 ^ k - 1)) = x / 2 ^ k * 2 ^ k := by
  apply Nat.eq_of_testBit_eq
  intro i
  have hlow : (2 ^ w - 1 - (2 ^ k - 1)).testBit i = (decide (i < w) && !decide (i < k)) := by
    by_cases hk : 2 ^ k ≤ 2 ^ w
    · rw [show 2 ^ w - 1 - (2 ^ k - 1) = 2 ^ w - (2 ^ k - 1 + 1) by omega,
        Nat.testBit_two_pow_sub_succ (by have := Nat.two_pow_pos k; omega),
        Nat.testBit_two_pow_sub_one]
    · have hwk : w < k := by
        by_contra h
        exact hk (Nat.pow_le_pow_right (by omega) (by omega))
      rw [show 2 ^ w - 1 - (2 ^ k - 1) = 0 by omega, Nat.zero_testBit]
      by_cases hi : i < w
      · simp [hi, show i < k by omega]
      · simp [hi]
  rw [Nat.testBit_and, hlow, Nat.testBit_mul_two_pow]
  by_cases hik : i < k
  · simp [hik, show ¬ k ≤ i by omega]
  · have hbit : (x / 2 ^ k).testBit (i - k) = x.testBit i := by
      rw [Nat.testBit_div_two_pow, Nat.sub_add_cancel (by omega)]
    by_cases hiw : i < w
    · simp [hik, hiw, hbit, show k ≤ i by omega]
    · have hzero : x.testBit i = false :=
        Nat.testBit_lt_two_pow (lt_of_lt_of_le hx (Nat.pow_le_pow_right (by omega) (by omega)))
      simp [hiw, hbit, hzero]

/-- The low bits of a word are its remainder. -/
theorem and_low_bits_eq_zero : x &&& (2 ^ k - 1) = 0 ↔ 2 ^ k ∣ x := by
  rw [Nat.and_two_pow_sub_one_eq_mod, Nat.dvd_iff_mod_eq_zero]

/-- Adding the mask of the low `k` bits and clearing them, in words of `w` bits. -/
theorem toNat_alignUp {w : Nat} (z : BitVec w) (hk : k < w) :
    ((z + BitVec.ofNat w (2 ^ k) - 1) &&& ~~~(BitVec.ofNat w (2 ^ k) - 1)).toNat =
      (z.toNat + (2 ^ k - 1)) % 2 ^ w / 2 ^ k * 2 ^ k := by
  have hpos := Nat.two_pow_pos k
  have hlt : 2 ^ k < 2 ^ w := Nat.pow_lt_pow_right (by omega) hk
  have hone : (1 : BitVec w).toNat = 1 := Nat.mod_eq_of_lt (Nat.one_lt_two_pow (by omega))
  have hmask : (BitVec.ofNat w (2 ^ k) - 1).toNat = 2 ^ k - 1 := by
    rw [BitVec.toNat_sub, BitVec.toNat_ofNat, Nat.mod_eq_of_lt hlt, hone,
      show 2 ^ w - 1 + 2 ^ k = 2 ^ k - 1 + 2 ^ w by omega, Nat.add_mod_right,
      Nat.mod_eq_of_lt (by omega)]
  have hsum : (z + BitVec.ofNat w (2 ^ k) - 1).toNat = (z.toNat + (2 ^ k - 1)) % 2 ^ w := by
    rw [BitVec.toNat_sub, BitVec.toNat_add, BitVec.toNat_ofNat, Nat.mod_eq_of_lt hlt, hone,
      Nat.add_mod_mod, show 2 ^ w - 1 + (z.toNat + 2 ^ k) = z.toNat + (2 ^ k - 1) + 2 ^ w by omega,
      Nat.add_mod_right]
  rw [BitVec.toNat_and, BitVec.toNat_not, hmask, hsum,
    and_not_low_bits (Nat.mod_lt _ (Nat.two_pow_pos w))]

/-- It is rounding up, wrapped. -/
theorem wrapped_roundUp {w : Nat} (x : Nat) (hk : k < w) :
    (x + (2 ^ k - 1)) % 2 ^ w / 2 ^ k * 2 ^ k = roundUp x (2 ^ k) % 2 ^ w := by
  have hsplit : 2 ^ w = 2 ^ k * 2 ^ (w - k) := by
    rw [← pow_add, Nat.add_sub_cancel' hk.le]
  rw [roundUp, hsplit, Nat.mod_mul_right_div_self, ← Nat.mul_mod_mul_right, mul_comm (2 ^ (w - k))]

end RoundUp

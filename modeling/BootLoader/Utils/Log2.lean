import Mathlib.Data.Nat.Bitwise

/-! # Powers of two (`core/utils/log2.c`) -/

namespace BootLoader.Utils

/-- How often `n`, a 32-bit number other than 0, is halved until it is odd. -/
def halvings : Nat → Nat → Nat
  | 0, _ => 0
  | fuel + 1, n => if n &&& 1 = 0 then halvings fuel (n >>> 1) + 1 else 0

def blLog2 (n : Nat) : Int :=
  if n = 0 then -1
  else if n &&& (n - 1) ≠ 0 then -1
  else halvings 32 n

/-- A 64-bit shift by an `int`: the processor counts modulo 64. -/
def shiftCount (n : Int) : Nat := (n % 64).toNat

theorem halvings_two_pow {fuel k : Nat} (h : k ≤ fuel) : halvings fuel (2 ^ k) = k := by
  induction fuel generalizing k with
  | zero => exact (Nat.le_zero.mp h).symm
  | succ fuel ih =>
    cases k with
    | zero => simp [halvings]
    | succ k =>
      have heven : 2 ^ (k + 1) &&& 1 = 0 := by
        rw [Nat.and_one_is_mod, pow_succ]
        omega
      have hhalf : 2 ^ (k + 1) >>> 1 = 2 ^ k := by
        rw [Nat.shiftRight_eq_div_pow, pow_succ]
        omega
      rw [halvings, if_pos heven, hhalf, ih (by omega)]

theorem blLog2_two_pow {k : Nat} (h : k < 32) : blLog2 (2 ^ k) = k := by
  have hpos := Nat.two_pow_pos k
  have hpow : 2 ^ k &&& (2 ^ k - 1) = 0 :=
    (Nat.and_sub_one_eq_zero_iff_isPowerOfTwo hpos.ne').mpr ⟨k, rfl⟩
  rw [blLog2, if_neg (by omega), if_neg (by simp [hpow]), halvings_two_pow (by omega)]

theorem two_pow_of_blLog2 {n : Nat} (h : blLog2 n ≠ -1) : ∃ k, n = 2 ^ k := by
  unfold blLog2 at h
  by_cases hzero : n = 0
  · rw [if_pos hzero] at h
    exact absurd rfl h
  · rw [if_neg hzero] at h
    have hbits : n &&& (n - 1) = 0 := by
      by_contra hbits
      rw [if_pos hbits] at h
      exact h rfl
    exact (Nat.and_sub_one_eq_zero_iff_isPowerOfTwo hzero).mp hbits

theorem shiftCount_of_lt {k : Nat} (h : k < 64) : shiftCount k = k := by
  unfold shiftCount
  omega

end BootLoader.Utils

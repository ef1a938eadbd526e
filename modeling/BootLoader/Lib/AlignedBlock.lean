import Mathlib.Data.Nat.Bitwise
import Mathlib.Tactic.Ring

/-!
# Blocks of a power of two at a multiple of it

A block is found by comparing the bits of an address from its size on.
-/

namespace AlignedBlock

variable {n w k a b : Nat}

theorem mem_iff (h : 2 ^ k ∣ b) : a / 2 ^ k = b / 2 ^ k ↔ b ≤ a ∧ a < b + 2 ^ k := by
  obtain ⟨c, rfl⟩ := h
  have hpos := Nat.two_pow_pos k
  rw [Nat.mul_div_cancel_left c hpos, Nat.div_eq_iff hpos, Nat.mul_comm]
  omega

theorem div_eq_iff_testBit : a / 2 ^ k = b / 2 ^ k ↔ ∀ i, k ≤ i → a.testBit i = b.testBit i := by
  constructor
  · intro h i hi
    obtain ⟨j, rfl⟩ := Nat.exists_eq_add_of_le hi
    rw [Nat.add_comm, ← Nat.testBit_div_two_pow, h, Nat.testBit_div_two_pow]
  · intro h
    refine Nat.eq_of_testBit_eq fun j => ?_
    rw [Nat.testBit_div_two_pow, Nat.testBit_div_two_pow]
    exact h (j + k) (Nat.le_add_left k j)

/-- A mask of the bits from `k` to below `w` compares the numbers of two blocks. -/
theorem xor_and_eq_zero_iff {x y mask : BitVec n}
    (hmask : ∀ i < n, mask.getLsbD i = (decide (k ≤ i) && decide (i < w)))
    (hx : x.toNat < 2 ^ w) (hy : y.toNat < 2 ^ w) :
    (x ^^^ y) &&& mask = 0#n ↔ x.toNat / 2 ^ k = y.toNat / 2 ^ k := by
  rw [div_eq_iff_testBit]
  constructor
  · intro h i hi
    rcases Nat.lt_or_ge i w with hlt | hge
    · rcases Nat.lt_or_ge i n with hin | hout
      · have hbit := congrArg (fun z => z.getLsbD i) h
        simp only [BitVec.getLsbD_and, BitVec.getLsbD_xor, hmask i hin, decide_eq_true hi,
          decide_eq_true hlt, Bool.and_true, BitVec.getLsbD_zero] at hbit
        exact bne_eq_false_iff_eq.mp hbit
      · rw [← BitVec.getLsbD, ← BitVec.getLsbD, BitVec.getLsbD_of_ge x i hout,
          BitVec.getLsbD_of_ge y i hout]
    · have hpow := Nat.pow_le_pow_right (show 0 < 2 by decide) hge
      rw [Nat.testBit_eq_false_of_lt (hx.trans_le hpow),
        Nat.testBit_eq_false_of_lt (hy.trans_le hpow)]
  · intro h
    refine BitVec.eq_of_getLsbD_eq fun i hi => ?_
    rw [BitVec.getLsbD_and, BitVec.getLsbD_xor, hmask i hi, BitVec.getLsbD_zero]
    by_cases hk : k ≤ i
    · rw [show x.getLsbD i = y.getLsbD i from h i hk, Bool.xor_self, Bool.false_and]
    · rw [decide_eq_false hk, Bool.false_and, Bool.and_false]

end AlignedBlock

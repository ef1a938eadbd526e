import BootLoader.Lib.RoundUp
import BootLoader.Vbe.Code

/-!
# Memory that both modes see

A pointer below 1 MiB is split into a segment and an offset, and a block that does not run out of
the segment is written where the pointer says.
-/

open ByteMemory

namespace BootLoader.Vbe

variable {ptr : BitVec 32} {size k x : Nat} {m block block' : Mem}

/-- A variable of the stack that real mode can write: below 1 MiB, and in one segment. -/
structure InSegment (ptr : BitVec 32) (size : Nat) : Prop where
  low : ptr.toNat < 2 ^ 20
  fits : ptr.toNat % 2 ^ 16 + size ≤ 2 ^ 16

theorem toNat_high_half (ptr : BitVec 32) :
    (ptr &&& 0xffff0000).toNat = ptr.toNat / 2 ^ 16 * 2 ^ 16 := by
  have hmask : (0xffff0000 : BitVec 32).toNat = 2 ^ 32 - 1 - (2 ^ 16 - 1) := by decide
  rw [BitVec.toNat_and, hmask]
  exact RoundUp.and_not_low_bits ptr.isLt

theorem toNat_low_half (ptr : BitVec 32) : (ptr &&& 0xffff).toNat = ptr.toNat % 2 ^ 16 := by
  rw [BitVec.toNat_and]
  exact Nat.and_two_pow_sub_one_eq_mod ptr.toNat 16

theorem far_address (h : InSegment ptr size) (hk : k < size) :
    16 * (blBiosPmToRmSegment ptr).toNat + ((blBiosPmToRmOffset ptr).toNat + k) % 2 ^ 16 =
      ptr.toNat + k := by
  obtain ⟨hlow, hfits⟩ := h
  have hsegment : (blBiosPmToRmSegment ptr).toNat = ptr.toNat / 2 ^ 16 * 2 ^ 12 := by
    rw [blBiosPmToRmSegment, BitVec.toNat_setWidth, BitVec.toNat_ushiftRight, toNat_high_half,
      Nat.shiftRight_eq_div_pow]
    omega
  have hoffset : (blBiosPmToRmOffset ptr).toNat = ptr.toNat % 2 ^ 16 := by
    rw [blBiosPmToRmOffset, BitVec.toNat_setWidth, toNat_low_half]
    omega
  rw [hsegment, hoffset]
  omega

theorem writeFar_eq (h : InSegment ptr size) (m block : Mem) :
    writeFar m (blBiosPmToRmSegment ptr) (blBiosPmToRmOffset ptr) size block =
      fun x => if ptr.toNat ≤ x ∧ x < ptr.toNat + size then block (x - ptr.toNat) else m x := by
  have hwritten : ∀ n ≤ size, (List.range n).foldl (fun m k => store m
      (16 * (blBiosPmToRmSegment ptr).toNat + ((blBiosPmToRmOffset ptr).toNat + k) % 2 ^ 16)
      (block k)) m =
      fun x => if ptr.toNat ≤ x ∧ x < ptr.toNat + n then block (x - ptr.toNat) else m x := by
    intro n hn
    induction n with
    | zero =>
      funext x
      rw [if_neg (by omega)]
      rfl
    | succ n ih =>
      rw [List.range_succ, List.foldl_append, ih (by omega), List.foldl_cons, List.foldl_nil,
        far_address h (by omega : n < size)]
      funext x
      by_cases hx : x = ptr.toNat + n
      · subst hx
        rw [store_same, if_pos (by omega), Nat.add_sub_cancel_left]
      · rw [store_other _ _ hx]
        by_cases hin : ptr.toNat ≤ x ∧ x < ptr.toNat + n
        · rw [if_pos hin, if_pos (by omega)]
        · rw [if_neg hin, if_neg (by omega)]
  exact hwritten size le_rfl

/-- What the caller finds in its variable. -/
theorem blockAt_writeFar (h : InSegment ptr size) (m block : Mem) (hk : k < size) :
    blockAt (writeFar m (blBiosPmToRmSegment ptr) (blBiosPmToRmOffset ptr) size block) ptr k =
      block k := by
  rw [blockAt, writeFar_eq h]
  dsimp only
  rw [if_pos (by omega), Nat.add_sub_cancel_left]

end BootLoader.Vbe

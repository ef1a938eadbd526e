import Mathlib.Data.Nat.Bitwise

/-!
# Fields of bits

Numbers packed into the bits of one. Fields that are apart do not see each other.
-/

namespace BitFields

structure Field where
  pos : Nat
  size : Nat

/-- The low `size` bits of `v`. -/
def low (v size : Nat) : Nat := v &&& (2 ^ size - 1)

def Field.put (f : Field) (v : Nat) : Nat := low v f.size <<< f.pos

def Field.get (f : Field) (c : Nat) : Nat := low (c >>> f.pos) f.size

/-- All values at their places. -/
def pack : List (Field × Nat) → Nat
  | [] => 0
  | (f, v) :: rest => f.put v ||| pack rest

def Field.Apart (f g : Field) : Prop := f.pos + f.size ≤ g.pos ∨ g.pos + g.size ≤ f.pos

variable {f g : Field} {v c d n : Nat} {l : List (Field × Nat)}

theorem Field.Apart.symm (h : f.Apart g) : g.Apart f := Or.symm h

theorem low_eq (v size : Nat) : low v size = v % 2 ^ size := Nat.and_two_pow_sub_one_eq_mod v size

theorem Field.get_lt (f : Field) (c : Nat) : f.get c < 2 ^ f.size := by
  rw [get, low_eq]
  exact Nat.mod_lt _ (Nat.two_pow_pos _)

theorem Field.get_zero (f : Field) : f.get 0 = 0 := by
  rw [get, Nat.zero_shiftRight, low, Nat.zero_and]

@[simp] theorem Field.testBit_get (f : Field) (c i : Nat) :
    (f.get c).testBit i = (decide (i < f.size) && c.testBit (f.pos + i)) := by
  rw [get, low_eq, Nat.testBit_mod_two_pow, Nat.testBit_shiftRight]

@[simp] theorem Field.testBit_put (f : Field) (v i : Nat) :
    (f.put v).testBit i =
      (decide (f.pos ≤ i) && (decide (i - f.pos < f.size) && v.testBit (i - f.pos))) := by
  rw [put, low_eq, Nat.testBit_shiftLeft, Nat.testBit_mod_two_pow]

theorem Field.get_or (f : Field) (c d : Nat) : f.get (c ||| d) = f.get c ||| f.get d := by
  refine Nat.eq_of_testBit_eq fun i => ?_
  rw [Nat.testBit_or, testBit_get, testBit_get, testBit_get, Nat.testBit_or,
    Bool.and_or_distrib_left]

theorem Field.get_put (f : Field) (v : Nat) : f.get (f.put v) = v % 2 ^ f.size := by
  refine Nat.eq_of_testBit_eq fun i => ?_
  rw [testBit_get, testBit_put, Nat.testBit_mod_two_pow, Nat.add_sub_cancel_left]
  by_cases hi : i < f.size <;> simp [hi]

theorem Field.get_put_apart (h : f.Apart g) (v : Nat) : f.get (g.put v) = 0 := by
  refine Nat.eq_of_testBit_eq fun i => ?_
  rw [testBit_get, testBit_put, Nat.zero_testBit]
  by_cases hi : i < f.size
  · have hout : ¬ (g.pos ≤ f.pos + i ∧ f.pos + i - g.pos < g.size) := by
      unfold Apart at h
      omega
    by_cases hlow : g.pos ≤ f.pos + i
    · simp [show ¬ f.pos + i - g.pos < g.size from fun hlt => hout ⟨hlow, hlt⟩]
    · simp [hlow]
  · simp [hi]

/-- Bits behind the field do not matter. -/
theorem Field.get_mod (h : f.pos + f.size ≤ n) (c : Nat) : f.get (c % 2 ^ n) = f.get c := by
  refine Nat.eq_of_testBit_eq fun i => ?_
  rw [testBit_get, testBit_get, Nat.testBit_mod_two_pow]
  by_cases hi : i < f.size
  · simp [show f.pos + i < n by omega]
  · simp [hi]

theorem get_pack_apart (h : ∀ p ∈ l, f.Apart p.1) : f.get (pack l) = 0 := by
  induction l with
  | nil => exact f.get_zero
  | cons p rest ih =>
    rw [pack, f.get_or, Field.get_put_apart (h p List.mem_cons_self),
      ih fun q hq => h q (List.mem_cons_of_mem _ hq), Nat.or_self]

/-- **What was packed is found again**, as far as the field is wide. -/
theorem get_pack (h : l.Pairwise fun p q => p.1.Apart q.1) (hmem : (f, v) ∈ l) :
    f.get (pack l) = v % 2 ^ f.size := by
  induction l with
  | nil => cases hmem
  | cons p rest ih =>
    obtain ⟨hhead, hrest⟩ := List.pairwise_cons.mp h
    rw [pack, f.get_or]
    rcases List.mem_cons.mp hmem with rfl | hmem
    · rw [f.get_put, get_pack_apart hhead, Nat.or_zero]
    · rw [ih hrest hmem, Field.get_put_apart (hhead _ hmem).symm, Nat.zero_or]

end BitFields

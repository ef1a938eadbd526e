import BootLoader.Lib.ByteMemory

/-!
# Words with the highest byte first

A word of the other byte order has the same bytes, reversed.
-/

namespace ByteMemory

variable {m : Mem} {a n v w : Nat}

/-- The number in the `n` bytes from `a` on, highest byte first. -/
def readBE (m : Mem) (a : Nat) : Nat → Nat
  | 0 => 0
  | n + 1 => 256 * readBE m a n + (m (a + n)).toNat

theorem readBE_lt (m : Mem) (a n : Nat) : readBE m a n < 256 ^ n := by
  induction n with
  | zero => simp [readBE]
  | succ n ih =>
    have hbyte := (m (a + n)).isLt
    rw [readBE, pow_succ]
    omega

/-- The low `n` bytes of one number are those of the other, reversed. -/
def Reversed (n v w : Nat) : Prop := bytesLE n w = (bytesLE n v).reverse

theorem Reversed.symm (h : Reversed n v w) : Reversed n w v := by
  rw [Reversed, h, List.reverse_reverse]

theorem bytesLE_inj : bytesLE n v = bytesLE n w ↔ v % 256 ^ n = w % 256 ^ n := by
  constructor
  · intro h
    have hv := readLE_of_hasBytes (hasBytes_ofBytes (bytesLE n v))
    rw [h, readLE_of_hasBytes (hasBytes_ofBytes (bytesLE n w))] at hv
    exact hv.symm
  · intro h
    have hw : HasBytes (ofBytes (bytesLE n v)) 0 (bytesLE n w) :=
      hasBytes_bytesLE_iff.mpr ((readLE_of_hasBytes (hasBytes_ofBytes _)).trans h)
    exact hasBytes_unique (hasBytes_ofBytes _) hw (by simp)

/-- Every string of bytes is a number's. -/
theorem exists_bytesLE (bs : List Byte) : ∃ v, bytesLE bs.length v = bs := by
  induction bs with
  | nil => exact ⟨0, rfl⟩
  | cons b bs ih =>
    obtain ⟨v, hv⟩ := ih
    refine ⟨b.toNat + 256 * v, ?_⟩
    have hbyte := b.isLt
    have hrest : (b.toNat + 256 * v) / 256 = v := by omega
    have hhead : BitVec.ofNat 8 (b.toNat + 256 * v) = b :=
      BitVec.eq_of_toNat_eq (by rw [BitVec.toNat_ofNat]; omega)
    rw [List.length_cons, bytesLE, hrest, hv, hhead]

/-- A number whose bytes stand there reversed is read with the highest first. -/
theorem readBE_of_hasBytes (h : HasBytes m a (bytesLE n v).reverse) :
    readBE m a n = v % 256 ^ n := by
  induction n generalizing v with
  | zero => simp [readBE, Nat.mod_one]
  | succ n ih =>
    rw [bytesLE, List.reverse_cons, hasBytes_append, List.length_reverse, length_bytesLE] at h
    obtain ⟨hhigh, hlow, -⟩ := h
    have hbyte : (BitVec.ofNat 8 v).toNat = v % 256 := BitVec.toNat_ofNat v 8
    rw [readBE, ih hhigh, hlow, hbyte, pow_succ' 256 n, Nat.mod_mul, add_comm]

/-- Read in both orders, the bytes are reversed. -/
theorem reversed_readBE (m : Mem) (a n : Nat) : Reversed n (readLE m a n) (readBE m a n) := by
  obtain ⟨v, hv⟩ := exists_bytesLE (bytesLE n (readLE m a n)).reverse
  rw [List.length_reverse, length_bytesLE] at hv
  have hbytes : HasBytes m a (bytesLE n v).reverse := by
    rw [hv, List.reverse_reverse]
    exact hasBytes_bytesLE_iff.mpr (Nat.mod_eq_of_lt (readLE_lt m a n)).symm
  rw [Reversed, ← hv, bytesLE_inj, readBE_of_hasBytes hbytes, Nat.mod_mod]

/-- What is read in the one order and then reversed is what is read in the other. -/
theorem reversed_readLE_iff (hw : w < 256 ^ n) :
    Reversed n (readLE m a n) w ↔ w = readBE m a n := by
  have hread : bytesLE n (readBE m a n) = (bytesLE n (readLE m a n)).reverse :=
    reversed_readBE m a n
  rw [Reversed, ← hread, bytesLE_inj, Nat.mod_eq_of_lt hw, Nat.mod_eq_of_lt (readBE_lt m a n)]

/-- A reversed number that is stored in the one order is read in the other. -/
theorem readBE_of_reversed (h : Reversed n v w) (hm : HasBytes m a (bytesLE n w)) :
    readBE m a n = v % 256 ^ n :=
  readBE_of_hasBytes (h ▸ hm)

/-! ## Bytes of a word -/

theorem getElem_bytesLE {n v i : Nat} (h : i < (bytesLE n v).length) :
    (bytesLE n v)[i] = BitVec.ofNat 8 (v / 256 ^ i) := by
  induction n generalizing v i with
  | zero => exact absurd h (Nat.not_lt_zero i)
  | succ n ih =>
    cases i with
    | zero => simp [bytesLE]
    | succ i =>
      simp only [bytesLE, List.getElem_cons_succ]
      rw [ih, Nat.div_div_eq_div_mul, pow_succ']

theorem bytesLE_toNat {width : Nat} (x : BitVec width) (n : Nat) :
    bytesLE n x.toNat = (List.range n).map fun i => x.extractLsb' (8 * i) 8 := by
  refine List.ext_getElem (by simp) fun i hi _ => ?_
  have hpow : (2 : Nat) ^ (8 * i) = 256 ^ i := by rw [pow_mul]; rfl
  rw [getElem_bytesLE, List.getElem_map, List.getElem_range, BitVec.extractLsb',
    Nat.shiftRight_eq_div_pow, hpow]

theorem reversed_toNat_iff {width : Nat} {x y : BitVec width} :
    Reversed n x.toNat y.toNat ↔
      ∀ i < n, y.extractLsb' (8 * i) 8 = x.extractLsb' (8 * (n - 1 - i)) 8 := by
  rw [Reversed, bytesLE_toNat, bytesLE_toNat]
  constructor
  · intro h i hi
    have hget := congrArg (·[i]?) h
    simpa [List.getElem?_reverse, hi, show n - 1 - i < n by omega] using hget
  · intro h
    exact List.ext_getElem (by simp) fun i hi _ => by simpa using h i (by simpa using hi)

/-- To reverse the bytes twice changes nothing. -/
theorem Reversed.twice {width : Nat} {x y z : BitVec width} (hwidth : 2 ^ width ≤ 256 ^ n)
    (h : Reversed n x.toNat y.toNat) (h' : Reversed n y.toNat z.toNat) : z = x := by
  have hsame : bytesLE n z.toNat = bytesLE n x.toNat := by rw [h', h.symm]
  rw [bytesLE_inj, Nat.mod_eq_of_lt (z.isLt.trans_le hwidth),
    Nat.mod_eq_of_lt (x.isLt.trans_le hwidth)] at hsame
  exact BitVec.eq_of_toNat_eq hsame

end ByteMemory

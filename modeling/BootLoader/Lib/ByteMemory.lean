import Mathlib.Data.Nat.Bitwise
import Mathlib.Tactic.Ring

/-!
# Byte memory

A flat memory of bytes, its little-endian words, and what a write leaves alone.
-/

namespace ByteMemory

abbrev Byte := BitVec 8

/-- Every address holds a byte. -/
abbrev Mem := Nat → Byte

def store (m : Mem) (a : Nat) (v : Byte) : Mem := fun x => if x = a then v else m x

/-- The number in the `n` bytes from `a` on, lowest byte first. -/
def readLE (m : Mem) (a : Nat) : Nat → Nat
  | 0 => 0
  | n + 1 => (m a).toNat + 256 * readLE m (a + 1) n

/-- Puts the low `n` bytes of `v` at `a`, lowest byte first. -/
def writeLE (m : Mem) (a n v : Nat) : Mem :=
  fun x => if a ≤ x ∧ x < a + n then BitVec.ofNat 8 (v / 256 ^ (x - a)) else m x

abbrev read16 (m : Mem) (a : Nat) : Nat := readLE m a 2
abbrev read32 (m : Mem) (a : Nat) : Nat := readLE m a 4
abbrev read64 (m : Mem) (a : Nat) : Nat := readLE m a 8
abbrev write16 (m : Mem) (a v : Nat) : Mem := writeLE m a 2 v
abbrev write32 (m : Mem) (a v : Nat) : Mem := writeLE m a 4 v

/-! ## Single bytes -/

@[simp] theorem store_same (m : Mem) (a : Nat) (v : Byte) : store m a v a = v := by simp [store]

theorem store_other (m : Mem) (v : Byte) {a x : Nat} (h : x ≠ a) : store m a v x = m x := by
  simp [store, h]

/-! ## Words -/

theorem readLE_lt (m : Mem) (a n : Nat) : readLE m a n < 256 ^ n := by
  induction n generalizing a with
  | zero => simp [readLE]
  | succ n ih =>
    have hbyte := (m a).isLt
    have hrest := ih (a + 1)
    rw [readLE, pow_succ]
    omega

theorem read16_lt (m : Mem) (a : Nat) : read16 m a < 2 ^ 16 := readLE_lt m a 2
theorem read32_lt (m : Mem) (a : Nat) : read32 m a < 2 ^ 32 := readLE_lt m a 4
theorem read64_lt (m : Mem) (a : Nat) : read64 m a < 2 ^ 64 := readLE_lt m a 8

theorem readLE_congr_at {m m' : Mem} {a b n : Nat} (h : ∀ i < n, m' (b + i) = m (a + i)) :
    readLE m' b n = readLE m a n := by
  induction n generalizing a b with
  | zero => rfl
  | succ n ih =>
    have hrest : readLE m' (b + 1) n = readLE m (a + 1) n := by
      apply ih
      intro i hi
      rw [show b + 1 + i = b + (i + 1) by omega, show a + 1 + i = a + (i + 1) by omega]
      exact h (i + 1) (by omega)
    have hhead : m' b = m a := h 0 (by omega)
    rw [readLE, readLE, hhead, hrest]

theorem readLE_congr {m m' : Mem} {a n : Nat} (h : ∀ x, a ≤ x → x < a + n → m' x = m x) :
    readLE m' a n = readLE m a n :=
  readLE_congr_at fun i hi => h (a + i) (by omega) (by omega)

theorem readLE_inj {m m' : Mem} {a n : Nat} (h : readLE m a n = readLE m' a n) :
    ∀ i < n, m (a + i) = m' (a + i) := by
  induction n generalizing a with
  | zero => intro i hi; omega
  | succ n ih =>
    have hbyte := (m a).isLt
    have hbyte' := (m' a).isLt
    rw [readLE, readLE] at h
    intro i hi
    cases i with
    | zero => exact BitVec.eq_of_toNat_eq (by rw [Nat.add_zero]; omega)
    | succ i =>
      rw [show a + (i + 1) = a + 1 + i by omega]
      exact ih (by omega) i (by omega)

theorem writeLE_outside (m : Mem) (v : Nat) {a n x : Nat} (h : x < a ∨ a + n ≤ x) :
    writeLE m a n v x = m x := by
  rw [writeLE, if_neg (by omega)]

theorem writeLE_inside (m : Mem) (v : Nat) {a n i : Nat} (h : i < n) :
    writeLE m a n v (a + i) = BitVec.ofNat 8 (v / 256 ^ i) := by
  rw [writeLE, if_pos (by omega), Nat.add_sub_cancel_left]

theorem readLE_writeLE_apart (m : Mem) (v : Nat) {a n b k : Nat} (h : a + n ≤ b ∨ b + k ≤ a) :
    readLE (writeLE m b k v) a n = readLE m a n :=
  readLE_congr fun _ _ _ => writeLE_outside m v (by omega)

/-- The word whose byte `i` is the byte `i` of `v`. -/
theorem readLE_of_bytes {m : Mem} {a n v : Nat}
    (h : ∀ i < n, m (a + i) = BitVec.ofNat 8 (v / 256 ^ i)) : readLE m a n = v % 256 ^ n := by
  induction n generalizing a v with
  | zero => simp [readLE, Nat.mod_one]
  | succ n ih =>
    have hhead : m a = BitVec.ofNat 8 v := by simpa using h 0 (by omega)
    have hrest : readLE m (a + 1) n = v / 256 % 256 ^ n := by
      apply ih
      intro i hi
      rw [show a + 1 + i = a + (i + 1) by omega, h (i + 1) (by omega), Nat.div_div_eq_div_mul,
        pow_succ, mul_comm]
    have hbyte : (BitVec.ofNat 8 v).toNat = v % 256 := BitVec.toNat_ofNat v 8
    rw [readLE, hhead, hrest, hbyte, pow_succ' 256 n, Nat.mod_mul]

@[simp] theorem readLE_writeLE_same (m : Mem) (a n v : Nat) :
    readLE (writeLE m a n v) a n = v % 256 ^ n :=
  readLE_of_bytes fun _ hi => writeLE_inside m v hi

theorem read32_write32_same (m : Mem) (a : Nat) {v : Nat} (h : v < 2 ^ 32) :
    read32 (write32 m a v) a = v := by
  rw [read32, write32, readLE_writeLE_same]
  exact Nat.mod_eq_of_lt h

theorem read32_write32_apart (m : Mem) (v : Nat) {a b : Nat} (h : a + 4 ≤ b ∨ b + 4 ≤ a) :
    read32 (write32 m b v) a = read32 m a :=
  readLE_writeLE_apart m v h

theorem readLE_mod (m : Mem) (a : Nat) {n k : Nat} (h : k ≤ n) :
    readLE m a n % 256 ^ k = readLE m a k := by
  induction k generalizing a n with
  | zero => simp [readLE, Nat.mod_one]
  | succ k ih =>
    obtain ⟨n, rfl⟩ : ∃ n', n = n' + 1 := ⟨n - 1, by omega⟩
    have hbyte := (m a).isLt
    rw [readLE, readLE, ← ih (a + 1) (by omega : k ≤ n), pow_succ', Nat.mod_mul]
    congr 1
    · omega
    · congr 2
      omega

/-! ## Byte strings in memory -/

/-- The bytes `bs` stand in memory from `a` on. -/
def HasBytes (m : Mem) : Nat → List Byte → Prop
  | _, [] => True
  | a, b :: bs => m a = b ∧ HasBytes m (a + 1) bs

/-- A memory of zeros but for some byte strings. -/
def ofPieces (pieces : List (Nat × List Byte)) : Mem := fun x =>
  match pieces.find? fun p => p.1 ≤ x ∧ x < p.1 + p.2.length with
  | none => 0
  | some p => p.2.getD (x - p.1) 0

/-- The low `n` bytes of `v`, lowest first. -/
def bytesLE : Nat → Nat → List Byte
  | 0, _ => []
  | n + 1, v => BitVec.ofNat 8 v :: bytesLE n (v / 256)

@[simp] theorem length_bytesLE (n v : Nat) : (bytesLE n v).length = n := by
  induction n generalizing v with
  | zero => rfl
  | succ n ih => simp [bytesLE, ih]

theorem hasBytes_append {m : Mem} {a : Nat} {bs cs : List Byte} :
    HasBytes m a (bs ++ cs) ↔ HasBytes m a bs ∧ HasBytes m (a + bs.length) cs := by
  induction bs generalizing a with
  | nil => simp [HasBytes]
  | cons b bs ih =>
    rw [List.cons_append, HasBytes, HasBytes, ih, List.length_cons,
      show a + 1 + bs.length = a + (bs.length + 1) by omega, and_assoc]

theorem readLE_of_hasBytes {m : Mem} {a n v : Nat} (h : HasBytes m a (bytesLE n v)) :
    readLE m a n = v % 256 ^ n := by
  induction n generalizing a v with
  | zero => simp [readLE, Nat.mod_one]
  | succ n ih =>
    obtain ⟨hhead, hrest⟩ := h
    have hbyte : (BitVec.ofNat 8 v).toNat = v % 256 := BitVec.toNat_ofNat v 8
    rw [readLE, hhead, ih hrest, hbyte, pow_succ' 256 n, Nat.mod_mul]

/-- Bytes that stand somewhere are the word there. -/
theorem hasBytes_bytesLE_iff {m : Mem} {a n v : Nat} :
    HasBytes m a (bytesLE n v) ↔ readLE m a n = v % 256 ^ n := by
  refine ⟨readLE_of_hasBytes, fun h => ?_⟩
  induction n generalizing a v with
  | zero => trivial
  | succ n ih =>
    have hbyte := (m a).isLt
    rw [readLE, pow_succ', Nat.mod_mul] at h
    have hhead : (m a).toNat = v % 256 := by omega
    have hrest : readLE m (a + 1) n = v / 256 % 256 ^ n := by omega
    exact ⟨BitVec.eq_of_toNat_eq (by rw [hhead, BitVec.toNat_ofNat]), ih hrest⟩

/-- Two strings of one length that stand at one place are the same. -/
theorem hasBytes_unique {m : Mem} {a : Nat} {bs cs : List Byte} (hbs : HasBytes m a bs)
    (hcs : HasBytes m a cs) (hlen : bs.length = cs.length) : bs = cs := by
  induction bs generalizing a cs with
  | nil => exact (List.length_eq_zero_iff.mp hlen.symm).symm
  | cons b bs ih =>
    obtain _ | ⟨c, cs⟩ := cs
    · cases hlen
    · rw [← hbs.1, ← hcs.1, ih hbs.2 hcs.2 (Nat.succ.inj hlen)]

theorem hasBytes_iff {m : Mem} {a : Nat} {bs : List Byte} :
    HasBytes m a bs ↔ ∀ (k : Nat) (hk : k < bs.length), m (a + k) = bs[k] := by
  induction bs generalizing a with
  | nil => simp [HasBytes]
  | cons b bs ih =>
    rw [HasBytes, ih]
    refine ⟨fun ⟨hhead, hrest⟩ k hk => ?_, fun h => ⟨h 0 (Nat.succ_pos _), fun k hk => ?_⟩⟩
    · cases k with
      | zero => exact hhead
      | succ k =>
        rw [show a + (k + 1) = a + 1 + k by omega]
        exact hrest k (Nat.lt_of_succ_lt_succ hk)
    · rw [show a + 1 + k = a + (k + 1) by omega]
      exact h (k + 1) (Nat.succ_lt_succ hk)

theorem HasBytes.congr {m m' : Mem} {a : Nat} {bs : List Byte} (h : HasBytes m a bs)
    (hsame : ∀ x, a ≤ x → x < a + bs.length → m' x = m x) : HasBytes m' a bs :=
  hasBytes_iff.mpr fun k hk =>
    (hsame (a + k) (by omega) (by omega)).trans (hasBytes_iff.mp h k hk)

/-- A variable that holds these bytes. -/
def ofBytes (bs : List Byte) : Mem := fun k => bs.getD k 0

theorem hasBytes_ofBytes (bs : List Byte) : HasBytes (ofBytes bs) 0 bs := by
  refine hasBytes_iff.mpr fun k hk => ?_
  rw [ofBytes, Nat.zero_add, List.getD_eq_getElem _ _ hk]

/-! ## Ranges -/

/-- `[dst, dst + n)` becomes what `[src, src + n)` was, all at once. -/
def copyRange (m : Mem) (dst src n : Nat) : Mem :=
  fun x => if dst ≤ x ∧ x < dst + n then m (src + (x - dst)) else m x

theorem copyRange_inside (m : Mem) (src : Nat) {dst n i : Nat} (h : i < n) :
    copyRange m dst src n (dst + i) = m (src + i) := by
  rw [copyRange, if_pos (by omega), Nat.add_sub_cancel_left]

theorem copyRange_outside (m : Mem) (src : Nat) {dst n x : Nat} (h : x < dst ∨ dst + n ≤ x) :
    copyRange m dst src n x = m x := by
  rw [copyRange, if_neg (by omega)]

end ByteMemory

import BootLoader.Fat.BootRecord
import BootLoader.Fat.Lookup
import BootLoader.Lib.Successors
import Mathlib.Algebra.Order.Ring.Int
import Mathlib.Data.Nat.Prime.Basic
import Mathlib.Tactic.Ring

/-!
# The data of a file

`bl_fat_read_cluster_chain` against the clusters of the chain, one after another. The lookup of
the next cluster is taken to be right.
-/

open ByteMemory Successors

namespace BootLoader.Fat

open Driver Heap Utils

/-! ## What a chain holds -/

/-- Sectors and clusters as a boot record gives them. -/
structure Geometry (info : BlFatInfo) (a b : Nat) : Prop where
  sectorBits : a < 16
  clusterBits : b < 8
  sectorSize : info.sectorSize = 2 ^ a
  clusterSize : info.clusterSize = 2 ^ a * 2 ^ b

/-- A file's clusters, and the end-of-chain mark that the last of them has. -/
structure ClusterChain (info : BlFatInfo) (chain : List (BitVec 32)) (mark : BitVec 32) : Prop where
  nonempty : chain ≠ []
  nodup : chain.Nodup
  clusters : ∀ c ∈ chain, 2 ≤ c.toNat ∧ c.toNat < info.eof.toNat
  mark : info.eof.toNat ≤ mark.toNat

/-- Where a cluster is on the disk. -/
def clusterAddress (info : BlFatInfo) (c : BitVec 32) : Nat :=
  512 * info.dataLba.toNat + (c.toNat - 2) * info.clusterSize

/-- Byte `i` of the clusters, one after another. -/
def chainByte (disk : Mem) (info : BlFatInfo) (chain : List (BitVec 32)) (mark : BitVec 32)
    (i : Nat) : Byte :=
  disk (clusterAddress info (chain.getD (i / info.clusterSize) mark) + i % info.clusterSize)

/-- The range is delivered when it lies within the chain, and refused when it does not. -/
structure ReadRight (disk : Mem) (info : BlFatInfo) (chain : List (BitVec 32)) (mark : BitVec 32)
    (size offset : Nat) (r : Option (FatState × Mem × BlStatus)) : Prop where
  inside : offset + size ≤ chain.length * info.clusterSize →
    ∃ s buf, r = some (s, buf, .success) ∧
      ∀ i < size, buf i = chainByte disk info chain mark (offset + i)
  past : chain.length * info.clusterSize < offset + size →
    ∃ s buf, r = some (s, buf, .fileNotFound)

/-- On every disk and with every table that has this chain, the read does what it should. -/
def ChainReadRight (info : BlFatInfo) (chain : List (BitVec 32)) (mark : BitVec 32)
    (size offset : Nat) : Prop :=
  ∀ (env : Env) (next : NextEntry) (table : BitVec 32 → BitVec 32),
    (∀ n, env.reads n = .success) → (∀ s k, (next s k).2 = some (table k)) →
    Follows table chain mark → ∀ s buf,
      ReadRight env.disk info chain mark size offset
        (blFatReadClusterChain env info next (chain.getD 0 mark) s buf size offset)

/-! ## When the code reads it right -/

/-- The cluster starts at a sector that the code computes. -/
def InReach (info : BlFatInfo) (c : BitVec 32) : Prop :=
  info.dataLba.toNat + (c.toNat - 2) * blFatSectorsPerCluster info < 2 ^ 32 ∧
    (c.toNat = 2 ∨ info.sectorSize = 512)

/-- Piece `j` of a read, of up to `cluster_size` bytes, is taken from where cluster
`offset / cluster_size + j` is: a piece that crosses its end needs the next cluster right there. -/
def PieceInPlace (info : BlFatInfo) (chain : List (BitVec 32)) (mark : BitVec 32)
    (size offset j : Nat) : Prop :=
  let c := chain.getD (offset / info.clusterSize + j) mark
  InReach info c ∧
    (info.clusterSize < offset % info.clusterSize +
        min (size - j * info.clusterSize) info.clusterSize →
      (chain.getD (offset / info.clusterSize + j + 1) mark).toNat = c.toNat + 1)

/-- Inside the chain, every piece is in place. Past it, the mark is the one that the code knows,
and the pieces are so many that they get there. -/
def ReadInPlace (info : BlFatInfo) (chain : List (BitVec 32)) (mark : BitVec 32)
    (size offset : Nat) : Prop :=
  (offset + size ≤ chain.length * info.clusterSize →
    ∀ j, j * info.clusterSize < size → PieceInPlace info chain mark size offset j) ∧
  (chain.length * info.clusterSize < offset + size →
    mark = info.eof ∧
      chain.length * info.clusterSize < offset / info.clusterSize * info.clusterSize + size)

/-! ## The loops -/

/-- What either loop takes for the end of the chain. -/
def Dead (info : BlFatInfo) (c : BitVec 32) : Prop := c = 0 ∨ c = info.eof

variable {env : Env} {info : BlFatInfo} {next : NextEntry} {table : BitVec 32 → BitVec 32}

section

variable (hnext : ∀ s k, (next s k).2 = some (table k))

include hnext

theorem next_eq (s : FatState) (c : BitVec 32) : ∃ s', next s c = (s', some (table c)) :=
  ⟨(next s c).1, Prod.ext rfl (hnext s c)⟩

theorem seekEntry_alive {n : Nat} {c : BitVec 32} (s : FatState)
    (h : ∀ i < n, ¬ Dead info (table^[i + 1] c)) :
    ∃ s', seekEntry info next n s c = some (s', some (table^[n] c)) := by
  induction n generalizing s c with
  | zero => exact ⟨s, rfl⟩
  | succ n ih =>
    obtain ⟨s', hlookup⟩ := next_eq hnext s c
    obtain ⟨s'', hrest⟩ := ih (c := table c) s' fun i hi => h (i + 1) (by omega)
    have halive : ¬ (table c = 0 ∨ table c = info.eof) := h 0 (by omega)
    refine ⟨s'', ?_⟩
    simp only [seekEntry, hlookup, if_neg halive, hrest, Function.iterate_succ_apply]

theorem seekEntry_dead {n : Nat} {c : BitVec 32} (s : FatState)
    (h : ∃ i < n, Dead info (table^[i + 1] c)) :
    ∃ s', seekEntry info next n s c = some (s', none) := by
  induction n generalizing s c with
  | zero =>
    obtain ⟨i, hi, -⟩ := h
    omega
  | succ n ih =>
    obtain ⟨s', hlookup⟩ := next_eq hnext s c
    by_cases hdead : table c = 0 ∨ table c = info.eof
    · exact ⟨s', by simp only [seekEntry, hlookup, if_pos hdead]⟩
    · obtain ⟨i, hi, hlater⟩ := h
      cases i with
      | zero => exact absurd hlater hdead
      | succ i =>
        obtain ⟨s'', hrest⟩ := ih (c := table c) s' ⟨i, by omega, hlater⟩
        exact ⟨s'', by simp only [seekEntry, hlookup, if_neg hdead, hrest]⟩

variable (hreads : ∀ n, env.reads n = .success) (hcs : 0 < info.clusterSize)

include hreads hcs

/-- The pieces follow the table, each read from `offset % cluster_size` on in its cluster. -/
theorem readPieces_alive (offset : Nat) {fuel : Nat} (size done : Nat) {c : BitVec 32}
    (s : FatState) (buf : Mem) (hsize : 0 < size) (hfuel : (size - 1) / info.clusterSize < fuel)
    (h : ∀ i < (size - 1) / info.clusterSize, ¬ Dead info (table^[i + 1] c)) :
    ∃ s' buf', readPieces env info next offset fuel s buf size done c = some (s', buf', .success) ∧
      (∀ i < size, buf' (done + i) =
        env.disk (512 * (blFatEntryToDataSector info (table^[i / info.clusterSize] c)).toNat +
          offset % info.clusterSize + i % info.clusterSize)) ∧
      ∀ x < done, buf' x = buf x := by
  induction fuel generalizing s buf size done c with
  | zero => exact absurd hfuel (Nat.not_lt_zero _)
  | succ fuel ih =>
    obtain ⟨buf₁, hread, hdata, hother⟩ := deviceRead_served (hreads s.reads) buf done
      (blFatEntryToDataSector info c).toNat (min size info.clusterSize)
      (offset % info.clusterSize)
    by_cases hlast : size ≤ info.clusterSize
    · refine ⟨{ s with reads := s.reads + 1 }, buf₁, ?_, fun i hi => ?_, fun x hx =>
        hother x (Or.inl hx)⟩
      · have hnone : size - min size info.clusterSize = 0 := by omega
        simp only [readPieces, hread, ne_eq, not_true_eq_false, if_false, if_pos hnone]
      · have hdiv : i / info.clusterSize = 0 := Nat.div_eq_of_lt (by omega)
        have hmod : i % info.clusterSize = i := Nat.mod_eq_of_lt (by omega)
        rw [hdata i (by omega), hdiv, hmod]
        rfl
    · have hpiece : min size info.clusterSize = info.clusterSize := by omega
      have hpieces : (size - 1) / info.clusterSize =
          (size - info.clusterSize - 1) / info.clusterSize + 1 := by
        rw [← Nat.add_div_right _ hcs]
        congr 1
        omega
      obtain ⟨s₂, hlookup⟩ := next_eq hnext { s with reads := s.reads + 1 } c
      have halive : ¬ (table c = 0 ∨ table c = info.eof) := h 0 (by rw [hpieces]; simp)
      obtain ⟨s₃, buf₃, hrest, hlater, hbefore⟩ := ih (size - info.clusterSize)
        (done + info.clusterSize) (c := table c) s₂ buf₁ (by omega) (by omega)
        fun i hi => h (i + 1) (by omega)
      refine ⟨s₃, buf₃, ?_, fun i hi => ?_, fun x hx => ?_⟩
      · have hsome : size - info.clusterSize ≠ 0 := by omega
        rw [hpiece] at hread
        simp only [readPieces, hread, hpiece, ne_eq, not_true_eq_false, if_false, if_neg hsome,
          hlookup, if_neg halive, hrest]
      · by_cases hfirst : i < info.clusterSize
        · rw [hbefore _ (by omega), hdata i (by omega), Nat.div_eq_of_lt hfirst]
          rw [Nat.mod_eq_of_lt hfirst]
          rfl
        · obtain ⟨i', rfl⟩ : ∃ i', i = i' + info.clusterSize := ⟨i - info.clusterSize, by omega⟩
          rw [show done + (i' + info.clusterSize) = done + info.clusterSize + i' by omega,
            hlater i' (by omega), Nat.add_div_right _ hcs, Nat.add_mod_right,
            Function.iterate_succ_apply]
      · rw [hbefore x (by omega), hother x (Or.inl hx)]

theorem readPieces_dead (offset : Nat) {fuel : Nat} (size done : Nat) {c : BitVec 32}
    (s : FatState) (buf : Mem) (hfuel : (size - 1) / info.clusterSize < fuel)
    (h : ∃ i < (size - 1) / info.clusterSize, Dead info (table^[i + 1] c)) :
    ∃ s' buf', readPieces env info next offset fuel s buf size done c =
      some (s', buf', .fileNotFound) := by
  induction fuel generalizing s buf size done c with
  | zero => exact absurd hfuel (Nat.not_lt_zero _)
  | succ fuel ih =>
    obtain ⟨buf₁, hread, -, -⟩ := deviceRead_served (hreads s.reads) buf done
      (blFatEntryToDataSector info c).toNat (min size info.clusterSize)
      (offset % info.clusterSize)
    obtain ⟨i, hi, hdead⟩ := h
    have hmany : info.clusterSize < size := by
      by_contra hfew
      rw [Nat.div_eq_of_lt (by omega)] at hi
      exact absurd hi (Nat.not_lt_zero _)
    have hpiece : min size info.clusterSize = info.clusterSize := by omega
    have hsome : size - info.clusterSize ≠ 0 := by omega
    have hpieces : (size - 1) / info.clusterSize =
        (size - info.clusterSize - 1) / info.clusterSize + 1 := by
      rw [← Nat.add_div_right _ hcs]
      congr 1
      omega
    obtain ⟨s₂, hlookup⟩ := next_eq hnext { s with reads := s.reads + 1 } c
    rw [hpiece] at hread
    by_cases hfirst : table c = 0 ∨ table c = info.eof
    · refine ⟨s₂, buf₁, ?_⟩
      simp only [readPieces, hpiece, hread, ne_eq, not_true_eq_false, if_false, if_neg hsome,
        hlookup, if_pos hfirst]
    · cases i with
      | zero => exact absurd hdead hfirst
      | succ i =>
        obtain ⟨s₃, buf₃, hrest⟩ := ih (size - info.clusterSize)
          (done + info.clusterSize) (c := table c) s₂ buf₁ (by omega)
          ⟨i, by omega, hdead⟩
        refine ⟨s₃, buf₃, ?_⟩
        simp only [readPieces, hpiece, hread, ne_eq, not_true_eq_false, if_false, if_neg hsome,
          hlookup, if_neg hfirst, hrest]

/-! ## The read -/

/-- While the table goes on, the range is delivered: byte `i` from where the cluster
`offset / cluster_size + i / cluster_size` starts. -/
theorem blFatReadClusterChain_alive {size offset : Nat} {c : BitVec 32} (s : FatState) (buf : Mem)
    (hsize : 0 < size) (h : ∀ i < offset / info.clusterSize + (size - 1) / info.clusterSize,
      ¬ Dead info (table^[i + 1] c)) :
    ∃ s' buf', blFatReadClusterChain env info next c s buf size offset =
        some (s', buf', .success) ∧ ∀ i < size, buf' i =
          env.disk (512 * (blFatEntryToDataSector info
            (table^[offset / info.clusterSize + i / info.clusterSize] c)).toNat +
              offset % info.clusterSize + i % info.clusterSize) := by
  have hsteps := Nat.div_le_self (size - 1) info.clusterSize
  obtain ⟨s₁, hseek⟩ := seekEntry_alive hnext (n := offset / info.clusterSize) (c := c) s
    fun i hi => h i (hi.trans_le (Nat.le_add_right _ _))
  have hlater : ∀ i, table^[i] (table^[offset / info.clusterSize] c) =
      table^[offset / info.clusterSize + i] c := fun i => by
    rw [← Function.iterate_add_apply, Nat.add_comm]
  obtain ⟨s₂, buf₂, hread, hdata, -⟩ := readPieces_alive hnext hreads hcs offset size 0
    (c := table^[offset / info.clusterSize] c) s₁ buf hsize (show _ < size + 1 by omega)
    fun i hi => by
      rw [hlater, ← Nat.add_assoc]
      exact h _ (by omega)
  refine ⟨s₂, buf₂, ?_, fun i hi => ?_⟩
  · simp only [blFatReadClusterChain, hseek, hread]
  · have hbyte := hdata i hi
    rwa [Nat.zero_add, hlater] at hbyte

theorem blFatReadClusterChain_dead {size offset : Nat} {c : BitVec 32} (s : FatState) (buf : Mem)
    (h : ∃ i < offset / info.clusterSize + (size - 1) / info.clusterSize,
      Dead info (table^[i + 1] c)) :
    ∃ s' buf', blFatReadClusterChain env info next c s buf size offset =
      some (s', buf', .fileNotFound) := by
  have hsteps := Nat.div_le_self (size - 1) info.clusterSize
  by_cases hseek : ∃ i < offset / info.clusterSize, Dead info (table^[i + 1] c)
  · obtain ⟨s₁, hseek⟩ := seekEntry_dead hnext s hseek
    exact ⟨s₁, buf, by simp only [blFatReadClusterChain, hseek]⟩
  · push Not at hseek
    obtain ⟨s₁, hsought⟩ := seekEntry_alive hnext s hseek
    obtain ⟨i, hi, hdead⟩ := h
    have hpast : offset / info.clusterSize ≤ i := by
      by_contra hbefore
      exact hseek i (by omega) hdead
    have hfuel : (size - 1) / info.clusterSize < size + 1 := by omega
    have hlater : ∃ i < (size - 1) / info.clusterSize,
        Dead info (table^[i + 1] (table^[offset / info.clusterSize] c)) := by
      refine ⟨i - offset / info.clusterSize, by omega, ?_⟩
      rw [← Function.iterate_add_apply]
      rwa [show i - offset / info.clusterSize + 1 + offset / info.clusterSize = i + 1 by omega]
    obtain ⟨s₂, buf₂, hread⟩ := readPieces_dead hnext hreads hcs offset size 0 s₁ buf hfuel
      hlater
    exact ⟨s₂, buf₂, by simp only [blFatReadClusterChain, hsought, hread]⟩

end

/-! ## Places on the disk -/

variable {a b size offset : Nat} {chain : List (BitVec 32)} {mark c : BitVec 32}

theorem Geometry.clusterSize_pos (h : Geometry info a b) : 0 < info.clusterSize := by
  rw [h.clusterSize]
  exact Nat.mul_pos (Nat.two_pow_pos a) (Nat.two_pow_pos b)

theorem Geometry.sectorsPerCluster (h : Geometry info a b) :
    blFatSectorsPerCluster info = 2 ^ b := by
  unfold blFatSectorsPerCluster
  rw [h.clusterSize, h.sectorSize, Nat.mul_div_cancel_left _ (Nat.two_pow_pos a)]

theorem blFatCheckFat_geometry {vbr : Mem} {partitionLba : BitVec 64}
    (h : blFatCheckFat vbr partitionLba = .ok info) : ∃ a b, Geometry info a b := by
  obtain ⟨⟨-, a, b, haccepted⟩, rfl⟩ := blFatCheckFat_eq_ok_iff.mp h
  refine ⟨a, b, haccepted.sectorBits, haccepted.clusterBits, haccepted.sector, ?_⟩
  rw [← haccepted.sector, ← haccepted.cluster]
  rfl

theorem dataSector_toNat (h : Geometry info a b) (hc : 2 ≤ c.toNat) :
    (blFatEntryToDataSector info c).toNat =
      (info.dataLba.toNat + (c.toNat - 2) * 2 ^ b) % 2 ^ 32 := by
  have hdiff : (c - 2).toNat = c.toNat - 2 := by
    rw [BitVec.toNat_sub, show (2 : BitVec 32).toNat = 2 from rfl]
    have hlt := c.isLt
    omega
  unfold blFatEntryToDataSector
  rw [h.sectorsPerCluster, BitVec.toNat_add, BitVec.toNat_setWidth, BitVec.toNat_mul, hdiff,
    BitVec.toNat_ofNat]
  simp only [Nat.add_mod, Nat.mul_mod, Nat.mod_mod]

/-- With small sectors the two never agree again, not even by the loss of the upper bits. -/
theorem smallSector_ne {a lba y : Nat} (ha : a < 9) (hy : 0 < y) :
    512 * ((lba + y) % 2 ^ 32) ≠ 512 * lba + 2 ^ a * y := by
  intro heq
  obtain ⟨t, ht⟩ : ∃ t, 9 = a + (t + 1) := ⟨8 - a, by omega⟩
  have h512 : 2 ^ a * 2 ^ (t + 1) = 512 := by rw [← pow_add, ← ht]; rfl
  have hdiv := Nat.div_add_mod (lba + y) (2 ^ 32)
  have hlt := Nat.mod_lt (lba + y) (Nat.two_pow_pos 32)
  -- What is left over is a multiple of `2 ^ (t + 1 + 32)`, for `2 ^ (t + 1) - 1` is odd.
  have hrest : (2 ^ (t + 1) - 1) * y = 2 ^ (t + 1) * 2 ^ 32 * ((lba + y) / 2 ^ 32) := by
    have hscaled : 2 ^ a * (2 ^ (t + 1) * y) =
        2 ^ a * (2 ^ (t + 1) * 2 ^ 32 * ((lba + y) / 2 ^ 32) + y) := by
      calc 2 ^ a * (2 ^ (t + 1) * y) = 512 * y := by rw [← mul_assoc, h512]
        _ = 512 * (2 ^ 32 * ((lba + y) / 2 ^ 32)) + 2 ^ a * y := by omega
        _ = _ := by rw [← h512]; ring
    have hcancel := Nat.eq_of_mul_eq_mul_left (Nat.two_pow_pos a) hscaled
    rw [Nat.sub_mul]
    omega
  have hcoprime : Nat.Coprime (2 ^ (t + 1) * 2 ^ 32) (2 ^ (t + 1) - 1) := by
    rw [← pow_add]
    apply Nat.Coprime.pow_left
    rw [Nat.coprime_two_left, Nat.odd_iff, pow_succ]
    have := Nat.two_pow_pos t
    omega
  have hdvd : 2 ^ (t + 1) * 2 ^ 32 ∣ y :=
    hcoprime.dvd_of_dvd_mul_left ⟨_, hrest⟩
  have hle := Nat.le_of_dvd hy hdvd
  have hbig : 512 * 2 ^ 32 ≤ 2 ^ a * y := by
    calc 512 * 2 ^ 32 = 2 ^ a * (2 ^ (t + 1) * 2 ^ 32) := by rw [← mul_assoc, h512]
      _ ≤ 2 ^ a * y := Nat.mul_le_mul_left _ hle
  omega

theorem largeSector_ne {a lba y : Nat} (ha : 9 < a) (hy : 0 < y) :
    512 * ((lba + y) % 2 ^ 32) ≠ 512 * lba + 2 ^ a * y := by
  have hmod := Nat.mod_le (lba + y) (2 ^ 32)
  have hpow : 1024 * y ≤ 2 ^ a * y :=
    Nat.mul_le_mul_right y (Nat.pow_le_pow_right (n := 2) (by omega) (show 10 ≤ a by omega))
  omega

theorem dataSector_iff (h : Geometry info a b) (hc : 2 ≤ c.toNat) :
    512 * (blFatEntryToDataSector info c).toNat = clusterAddress info c ↔ InReach info c := by
  have hzero : (c.toNat - 2) * 2 ^ b = 0 ↔ c.toNat = 2 := by
    rw [Nat.mul_eq_zero]
    have hpow := Nat.two_pow_pos b
    omega
  have hmul : (c.toNat - 2) * info.clusterSize = 2 ^ a * ((c.toNat - 2) * 2 ^ b) := by
    rw [h.clusterSize]
    ring
  unfold InReach clusterAddress
  rw [dataSector_toNat h hc, h.sectorsPerCluster, h.sectorSize, hmul, ← hzero]
  generalize (c.toNat - 2) * 2 ^ b = y
  constructor
  · intro heq
    rcases Nat.eq_zero_or_pos y with rfl | hy
    · exact ⟨by omega, Or.inl rfl⟩
    · rcases lt_trichotomy a 9 with hsmall | rfl | hlarge
      · exact absurd heq (smallSector_ne hsmall hy)
      · exact ⟨by omega, Or.inr rfl⟩
      · exact absurd heq (largeSector_ne hlarge hy)
  · rintro ⟨hfit, rfl | hsector⟩
    · omega
    · rw [hsector]
      omega

theorem offset_div_mod (hcs : 0 < info.clusterSize) (offset j : Nat) {t : Nat}
    (ht : t < info.clusterSize) :
    (offset + (j * info.clusterSize + t)) / info.clusterSize = offset / info.clusterSize + j +
        (if offset % info.clusterSize + t < info.clusterSize then 0 else 1) ∧
      (offset + (j * info.clusterSize + t)) % info.clusterSize =
        offset % info.clusterSize + t -
          (if offset % info.clusterSize + t < info.clusterSize then 0 else info.clusterSize) := by
  have hoffset := Nat.div_add_mod' offset info.clusterSize
  have hlt := Nat.mod_lt offset hcs
  have hpiece : info.clusterSize * (offset / info.clusterSize + j) =
      offset / info.clusterSize * info.clusterSize + j * info.clusterSize := by ring
  have hnext : info.clusterSize * (offset / info.clusterSize + j + 1) =
      info.clusterSize * (offset / info.clusterSize + j) + info.clusterSize := by ring
  rw [Nat.div_mod_unique hcs]
  split_ifs with hwithin
  · rw [Nat.add_zero]
    omega
  · omega

/-- Byte `i` of the range, as the code places it and as the chain does. -/
def BytePlaced (info : BlFatInfo) (chain : List (BitVec 32)) (mark : BitVec 32) (offset i : Nat) :
    Prop :=
  512 * (blFatEntryToDataSector info
        (chain.getD (offset / info.clusterSize + i / info.clusterSize) mark)).toNat +
      offset % info.clusterSize + i % info.clusterSize =
    clusterAddress info (chain.getD ((offset + i) / info.clusterSize) mark) +
      (offset + i) % info.clusterSize

theorem bytePlaced_iff (hcs : 0 < info.clusterSize) (j : Nat) {t : Nat}
    (ht : t < info.clusterSize) :
    BytePlaced info chain mark offset (j * info.clusterSize + t) ↔
      512 * (blFatEntryToDataSector info
          (chain.getD (offset / info.clusterSize + j) mark)).toNat +
        offset % info.clusterSize + t =
      if offset % info.clusterSize + t < info.clusterSize then
        clusterAddress info (chain.getD (offset / info.clusterSize + j) mark) +
          (offset % info.clusterSize + t)
      else
        clusterAddress info (chain.getD (offset / info.clusterSize + j + 1) mark) +
          (offset % info.clusterSize + t - info.clusterSize) := by
  obtain ⟨hdiv, hmod⟩ := offset_div_mod hcs offset j ht
  have hj : (j * info.clusterSize + t) / info.clusterSize = j := by
    rw [Nat.mul_comm, Nat.mul_add_div hcs, Nat.div_eq_of_lt ht, Nat.add_zero]
  have ht' : (j * info.clusterSize + t) % info.clusterSize = t := by
    rw [Nat.mul_comm, Nat.mul_add_mod, Nat.mod_eq_of_lt ht]
  unfold BytePlaced
  rw [hdiv, hmod, hj, ht']
  split_ifs <;> rfl

theorem clusterAddress_succ_iff {c c' : BitVec 32} (hcs : 0 < info.clusterSize)
    (hc : 2 ≤ c.toNat) (hc' : 2 ≤ c'.toNat) :
    clusterAddress info c + info.clusterSize = clusterAddress info c' ↔
      c'.toNat = c.toNat + 1 := by
  unfold clusterAddress
  have hsucc : (c.toNat - 2) * info.clusterSize + info.clusterSize =
      (c.toNat - 1) * info.clusterSize := by
    rw [← Nat.succ_mul]
    congr 1
    omega
  rw [Nat.add_assoc, hsucc, Nat.add_left_cancel_iff]
  constructor
  · intro heq
    have hsame := Nat.eq_of_mul_eq_mul_right hcs heq
    omega
  · intro heq
    congr 1
    omega

theorem piece_iff (h : Geometry info a b) {j : Nat} (hj : j * info.clusterSize < size)
    (hchain : ∀ i < chain.length, 2 ≤ (chain.getD i mark).toNat)
    (hin : offset + size ≤ chain.length * info.clusterSize) :
    (∀ t < min (size - j * info.clusterSize) info.clusterSize,
      BytePlaced info chain mark offset (j * info.clusterSize + t)) ↔
      PieceInPlace info chain mark size offset j := by
  have hcs := h.clusterSize_pos
  have hoffset := Nat.div_add_mod' offset info.clusterSize
  have hlt := Nat.mod_lt offset hcs
  have hc : 2 ≤ (chain.getD (offset / info.clusterSize + j) mark).toNat := by
    apply hchain
    apply Nat.lt_of_mul_lt_mul_right (a := info.clusterSize)
    rw [Nat.add_mul]
    omega
  have hc' (hcross : info.clusterSize < offset % info.clusterSize +
      min (size - j * info.clusterSize) info.clusterSize) :
      2 ≤ (chain.getD (offset / info.clusterSize + j + 1) mark).toNat := by
    apply hchain
    apply Nat.lt_of_mul_lt_mul_right (a := info.clusterSize)
    rw [Nat.add_mul, Nat.add_mul]
    omega
  unfold PieceInPlace
  constructor
  · intro hall
    have hstart : 512 * (blFatEntryToDataSector info
        (chain.getD (offset / info.clusterSize + j) mark)).toNat =
          clusterAddress info (chain.getD (offset / info.clusterSize + j) mark) := by
      have hzero := (bytePlaced_iff hcs j hcs).mp (hall 0 (by omega))
      rw [if_pos (by omega)] at hzero
      omega
    refine ⟨(dataSector_iff h hc).mp hstart, fun hcross => ?_⟩
    have hend := (bytePlaced_iff hcs j (show info.clusterSize - offset % info.clusterSize <
      info.clusterSize by omega)).mp (hall _ (by omega))
    rw [if_neg (by omega)] at hend
    exact (clusterAddress_succ_iff hcs hc (hc' hcross)).mp (by omega)
  · rintro ⟨hreach, hcross⟩ t ht
    have hstart := (dataSector_iff h hc).mpr hreach
    rw [bytePlaced_iff hcs j (by omega)]
    split_ifs with hwithin
    · omega
    · have hover : info.clusterSize < offset % info.clusterSize +
          min (size - j * info.clusterSize) info.clusterSize := by omega
      have hnext := (clusterAddress_succ_iff hcs hc (hc' hover)).mpr (hcross hover)
      omega

theorem bytes_iff (h : Geometry info a b)
    (hchain : ∀ i < chain.length, 2 ≤ (chain.getD i mark).toNat)
    (hin : offset + size ≤ chain.length * info.clusterSize) :
    (∀ i < size, BytePlaced info chain mark offset i) ↔
      ∀ j, j * info.clusterSize < size → PieceInPlace info chain mark size offset j := by
  have hcs := h.clusterSize_pos
  constructor
  · intro hall j hj
    exact (piece_iff h hj hchain hin).mp fun t ht => hall _ (by omega)
  · intro hall i hi
    have hsplit := Nat.div_add_mod' i info.clusterSize
    have hlt := Nat.mod_lt i hcs
    have hj : i / info.clusterSize * info.clusterSize < size := by omega
    rw [← hsplit]
    exact (piece_iff h hj hchain hin).mpr (hall _ hj) _ (by omega)

/-! ## The whole read -/

theorem ClusterChain.getD_bounds (h : ClusterChain info chain mark) {i : Nat}
    (hi : i < chain.length) :
    2 ≤ (chain.getD i mark).toNat ∧ (chain.getD i mark).toNat < info.eof.toNat := by
  rw [List.getD_eq_getElem _ _ hi]
  exact h.clusters _ (List.getElem_mem hi)

theorem ClusterChain.alive (h : ClusterChain info chain mark) {i : Nat} (hi : i < chain.length) :
    ¬ Dead info (chain.getD i mark) := by
  have hbounds := h.getD_bounds hi
  rintro (hzero | heof)
  · rw [hzero] at hbounds
    simp at hbounds
  · rw [heof] at hbounds
    omega

theorem ClusterChain.length_pos (h : ClusterChain info chain mark) : 0 < chain.length :=
  List.length_pos_iff.mpr h.nonempty

theorem ClusterChain.dead_mark_iff (h : ClusterChain info chain mark) :
    Dead info mark ↔ mark = info.eof := by
  constructor
  · rintro (hzero | heof)
    · have hbounds := h.getD_bounds h.length_pos
      have hmark := h.mark
      rw [hzero, show (0 : BitVec 32).toNat = 0 from rfl] at hmark
      omega
    · exact heof
  · exact Or.inr

theorem ClusterChain.mark_notMem (h : ClusterChain info chain mark) : mark ∉ chain := by
  intro hmem
  have hbounds := h.clusters mark hmem
  have hmark := h.mark
  omega

theorem lookups_lt_iff (hcs : 0 < info.clusterSize) (hsize : 0 < size) (n : Nat) :
    offset / info.clusterSize + (size - 1) / info.clusterSize < n ↔
      offset / info.clusterSize * info.clusterSize + size ≤ n * info.clusterSize := by
  rw [Nat.add_comm, ← Nat.add_mul_div_right _ _ hcs, Nat.div_lt_iff_lt_mul hcs]
  omega

theorem Follows.alive (hchain : ClusterChain info chain mark) (hfollows : Follows table chain mark)
    {n : Nat} (hn : n < chain.length) :
    ∀ i < n, ¬ Dead info (table^[i + 1] (chain.getD 0 mark)) := by
  intro i hi
  rw [hfollows.iterate_eq (by omega)]
  exact hchain.alive (by omega)

theorem readInPlace_of_right (h : Geometry info a b) (hchain : ClusterChain info chain mark)
    (hsize : 0 < size) (hright : ChainReadRight info chain mark size offset) :
    ReadInPlace info chain mark size offset := by
  have hcs := h.clusterSize_pos
  have hoffset := Nat.div_mul_le_self offset info.clusterSize
  obtain ⟨table, hfollows, hself⟩ := exists_follows hchain.nodup hchain.mark_notMem
  let next : NextEntry := fun s k => (s, some (table k))
  let env : Mem → Env := fun disk => ⟨fun _ => true, fun _ => .success, disk⟩
  have hrun : ∀ disk, ReadRight disk info chain mark size offset _ := fun disk =>
    hright (env disk) next table (fun _ => rfl) (fun _ _ => rfl) hfollows
      (.mounted (fun _ => 0) 0) (fun _ => 0)
  have hread : ∀ disk, (∀ i < offset / info.clusterSize + (size - 1) / info.clusterSize,
      ¬ Dead info (table^[i + 1] (chain.getD 0 mark))) →
      ∃ s' buf', blFatReadClusterChain (env disk) info next (chain.getD 0 mark)
          (.mounted (fun _ => 0) 0) (fun _ => 0) size offset = some (s', buf', .success) ∧
        ∀ i < size, buf' i = disk (512 * (blFatEntryToDataSector info
            (table^[offset / info.clusterSize + i / info.clusterSize]
              (chain.getD 0 mark))).toNat +
          offset % info.clusterSize + i % info.clusterSize) := fun disk halive =>
    blFatReadClusterChain_alive (fun _ _ => rfl) (fun _ => rfl) hcs _ _ hsize halive
  refine ⟨fun hin => (bytes_iff h (fun i hi => (hchain.getD_bounds hi).1) hin).mp fun i hi => ?_,
    fun hpast => ?_⟩
  · -- A disk that holds 1 where the code looks for byte `i`, and 0 elsewhere.
    let place := 512 * (blFatEntryToDataSector info
        (chain.getD (offset / info.clusterSize + i / info.clusterSize) mark)).toNat +
      offset % info.clusterSize + i % info.clusterSize
    let disk : Mem := fun x => if x = place then 1 else 0
    have hlookups : offset / info.clusterSize + (size - 1) / info.clusterSize < chain.length :=
      (lookups_lt_iff hcs hsize _).mpr (by omega)
    have hpiece : i / info.clusterSize ≤ (size - 1) / info.clusterSize :=
      Nat.div_le_div_right (by omega)
    obtain ⟨s', buf', hread, hdata⟩ := hread disk (Follows.alive hchain hfollows hlookups)
    obtain ⟨s'', buf'', hread', hdata'⟩ := (hrun disk).inside hin
    rw [hread, Option.some.injEq, Prod.mk.injEq, Prod.mk.injEq] at hread'
    obtain ⟨-, rfl, -⟩ := hread'
    have hbyte := hdata i hi
    rw [hdata' i hi, hfollows.iterate_eq (by omega), chainByte] at hbyte
    have hone : disk place = 1 := if_pos rfl
    rw [hone] at hbyte
    by_contra hne
    have hzero : disk (clusterAddress info (chain.getD ((offset + i) / info.clusterSize) mark) +
        (offset + i) % info.clusterSize) = 0 := if_neg fun heq => hne heq.symm
    rw [hzero] at hbyte
    exact absurd hbyte (by decide)
  · obtain ⟨s'', buf'', hread'⟩ := (hrun fun _ => 0).past hpast
    have hdies : ¬ ∀ i < offset / info.clusterSize + (size - 1) / info.clusterSize,
        ¬ Dead info (table^[i + 1] (chain.getD 0 mark)) := by
      intro halive
      obtain ⟨s', buf', hread, -⟩ := hread (fun _ => 0) halive
      rw [hread] at hread'
      cases hread'
    constructor
    · by_contra hmark
      apply hdies
      intro i _
      rw [hfollows.iterate_eq_of_stop hself]
      by_cases hi : i + 1 < chain.length
      · exact hchain.alive hi
      · rw [List.getD_eq_default _ _ (by omega), hchain.dead_mark_iff]
        exact hmark
    · by_contra hwithin
      exact hdies (Follows.alive hchain hfollows ((lookups_lt_iff hcs hsize _).mpr (by omega)))

theorem right_of_readInPlace (h : Geometry info a b) (hchain : ClusterChain info chain mark)
    (hsize : 0 < size) (hplace : ReadInPlace info chain mark size offset) :
    ChainReadRight info chain mark size offset := by
  intro env next table hreads hnext hfollows s buf
  have hcs := h.clusterSize_pos
  have hoffset := Nat.div_mul_le_self offset info.clusterSize
  constructor
  · intro hin
    have hlookups : offset / info.clusterSize + (size - 1) / info.clusterSize < chain.length :=
      (lookups_lt_iff hcs hsize _).mpr (by omega)
    obtain ⟨s', buf', hread, hdata⟩ := blFatReadClusterChain_alive hnext hreads hcs s buf hsize
      (Follows.alive hchain hfollows hlookups)
    refine ⟨s', buf', hread, fun i hi => ?_⟩
    have hpiece : i / info.clusterSize ≤ (size - 1) / info.clusterSize :=
      Nat.div_le_div_right (by omega)
    have hplaced : BytePlaced info chain mark offset i :=
      (bytes_iff h (fun i hi => (hchain.getD_bounds hi).1) hin).mpr (hplace.1 hin) i hi
    rw [hdata i hi, hfollows.iterate_eq (by omega), hplaced, chainByte]
  · intro hpast
    obtain ⟨hmark, hpieces⟩ := hplace.2 hpast
    have hpos := hchain.length_pos
    apply blFatReadClusterChain_dead hnext hreads hcs s buf
    refine ⟨chain.length - 1, ?_, ?_⟩
    · by_contra hshort
      have hlookups := (lookups_lt_iff hcs hsize _).mp
        (show offset / info.clusterSize + (size - 1) / info.clusterSize < chain.length by omega)
      omega
    · rw [Nat.sub_add_cancel hpos, hfollows.iterate_eq le_rfl, List.getD_eq_default _ _ le_rfl]
      exact hchain.dead_mark_iff.mpr hmark

/-- **File data.** Over all disks and tables, a read is right just when `ReadInPlace` says so. -/
theorem blFatReadClusterChain_right_iff (h : Geometry info a b)
    (hchain : ClusterChain info chain mark) (hsize : 0 < size) :
    ChainReadRight info chain mark size offset ↔ ReadInPlace info chain mark size offset := by
  constructor
  · intro hright
    exact readInPlace_of_right h hchain hsize hright
  · intro hplace
    exact right_of_readInPlace h hchain hsize hplace

/-! ## Files on a floppy disk -/

theorem floppy_geometry : Geometry floppy 9 0 := ⟨by decide, by decide, rfl, rfl⟩

theorem floppy_chain {chain : List (BitVec 32)} (mark : BitVec 32) (hnonempty : chain ≠ [])
    (hnodup : chain.Nodup) (hclusters : ∀ c ∈ chain, 2 ≤ c.toNat ∧ c.toNat < 0xff8)
    (hmark : 0xff8 ≤ mark.toNat) : ClusterChain floppy chain mark :=
  ⟨hnonempty, hnodup, hclusters, hmark⟩

theorem blFatReadClusterChain_right_iff_two : ChainReadRight floppy [2, 3] 0xff8 600 0 := by
  have hchain : ClusterChain floppy [2, 3] 0xff8 :=
    floppy_chain _ (by simp) (by simp) (by simp) (by simp)
  refine (blFatReadClusterChain_right_iff floppy_geometry hchain (by decide)).mpr
    ⟨fun _ j hj => ?_, fun hpast => absurd hpast (by decide)⟩
  have hfew : j * 512 < 600 := hj
  obtain rfl | rfl : j = 0 ∨ j = 1 := by omega
  · exact ⟨⟨by decide, Or.inl rfl⟩, fun hcross => absurd hcross (by decide)⟩
  · exact ⟨⟨by decide, Or.inr rfl⟩, fun hcross => absurd hcross (by decide)⟩

/-- Cluster 4 holds ones, and the table leads from 2 to 4 and from there to `mark`. -/
def splitEnv : Env where
  allocs _ := true
  reads _ := .success
  disk x := if 512 * 35 ≤ x ∧ x < 512 * 36 then 1 else 0

def splitTable (mark k : BitVec 32) : BitVec 32 := if k = 2 then 4 else if k = 4 then mark else 0

def splitRead (mark : BitVec 32) (size offset : Nat) : Option (FatState × Mem × BlStatus) :=
  blFatReadClusterChain splitEnv floppy (fun s k => (s, some (splitTable mark k))) 2
    (.mounted (fun _ => 0) 0) (fun _ => 0) size offset

/-- A read of the last byte of cluster 2 and the next goes on into cluster 3, which is not of this
file; and after the last cluster the mark `0xfff` is read as a cluster. -/
theorem split_file_misread :
    ClusterChain floppy [2, 4] 0xff8 ∧ Follows (splitTable 0xff8) [2, 4] 0xff8 ∧
      (splitRead 0xff8 2 511).map (fun r => (r.2.1 1, r.2.2)) = some (0, .success) ∧
      chainByte splitEnv.disk floppy [2, 4] 0xff8 (511 + 1) = 1 ∧
      ClusterChain floppy [2, 4] 0xfff ∧ Follows (splitTable 0xfff) [2, 4] 0xfff ∧
      (splitRead 0xfff 1 1024).map (fun r => r.2.2) = some .success := by
  refine ⟨floppy_chain _ (by simp) (by simp) (by simp) (by simp), by simp [Follows, splitTable],
    ?_, ?_, floppy_chain _ (by simp) (by simp) (by simp) (by simp), by simp [Follows, splitTable],
    ?_⟩
  · rfl
  · rfl
  · rfl

end BootLoader.Fat

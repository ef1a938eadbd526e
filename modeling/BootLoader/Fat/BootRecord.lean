import BootLoader.Fat.Mount
import BootLoader.Heap.Proofs

/-!
# What a boot record stands for

The fields of a volume boot record as numbers, the volume that the format defines by them, and the
numbers that mounting works out, without the carries.
-/

open ByteMemory RoundUp

namespace BootLoader.Fat

open Driver Heap Utils

structure BootRecord where
  bytesPerSector : Nat
  sectorsPerCluster : Nat
  reservedSectors : Nat
  numOfFats : Nat
  rootdirEntries : Nat
  totalSectors : Nat
  sectorsPerFat : Nat

def bootRecord (vbr : Mem) : BootRecord where
  bytesPerSector := read16 vbr 0x0b
  sectorsPerCluster := (vbr 0x0d).toNat
  reservedSectors := read16 vbr 0x0e
  numOfFats := (vbr 0x10).toNat
  rootdirEntries := read16 vbr 0x11
  totalSectors := if read16 vbr 0x13 ≠ 0 then read16 vbr 0x13 else read32 vbr 0x20
  sectorsPerFat := if read16 vbr 0x16 ≠ 0 then read16 vbr 0x16 else read32 vbr 0x24

namespace BootRecord

variable (r : BootRecord)

/-- Sectors before the root directory. -/
def rootdirStart : Nat := r.reservedSectors + r.numOfFats * r.sectorsPerFat

/-- The sectors of the root directory, as the format rounds them up. -/
def rootdirSectors : Nat := (32 * r.rootdirEntries + (r.bytesPerSector - 1)) / r.bytesPerSector

/-- Sectors before the data. -/
def dataStart : Nat := r.rootdirStart + r.rootdirSectors

/-- As the code rounds them up: to 512 bytes, whatever the size of a sector is. -/
def codeRootdirSectors : Nat := (r.rootdirEntries + 15) / 16

def codeDataStart : Nat := r.rootdirStart + r.codeRootdirSectors

end BootRecord

/-- With sectors of 512 bytes the two are one. -/
theorem BootRecord.codeDataStart_of_512 {r : BootRecord} (hsector : r.bytesPerSector = 512) :
    r.codeDataStart = r.dataStart := by
  rw [codeDataStart, dataStart, codeRootdirSectors, rootdirSectors, hsector]
  omega

/-- The type by the count of clusters. -/
def typeOfCount (n : Nat) : FatType :=
  if n < 4085 then .fat12 else if n < 65525 then .fat16 else .fat32

/-! ## Bounds of the fields -/

structure BootRecord.Bounded (r : BootRecord) : Prop where
  reserved : r.reservedSectors < 2 ^ 16
  fats : r.numOfFats * r.sectorsPerFat < 2 ^ 40
  entries : r.rootdirEntries < 2 ^ 16
  total : r.totalSectors < 2 ^ 32

theorem bootRecord_bounded (vbr : Mem) : (bootRecord vbr).Bounded where
  reserved := read16_lt vbr 0x0e
  fats := by
    have hfats : (vbr 0x10).toNat < 2 ^ 8 := (vbr 0x10).isLt
    have hsectors : (bootRecord vbr).sectorsPerFat < 2 ^ 32 := by
      have h16 := read16_lt vbr 0x16
      have h32 := read32_lt vbr 0x24
      simp only [bootRecord]
      split <;> omega
    calc (vbr 0x10).toNat * (bootRecord vbr).sectorsPerFat
        < 2 ^ 8 * 2 ^ 32 := Nat.mul_lt_mul'' hfats hsectors
      _ = 2 ^ 40 := by rfl
  entries := read16_lt vbr 0x11
  total := by
    have h16 := read16_lt vbr 0x13
    have h32 := read32_lt vbr 0x20
    simp only [bootRecord]
    split <;> omega

/-! ## What mounting works out -/

variable {vbr : Mem} {lba : BitVec 64} {info : BlFatInfo}

theorem alignUp_entries {n : Nat} (hn : n < 2 ^ 16) :
    blMemoryAlignUp (n * 32) 512 / 512 = (n + 15) / 16 := by
  have hup : blMemoryAlignUp (n * 32) (2 ^ 9) = roundUp (n * 32) (2 ^ 9) :=
    blMemoryAlignUp_eq_roundUp (by decide) (by simp only [roundUp]; omega)
  rw [show 512 = 2 ^ 9 by rfl, hup, roundUp]
  omega

theorem volumeInfo_fatLba (vbr : Mem) (lba : BitVec 64) :
    (volumeInfo vbr lba).fatLba.toNat =
      (lba.toNat + (bootRecord vbr).reservedSectors) % 2 ^ 64 := by
  simp only [volumeInfo, bootRecord, BitVec.toNat_add, BitVec.toNat_ofNat]
  omega

theorem volumeInfo_rootdirLba (vbr : Mem) (lba : BitVec 64) :
    (volumeInfo vbr lba).rootdirLba.toNat =
      (lba.toNat + (bootRecord vbr).rootdirStart) % 2 ^ 64 := by
  have hfat := volumeInfo_fatLba vbr lba
  have hrootdir : (volumeInfo vbr lba).rootdirLba = (volumeInfo vbr lba).fatLba +
      BitVec.ofNat 64 (bootRecord vbr).sectorsPerFat *
        BitVec.ofNat 64 (bootRecord vbr).numOfFats := rfl
  have hmul : (BitVec.ofNat 64 (bootRecord vbr).sectorsPerFat *
      BitVec.ofNat 64 (bootRecord vbr).numOfFats).toNat =
      (bootRecord vbr).numOfFats * (bootRecord vbr).sectorsPerFat % 2 ^ 64 := by
    rw [BitVec.toNat_mul, BitVec.toNat_ofNat, BitVec.toNat_ofNat, ← Nat.mul_mod, Nat.mul_comm]
  rw [hrootdir, BitVec.toNat_add, hfat, hmul, BootRecord.rootdirStart]
  omega

theorem volumeInfo_dataLba (vbr : Mem) (lba : BitVec 64) :
    (volumeInfo vbr lba).dataLba.toNat =
      (lba.toNat + (bootRecord vbr).codeDataStart) % 2 ^ 64 := by
  have hrootdir := volumeInfo_rootdirLba vbr lba
  have hdata : (volumeInfo vbr lba).dataLba = (volumeInfo vbr lba).rootdirLba +
      BitVec.ofNat 64 (blMemoryAlignUp ((bootRecord vbr).rootdirEntries * 32) 512 / 512) := rfl
  rw [hdata, alignUp_entries (bootRecord_bounded vbr).entries, BitVec.toNat_add, hrootdir,
    BitVec.toNat_ofNat, BootRecord.codeDataStart, BootRecord.codeRootdirSectors]
  omega

theorem wrapped_difference {l t d : Nat} (ht : t < 2 ^ 32) (hd : d < 2 ^ 41) :
    (2 ^ 64 - (l + d) % 2 ^ 64 + (l + t % 2 ^ 64) % 2 ^ 64) % 2 ^ 64 =
      if d ≤ t then t - d else 2 ^ 64 + t - d := by
  rw [Nat.mod_eq_of_lt (show t < 2 ^ 64 by omega)]
  split <;> omega

/-- The difference is that of the fields, wherever the volume starts. -/
theorem volumeInfo_totalClusters {b : Nat} (vbr : Mem) (lba : BitVec 64) (hb : b < 8)
    (hcluster : (bootRecord vbr).sectorsPerCluster = 2 ^ b) :
    (volumeInfo vbr lba).totalClusters.toNat =
      (if (bootRecord vbr).codeDataStart ≤ (bootRecord vbr).totalSectors then
        (bootRecord vbr).totalSectors - (bootRecord vbr).codeDataStart
      else 2 ^ 64 + (bootRecord vbr).totalSectors - (bootRecord vbr).codeDataStart) / 2 ^ b := by
  have hdata := volumeInfo_dataLba vbr lba
  have hbounds := bootRecord_bounded vbr
  have hlog : blLog2 (bootRecord vbr).sectorsPerCluster = b := by
    rw [hcluster, blLog2_two_pow (by omega)]
  have hclusters : (volumeInfo vbr lba).totalClusters =
      (lba + BitVec.ofNat 64 (bootRecord vbr).totalSectors - (volumeInfo vbr lba).dataLba) >>>
        shiftCount (blLog2 (bootRecord vbr).sectorsPerCluster) := rfl
  have hfats := hbounds.fats
  have hreserved := hbounds.reserved
  have htotal := hbounds.total
  have hentries := hbounds.entries
  rw [hclusters, hlog, shiftCount_of_lt (by omega), BitVec.toNat_ushiftRight,
    Nat.shiftRight_eq_div_pow, BitVec.toNat_sub, BitVec.toNat_add, BitVec.toNat_ofNat, hdata]
  have hstart : (bootRecord vbr).codeDataStart < 2 ^ 41 := by
    simp only [BootRecord.codeDataStart, BootRecord.rootdirStart, BootRecord.codeRootdirSectors]
    omega
  rw [wrapped_difference htotal hstart]

theorem volumeInfo_fatType (vbr : Mem) (lba : BitVec 64) :
    (volumeInfo vbr lba).fatType = typeOfCount (volumeInfo vbr lba).totalClusters.toNat := by
  have htype : (volumeInfo vbr lba).fatType =
      if (volumeInfo vbr lba).totalClusters < blFat12MaxClusters then .fat12
      else if (volumeInfo vbr lba).totalClusters < blFat16MaxClusters then .fat16
      else .fat32 := rfl
  rw [htype]
  rfl

/-! ## What is accepted -/

/-- The tests of `bl_fat_check_fat`. -/
structure BootRecord.Accepted (r : BootRecord) (a b : Nat) : Prop where
  fats : r.numOfFats ≠ 0
  entries : r.rootdirEntries ≠ 0
  sector : r.bytesPerSector = 2 ^ a
  cluster : r.sectorsPerCluster = 2 ^ b
  sectorBits : a < 16
  clusterBits : b < 8

theorem two_pow_bound {n k : Nat} (hlog : blLog2 n ≠ -1) (hn : n < 2 ^ k) :
    ∃ a, n = 2 ^ a ∧ a < k := by
  obtain ⟨a, rfl⟩ := two_pow_of_blLog2 hlog
  exact ⟨a, rfl, (Nat.pow_lt_pow_iff_right (by decide)).mp hn⟩

theorem blFatCheckFat_eq_ok_iff :
    blFatCheckFat vbr lba = .ok info ↔
      (read16 vbr 0x1fe = blMbrSignature ∧ ∃ a b, (bootRecord vbr).Accepted a b) ∧
        info = volumeInfo vbr lba := by
  unfold blFatCheckFat
  constructor
  · intro h
    split at h
    · cases h
    · rename_i hvalid
      simp only [not_or] at hvalid
      obtain ⟨hfats, hentries, hsignature, hsector, hcluster⟩ := hvalid
      obtain ⟨a, ha, halt⟩ := two_pow_bound hsector (read16_lt vbr 0x0b)
      obtain ⟨b, hb, hblt⟩ := two_pow_bound hcluster (vbr 0x0d).isLt
      cases h
      exact ⟨⟨not_not.mp hsignature, a, b, hfats, hentries, ha, hb, halt, hblt⟩, rfl⟩
  · rintro ⟨⟨hsignature, a, b, h⟩, rfl⟩
    refine if_neg ?_
    have hsector : read16 vbr 0x0b = 2 ^ a := h.sector
    have hcluster : (vbr 0x0d).toNat = 2 ^ b := h.cluster
    have hfats : (vbr 0x10).toNat ≠ 0 := h.fats
    have hentries : read16 vbr 0x11 ≠ 0 := h.entries
    have ha := h.sectorBits
    have hb := h.clusterBits
    rw [hsector, hcluster, blLog2_two_pow (by omega), blLog2_two_pow (by omega)]
    simp only [hfats, hentries, hsignature, ne_eq, not_true_eq_false, false_or]
    omega

end BootLoader.Fat

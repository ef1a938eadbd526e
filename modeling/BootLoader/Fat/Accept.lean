import BootLoader.Fat.BootRecord
import BootLoader.Fat.Lookup

/-!
# Which volumes are accepted

`bl_fat_check_fat` tests five fields of the boot record. What it does not test is that the regions
lie inside the volume, and that a sector is at least one of the disk's.
-/

open ByteMemory

namespace BootLoader.Fat

open Driver Heap Utils

variable {vbr : Mem} {lba : BitVec 64} {info : BlFatInfo} {r : BootRecord}

/-! ## Geometry -/

/-- Nothing that the read functions compute from the volume information divides by zero, shifts by
less than nothing or leaves the volume, and the table has an entry for every cluster. -/
structure Usable (vbr : Mem) (lba : BitVec 64) (info : BlFatInfo) : Prop where
  sectorSize : 512 ≤ info.sectorSize
  clusterSize : 0 < info.clusterSize
  entriesPerSector : 0 < (info.fatCacheSize <<< 3) / info.fatType.bits
  sectorShift : 0 ≤ blLog2 info.sectorSize
  clusterShift : 0 ≤ blLog2 (vbr 0x0d).toNat
  fat : lba.toNat ≤ info.fatLba.toNat
  rootdir : info.fatLba.toNat ≤ info.rootdirLba.toNat
  data : info.rootdirLba.toNat ≤ info.dataLba.toNat
  stop : info.dataLba.toNat ≤ (lba + info.totalSectors).toNat
  table : (info.totalClusters.toNat + 2) * info.fatType.bits ≤
    8 * (info.sectorsPerFat.toNat * info.sectorSize)

/-- A sector is at least one of the disk's, and the volume has room for its tables, its root
directory and an entry of the table for each of its clusters. -/
structure BootRecord.FitsVolume (r : BootRecord) (start : Nat) : Prop where
  sector : 512 ≤ r.bytesPerSector
  stop : start + r.totalSectors < 2 ^ 64
  regions : r.codeDataStart ≤ r.totalSectors
  table : ((r.totalSectors - r.codeDataStart) / r.sectorsPerCluster + 2) *
      (typeOfCount ((r.totalSectors - r.codeDataStart) / r.sectorsPerCluster)).bits ≤
    8 * (r.sectorsPerFat * r.bytesPerSector)

/-- The regions are in order exactly when no sum wraps and they fit into the sectors. -/
theorem regions_ordered_iff (vbr : Mem) (lba : BitVec 64) :
    (lba.toNat ≤ (volumeInfo vbr lba).fatLba.toNat ∧
      (volumeInfo vbr lba).fatLba.toNat ≤ (volumeInfo vbr lba).rootdirLba.toNat ∧
      (volumeInfo vbr lba).rootdirLba.toNat ≤ (volumeInfo vbr lba).dataLba.toNat ∧
      (volumeInfo vbr lba).dataLba.toNat ≤ (lba + (volumeInfo vbr lba).totalSectors).toNat) ↔
      lba.toNat + (bootRecord vbr).totalSectors < 2 ^ 64 ∧
        (bootRecord vbr).codeDataStart ≤ (bootRecord vbr).totalSectors := by
  have hbounds := bootRecord_bounded vbr
  have hfats := hbounds.fats
  have hreserved := hbounds.reserved
  have htotal := hbounds.total
  have hentries := hbounds.entries
  have hlba := lba.isLt
  have hsectors : (volumeInfo vbr lba).totalSectors =
      BitVec.ofNat 64 (bootRecord vbr).totalSectors := rfl
  rw [volumeInfo_fatLba, volumeInfo_rootdirLba, volumeInfo_dataLba, hsectors, BitVec.toNat_add,
    BitVec.toNat_ofNat, Nat.mod_eq_of_lt (show (bootRecord vbr).totalSectors < 2 ^ 64 by omega)]
  simp only [BootRecord.codeDataStart, BootRecord.rootdirStart, BootRecord.codeRootdirSectors]
  constructor
  · omega
  · omega

theorem regions_totalClusters {b : Nat} (hb : b < 8)
    (hcluster : (bootRecord vbr).sectorsPerCluster = 2 ^ b)
    (hregions : (bootRecord vbr).codeDataStart ≤ (bootRecord vbr).totalSectors) :
    (volumeInfo vbr lba).totalClusters.toNat =
      ((bootRecord vbr).totalSectors - (bootRecord vbr).codeDataStart) /
        (bootRecord vbr).sectorsPerCluster := by
  rw [volumeInfo_totalClusters vbr lba hb hcluster, if_pos hregions, hcluster]

theorem volumeInfo_sectorsPerFat (vbr : Mem) (lba : BitVec 64) :
    (volumeInfo vbr lba).sectorsPerFat.toNat = (bootRecord vbr).sectorsPerFat := by
  have h16 := read16_lt vbr 0x16
  have h32 := read32_lt vbr 0x24
  simp only [volumeInfo, bootRecord, BitVec.toNat_ofNat]
  split <;> omega

/-- With a sector of the disk in the cache, there is an entry in it. -/
theorem entriesPerSector_pos (hsector : 512 ≤ info.fatCacheSize) :
    0 < (info.fatCacheSize <<< 3) / info.fatType.bits := by
  rw [Nat.shiftLeft_eq]
  apply Nat.div_pos
  · cases info.fatType <;> simp only [FatType.bits] <;> omega
  · cases info.fatType <;> decide

/-- **The geometry of an accepted volume** is usable exactly when its sectors are at least those of
the disk, and the volume has room for what its boot record puts into it. -/
theorem accepted_usable_iff (h : blFatCheckFat vbr lba = .ok info) :
    Usable vbr lba info ↔ (bootRecord vbr).FitsVolume lba.toNat := by
  obtain ⟨⟨-, a, b, hr⟩, rfl⟩ := blFatCheckFat_eq_ok_iff.mp h
  have horder := regions_ordered_iff vbr lba
  constructor
  · intro husable
    obtain ⟨hstop, hregions⟩ :=
      horder.mp ⟨husable.fat, husable.rootdir, husable.data, husable.stop⟩
    have htable := husable.table
    rw [volumeInfo_fatType, regions_totalClusters hr.clusterBits hr.cluster hregions,
      volumeInfo_sectorsPerFat] at htable
    exact ⟨husable.sectorSize, hstop, hregions, htable⟩
  · rintro ⟨hsector, hstop, hregions, htable⟩
    obtain ⟨hfat, hrootdir, hdata, hend⟩ := horder.mpr ⟨hstop, hregions⟩
    have hsize : (volumeInfo vbr lba).sectorSize = 2 ^ a := hr.sector
    have hcluster : (vbr 0x0d).toNat = 2 ^ b := hr.cluster
    have ha := hr.sectorBits
    have hb := hr.clusterBits
    refine ⟨hsector, ?_, ?_, ?_, ?_, hfat, hrootdir, hdata, hend, ?_⟩
    · have hmul : (volumeInfo vbr lba).clusterSize = (volumeInfo vbr lba).sectorSize *
          (vbr 0x0d).toNat := rfl
      rw [hmul, hsize, hcluster]
      exact Nat.mul_pos (Nat.two_pow_pos a) (Nat.two_pow_pos b)
    · exact entriesPerSector_pos (Nat.le_add_right_of_le hsector)
    · rw [hsize, blLog2_two_pow (by omega)]
      exact Int.natCast_nonneg a
    · rw [hcluster, blLog2_two_pow (by omega)]
      exact Int.natCast_nonneg b
    · rw [volumeInfo_fatType, regions_totalClusters hr.clusterBits hr.cluster hregions,
        volumeInfo_sectorsPerFat]
      exact htable

theorem floppy_usable_iff :
    Usable floppyVbr 0 floppy ↔ (bootRecord floppyVbr).FitsVolume (0 : BitVec 64).toNat :=
  accepted_usable_iff (show blFatCheckFat floppyVbr 0 = .ok floppy by rfl)

/-- Sectors of one byte, and so many that the volume counts as FAT16. -/
def byteSectorsVbr : Mem := ofPieces
  [(0x0b, bytesLE 2 1 ++ [1] ++ bytesLE 2 1 ++ [1] ++ bytesLE 2 16 ++ bytesLE 2 5000),
    (0x16, bytesLE 2 1), (0x1fe, bytesLE 2 0xaa55)]

/-- The first lookup divides by zero. -/
theorem byteSectors_not_usable :
    ¬ ∀ vbr lba info, blFatCheckFat vbr lba = .ok info → Usable vbr lba info := by
  intro h
  have husable := h byteSectorsVbr 0 (volumeInfo byteSectorsVbr 0) (by rfl)
  have hzero : ((volumeInfo byteSectorsVbr 0).fatCacheSize <<< 3) /
      (volumeInfo byteSectorsVbr 0).fatType.bits = 0 := by decide +kernel
  exact absurd hzero husable.entriesPerSector.ne'

end BootLoader.Fat

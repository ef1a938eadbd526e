import BootLoader.Fat.BootRecord
import BootLoader.Fat.Chain
import BootLoader.Fat.Root

/-!
# Where the regions of a volume lie

The format measures them in sectors of the volume. The code adds such counts to addresses in
sectors of the disk, which is the same with sectors of 512 bytes.
-/

open ByteMemory

namespace BootLoader.Fat

open Driver Heap Utils

variable {vbr : Mem} {lba : BitVec 64} {info : BlFatInfo} {r : BootRecord} {m : Nat}

/-! ## What the format says -/

namespace BootRecord

variable (r : BootRecord) (start : Nat)

/-- The first byte of sector `i` of the table, for a volume that starts at sector `start`. -/
def fatSectorByte (i : Nat) : Nat := 512 * start + (r.reservedSectors + i) * r.bytesPerSector

def rootdirByte (b : Nat) : Nat := 512 * start + r.rootdirStart * r.bytesPerSector + b

def clusterByte (n b : Nat) : Nat :=
  512 * start + (r.dataStart + (n - 2) * r.sectorsPerCluster) * r.bytesPerSector + b

end BootRecord

/-! ## What the code reads -/

/-- The sector of the disk that is read for sector `i` of the table. -/
def fatSector (info : BlFatInfo) (i : Nat) : BitVec 32 := BitVec.ofNat 32 (info.fatLba.toNat + i)

theorem blFatEntryToSector_eq (info : BlFatInfo) (fatEntry : BitVec 32) :
    blFatEntryToSector info fatEntry =
      fatSector info (fatEntry.toNat / ((info.fatCacheSize <<< 3) / info.fatType.bits)) :=
  rfl

/-- What is read for the table, for the root directory of FAT12 and FAT16, and for the clusters is
where the format has it. -/
structure RegionsPlaced (vbr : Mem) (lba : BitVec 64) (info : BlFatInfo) : Prop where
  fat : ∀ i < (bootRecord vbr).sectorsPerFat,
    512 * (fatSector info i).toNat = (bootRecord vbr).fatSectorByte lba.toNat i
  rootdir : info.fatType ≠ .fat32 → ∀ b < 32 * (bootRecord vbr).rootdirEntries,
    rootdirPosition info b = (bootRecord vbr).rootdirByte lba.toNat b
  data : ∀ n : BitVec 32, 2 ≤ n.toNat → n.toNat - 2 < info.totalClusters.toNat →
    ∀ b < info.clusterSize, 512 * (blFatEntryToDataSector info n).toNat + b =
      (bootRecord vbr).clusterByte lba.toNat n.toNat b

/-! ## When it is -/

namespace BootRecord

/-- No address of a sector loses upper bits. -/
structure Addressable (r : BootRecord) (start clusters : Nat) (fatType : FatType) : Prop where
  fat : r.sectorsPerFat ≠ 0 → start + r.reservedSectors + r.sectorsPerFat ≤ 2 ^ 32
  rootdir : fatType ≠ .fat32 →
    start + r.rootdirStart + (32 * r.rootdirEntries - 1) / r.bytesPerSector < 2 ^ 64
  data : clusters ≠ 0 → start + r.codeDataStart +
    (min clusters (2 ^ 32 - 2) - 1) * r.sectorsPerCluster < 2 ^ 32

/-- No reserved sector and no table: the root directory, of one sector, is the first thing in the
volume, and one cluster behind it is the last. -/
structure Bare (r : BootRecord) (clusters : Nat) : Prop where
  reserved : r.reservedSectors = 0
  tables : r.sectorsPerFat = 0
  rootdir : 32 * r.rootdirEntries ≤ r.bytesPerSector
  single : clusters ≤ 1
  data : clusters = 1 → 512 * r.codeRootdirSectors = r.bytesPerSector

end BootRecord

/-! ## Single positions -/

/-- A remainder that is no less than the number is the number. -/
theorem mod_eq_iff_of_le {x y k : Nat} (hk : 0 < k) (hle : x ≤ y) :
    x % k = y ↔ x < k ∧ x = y := by
  constructor
  · intro h
    have hx : x = y := Nat.le_antisymm hle (h ▸ Nat.mod_le x k)
    rw [← hx] at h
    exact ⟨h ▸ Nat.mod_lt x hk, hx⟩
  · rintro ⟨hlt, rfl⟩
    exact Nat.mod_eq_of_lt hlt

theorem eq_mul_iff (x m : Nat) : x = x * m ↔ m = 1 ∨ x = 0 := by
  rcases Nat.eq_zero_or_pos x with rfl | hx
  · simp
  · constructor
    · intro h
      exact .inl (Nat.eq_of_mul_eq_mul_left hx (by rw [← h, Nat.mul_one]))
    · rintro (rfl | h)
      · rw [Nat.mul_one]
      · omega

theorem le_mul_of_pos {x m : Nat} (hm : 0 < m) : x ≤ x * m := Nat.le_mul_of_pos_right x hm

theorem fatSector_iff (hm : 0 < m) (hsector : (bootRecord vbr).bytesPerSector = 512 * m) (i : Nat) :
    512 * (fatSector (volumeInfo vbr lba) i).toNat =
        (bootRecord vbr).fatSectorByte lba.toNat i ↔
      lba.toNat + (bootRecord vbr).reservedSectors + i < 2 ^ 32 ∧
        (m = 1 ∨ (bootRecord vbr).reservedSectors + i = 0) := by
  have hle := le_mul_of_pos (x := (bootRecord vbr).reservedSectors + i) hm
  have hread : (fatSector (volumeInfo vbr lba) i).toNat =
      (lba.toNat + ((bootRecord vbr).reservedSectors + i)) % 2 ^ 32 := by
    rw [fatSector, BitVec.toNat_ofNat, volumeInfo_fatLba]
    omega
  have hbyte : (bootRecord vbr).fatSectorByte lba.toNat i =
      512 * (lba.toNat + ((bootRecord vbr).reservedSectors + i) * m) := by
    rw [BootRecord.fatSectorByte, hsector]
    ring
  rw [hread, hbyte, Nat.mul_right_inj (by decide), mod_eq_iff_of_le (by decide) (by omega),
    ← eq_mul_iff, Nat.add_left_cancel_iff, Nat.add_assoc]

theorem rootdirPosition_iff {a : Nat} (hm : 0 < m) (ha : a < 16)
    (hsector : (bootRecord vbr).bytesPerSector = 512 * m)
    (hpow : (bootRecord vbr).bytesPerSector = 2 ^ a) (b : Nat) :
    rootdirPosition (volumeInfo vbr lba) b = (bootRecord vbr).rootdirByte lba.toNat b ↔
      lba.toNat + (bootRecord vbr).rootdirStart + b / (bootRecord vbr).bytesPerSector < 2 ^ 64 ∧
        (m = 1 ∨ (bootRecord vbr).rootdirStart + b / (bootRecord vbr).bytesPerSector = 0) := by
  have hsize : (volumeInfo vbr lba).sectorSize = 2 ^ a := hpow
  have hle := le_mul_of_pos (x := (bootRecord vbr).rootdirStart + b / 2 ^ a) hm
  have hread : ((volumeInfo vbr lba).rootdirLba.toNat + b / 2 ^ a % 2 ^ 64) % 2 ^ 64 =
      (lba.toNat + ((bootRecord vbr).rootdirStart + b / 2 ^ a)) % 2 ^ 64 := by
    rw [volumeInfo_rootdirLba]
    generalize b / 2 ^ a = q
    omega
  have hbyte : (bootRecord vbr).rootdirByte lba.toNat b =
      512 * (lba.toNat + ((bootRecord vbr).rootdirStart + b / 2 ^ a) * m) + b % 2 ^ a := by
    rw [BootRecord.rootdirByte, ← hpow, hsector]
    calc 512 * lba.toNat + (bootRecord vbr).rootdirStart * (512 * m) + b
        = 512 * lba.toNat + (bootRecord vbr).rootdirStart * (512 * m) +
            (512 * m * (b / (512 * m)) + b % (512 * m)) := by rw [Nat.div_add_mod]
      _ = 512 * (lba.toNat + ((bootRecord vbr).rootdirStart + b / (512 * m)) * m) +
            b % (512 * m) := by ring
  rw [rootdirPosition, hsize, blLog2_two_pow (by omega), shiftCount_of_lt (by omega),
    Nat.shiftRight_eq_div_pow, Nat.and_two_pow_sub_one_eq_mod, BitVec.toNat_add,
    BitVec.toNat_ofNat, hread, hbyte, Nat.add_right_cancel_iff, Nat.mul_right_inj (by decide),
    mod_eq_iff_of_le (by decide) (by omega), Nat.add_left_cancel_iff, eq_mul_iff, hpow,
    Nat.add_assoc]

/-- The code rounds the root directory up less far than the format does. -/
theorem codeRootdirSectors_le (hm : 0 < m) (hsector : r.bytesPerSector = 512 * m) :
    r.codeRootdirSectors ≤ r.rootdirSectors * m := by
  have hpos : 0 < 512 * m := by omega
  have hup : 32 * r.rootdirEntries ≤ r.rootdirSectors * (512 * m) := by
    have hlt := Nat.lt_div_mul_add (a := 32 * r.rootdirEntries + (512 * m - 1)) hpos
    rw [BootRecord.rootdirSectors, hsector]
    omega
  have hscaled : r.rootdirSectors * (512 * m) = 512 * (r.rootdirSectors * m) := by ring
  rw [hscaled] at hup
  rw [BootRecord.codeRootdirSectors]
  omega

theorem codeDataStart_le (hm : 0 < m) (hsector : r.bytesPerSector = 512 * m) :
    r.codeDataStart ≤ r.dataStart * m := by
  have hrootdir := codeRootdirSectors_le hm hsector
  have hstart := le_mul_of_pos (x := r.rootdirStart) hm
  rw [BootRecord.codeDataStart, BootRecord.dataStart, Nat.add_mul]
  omega

theorem dataSector_placed_iff {a b : Nat} (hr : (bootRecord vbr).Accepted a b) (hm : 0 < m)
    (hsector : (bootRecord vbr).bytesPerSector = 512 * m) {n : BitVec 32} (hn : 2 ≤ n.toNat)
    (j : Nat) :
    512 * (blFatEntryToDataSector (volumeInfo vbr lba) n).toNat + j =
        (bootRecord vbr).clusterByte lba.toNat n.toNat j ↔
      lba.toNat + (bootRecord vbr).codeDataStart +
          (n.toNat - 2) * (bootRecord vbr).sectorsPerCluster < 2 ^ 32 ∧
        (bootRecord vbr).codeDataStart + (n.toNat - 2) * (bootRecord vbr).sectorsPerCluster =
          ((bootRecord vbr).dataStart +
            (n.toNat - 2) * (bootRecord vbr).sectorsPerCluster) * m := by
  have hgeometry : Geometry (volumeInfo vbr lba) a b :=
    ⟨hr.sectorBits, hr.clusterBits, hr.sector, congrArg₂ (· * ·) hr.sector hr.cluster⟩
  have hle := codeDataStart_le hm hsector
  have hmore := le_mul_of_pos (x := (n.toNat - 2) * (bootRecord vbr).sectorsPerCluster) hm
  have hread : (blFatEntryToDataSector (volumeInfo vbr lba) n).toNat =
      (lba.toNat + ((bootRecord vbr).codeDataStart +
        (n.toNat - 2) * (bootRecord vbr).sectorsPerCluster)) % 2 ^ 32 := by
    rw [dataSector_toNat hgeometry hn, volumeInfo_dataLba, hr.cluster]
    generalize (n.toNat - 2) * 2 ^ b = y
    omega
  have hbyte : (bootRecord vbr).clusterByte lba.toNat n.toNat j =
      512 * (lba.toNat + ((bootRecord vbr).dataStart +
        (n.toNat - 2) * (bootRecord vbr).sectorsPerCluster) * m) + j := by
    rw [BootRecord.clusterByte, hsector]
    ring
  have hsum : (bootRecord vbr).codeDataStart +
      (n.toNat - 2) * (bootRecord vbr).sectorsPerCluster ≤
        ((bootRecord vbr).dataStart +
          (n.toNat - 2) * (bootRecord vbr).sectorsPerCluster) * m := by
    rw [Nat.add_mul]
    omega
  rw [hread, hbyte, Nat.add_right_cancel_iff, Nat.mul_right_inj (by decide),
    mod_eq_iff_of_le (by decide) (by omega), Nat.add_left_cancel_iff, Nat.add_assoc]

/-! ## All of a volume -/

theorem rootdirSectors_one (hentries : r.rootdirEntries ≠ 0)
    (hfits : 32 * r.rootdirEntries ≤ r.bytesPerSector) : r.rootdirSectors = 1 := by
  have hone : 32 * r.rootdirEntries + (r.bytesPerSector - 1) =
      (32 * r.rootdirEntries - 1) + 1 * r.bytesPerSector := by omega
  rw [BootRecord.rootdirSectors, hone, Nat.add_mul_div_right _ _ (by omega),
    Nat.div_eq_of_lt (by omega)]

theorem totalClusters_of_fat32 (h : (volumeInfo vbr lba).fatType = .fat32) :
    65525 ≤ (volumeInfo vbr lba).totalClusters.toNat := by
  rw [volumeInfo_fatType, typeOfCount] at h
  split_ifs at h
  omega

theorem clusterSize_pos {a b : Nat} (lba : BitVec 64) (hr : (bootRecord vbr).Accepted a b) :
    0 < (volumeInfo vbr lba).clusterSize := by
  have hmul : (volumeInfo vbr lba).clusterSize = 2 ^ a * 2 ^ b :=
    congrArg₂ (· * ·) hr.sector hr.cluster
  rw [hmul]
  exact Nat.mul_pos (Nat.two_pow_pos a) (Nat.two_pow_pos b)

/-- With larger sectors, a second cluster is never in place. -/
theorem one_cluster {a b : Nat} (hr : (bootRecord vbr).Accepted a b) (hm : 1 < m)
    (hsector : (bootRecord vbr).bytesPerSector = 512 * m)
    (h : RegionsPlaced vbr lba (volumeInfo vbr lba)) :
    (volumeInfo vbr lba).totalClusters.toNat ≤ 1 := by
  by_contra hmany
  have hsize := clusterSize_pos lba hr
  have hpos : 0 < m := by omega
  have hfirst := ((dataSector_placed_iff hr hpos hsector (n := 2) (by decide) 0).mp
    (h.data 2 (by decide) (by simp only [BitVec.reduceToNat]; omega) 0 hsize)).2
  have hsecond := ((dataSector_placed_iff hr hpos hsector (n := 3) (by decide) 0).mp
    (h.data 3 (by decide) (by simp only [BitVec.reduceToNat]; omega) 0 hsize)).2
  have hcluster : (bootRecord vbr).sectorsPerCluster =
      (bootRecord vbr).sectorsPerCluster * m := by
    simp only [BitVec.reduceToNat, Nat.sub_self, Nat.zero_mul, Nat.add_zero, Nat.reduceSub,
      Nat.one_mul, Nat.add_mul] at hfirst hsecond
    omega
  rcases (eq_mul_iff _ _).mp hcluster with hone | hzero
  · omega
  · rw [hr.cluster] at hzero
    exact absurd hzero (Nat.two_pow_pos b).ne'

theorem RegionsPlaced.addressable {a b : Nat} (hr : (bootRecord vbr).Accepted a b) (hm : 0 < m)
    (hsector : (bootRecord vbr).bytesPerSector = 512 * m)
    (h : RegionsPlaced vbr lba (volumeInfo vbr lba)) :
    (bootRecord vbr).Addressable lba.toNat (volumeInfo vbr lba).totalClusters.toNat
      (volumeInfo vbr lba).fatType where
  fat hsectors := by
    have hlast := (fatSector_iff hm hsector _).mp
      (h.fat ((bootRecord vbr).sectorsPerFat - 1) (by omega))
    omega
  rootdir htype :=
    ((rootdirPosition_iff hm hr.sectorBits hsector hr.sector _).mp
      (h.rootdir htype _ (Nat.sub_lt (by have := hr.entries; omega) (by decide)))).1
  data hclusters := by
    obtain ⟨k, hk⟩ : ∃ k, min (volumeInfo vbr lba).totalClusters.toNat (2 ^ 32 - 2) = k + 1 :=
      ⟨_, (Nat.sub_add_cancel (by omega)).symm⟩
    have hn : (BitVec.ofNat 32 (k + 2)).toNat = k + 2 := by
      rw [BitVec.toNat_ofNat]
      omega
    have hlast := (dataSector_placed_iff hr hm hsector (n := BitVec.ofNat 32 (k + 2)) (by omega)
      0).mp (h.data _ (by omega) (by omega) 0 (clusterSize_pos lba hr))
    rw [hn] at hlast
    rw [hk]
    exact hlast.1

/-- With larger sectors, only a volume with nothing in it but a root directory is in place. -/
theorem RegionsPlaced.bare {a b : Nat} (hr : (bootRecord vbr).Accepted a b) (hm : 1 < m)
    (hsector : (bootRecord vbr).bytesPerSector = 512 * m)
    (h : RegionsPlaced vbr lba (volumeInfo vbr lba)) :
    (bootRecord vbr).Bare (volumeInfo vbr lba).totalClusters.toNat := by
  have hpos : 0 < m := by omega
  have hfew := one_cluster hr hm hsector h
  have htype : (volumeInfo vbr lba).fatType ≠ .fat32 := fun h32 => by
    have := totalClusters_of_fat32 h32
    omega
  have hentries := hr.entries
  have hlast := ((rootdirPosition_iff hpos hr.sectorBits hsector hr.sector _).mp
    (h.rootdir htype (32 * (bootRecord vbr).rootdirEntries - 1) (by omega))).2
  obtain ⟨hstart, hdiv⟩ := Nat.add_eq_zero_iff.mp (hlast.resolve_left (by omega))
  have hfits : 32 * (bootRecord vbr).rootdirEntries ≤ (bootRecord vbr).bytesPerSector := by
    rw [Nat.div_eq_zero_iff] at hdiv
    omega
  have hreserved : (bootRecord vbr).reservedSectors = 0 ∧
      (bootRecord vbr).numOfFats * (bootRecord vbr).sectorsPerFat = 0 := by
    rw [BootRecord.rootdirStart] at hstart
    omega
  refine ⟨hreserved.1, (Nat.mul_eq_zero.mp hreserved.2).resolve_left hr.fats, hfits, hfew, ?_⟩
  intro hone
  have hfirst := ((dataSector_placed_iff hr hpos hsector (n := 2) (by decide) 0).mp
    (h.data 2 (by decide) (by simp only [BitVec.reduceToNat]; omega) 0 (clusterSize_pos lba hr))).2
  simp only [BitVec.reduceToNat, Nat.sub_self, Nat.zero_mul, Nat.add_zero,
    BootRecord.codeDataStart, BootRecord.dataStart, hstart, Nat.zero_add,
    rootdirSectors_one hentries hfits, Nat.one_mul] at hfirst
  rw [hfirst, hsector]

/-- **The regions of an accepted volume** are read where the format has them exactly when its
sectors are those of the disk, but for a volume with nothing in it, and no address of a sector is
too large. -/
theorem regions_placed_iff (h : blFatCheckFat vbr lba = .ok info)
    (h512 : 512 ≤ (bootRecord vbr).bytesPerSector) :
    RegionsPlaced vbr lba info ↔
      ((bootRecord vbr).bytesPerSector = 512 ∨
        (bootRecord vbr).Bare info.totalClusters.toNat) ∧
      (bootRecord vbr).Addressable lba.toNat info.totalClusters.toNat info.fatType := by
  obtain ⟨⟨-, a, b, hr⟩, rfl⟩ := blFatCheckFat_eq_ok_iff.mp h
  obtain ⟨m, hsector⟩ : ∃ m, (bootRecord vbr).bytesPerSector = 512 * m := by
    have ha : 9 ≤ a := by
      rw [hr.sector] at h512
      exact (Nat.pow_le_pow_iff_right (show 1 < 2 by decide)).mp h512
    rw [hr.sector]
    exact (pow_dvd_pow 2 ha)
  have hm : 0 < m := by omega
  constructor
  · intro hplaced
    refine ⟨?_, hplaced.addressable hr hm hsector⟩
    rcases Nat.lt_or_ge 1 m with hlarge | hsmall
    · exact .inr (hplaced.bare hr hlarge hsector)
    · exact .inl (by omega)
  · rintro ⟨hkind, haddress⟩
    refine ⟨fun i hi => ?_, fun htype j hj => ?_, fun n hn hclusters j _ => ?_⟩
    · refine (fatSector_iff hm hsector i).mpr ⟨?_, ?_⟩
      · have hend := haddress.fat (by omega)
        omega
      · rcases hkind with h512 | hbare
        · exact .inl (by omega)
        · rw [hbare.tables] at hi
          omega
    · refine (rootdirPosition_iff hm hr.sectorBits hsector hr.sector j).mpr ⟨?_, ?_⟩
      · have hend := haddress.rootdir htype
        have hdiv : j / (bootRecord vbr).bytesPerSector ≤
            (32 * (bootRecord vbr).rootdirEntries - 1) / (bootRecord vbr).bytesPerSector :=
          Nat.div_le_div_right (by omega)
        omega
      · rcases hkind with h512 | hbare
        · exact .inl (by omega)
        · have hfits := hbare.rootdir
          right
          rw [BootRecord.rootdirStart, hbare.reserved, hbare.tables, Nat.mul_zero,
            Nat.div_eq_of_lt (by omega)]
    · refine (dataSector_placed_iff hr hm hsector hn j).mpr ⟨?_, ?_⟩
      · have hend := haddress.data (by omega)
        have hlt := n.isLt
        have hmul : (n.toNat - 2) * (bootRecord vbr).sectorsPerCluster ≤
            (min (volumeInfo vbr lba).totalClusters.toNat (2 ^ 32 - 2) - 1) *
              (bootRecord vbr).sectorsPerCluster :=
          Nat.mul_le_mul_right _ (by omega)
        omega
      · rcases hkind with h512 | hbare
        · obtain rfl : m = 1 := by omega
          rw [BootRecord.codeDataStart_of_512 h512, Nat.mul_one]
        · have hfew := hbare.single
          have hfirst : n.toNat - 2 = 0 := by omega
          have hdata := hbare.data (by omega)
          rw [hfirst, Nat.zero_mul, Nat.add_zero, Nat.add_zero, BootRecord.codeDataStart,
            BootRecord.dataStart, BootRecord.rootdirStart, hbare.reserved, hbare.tables,
            rootdirSectors_one hr.entries hbare.rootdir]
          omega

theorem floppy_regions_placed : RegionsPlaced floppyVbr 0 floppy :=
  (regions_placed_iff (show blFatCheckFat floppyVbr 0 = .ok floppy by rfl) (by decide)).mpr
    ⟨.inl (by decide), by decide, by decide, by decide⟩

/-- Sectors of 2048 bytes: one reserved, two tables of 16, and 512 entries in the root directory. -/
def largeSectorsVbr : Mem := ofPieces
  [(0x0b, bytesLE 2 2048 ++ [1] ++ bytesLE 2 1 ++ [2] ++ bytesLE 2 512 ++ bytesLE 2 16000),
    (0x16, bytesLE 2 16), (0x1fe, bytesLE 2 0xaa55)]

/-- The table starts at byte 2048, and is read at byte 512. -/
theorem largeSectors_misplaced :
    ¬ ∀ vbr lba info, blFatCheckFat vbr lba = .ok info →
      512 ≤ (bootRecord vbr).bytesPerSector → RegionsPlaced vbr lba info := by
  intro h
  have hfat := (h largeSectorsVbr 0 (volumeInfo largeSectorsVbr 0) (by rfl) (by decide)).fat 0
    (by decide)
  exact absurd hfat (by decide)

end BootLoader.Fat

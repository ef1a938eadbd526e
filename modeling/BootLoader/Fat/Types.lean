import BootLoader.Fat.BootRecord
import BootLoader.Fat.Lookup
import BootLoader.Fat.Named
import BootLoader.Fat.Root

/-!
# Which type a volume has

The type follows from the count of clusters. The code refuses every FAT32 volume, for its root
directory has no entries in the record, and it counts the root directory in units of 512 bytes.
-/

open ByteMemory

namespace BootLoader.Fat

open Driver Heap Utils

variable {vbr m m' : Mem} {lba : BitVec 64} {env : Env} {stack : Mem} {w : World}

/-! ## What the format says -/

namespace BootRecord

variable (r : BootRecord)

def clusters : Nat := (r.totalSectors - r.dataStart) / r.sectorsPerCluster

def type : FatType := typeOfCount r.clusters

/-- The type with the root directory counted in units of 512 bytes. -/
def codeType : FatType :=
  if r.codeDataStart ≤ r.totalSectors then
    typeOfCount ((r.totalSectors - r.codeDataStart) / r.sectorsPerCluster)
  else .fat32

end BootRecord

structure WellFormed (vbr : Mem) : Prop where
  signature : read16 vbr 0x1fe = blMbrSignature
  sector : ∃ a, 9 ≤ a ∧ a < 16 ∧ (bootRecord vbr).bytesPerSector = 2 ^ a
  cluster : ∃ b < 8, (bootRecord vbr).sectorsPerCluster = 2 ^ b
  reserved : (bootRecord vbr).reservedSectors ≠ 0
  fats : (bootRecord vbr).numOfFats ≠ 0
  regions : (bootRecord vbr).dataStart ≤ (bootRecord vbr).totalSectors
  fat32 : (bootRecord vbr).type = .fat32 →
    (bootRecord vbr).rootdirEntries = 0 ∧ read16 vbr 0x16 = 0
  fat16 : (bootRecord vbr).type ≠ .fat32 →
    (bootRecord vbr).rootdirEntries ≠ 0 ∧ read16 vbr 0x16 ≠ 0

def rootCluster (vbr : Mem) : BitVec 32 := BitVec.ofNat 32 (read32 vbr 0x2c)

/-- The record at the start of a partition. -/
def recordOnDisk (env : Env) (lba : BitVec 64) : Mem := fun k => env.disk (512 * lba.toNat + k)

/-- The volume is accepted with its type; on FAT32 the root directory is the chain of clusters
that the record names. -/
def Classified (env : Env) (lba : BitVec 64) (stack : Mem) (w : World) : Prop :=
  ∃ w' fatCache info, checkFat env lba stack w = (w', .success, some (fatCache, info)) ∧
    info.fatType = (bootRecord (recordOnDisk env lba)).type ∧
    (info.fatType = .fat32 → ∀ next uninit s buf size offset,
      blFatGenericRead env info next (blFatOpenRoot uninit) s buf size offset =
        blFatReadClusterChain env info next (rootCluster (recordOnDisk env lba)) s buf size offset)

/-! ## The record that is read -/

theorem blFatCheckFat_congr (h : ∀ k < 512, m' k = m k) :
    blFatCheckFat m' lba = blFatCheckFat m lba := by
  have hword (a n : Nat) (ha : a + n ≤ 512) : readLE m' a n = readLE m a n :=
    readLE_congr fun x _ hx => h x (by omega)
  simp only [blFatCheckFat, volumeInfo, read16, read32, h 0x10 (by decide), h 0x0d (by decide),
    hword 0x0b 2 (by decide), hword 0x0e 2 (by decide), hword 0x11 2 (by decide),
    hword 0x13 2 (by decide), hword 0x16 2 (by decide), hword 0x20 4 (by decide),
    hword 0x24 4 (by decide), hword 0x1fe 2 (by decide)]

theorem checkFat_eq (lba : BitVec 64) (stack : Mem) (w : World)
    (hreads : ∀ n, env.reads n = .success) (hallocs : ∀ n, env.allocs n = true) :
    ∃ w' fatCache, checkFat env lba stack w =
      match blFatCheckFat (recordOnDisk env lba) lba with
      | .error status => (w', status, none)
      | .ok info => (w', .success, some (fatCache, info)) := by
  have hrecord : blFatCheckFat (w.readVar env stack lba.toNat sizeofVbr).2.1 lba =
      blFatCheckFat (recordOnDisk env lba) lba := by
    refine blFatCheckFat_congr fun k hk => ?_
    simp [World.readVar, Env.deviceRead, hreads, sizeofVbr, hk, recordOnDisk]
  have hstatus : (w.readVar env stack lba.toNat sizeofVbr).2.2 = .success := hreads _
  unfold checkFat
  simp only [hstatus, hrecord, ne_eq, not_true_eq_false, if_false]
  cases blFatCheckFat (recordOnDisk env lba) lba with
  | error status => exact ⟨_, 0, rfl⟩
  | ok info =>
    rw [World.alloc, if_pos (hallocs _)]
    exact ⟨_, _, rfl⟩

/-! ## The count of clusters -/

theorem codeType_eq {b : Nat} (vbr : Mem) (lba : BitVec 64) (hb : b < 8)
    (hcluster : (bootRecord vbr).sectorsPerCluster = 2 ^ b) :
    (volumeInfo vbr lba).fatType = (bootRecord vbr).codeType := by
  rw [volumeInfo_fatType, volumeInfo_totalClusters vbr lba hb hcluster, BootRecord.codeType,
    hcluster]
  split
  · rfl
  · -- the difference has wrapped, and is far above the last limit
    have hpow : 2 ^ b ≤ 2 ^ 7 := Nat.pow_le_pow_right (by decide) (by omega)
    have hbounds := bootRecord_bounded vbr
    have hfats := hbounds.fats
    have hreserved := hbounds.reserved
    have hentries := hbounds.entries
    have hstart : (bootRecord vbr).codeDataStart < 2 ^ 41 := by
      simp only [BootRecord.codeDataStart, BootRecord.rootdirStart,
        BootRecord.codeRootdirSectors]
      omega
    have hlarge : 65525 ≤ (2 ^ 64 + (bootRecord vbr).totalSectors -
        (bootRecord vbr).codeDataStart) / 2 ^ b := by
      rw [Nat.le_div_iff_mul_le (Nat.two_pow_pos b)]
      omega
    rw [typeOfCount, if_neg (by omega), if_neg (by omega)]

/-- With sectors of 512 bytes the two counts are one. -/
theorem codeType_of_512 {r : BootRecord} (hsector : r.bytesPerSector = 512)
    (hregions : r.dataStart ≤ r.totalSectors) : r.codeType = r.type := by
  rw [BootRecord.codeType, BootRecord.codeDataStart_of_512 hsector, if_pos hregions,
    BootRecord.type, BootRecord.clusters]

/-- **The type of a volume.** A well formed volume is accepted as what it is exactly when it is not
FAT32, and the count of clusters is on the same side of the limits with the root directory counted
in units of 512 bytes. -/
theorem volume_classified_iff (stack : Mem) (w : World) (hvbr : WellFormed (recordOnDisk env lba))
    (hreads : ∀ n, env.reads n = .success) (hallocs : ∀ n, env.allocs n = true) :
    Classified env lba stack w ↔ (bootRecord (recordOnDisk env lba)).type ≠ .fat32 ∧
      (bootRecord (recordOnDisk env lba)).codeType = (bootRecord (recordOnDisk env lba)).type := by
  obtain ⟨w', fatCache, hcheck⟩ := checkFat_eq lba stack w hreads hallocs
  obtain ⟨b, hb, hcluster⟩ := hvbr.cluster
  obtain ⟨a, -, ha, hsector⟩ := hvbr.sector
  have htype := codeType_eq (recordOnDisk env lba) lba hb hcluster
  constructor
  · rintro ⟨w₁, fatCache₁, info, haccept, hclass, -⟩
    rw [hcheck] at haccept
    cases hresult : blFatCheckFat (recordOnDisk env lba) lba with
    | error status => simp [hresult] at haccept
    | ok info₁ =>
      obtain ⟨⟨-, _, _, hr⟩, rfl⟩ := blFatCheckFat_eq_ok_iff.mp hresult
      simp only [hresult, Prod.mk.injEq, Option.some.injEq, true_and] at haccept
      obtain ⟨-, -, rfl⟩ := haccept
      exact ⟨fun h32 => hr.entries (hvbr.fat32 h32).1, htype.symm.trans hclass⟩
  · rintro ⟨h32, hclass⟩
    have hresult : blFatCheckFat (recordOnDisk env lba) lba =
        .ok (volumeInfo (recordOnDisk env lba) lba) :=
      blFatCheckFat_eq_ok_iff.mpr ⟨⟨hvbr.signature, a, b, hvbr.fats, (hvbr.fat16 h32).1, hsector,
        hcluster, ha, hb⟩, rfl⟩
    rw [hresult] at hcheck
    refine ⟨w', fatCache, _, hcheck, htype.trans hclass, fun h => ?_⟩
    exact absurd (hclass.symm.trans (htype.symm.trans h)) h32

def diskOf (vbr : Mem) : Env := ⟨fun _ => true, fun _ => .success, vbr⟩

theorem floppy_wellFormed : WellFormed (recordOnDisk (diskOf floppyVbr) 0) where
  signature := by decide
  sector := ⟨9, by decide, by decide, by decide⟩
  cluster := ⟨0, by decide, by decide⟩
  reserved := by decide
  fats := by decide
  regions := by decide
  fat32 := by decide
  fat16 := by decide

theorem floppy_classified : Classified (diskOf floppyVbr) 0 (fun _ => 0) zeroWorld :=
  (volume_classified_iff (fun _ => 0) zeroWorld floppy_wellFormed (fun _ => rfl) fun _ => rfl).mpr
    ⟨by decide, codeType_of_512 (by decide) floppy_wellFormed.regions⟩

/-- One gigabyte: 8 sectors in a cluster, 32 reserved ones, two tables of 2048. -/
def gigabyteVbr : Mem := ofPieces
  [(0x0b, bytesLE 2 512 ++ [8] ++ bytesLE 2 32 ++ [2]), (0x20, bytesLE 4 2097152),
    (0x24, bytesLE 4 2048), (0x2c, bytesLE 4 2), (0x1fe, bytesLE 2 0xaa55)]

theorem gigabyte_wellFormed : WellFormed (recordOnDisk (diskOf gigabyteVbr) 0) where
  signature := by decide
  sector := ⟨9, by decide, by decide, by decide⟩
  cluster := ⟨3, by decide, by decide⟩
  reserved := by decide
  fats := by decide
  regions := by decide
  fat32 := by decide
  fat16 := by decide

/-- It is FAT32, and refused. -/
theorem gigabyte_not_classified :
    ¬ ∀ env lba stack w, WellFormed (recordOnDisk env lba) → (∀ n, env.reads n = .success) →
      (∀ n, env.allocs n = true) → Classified env lba stack w := by
  intro h
  obtain ⟨w', fatCache, info, haccept, -⟩ := h (diskOf gigabyteVbr) 0 (fun _ => 0) zeroWorld
    gigabyte_wellFormed (fun _ => rfl) fun _ => rfl
  have hstatus : (checkFat (diskOf gigabyteVbr) 0 (fun _ => 0) zeroWorld).2.1 =
      .invalidFileSystem := by decide +kernel
  rw [haccept] at hstatus
  cases hstatus

end BootLoader.Fat

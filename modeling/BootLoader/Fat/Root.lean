import BootLoader.Fat.Code
import BootLoader.Fat.Directory

/-!
# The root directory (`modules/fs/fat/fat.c`)

FAT12 and FAT16 have it in a region of its own, FAT32 in a chain of clusters.
-/

open ByteMemory

namespace BootLoader.Fat

open Driver Utils

/-- `bl_fat_read_rootdir`; the offset is a 32-bit number. -/
def blFatReadRootdir (env : Env) (info : BlFatInfo) (s : FatState) (buf : Mem)
    (size offset : Nat) : FatState × Mem × BlStatus :=
  let lba := info.rootdirLba + BitVec.ofNat 64 (offset >>> shiftCount (blLog2 info.sectorSize))
  let (buf, status) :=
    env.deviceRead s.reads buf 0 lba.toNat size (offset &&& (info.sectorSize - 1))
  ({ s with reads := s.reads + 1 }, buf, status)

/-- Where the read of the root directory at an offset starts on the disk. -/
def rootdirPosition (info : BlFatInfo) (offset : Nat) : Nat :=
  512 * (info.rootdirLba +
      BitVec.ofNat 64 (offset >>> shiftCount (blLog2 info.sectorSize))).toNat +
    (offset &&& (info.sectorSize - 1))

theorem blFatReadRootdir_data {env : Env} (info : BlFatInfo) (s : FatState) (buf : Mem)
    (hreads : ∀ n, env.reads n = .success) {size j : Nat} (offset : Nat) (hj : j < size) :
    (blFatReadRootdir env info s buf size offset).2.1 j =
      env.disk (rootdirPosition info offset + j) := by
  simp [blFatReadRootdir, Env.deviceRead, hreads, hj, rootdirPosition]

/-- `bl_fat_generic_read`. -/
def blFatGenericRead (env : Env) (info : BlFatInfo) (next : NextEntry) (fdata : BlFatFileData)
    (s : FatState) (buf : Mem) (size offset : Nat) : Option (FatState × Mem × BlStatus) :=
  if fdata.rootdir ≠ 0 ∧ (info.fatType = .fat12 ∨ info.fatType = .fat16) then
    some (blFatReadRootdir env info s buf size offset)
  else blFatReadClusterChain env info next fdata.cluster s buf size offset

/-- The file data of the root directory in `bl_fat_open`. The field `cluster` is not set: it holds
what was in the block before. -/
def blFatOpenRoot (uninit : BitVec 32) : BlFatFileData := ⟨1, uninit⟩

/-- On FAT32 the root directory is read from whatever cluster the block held. -/
theorem blFatGenericRead_root_fat32 {info : BlFatInfo} (h : info.fatType = .fat32) (env : Env)
    (next : NextEntry) (uninit : BitVec 32) (s : FatState) (buf : Mem) (size offset : Nat) :
    blFatGenericRead env info next (blFatOpenRoot uninit) s buf size offset =
      blFatReadClusterChain env info next uninit s buf size offset := by
  rw [blFatGenericRead, if_neg (by simp [h])]
  rfl

end BootLoader.Fat

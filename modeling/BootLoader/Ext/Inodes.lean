import BootLoader.Ext.Code

/-!
# Where inodes and blocks are read

A volume is addressed in 32 bits: from 4 GiB of the volume or 2 TiB of the disk on, another sector
is read.
-/

open ByteMemory

namespace BootLoader.Ext

open Driver

variable {info : BlExtInfo} {groups : Mem} {n : BitVec 32} {k block : Nat}

/-! ## Where they are -/

/-- The number of the inode in its group, from 0 on. -/
def inodeIndex (info : BlExtInfo) (n : BitVec 32) : Nat := (n.toNat - 1) % info.inodesPerGroup

/-- The block that the table of the inode's group begins with. -/
def inodeTable (info : BlExtInfo) (groups : Mem) (n : BitVec 32) : Nat :=
  groupInodeTable groups ((n.toNat - 1) / info.inodesPerGroup)

/-- The first byte of the inode on the disk. -/
def inodePosition (info : BlExtInfo) (groups : Mem) (n : BitVec 32) : Nat :=
  512 * info.lba.toNat + inodeTable info groups n * info.blockSize +
    inodeIndex info n * info.inodeSize

/-- It is one of the volume's inodes, and its group's table is on the volume. -/
structure VolumeInode (info : BlExtInfo) (groups : Mem) (n : BitVec 32) : Prop where
  pos : 1 ≤ n.toNat
  le : n.toNat ≤ info.groupsCount * info.inodesPerGroup
  table : inodeTable info groups n < info.blocksCount

/-- Whatever is on the disk, the inode is read from its place. -/
def InodeRead (info : BlExtInfo) (groups : Mem) (n : BitVec 32) : Prop :=
  ∀ env w inode, w.bytes info.groups = groups → env.reads w.reads = .success →
    ∃ w', blExtGetInode env info w n inode = some (w', .success) ∧
      ∀ i < sizeofInode, w'.bytes inode i = env.disk (inodePosition info groups n + i)

/-- The first sector of the block is what `bl_ext_block_to_lba` says. -/
def BlockLocated (info : BlExtInfo) (block : Nat) : Prop :=
  (blExtBlockToLba info block).toNat = info.lba.toNat + block * info.blockSize / 512

/-- Block by block, as far as 32 bits go. -/
structure BlockInReach (info : BlExtInfo) (block : Nat) : Prop where
  inVolume : block * info.blockSize < 2 ^ 32
  onDisk : info.lba.toNat + block * info.blockSize / 512 < 2 ^ 32

/-- The table of the group begins, and the inode is, as far as 32 bits go. -/
structure InodeInReach (info : BlExtInfo) (groups : Mem) (n : BitVec 32) : Prop where
  table : inodeTable info groups n * info.blockSize < 2 ^ 32
  inTable : inodeIndex info n * info.inodeSize < 2 ^ 32
  onDisk : info.lba.toNat + inodeTable info groups n * info.blockSize / 512 +
    inodeIndex info n * info.inodeSize / 512 < 2 ^ 32

/-! ## Where they are read -/

theorem blExtBlockToLba_toNat (info : BlExtInfo) (block : Nat) :
    (blExtBlockToLba info block).toNat =
      (info.lba.toNat + block * info.blockSize % 2 ^ 32 / 512) % 2 ^ 32 := by
  have hlba := info.lba.isLt
  unfold blExtBlockToLba blStorageSectorSize
  rw [BitVec.toNat_setWidth, BitVec.toNat_add, BitVec.toNat_ofNat]
  omega

theorem blockLocated_iff (info : BlExtInfo) (block : Nat) :
    BlockLocated info block ↔ BlockInReach info block := by
  unfold BlockLocated
  rw [blExtBlockToLba_toNat]
  constructor
  · intro h
    constructor <;> omega
  · rintro ⟨hvolume, hdisk⟩
    omega

def readPosition (info : BlExtInfo) (groups : Mem) (n : BitVec 32) : Nat :=
  512 * (blExtBlockToLba info (groupInodeTable groups (blExtInodeBlockGroup info n)) +
    BitVec.ofNat 32 (blExtInodeOffsetToSectors info n)).toNat + blExtInodeSectorOffset info n

theorem toNat_sub_one (h : 1 ≤ n.toNat) : (n - 1).toNat = n.toNat - 1 := by
  rw [BitVec.toNat_sub, show (1 : BitVec 32).toNat = 1 by rfl]
  omega

theorem readPosition_eq (h : 1 ≤ n.toNat) :
    readPosition info groups n =
      512 * ((info.lba.toNat + inodeTable info groups n * info.blockSize % 2 ^ 32 / 512 +
          inodeIndex info n * info.inodeSize % 2 ^ 32 / 512) % 2 ^ 32) +
        inodeIndex info n * info.inodeSize % 512 := by
  have hindex : blExtInodeIndexBlockGroup info n = inodeIndex info n := by
    rw [blExtInodeIndexBlockGroup, toNat_sub_one h, inodeIndex]
  have hgroup :
      groupInodeTable groups (blExtInodeBlockGroup info n) = inodeTable info groups n := by
    rw [blExtInodeBlockGroup, toNat_sub_one h, inodeTable]
  rw [readPosition, blExtInodeOffsetToSectors, blExtInodeSectorOffset, hindex, hgroup,
    BitVec.toNat_add, blExtBlockToLba_toNat, BitVec.toNat_ofNat, Nat.mul_comm info.inodeSize]
  simp only [blStorageSectorSize]
  omega

theorem readPosition_eq_iff (hblock : info.blockSize = 1024 * 2 ^ k) (h : 1 ≤ n.toNat) :
    readPosition info groups n = inodePosition info groups n ↔ InodeInReach info groups n := by
  have hsectors : inodeTable info groups n * info.blockSize % 512 = 0 := by
    rw [hblock, show inodeTable info groups n * (1024 * 2 ^ k) =
      512 * (2 * (inodeTable info groups n * 2 ^ k)) by ring, Nat.mul_mod_right]
  rw [readPosition_eq h, inodePosition]
  constructor
  · intro heq
    constructor <;> omega
  · rintro ⟨htable, hin, hdisk⟩
    omega

theorem blExtGetInode_eq (env : Env) (w : World) (inode : Nat) (hgroup : info.inodesPerGroup ≠ 0)
    (hread : env.reads w.reads = .success) :
    ∃ w', blExtGetInode env info w n inode = some (w', .success) ∧ ∀ i < sizeofInode,
      w'.bytes inode i = env.disk (readPosition info (w.bytes info.groups) n + i) := by
  obtain ⟨w', hrun, hdata⟩ := readAt_served w hread inode
    (blExtBlockToLba info (groupInodeTable (w.bytes info.groups) (blExtInodeBlockGroup info n)) +
      BitVec.ofNat 32 (blExtInodeOffsetToSectors info n)).toNat sizeofInode
    (blExtInodeSectorOffset info n)
  refine ⟨w', ?_, hdata⟩
  rw [blExtGetInode, if_neg hgroup]
  exact congrArg some hrun

theorem inodeRead_iff (hgroup : info.inodesPerGroup ≠ 0) :
    InodeRead info groups n ↔ readPosition info groups n = inodePosition info groups n := by
  constructor
  · intro h
    -- A disk that has a 1 at the inode's first byte, and nowhere else.
    let env : Env := ⟨fun _ => true, fun _ => .success,
      fun x => if x = inodePosition info groups n then 1 else 0⟩
    let w : World := ⟨0, fun _ => groups, fun _ => false, 0, 0, []⟩
    obtain ⟨w', hrun, hdata⟩ := h env w 0 rfl rfl
    obtain ⟨w'', hrun', hdata'⟩ := blExtGetInode_eq (n := n) env w 0 hgroup rfl
    obtain rfl : w' = w'' := by
      rw [hrun, Option.some.injEq, Prod.mk.injEq] at hrun'
      exact hrun'.1
    have hone := (hdata' 0 (by decide)).symm.trans (hdata 0 (by decide))
    simp only [Nat.add_zero, env, if_true] at hone
    by_contra hne
    rw [if_neg hne] at hone
    exact absurd hone (by decide)
  · intro h env w inode hgroups hread
    obtain ⟨w', hrun, hdata⟩ := blExtGetInode_eq (n := n) env w inode hgroup hread
    rw [hgroups, h] at hdata
    exact ⟨w', hrun, hdata⟩

/-- **Where inodes and blocks are read.** Each inode and each block of a volume is located right
exactly when it is in reach of 32 bits. -/
theorem inodes_and_blocks_located_iff (hblock : ∃ k < 22, info.blockSize = 1024 * 2 ^ k) :
    (∀ n, VolumeInode info groups n → (InodeRead info groups n ↔ InodeInReach info groups n)) ∧
      ∀ block < info.blocksCount, BlockLocated info block ↔ BlockInReach info block := by
  obtain ⟨k, -, hblock⟩ := hblock
  refine ⟨fun n hn => ?_, fun block _ => blockLocated_iff info block⟩
  have hgroup : info.inodesPerGroup ≠ 0 := by
    intro hzero
    have hle := hn.le
    have hpos := hn.pos
    rw [hzero, Nat.mul_zero] at hle
    omega
  rw [inodeRead_iff hgroup, readPosition_eq_iff hblock hn.pos]

/-- One group of `2 ^ 21` blocks of 4096 bytes, whose inode table is 4 GiB into the volume. -/
def largeVolume : Mem := ofPieces
  [(1024, bytesLE 4 0x2000 ++ bytesLE 4 0x200000), (1048, bytesLE 4 2),
    (1056, bytesLE 4 0x200000), (1064, bytesLE 4 0x2000), (1080, bytesLE 2 0xef53),
    (1112, bytesLE 2 0x80), (4104, bytesLE 4 0x100000)]

def largeVolumeEnv : Env := ⟨fun _ => true, fun _ => .success, largeVolume⟩

def noBlocks : World := ⟨0, fun _ _ => 0, fun _ => false, 0, 0, []⟩

def largeVolumeInfo : BlExtInfo := ⟨.ext2, 0, 4096, 0x200000, 0x200000, 128, 0x2000, 1, 0⟩

theorem largeVolume_mounted : ∃ w, blExtCheckExt largeVolumeEnv 0 (fun _ => 0) noBlocks =
    some (w, .success, some largeVolumeInfo) ∧
      groupInodeTable (w.bytes largeVolumeInfo.groups) 0 = 0x100000 := by
  refine ⟨_, rfl, ?_⟩
  decide +kernel

theorem largeVolume_located_iff :
    (∀ n, VolumeInode largeVolumeInfo (fun _ => 0) n →
      (InodeRead largeVolumeInfo (fun _ => 0) n ↔ InodeInReach largeVolumeInfo (fun _ => 0) n)) ∧
      ∀ block < largeVolumeInfo.blocksCount,
        BlockLocated largeVolumeInfo block ↔ BlockInReach largeVolumeInfo block :=
  inodes_and_blocks_located_iff ⟨2, by decide, rfl⟩

/-- Inode 1 is 4 GiB into the volume, and is read from its first sector. -/
theorem largeVolume_not_located :
    ¬ ∀ env lba stack w₀ w info, blExtCheckExt env lba stack w₀ = some (w, .success, some info) →
      (∃ k < 22, info.blockSize = 1024 * 2 ^ k) →
      (∀ n, VolumeInode info (w.bytes info.groups) n → InodeRead info (w.bytes info.groups) n) ∧
        ∀ block < info.blocksCount, BlockLocated info block := by
  intro h
  obtain ⟨w, hmounted, htable⟩ := largeVolume_mounted
  have hfirst : inodeTable largeVolumeInfo (w.bytes largeVolumeInfo.groups) 1 = 0x100000 := htable
  have hcode : groupInodeTable (w.bytes largeVolumeInfo.groups)
      (blExtInodeBlockGroup largeVolumeInfo 1) = 0x100000 := htable
  have hread := (h _ _ _ _ _ _ hmounted ⟨2, by decide, rfl⟩).1 1
    ⟨by decide, by decide, by rw [hfirst]; decide⟩
  rw [inodeRead_iff (by decide), readPosition, hcode, inodePosition, hfirst] at hread
  exact absurd hread (by decide)

end BootLoader.Ext

import BootLoader.Driver.World

/-! # Mounting EXT (`modules/fs/ext/ext.c`, `modules/fs/ext/ext.h`) -/

open ByteMemory

namespace BootLoader.Ext

open Driver

/-- `BL_EXT3_TYPE` is never set. -/
inductive BlExtType where
  | ext2
  | ext3
  | ext4
  deriving DecidableEq, Repr

/-- `disk` is left out, and `first_data_lba`, which is never set. -/
structure BlExtInfo where
  type : BlExtType
  lba : BitVec 64
  blockSize : Nat
  blocksCount : Nat
  blocksPerGroup : Nat
  inodeSize : Nat
  inodesPerGroup : Nat
  groupsCount : Nat
  groups : Nat
  deriving DecidableEq

def blExtMagic : Nat := 0xef53
def blExtSuperBlockOffset : Nat := 0x400
def blStorageSectorSize : Nat := 512
/-- `sizeof(struct bl_ext_super_block)`. -/
def sizeofSuperBlock : Nat := 1024
/-- `sizeof(struct bl_ext_group_descriptor)`. -/
def sizeofGroupDescriptor : Nat := 32
/-- `sizeof(struct bl_ext_inode)`. -/
def sizeofInode : Nat := 128
def blExtFeatureIncompatExtents : BitVec 32 := 0x0040

def sblockInodesCount (sblock : Mem) : Nat := read32 sblock 0
def sblockBlocksCount (sblock : Mem) : Nat := read32 sblock 4
def sblockFirstDataBlock (sblock : Mem) : Nat := read32 sblock 20
def sblockLogBlockSize (sblock : Mem) : Nat := read32 sblock 24
def sblockBlocksPerGroup (sblock : Mem) : Nat := read32 sblock 32
def sblockInodesPerGroup (sblock : Mem) : Nat := read32 sblock 40
def sblockMagic (sblock : Mem) : Nat := read16 sblock 56
def sblockInodeSize (sblock : Mem) : Nat := read16 sblock 88
def sblockFeatureIncompat (sblock : Mem) : BitVec 32 := BitVec.ofNat 32 (read32 sblock 96)

/-- `BL_EXT_BLOCK_SIZE`; the shift counts modulo 32. -/
def blExtBlockSize (logBlockSize : Nat) : Nat := 1024 * 2 ^ (logBlockSize % 32) % 2 ^ 32

/-- The sanity checks, up to the type. -/
def checkSuperBlock (sblock : Mem) : Except BlStatus BlExtType :=
  if sblockMagic sblock ≠ blExtMagic then .error .invalidFileSystem
  else if sblockInodeSize sblock = 0x80 then .ok .ext2
  else if sblockInodeSize sblock = 0x100 then
    if sblockFeatureIncompat sblock &&& blExtFeatureIncompatExtents = 0 then .error .unsupported
    else .ok .ext4
  else .error .invalidFileSystem

/-- `groups_count`. -/
def groupsCount (sblock : Mem) : Nat :=
  sblockBlocksCount sblock / sblockBlocksPerGroup sblock +
    if sblockBlocksCount sblock % sblockBlocksPerGroup sblock > 0 then 1 else 0

/-- The information that is set once the table of the groups is in its block. -/
def volumeInfo (sblock : Mem) (partitionLba : BitVec 64) (type : BlExtType) (groups : Nat) :
    BlExtInfo where
  type := type
  lba := partitionLba
  blockSize := blExtBlockSize (sblockLogBlockSize sblock)
  blocksCount := sblockBlocksCount sblock
  blocksPerGroup := sblockBlocksPerGroup sblock
  inodeSize := sblockInodeSize sblock
  inodesPerGroup := sblockInodesPerGroup sblock
  groupsCount := groupsCount sblock
  groups := groups

/-- `none`: the division by `blocks_per_group` faults. Nothing is freed after a failure. -/
def blExtCheckExt (env : Env) (partitionLba : BitVec 64) (stack : Mem) (w : World) :
    Option (World × BlStatus × Option BlExtInfo) :=
  let (w, sblock, status) := w.readVar env stack
    (partitionLba + BitVec.ofNat 64 (blExtSuperBlockOffset / blStorageSectorSize)).toNat
    sizeofSuperBlock
  if status ≠ .success then some (w, status, none)
  else
    match checkSuperBlock sblock with
    | .error status => some (w, status, none)
    | .ok type =>
      if sblockBlocksPerGroup sblock = 0 then none
      else
        match w.alloc env with
        | (w, none) => some (w, .memoryAllocationFailed, none)
        | (w, some groups) =>
          let info := volumeInfo sblock partitionLba type groups
          let (w, status) := w.read env groups
            (info.lba + BitVec.ofNat 64 (info.blockSize / blStorageSectorSize)).toNat
            (info.groupsCount * sizeofGroupDescriptor % 2 ^ 32)
          if status ≠ .success then some (w, status, none) else some (w, .success, some info)

/-- A volume that is mounted: the block of its information, and the information. -/
structure ExtVolume where
  block : Nat
  info : BlExtInfo

def blExtMount (env : Env) (partitionLba : BitVec 64) (stack : Mem) (w : World) :
    Option (World × BlStatus × Option ExtVolume) :=
  match w.alloc env with
  | (w, none) => some (w, .memoryAllocationFailed, none)
  | (w, some block) =>
    (blExtCheckExt env partitionLba stack w).map fun (w, status, info) =>
      if status ≠ .success then (w, status, none)
      else (w, .success, info.map fun info => ⟨block, info⟩)

/-! ## Inodes

`inode_size`, `inodes_per_group` and the block numbers are multiplied in 32 bits. -/

/-- `info->groups[group].inode_table`. -/
def groupInodeTable (groups : Mem) (group : Nat) : Nat :=
  read32 groups (sizeofGroupDescriptor * group + 8)

def blExtInodeIndexBlockGroup (info : BlExtInfo) (inodeNumber : BitVec 32) : Nat :=
  (inodeNumber - 1).toNat % info.inodesPerGroup

def blExtInodeOffsetToSectors (info : BlExtInfo) (inodeNumber : BitVec 32) : Nat :=
  info.inodeSize * blExtInodeIndexBlockGroup info inodeNumber % 2 ^ 32 / blStorageSectorSize

def blExtInodeSectorOffset (info : BlExtInfo) (inodeNumber : BitVec 32) : Nat :=
  info.inodeSize * blExtInodeIndexBlockGroup info inodeNumber % 2 ^ 32 % blStorageSectorSize

/-- The sum has 64 bits, and 32 of them are returned. -/
def blExtBlockToLba (info : BlExtInfo) (block : Nat) : BitVec 32 :=
  (info.lba + BitVec.ofNat 64 (block * info.blockSize % 2 ^ 32 / blStorageSectorSize)).setWidth 32

def blExtInodeBlockGroup (info : BlExtInfo) (inodeNumber : BitVec 32) : Nat :=
  (inodeNumber - 1).toNat / info.inodesPerGroup

/-- `none`: the division by `inodes_per_group` faults. `inode` is the block that is read into. -/
def blExtGetInode (env : Env) (info : BlExtInfo) (w : World) (inodeNumber : BitVec 32)
    (inode : Nat) : Option (World × BlStatus) :=
  if info.inodesPerGroup = 0 then none
  else
    let blockGroup := blExtInodeBlockGroup info inodeNumber
    let lba := blExtBlockToLba info (groupInodeTable (w.bytes info.groups) blockGroup) +
      BitVec.ofNat 32 (blExtInodeOffsetToSectors info inodeNumber)
    some (w.readAt env inode lba.toNat sizeofInode (blExtInodeSectorOffset info inodeNumber))

end BootLoader.Ext

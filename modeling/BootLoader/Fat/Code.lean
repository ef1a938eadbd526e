import BootLoader.Driver.World
import BootLoader.Heap.Code
import BootLoader.Utils.Log2

/-!
# The FAT driver (`modules/fs/fat/fat.c`, `modules/fs/fat/fat.h`)

The volume information that mounting sets up, the lookup of an entry of the table through the
one-sector cache, and the read of a file's data.
-/

open ByteMemory

namespace BootLoader.Fat

open Driver Heap Utils

inductive FatType where
  | fat12
  | fat16
  | fat32
  deriving DecidableEq, Repr

/-- `BL_FAT12_TYPE`, `BL_FAT16_TYPE`, `BL_FAT32_TYPE`: the bits of an entry. -/
def FatType.bits : FatType → Nat
  | fat12 => 12
  | fat16 => 16
  | fat32 => 32

def blFat12MaxClusters : BitVec 64 := 0xff5
def blFat16MaxClusters : BitVec 64 := 0xfff5

/-- `BL_FAT12_EOF`, `BL_FAT16_EOF`, `BL_FAT32_EOF`. -/
def FatType.eof : FatType → BitVec 32
  | fat12 => 0xff8
  | fat16 => 0xfff8
  | fat32 => 0xffffff8

structure BlFatInfo where
  fatType : FatType
  sectorSize : Nat
  clusterSize : Nat
  eof : BitVec 32
  totalSectors : BitVec 64
  totalClusters : BitVec 64
  fatLba : BitVec 64
  sectorsPerFat : BitVec 64
  fatCacheSize : Nat
  rootdirLba : BitVec 64
  rootdirEntries : Nat
  dataLba : BitVec 64

/-- The part of the volume information that lookups change. -/
structure FatState where
  cache : Mem
  cacheSector : BitVec 32
  reads : Nat

/-! ## Mounting -/

def blMbrSignature : Nat := 0xaa55

/-- The fields that `bl_fat_check_fat` sets from a volume boot record. -/
def volumeInfo (vbr : Mem) (partitionLba : BitVec 64) : BlFatInfo :=
  let bytesPerSector := read16 vbr 0x0b
  let sectorsPerCluster := (vbr 0x0d).toNat
  let reservedSectors := read16 vbr 0x0e
  let numOfFats := (vbr 0x10).toNat
  let rootdirEntries := read16 vbr 0x11
  let totalSectors := if read16 vbr 0x13 ≠ 0 then read16 vbr 0x13 else read32 vbr 0x20
  let sectorsPerFat := if read16 vbr 0x16 ≠ 0 then read16 vbr 0x16 else read32 vbr 0x24
  let fatLba := partitionLba + BitVec.ofNat 64 reservedSectors
  let rootdirLba := fatLba + BitVec.ofNat 64 sectorsPerFat * BitVec.ofNat 64 numOfFats
  let dataLba := rootdirLba + BitVec.ofNat 64 (blMemoryAlignUp (rootdirEntries * 32) 512 / 512)
  let totalClusters := (partitionLba + BitVec.ofNat 64 totalSectors - dataLba) >>>
    shiftCount (blLog2 sectorsPerCluster)
  let fatType : FatType :=
    if totalClusters < blFat12MaxClusters then .fat12
    else if totalClusters < blFat16MaxClusters then .fat16
    else .fat32
  { fatType, rootdirEntries, fatLba, rootdirLba, dataLba, totalClusters
    sectorSize := bytesPerSector
    clusterSize := bytesPerSector * sectorsPerCluster
    eof := fatType.eof
    totalSectors := BitVec.ofNat 64 totalSectors
    sectorsPerFat := BitVec.ofNat 64 sectorsPerFat
    fatCacheSize := bytesPerSector + if fatType = .fat12 then 3 - bytesPerSector % 3 else 0 }

/-- `bl_fat_check_fat`, the record being read and up to the allocation of the cache. -/
def blFatCheckFat (vbr : Mem) (partitionLba : BitVec 64) : Except BlStatus BlFatInfo :=
  if (vbr 0x10).toNat = 0 ∨ read16 vbr 0x11 = 0 ∨ read16 vbr 0x1fe ≠ blMbrSignature ∨
      blLog2 (read16 vbr 0x0b) = -1 ∨ blLog2 (vbr 0x0d).toNat = -1 then
    .error .invalidFileSystem
  else .ok (volumeInfo vbr partitionLba)

/-- The cache right after mounting: no sector, and whatever the allocated bytes hold. -/
def FatState.mounted (bytes : Mem) (reads : Nat) : FatState := ⟨bytes, -1, reads⟩

/-! ## Entries of the table -/

/-- Within the FAT itself. -/
def blFatEntryToSector (info : BlFatInfo) (fatEntry : BitVec 32) : BitVec 32 :=
  BitVec.ofNat 32 (info.fatLba.toNat +
    fatEntry.toNat / ((info.fatCacheSize <<< 3) / info.fatType.bits))

/-- Element `fatEntry` of the cache, of `width` bytes each; `none` if it is not inside. -/
def cacheElement (info : BlFatInfo) (s : FatState) (width : Nat) (fatEntry : BitVec 32) :
    Option (BitVec 32) :=
  if width * fatEntry.toNat + width ≤ info.fatCacheSize then
    some (BitVec.ofNat 32 (readLE s.cache (width * fatEntry.toNat) width))
  else none

/-- The `switch` at the end of `bl_fat_get_next_entry`. -/
def cachedEntry (info : BlFatInfo) (s : FatState) (fatEntry : BitVec 32) : Option (BitVec 32) :=
  match info.fatType with
  | .fat12 => (cacheElement info s 2 fatEntry).map (· &&& 0xfff)
  | .fat16 => cacheElement info s 2 fatEntry
  | .fat32 => cacheElement info s 4 fatEntry

/-- `none`: the entry is read outside the cache. -/
def blFatGetNextEntry (env : Env) (info : BlFatInfo) (s : FatState) (fatEntry : BitVec 32) :
    FatState × Option (BitVec 32) :=
  let fatSector := blFatEntryToSector info fatEntry
  let (s, status) : FatState × BlStatus :=
    if fatSector ≠ s.cacheSector then
      let (cache, status) := env.deviceRead s.reads s.cache 0 fatSector.toNat info.fatCacheSize 0
      if status ≠ .success then ({ s with cache, reads := s.reads + 1 }, status)
      else (⟨cache, fatSector, s.reads + 1⟩, status)
    else (s, .success)
  if status ≠ .success then (s, some 0) else (s, cachedEntry info s fatEntry)

/-! ## The data of a file -/

/-- `BL_FAT_SECTORS_PER_CLUSTER`. -/
def blFatSectorsPerCluster (info : BlFatInfo) : Nat := info.clusterSize / info.sectorSize

/-- Within the data region. -/
def blFatEntryToDataSector (info : BlFatInfo) (fatEntry : BitVec 32) : BitVec 32 :=
  info.dataLba.setWidth 32 + (fatEntry - 2) * BitVec.ofNat 32 (blFatSectorsPerCluster info)

/-- `bl_fat_get_next_entry` on a volume. -/
abbrev NextEntry := FatState → BitVec 32 → FatState × Option (BitVec 32)

/-- The first loop of `bl_fat_read_cluster_chain`, with `n` entries to go. The outer `none`: an
entry was read outside the cache. The inner one: the chain ended. -/
def seekEntry (info : BlFatInfo) (next : NextEntry) :
    Nat → FatState → BitVec 32 → Option (FatState × Option (BitVec 32))
  | 0, s, fatEntry => some (s, some fatEntry)
  | n + 1, s, fatEntry =>
    match next s fatEntry with
    | (_, none) => none
    | (s, some fatEntry) =>
      if fatEntry = 0 ∨ fatEntry = info.eof then some (s, none)
      else seekEntry info next n s fatEntry

/-- The second loop, for at most `fuel` clusters. -/
def readPieces (env : Env) (info : BlFatInfo) (next : NextEntry) (offset : Nat) :
    Nat → FatState → Mem → Nat → Nat → BitVec 32 → Option (FatState × Mem × BlStatus)
  | 0, _, _, _, _, _ => none
  | fuel + 1, s, buf, size, readBytes, fatEntry =>
    let singleReadSize := min size info.clusterSize
    let (buf, status) := env.deviceRead s.reads buf readBytes
      (blFatEntryToDataSector info fatEntry).toNat singleReadSize (offset % info.clusterSize)
    let s := { s with reads := s.reads + 1 }
    if status ≠ .success then some (s, buf, status)
    else if size - singleReadSize = 0 then some (s, buf, .success)
    else
      match next s fatEntry with
      | (_, none) => none
      | (s, some fatEntry) =>
        if fatEntry = 0 ∨ fatEntry = info.eof then some (s, buf, .fileNotFound)
        else
          readPieces env info next offset fuel s buf (size - singleReadSize)
            (readBytes + singleReadSize) fatEntry

/-- Of `buf`, byte 0 is the first that is read. `next` is `bl_fat_get_next_entry` on this
volume. -/
def blFatReadClusterChain (env : Env) (info : BlFatInfo) (next : NextEntry) (cluster : BitVec 32)
    (s : FatState) (buf : Mem) (size offset : Nat) : Option (FatState × Mem × BlStatus) :=
  match seekEntry info next (offset / info.clusterSize) s cluster with
  | none => none
  | some (s, none) => some (s, buf, .fileNotFound)
  | some (s, some fatEntry) => readPieces env info next offset (size + 1) s buf size 0 fatEntry

end BootLoader.Fat

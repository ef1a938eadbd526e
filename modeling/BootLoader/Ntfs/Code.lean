import BootLoader.Driver.World
import BootLoader.Utils.Log2

/-!
# The NTFS driver (`modules/fs/ntfs/ntfs.c`, `modules/fs/ntfs/ntfs.h`)

MFT records and index records are blocks, and a place in one is a block and an offset. The offset of
what follows is taken modulo `2 ^ 32`, as addresses are.
-/

open ByteMemory

namespace BootLoader.Ntfs

open Driver Utils

structure BlNtfsInfo where
  lba : BitVec 64
  sectorSize : Nat
  clusterSize : Nat
  mftLba : BitVec 64
  mftRecordSize : Nat
  iroot : Ptr

/-- `iroot` is left unset for a file that is no directory. -/
structure BlNtfsFileData where
  dir : Bool
  iroot : Option Ptr
  rootdir : Bool
  mftRecord : Nat
  info : BlNtfsInfo

/-! ## Run lists -/

/-- `MFT_RECORD`: the low 48 bits. -/
def mftRecord (record : BitVec 64) : BitVec 64 := record &&& (1 <<< 48 - 1)

/-- `1 << (8 * length)` shifts a 32-bit 1, and the processor counts modulo 32. -/
def blNtfsReadBytes (m : Mem) (ptr length : Nat) : BitVec 64 :=
  if length > 8 ∨ length = 0 then -1
  else BitVec.ofNat 64 (read64 m ptr) &&& BitVec.ofNat 64 (2 ^ (8 * length % 32) - 1)

/-- The loop of `bl_ntfs_vcn_to_lcn` from the run at `run` on, for at most `fuel` runs; `none`
if that is not enough. -/
def vcnToLcnFrom (m : Mem) (vcn : BitVec 64) : Nat → Nat → BitVec 64 → BitVec 64 →
    Option (BitVec 64)
  | 0, _, _, _ => none
  | fuel + 1, run, cluster, offset =>
    let head := (m run).toNat
    if head = 0 then some (-1)
    else
      let runLength := head &&& 7
      let runOffset := (head >>> 4) &&& 7
      let length := blNtfsReadBytes m (1 + run) runLength
      let cluster := cluster + length
      let offset := offset + blNtfsReadBytes m (1 + run + runLength) runOffset
      if vcn ≤ cluster then some (offset + vcn - (cluster - length))
      else vcnToLcnFrom m vcn fuel ((run + (1 + runLength + runOffset)) % 2 ^ 32) cluster offset

/-- `(bl_uint8_t *)attr + attr->nonresident.data_run_offset`. -/
def dataRuns (m : Mem) (attr : Nat) : Nat := (attr + read16 m (attr + 32)) % 2 ^ 32

/-- A place and a count of clusters have 96 bits together, so a walk that is longer has come to one
of them a second time, and is not left. -/
def runFuel : Nat := 2 ^ 96

def blNtfsVcnToLcn (m : Mem) (attr : Nat) (vcn : BitVec 64) : Option (BitVec 64) :=
  vcnToLcnFrom m (mftRecord vcn) runFuel (dataRuns m attr) 0 0

/-! ## Places on the disk -/

def blNtfsLcnToLba (info : BlNtfsInfo) (lcn : BitVec 64) : BitVec 64 :=
  info.lba + lcn <<< shiftCount (blLog2 (info.clusterSize / info.sectorSize))

def blNtfsMftRecordLba (info : BlNtfsInfo) (record : BitVec 64) : BitVec 64 :=
  info.mftLba + mftRecord record <<< shiftCount (blLog2 (info.mftRecordSize / info.sectorSize))

/-! ## Attributes of an MFT record -/

def blNtfsAttrIndexRoot : Nat := 0x90
def blNtfsAttrIndexAllocation : Nat := 0xa0
def blNtfsAttrFileName : Nat := 0x30
def blNtfsAttrEnd : Nat := 0xffffffff

def attrType (m : Mem) (attr : Nat) : Nat := read32 m attr
def attrTotalSize (m : Mem) (attr : Nat) : Nat := read32 m (attr + 4)
def attrNonresident (m : Mem) (attr : Nat) : Bool := m (attr + 8) ≠ 0
def attrNameLength (m : Mem) (attr : Nat) : Nat := (m (attr + 9)).toNat

def blNtfsAttributeFirst (m : Mem) : Nat := read16 m 20
def blNtfsAttributeNext (m : Mem) (attr : Nat) : Nat := (attr + attrTotalSize m attr) % 2 ^ 32
def blNtfsAttributeEnd (m : Mem) (attr : Nat) : Bool := attrType m attr = blNtfsAttrEnd
def blNtfsGetResidentAttribute (m : Mem) (attr : Nat) : Nat :=
  (attr + read16 m (attr + 20)) % 2 ^ 32

/-- `L"$I30"`, with its terminator. -/
def blNtfsI30 : List Nat := [0x24, 0x49, 0x33, 0x30, 0]

/-- The loop of `bl_wcsncmp`, for `n > 0`. It never gets past the terminator. -/
def wcsncmpFrom (m : Mem) : List Nat → Nat → Nat → Int
  | [], _, _ => 0
  | c :: rest, s2, n =>
    if c = read16 m s2 ∧ c ≠ 0 ∧ n - 1 ≠ 0 then wcsncmpFrom m rest (s2 + 2) (n - 1)
    else c - read16 m s2

/-- The name is read right after the header, whatever `name_offset` says. -/
def blNtfsCheckAttributeName (m : Mem) (attr : Nat) (index : List Nat) : BlStatus :=
  if attrNameLength m attr = 0 then .unsupported
  else
    let name := if attrNonresident m attr then attr + 64 else attr + 24
    if wcsncmpFrom m index name (attrNameLength m attr) = 0 then .success else .failure

/-! ## Index records -/

def blNtfsIndexEntryParent : Byte := 1
def blNtfsIndexEntryLastEntry : Byte := 2

/-- `ialloc->info->iroot->index_record_size`. -/
def indexRecordSize (w : World) (info : BlNtfsInfo) : Nat :=
  read32 (w.bytes info.iroot.block) (info.iroot.off + 8)

def entryReference (m : Mem) (entry : Nat) : BitVec 64 := BitVec.ofNat 64 (read64 m entry)
def entryTotalSize (m : Mem) (entry : Nat) : Nat := read16 m (entry + 8)
def entryParent (m : Mem) (entry : Nat) : Bool := m (entry + 12) &&& blNtfsIndexEntryParent ≠ 0
def entryLast (m : Mem) (entry : Nat) : Bool := m (entry + 12) &&& blNtfsIndexEntryLastEntry ≠ 0

/-- `&entry->data[0]`. -/
def entryFilename (entry : Nat) : Nat := entry + 16

/-- `BL_NTFS_IS_DIRECTORY`. -/
def blNtfsIsDirectory (m : Mem) (filename : Nat) : Bool :=
  BitVec.ofNat 32 (read32 m (filename + 56)) &&& 0x10000000 ≠ 0

def blNtfsGetChildVcn (m : Mem) (entry : Nat) : BitVec 64 :=
  BitVec.ofNat 64 (read64 m ((entry + entryTotalSize m entry + (2 ^ 32 - 8)) % 2 ^ 32))

def blNtfsIrootGetFirstEntry (m : Mem) (iroot : Nat) : Nat :=
  (iroot + 16 + read32 m (iroot + 16)) % 2 ^ 32

def blNtfsIallocGetFirstEntry (m : Mem) (ialloc : Nat) : Nat :=
  (ialloc + 24 + read32 m (ialloc + 24)) % 2 ^ 32

def blNtfsGetNextEntry (m : Mem) (entry : Nat) : Nat := (entry + entryTotalSize m entry) % 2 ^ 32

/-- `"INDX"`. -/
def blNtfsIndx (m : Mem) : Bool := m 0 = 0x49 ∧ m 1 = 0x4e ∧ m 2 = 0x44 ∧ m 3 = 0x58

/-- The outer `none`: the run list is not left. The inner one: null. -/
def blNtfsGetIndexAllocation (env : Env) (info : BlNtfsInfo) (w : World) (m : Mem) (attr : Nat)
    (data : Option (BitVec 64)) : Option (World × Option Nat) :=
  if blNtfsCheckAttributeName m attr blNtfsI30 ≠ .success then some (w, none)
  else
    match data with
    | none => some (w, none)
    | some vcn =>
      match blNtfsVcnToLcn m attr vcn with
      | none => none
      | some lcn =>
        match w.alloc env with
        | (w, none) => some (w, none)
        | (w, some index) =>
          let (w, status) :=
            w.read env index (blNtfsLcnToLba info lcn).toNat (indexRecordSize w info)
          if status ≠ .success ∨ blNtfsIndx (w.bytes index) = false then
            some (w.free index, none)
          else some (w, some index)

/-- The walk of `bl_ntfs_get_mft_record_attribute` from `attr` on, for at most `fuel`
attributes. `data` is the VCN that `$INDEX_ALLOCATION` is read at. -/
def mftRecordAttributeFrom (env : Env) (info : BlNtfsInfo) (w : World) (record type : Nat)
    (data : Option (BitVec 64)) : Nat → Nat → Option (World × Option Ptr)
  | 0, _ => none
  | fuel + 1, attr =>
    let m := w.bytes record
    if blNtfsAttributeEnd m attr then some (w, none)
    else if attrType m attr ≠ type then
      mftRecordAttributeFrom env info w record type data fuel (blNtfsAttributeNext m attr)
    else if attrNonresident m attr then
      if type = blNtfsAttrIndexAllocation then
        (blNtfsGetIndexAllocation env info w m attr data).map fun (w, index) =>
          (w, index.map (Ptr.mk · 0))
      else some (w, none)
    else if type = blNtfsAttrFileName then
      some (w, some ⟨record, blNtfsGetResidentAttribute m attr⟩)
    else if type = blNtfsAttrIndexRoot then
      if blNtfsCheckAttributeName m attr blNtfsI30 ≠ .success then some (w, none)
      else some (w, some ⟨record, blNtfsGetResidentAttribute m attr⟩)
    else some (w, none)

def blNtfsGetMftRecordAttribute (env : Env) (info : BlNtfsInfo) (fuel : Nat) (w : World)
    (record type : Nat) (data : Option (BitVec 64)) : Option (World × Option Ptr) :=
  mftRecordAttributeFrom env info w record type data fuel (blNtfsAttributeFirst (w.bytes record))

def blNtfsReadMft (env : Env) (info : BlNtfsInfo) (w : World) (mftRecord : Nat)
    (record : BitVec 64) : World × BlStatus :=
  w.read env mftRecord (blNtfsMftRecordLba info record).toNat info.mftRecordSize

def blNtfsReadChildNode (env : Env) (info : BlNtfsInfo) (fuel : Nat) (w : World) (entry : Ptr)
    (mftDir : Nat) : Option (World × Option Nat) :=
  let m := w.bytes entry.block
  if entryParent m entry.off = false then some (w, none)
  else
    (blNtfsGetMftRecordAttribute env info fuel w mftDir blNtfsAttrIndexAllocation
      (some (blNtfsGetChildVcn m entry.off))).map fun (w, index) => (w, index.map (·.block))

/-! ## The search -/

/-- How the loop of `bl_ntfs_iterate_directory_callback` is left: with the index record that is
held then, and the entry that matched. -/
structure Found where
  world : World
  index : Option Nat
  entry : Option Ptr

/-- The loop, `strcmp` comparing the name looked for with the file name at a place. -/
def searchEntries (env : Env) (info : BlNtfsInfo) (mftDir : Nat) (strcmp : Mem → Nat → Int) :
    Nat → World → Option Nat → Ptr → Option Found
  | 0, _, _, _ => none
  | fuel + 1, w, index, entry =>
    let m := w.bytes entry.block
    let descend : Option Found :=
      match blNtfsReadChildNode env info fuel w entry mftDir with
      | none => none
      -- `index` is overwritten with null before the loop is left.
      | some (w, none) => some ⟨w, none, none⟩
      | some (w, some child) =>
        let w := w.freeAll [index]
        searchEntries env info mftDir strcmp fuel w (some child)
          ⟨child, blNtfsIallocGetFirstEntry (w.bytes child) 0⟩
    let compare : Option Found :=
      if entryLast m entry.off then some ⟨w, index, none⟩
      else if strcmp m (entryFilename entry.off) = 0 then some ⟨w, index, some entry⟩
      else searchEntries env info mftDir strcmp fuel w index
        ⟨entry.block, blNtfsGetNextEntry m entry.off⟩
    if entryParent m entry.off then
      if entryLast m entry.off then descend
      else
        let res := strcmp m (entryFilename entry.off)
        if res < 0 then descend
        else if res = 0 then some ⟨w, index, some entry⟩
        else compare
    else compare

/-- A tree node and its file data, with the blocks they are in. -/
structure BlFileTreeNode where
  node : Nat
  fdataBlock : Nat
  fdata : BlNtfsFileData

/-- What follows the label `_match`: the world, the status, the node returned, and the blocks
that the label `_exit` releases. -/
def matchEntry (env : Env) (info : BlNtfsInfo) (fuel : Nat) (directory : Bool) (w : World)
    (entry : Ptr) : Option (World × BlStatus × Option BlFileTreeNode × List (Option Nat)) :=
  let m := w.bytes entry.block
  let isDirectory := blNtfsIsDirectory m (entryFilename entry.off)
  if directory ∧ isDirectory = false then some (w, .invalidFileType, none, [])
  else
    match w.alloc env with
    | (w, none) => some (w, .memoryAllocationFailed, none, [])
    | (w, some node) =>
      match w.alloc env with
      | (w, none) => some (w, .memoryAllocationFailed, none, [some node])
      | (w, some fdata) =>
        match w.alloc env with
        | (w, none) => some (w, .memoryAllocationFailed, none, [some fdata, some node])
        | (w, some mftDirNext) =>
          let (w, status) := blNtfsReadMft env info w mftDirNext (entryReference m entry.off)
          if status ≠ .success then
            some (w, status, none, [some fdata, some node, some mftDirNext])
          else
            let iroot : Option (World × Option Ptr) :=
              if isDirectory then
                blNtfsGetMftRecordAttribute env info fuel w mftDirNext blNtfsAttrIndexRoot none
              else some (w, none)
            iroot.map fun (w, iroot) =>
              -- `mft_dir_next` is still set, so the record of the node returned is released.
              (w, .success, some ⟨node, fdata, ⟨isDirectory, iroot, false, mftDirNext, info⟩⟩,
                [some mftDirNext])

def blNtfsIterateDirectoryCallback (env : Env) (fuel : Nat) (strcmp : Mem → Nat → Int)
    (directory : Bool) (fdata : BlNtfsFileData) (w : World) :
    Option (World × BlStatus × Option BlFileTreeNode) :=
  match fdata.dir, fdata.iroot with
  | true, some iroot =>
    let first : Ptr := ⟨iroot.block, blNtfsIrootGetFirstEntry (w.bytes iroot.block) iroot.off⟩
    match searchEntries env fdata.info fdata.mftRecord strcmp fuel w none first with
    | none => none
    | some ⟨w, index, none⟩ => some (w.freeAll [index], .fileNotFound, none)
    | some ⟨w, index, some entry⟩ =>
      (matchEntry env fdata.info fuel directory w entry).map fun (w, status, node, blocks) =>
        (w.freeAll (blocks ++ [index]), status, node)
  -- A directory whose index root was not found has a null `iroot`, and nothing can be read there.
  | true, none => none
  | false, _ => some (w, .invalidFileType, none)

end BootLoader.Ntfs

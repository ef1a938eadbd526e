import BootLoader.Driver.World
import BootLoader.Storage.Devices

/-!
# Partition tables (`modules/partition-table/gpt/gpt.c`, `modules/partition-table/mbr/mbr.c`,
`core/partition-table/partition-table.c`)
-/

open ByteMemory

namespace BootLoader.Partition

open Driver Storage

/-- A disk while it is probed: the heap, and the list of its partitions with the block of each. -/
structure Disk where
  world : World
  partitions : List (Nat × BlPartition)

/-- `bl_storage_device_read` of the next number. What it reads is on the disk. -/
def Disk.read (env : Env) (d : Disk) : Disk × BlStatus :=
  ({ d with world := { d.world with reads := d.world.reads + 1 } }, env.reads d.world.reads)

/-- The partition gets a block and is put before the others. -/
def Disk.record (env : Env) (d : Disk) (p : BlPartition) : Disk × BlStatus :=
  match d.world.alloc env with
  | (world, none) => ({ d with world }, .memoryAllocationFailed)
  | (world, some block) => (⟨world, (block, p) :: d.partitions⟩, .success)

/-- The loops over the entries: from the entry number `i` on, `left` of them. With `reading` each
entry is read first; an entry that is empty is passed over. -/
def recordEntries (env : Env) (reading : Bool) (entry : Nat → Option BlPartition) :
    Nat → Nat → Disk → Disk × BlStatus
  | 0, _, d => (d, .success)
  | left + 1, i, d =>
    let (d, status) := if reading then d.read env else (d, .success)
    if status ≠ .success then (d, status)
    else match entry i with
      | none => recordEntries env reading entry left (i + 1) d
      | some p =>
        let (d, status) := d.record env p
        if status ≠ .success then (d, status)
        else recordEntries env reading entry left (i + 1) d

/-! ## MBR -/

def blMbrSignature : Nat := 0xaa55
def blMbrPartitionTypeNone : Byte := 0
def blMbrPartitionTypeGptDisk : Byte := 0xee

def mbrSignature (disk : Mem) : Nat := read16 disk 510

/-- `mbr.entries[i]` -/
def mbrEntryOff (i : Nat) : Nat := 446 + 16 * i

def mbrPartitionType (disk : Mem) (i : Nat) : Byte := disk (mbrEntryOff i + 4)

def mbrEntry (disk : Mem) (i : Nat) : Option BlPartition :=
  if mbrPartitionType disk i = blMbrPartitionTypeNone then none
  else some {
    lba := BitVec.ofNat 64 (read32 disk (mbrEntryOff i + 8))
    sectors := BitVec.ofNat 64 (read32 disk (mbrEntryOff i + 12)) }

def blMbrIterate (env : Env) (d : Disk) : Disk × BlStatus :=
  let (d, status) := d.read env
  if status ≠ .success then (d, status)
  else if mbrSignature env.disk ≠ blMbrSignature then (d, .unsupported)
  else recordEntries env false (mbrEntry env.disk) 4 0 d

/-! ## GPT -/

/-- `"EFI PART"` -/
def blGptSignature : List Byte := [0x45, 0x46, 0x49, 0x20, 0x50, 0x41, 0x52, 0x54]

/-- The header is in the second sector. -/
def gptHeader : Nat := 512

def gptSignatureValid (disk : Mem) : Bool :=
  (List.range 8).map (fun k => disk (gptHeader + k)) = blGptSignature

def gptPartitionsLba (disk : Mem) : BitVec 64 := BitVec.ofNat 64 (read64 disk (gptHeader + 72))
def gptPartitionsCount (disk : Mem) : Nat := read32 disk (gptHeader + 80)
def gptPartitionEntrySize (disk : Mem) : Nat := read32 disk (gptHeader + 84)

/-- Where the entry number `i` is: `entry_offset` is a 64-bit number. -/
def gptEntryOff (disk : Mem) (i : Nat) : Nat :=
  let entryOffset := BitVec.ofNat 64 (i * gptPartitionEntrySize disk)
  512 * (gptPartitionsLba disk + entryOffset / 512).toNat + entryOffset.toNat % 512

/-- The type of an entry that is unused is the GUID of zeros. -/
def gptEntry (disk : Mem) (i : Nat) : Option BlPartition :=
  let off := gptEntryOff disk i
  if (List.range 16).all fun k => disk (off + k) = 0 then none
  else
    let firstLba := BitVec.ofNat 64 (read64 disk (off + 32))
    let lastLba := BitVec.ofNat 64 (read64 disk (off + 40))
    some ⟨firstLba, lastLba - firstLba⟩

/-- One of the four entries says that this is a GPT disk. -/
def hasProtectiveEntry (disk : Mem) : Bool :=
  (List.range 4).any fun i => mbrPartitionType disk i = blMbrPartitionTypeGptDisk

def blGptIterate (env : Env) (d : Disk) : Disk × BlStatus :=
  let (d, status) := d.read env
  if status ≠ .success then (d, status)
  else if mbrSignature env.disk ≠ blMbrSignature then (d, .unsupported)
  else if !hasProtectiveEntry env.disk then (d, .unsupported)
  else
    let (d, status) := d.read env
    if status ≠ .success then (d, status)
    else if !gptSignatureValid env.disk then (d, .unsupported)
    else recordEntries env true (gptEntry env.disk) (gptPartitionsCount env.disk) 0 d

/-! ## Probing -/

abbrev Handler := Env → Disk → Disk × BlStatus

/-- The handlers in the order of the list: the last one that registered comes first. -/
def blPartitionTableProbe (env : Env) : List Handler → Disk → Disk × BlStatus
  | [], d => (d, .unproperDisk)
  | iterate :: handlers, d =>
    match iterate env d with
    | (d, .success) => (d, .success)
    | (d, _) => blPartitionTableProbe env handlers d

def blPartitionTableRegister (handlers : List Handler) (h : Handler) : List Handler :=
  h :: handlers

end BootLoader.Partition

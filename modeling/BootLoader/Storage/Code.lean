import BootLoader.Heap.Code
import BootLoader.Status
import BootLoader.Utils.Memory

/-! # Reading a storage device (`core/storage/storage.c`) -/

open ByteMemory

namespace BootLoader.Storage

open Heap Utils

def blStorageSectorSize : Nat := 512

/-- A controller's `read`: from memory, the place of the sectors, the first one and their number,
to memory and a status. -/
abbrev ControllerRead := Mem → Nat → Nat → Nat → Mem × BlStatus

/-- The bytes of whole sectors that hold `[offset, offset + size)`. -/
def readSectorsSize (size offset : Nat) : Nat :=
  blMemoryAlignUp (offset + size) blStorageSectorSize

/-- `bl_storage_device_read`, `read` being that of the disk's controller. -/
def blStorageDeviceRead (read : ControllerRead) (s : BlHeap) (buf lba size offset : Nat) :
    Option (BlHeap × BlStatus) :=
  let sectorsSize := readSectorsSize size offset
  match blHeapAlloc s sectorsSize with
  | none => none
  | some (s, rawDiskData) =>
    if rawDiskData = 0 then some (s, .memoryAllocationFailed)
    else
      let (mem, status) := read s.mem rawDiskData lba (sectorsSize / blStorageSectorSize)
      let mem := if status ≠ .success then mem
        else blMemcpy mem buf ((rawDiskData + offset) % 2 ^ 32) size
      some (blHeapFree { s with mem := mem } rawDiskData, status)

end BootLoader.Storage

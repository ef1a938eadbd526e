import BootLoader.Lib.ByteMemory

/-!
# The heap (`core/memory/heap.c`, `core/include/memory/heap.h`)

Addresses are numbers below `2 ^ 32`, and every address computation wraps there. A block head
is read from memory field by field: `next` at 0, `magic` at 4, `size` at 8; the padding at 12
is never read.
-/

open ByteMemory

namespace BootLoader.Heap

def blHeapBlockHeadUsedMagic : Nat := 0x44455355
def blHeapBlockHeadFreeMagic : Nat := 0x45455246
def blHeapMemAlign : Nat := 16
/-- `sizeof(struct bl_heap_block_head)`. -/
def blHeapBlockHeadSize : Nat := 16

/-- The macro of `heap.h`, in the 32-bit arithmetic of its argument. -/
def blMemoryAlignUp (addr align : Nat) : Nat :=
  ((BitVec.ofNat 32 addr + BitVec.ofNat 32 align - 1) &&& ~~~(BitVec.ofNat 32 align - 1)).toNat

/-! ## Block heads -/

def headNext (m : Mem) (q : Nat) : Nat := read32 m q
def headMagic (m : Mem) (q : Nat) : Nat := read32 m (q + 4)
def headSize (m : Mem) (q : Nat) : Nat := read32 m (q + 8)

def setHeadNext (m : Mem) (q v : Nat) : Mem := write32 m q v
def setHeadMagic (m : Mem) (q v : Nat) : Mem := write32 m (q + 4) v
def setHeadSize (m : Mem) (q v : Nat) : Mem := write32 m (q + 8) v

/-- `q + 1` on a block head. -/
def headPayload (q : Nat) : Nat := (q + blHeapBlockHeadSize) % 2 ^ 32

/-- `(struct bl_heap_block_head *)block - 1`. -/
def payloadHead (block : Nat) : Nat := (block + (2 ^ 32 - blHeapBlockHeadSize)) % 2 ^ 32

/-! ## State and start -/

/-- Memory, and the static variables of `heap.c`. `heap = 0` is the null pointer. -/
structure BlHeap where
  mem : Mem
  heap : Nat
  occupiedBlocks : Nat
  freeBlocks : Nat

/-- Before `bl_heap_init`: `bl_heap` is null and both counters are zero. -/
def unset (m : Mem) : BlHeap := ⟨m, 0, 0, 0⟩

/-- `bl_heap_init` with `FIRMWARE_BIOS`. -/
def blHeapInitBios (s : BlHeap) : BlHeap :=
  if s.heap ≠ 0 then s else { s with heap := 0x100000 }

def blModuleListHeaderMagic : Nat := 0x54534c444f4d4c42
def blModuleHeaderMagic : Nat := 0x000000444f4d4c42

/-- The module after `mod`: its head of 12 bytes and its `size` bytes are stepped over. -/
def nextModule (m : Mem) (mod : Nat) : Nat := ((mod + 12) % 2 ^ 32 + read32 m (mod + 8)) % 2 ^ 32

/-- The walk over `left` more modules, `none` at a wrong magic. -/
def skipModules (m : Mem) : Nat → Nat → Option Nat
  | 0, mod => some mod
  | left + 1, mod =>
    if read64 m mod ≠ blModuleHeaderMagic then none else skipModules m left (nextModule m mod)

/-- `bl_heap_init` without `FIRMWARE_BIOS`, the module list being at `modulesStart`. -/
def blHeapInit (modulesStart : Nat) (s : BlHeap) : BlHeap :=
  if s.heap ≠ 0 then s
  else if read64 s.mem modulesStart = blModuleListHeaderMagic then
    match skipModules s.mem (read32 s.mem (modulesStart + 8)) ((modulesStart + 16) % 2 ^ 32) with
    | none => s
    | some mod => { s with heap := blMemoryAlignUp mod blHeapMemAlign }
  else { s with heap := blMemoryAlignUp modulesStart blHeapMemAlign }

/-! ## Allocation -/

/-- How the `for` loop of `__bl_heap_alloc_align` is left. -/
inductive Scan where
  /-- At the free block `q`, which fits. -/
  | fits (q : Nat)
  /-- At a block that has neither magic. -/
  | broken
  /-- At the end of the list, `q` being its last block. -/
  | last (q : Nat)
  deriving DecidableEq, Repr

/-- The loop from block `q` on, for at most `fuel` blocks; `none` if that is not enough.
The last block is never tried: the loop ends as soon as `next` is null. -/
def scanBlocks (m : Mem) (sz align : Nat) : Nat → Nat → Option Scan
  | 0, _ => none
  | fuel + 1, q =>
    let p := headNext m q
    if p = 0 then some (.last q)
    else if headMagic m q = blHeapBlockHeadFreeMagic then
      if headPayload q &&& (align - 1) = 0 ∧ sz ≤ headSize m q then some (.fits q)
      else scanBlocks m sz align fuel p
    else if headMagic m q ≠ blHeapBlockHeadUsedMagic then some .broken
    else scanBlocks m sz align fuel p

/-- More blocks than fit into the address space, so a longer walk is a cycle. -/
def scanFuel : Nat := 2 ^ 32

/-- Where the next block's payload goes, after the last block `q`. -/
def appendAddress (m : Mem) (q align : Nat) : Nat :=
  let alloc := blMemoryAlignUp (headPayload q + headSize m q + blHeapBlockHeadSize) blHeapMemAlign
  if alloc &&& (align - 1) ≠ 0 then blMemoryAlignUp alloc align else alloc

/-- The head of the appended block `p` is written, then linked from `q`. -/
def appendBlock (m : Mem) (q p sz : Nat) : Mem :=
  setHeadNext (setHeadNext (setHeadSize (setHeadMagic m p blHeapBlockHeadUsedMagic) p sz) p 0) q p

/-- `__bl_heap_alloc_align`, on the chain that starts at `ptr`. `none`: it never returns. -/
def blHeapAllocAlignFrom (ptr : Nat) (s : BlHeap) (sz align : Nat) : Option (BlHeap × Nat) :=
  match scanBlocks s.mem sz align scanFuel ptr with
  | none => none
  | some (.fits q) =>
    some ({ s with mem := setHeadMagic s.mem q blHeapBlockHeadUsedMagic }, headPayload q)
  | some .broken => some (s, 0)
  | some (.last q) =>
    let alloc := appendAddress s.mem q align
    some ({ s with mem := appendBlock s.mem q (payloadHead alloc) sz }, alloc)

/-- The first block, whose base may move up to the alignment. `bl_memcpy` copies nothing to a
null base. -/
def allocFirstBlock (s : BlHeap) (sz align : Nat) : BlHeap × Nat :=
  let heap := if s.heap &&& (align - 1) ≠ 0 then blMemoryAlignUp s.heap align else s.heap
  let mem := if heap = 0 then s.mem else
    setHeadSize (setHeadMagic (setHeadNext s.mem heap 0) heap blHeapBlockHeadUsedMagic) heap sz
  ({ s with mem := mem, heap := heap, occupiedBlocks := s.occupiedBlocks + 1 }, headPayload heap)

def blHeapAllocAlign (s : BlHeap) (sz align : Nat) : Option (BlHeap × Nat) :=
  if s.heap = 0 then some (s, 0)
  else
    let align := if align = 0 then 1 else align
    if align &&& (align - 1) ≠ 0 then some (s, 0)
    else if s.occupiedBlocks = 0 ∧ s.freeBlocks = 0 then some (allocFirstBlock s sz align)
    else blHeapAllocAlignFrom s.heap s sz align

def blHeapAlloc (s : BlHeap) (sz : Nat) : Option (BlHeap × Nat) := blHeapAllocAlign s sz 1

/-! ## Release -/

/-- `bl_heap_free`; its size argument is not used. -/
def blHeapFree (s : BlHeap) (block : Nat) : BlHeap :=
  if block &&& (blHeapMemAlign - 1) ≠ 0 then s
  else
    let p := payloadHead block
    if headMagic s.mem p = blHeapBlockHeadUsedMagic then
      { s with
        mem := setHeadMagic s.mem p blHeapBlockHeadFreeMagic, freeBlocks := s.freeBlocks + 1 }
    else s

end BootLoader.Heap

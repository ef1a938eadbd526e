import BootLoader.Heap.Proofs
import Mathlib.Data.Set.Basic
import Mathlib.Logic.Relation

/-!
# The heap of the EFI application (`core/firmware/uefi/heap.c`)

The firmware has two allocators, one for pages and one for pools, and `bl_heap_free` has to find out
from the address which of them a block came from.
-/

open ByteMemory RoundUp Relation

namespace BootLoader.Uefi

open Heap

/-! ## The boot services -/

def efiSuccess : BitVec 32 := 0
/-- `EFI_ERROR_STATUS(14)`. -/
def efiNotFound : BitVec 32 := 0x8000000e

/-- Memory, and what the firmware keeps. -/
structure Machine (σ : Type) where
  fw : σ
  mem : Mem

/-- The members of `boot_services` that the heap calls. An allocation is an `EFI_LOADER_DATA` of
`EFI_ALLOCATE_ANY_PAGES`; what comes with the status is the address. -/
structure BootServices (σ : Type) where
  allocatePages : Machine σ → Nat → Machine σ × BitVec 32 × BitVec 64
  freePages : Machine σ → BitVec 64 → Nat → Machine σ × BitVec 32
  allocatePool : Machine σ → Nat → Machine σ × BitVec 32 × Nat
  freePool : Machine σ → Nat → Machine σ × BitVec 32
  setMem : Machine σ → Nat → Nat → Byte → Machine σ

/-! ## The heap -/

section Code

variable {σ : Type} (S : BootServices σ)

def blHeapAlloc (s : Machine σ) (sz : Nat) : Machine σ × Nat :=
  let (s, status, ptr) := S.allocatePool s sz
  if status ≠ efiSuccess then (s, 0)
  else (S.setMem s ptr sz 0, ptr)

/-- The result is computed in 32 bits, `_BL_SIZEOF_PTR` being 4. -/
def blHeapAllocAlign (s : Machine σ) (sz align : Nat) : Machine σ × Nat :=
  let align := if align = 0 then 1 else align
  if align &&& (align - 1) ≠ 0 then (s, 0)
  else if align ≤ 8 then blHeapAlloc S s sz
  else
    let newSz := blMemoryAlignUp sz 0x1000
    let (s, status, addr) := S.allocatePages s (newSz / 0x1000)
    if status ≠ efiSuccess then (s, 0)
    else
      let ptr := (addr &&& 0xffffffff).toNat
      (S.setMem s ptr newSz 0, ptr)

def blHeapFree (s : Machine σ) (ptr sz : Nat) : Machine σ :=
  if ptr = 0 then s
  else if ptr &&& 0xfff ≠ 0 then (S.freePool s ptr).1
  else
    let (s, status) := S.freePages s (BitVec.ofNat 64 ptr) (blMemoryAlignUp sz 0x1000 / 0x1000)
    if status = efiNotFound then (S.freePool s ptr).1 else s

end Code

end BootLoader.Uefi

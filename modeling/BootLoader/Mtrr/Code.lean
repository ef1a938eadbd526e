import BootLoader.Lib.RoundUp
import Mathlib.Logic.Function.Basic

/-!
# Memory type ranges (`core/arch/i386/mtrr/mtrr.c`, `include/msr.h`)

`cpuid` answers are given, and the model-specific registers are the state.
-/

namespace BootLoader.Mtrr

structure CpuidAnswer where
  eax : BitVec 32
  ebx : BitVec 32
  ecx : BitVec 32
  edx : BitVec 32

abbrev Cpuid := BitVec 32 → CpuidAnswer

abbrev Msrs := Nat → BitVec 64

def blMsrMtrr : Nat := 0xfe
def blMsrMtrrPhysbase : Nat := 0x200
def blMsrMtrrPhysmask : Nat := 0x201
def blMsrMtrrPhysbaseN (n : Nat) : Nat := blMsrMtrrPhysbase + n * 2
def blMsrMtrrPhysmaskN (n : Nat) : Nat := blMsrMtrrPhysmask + n * 2

def blMsrMtrrVcnt : BitVec 32 := 0xff
def blMsrMtrrWc : BitVec 32 := 1 <<< 10
def blMsrMtrrPhysmaskV : BitVec 64 := 1 <<< 11

def blCpuidFunction0x1Mtrr : BitVec 32 := 1 <<< 12
def blCpuidFunction0x80000008PhysAddrSize : BitVec 32 := 0xff

/-- The low and the high half. -/
def blRdmsr (msrs : Msrs) (msr : Nat) : BitVec 32 × BitVec 32 :=
  ((msrs msr).setWidth 32, (msrs msr >>> 32).setWidth 32)

def blWrmsr (msrs : Msrs) (msr : Nat) (low high : BitVec 32) : Msrs :=
  Function.update msrs msr (high ++ low)

/-- The macro of `heap.h` in 64 bits. -/
def blMemoryAlignUp (addr align : BitVec 64) : BitVec 64 :=
  (addr + align - 1) &&& ~~~(align - 1)

/-- `((bl_uint64_t)high << 32) | low` -/
def joinHalves (halves : BitVec 32 × BitVec 32) : BitVec 64 :=
  halves.2.setWidth 64 <<< 32 ||| halves.1.setWidth 64

def blMtrrSetEntry (msrs : Msrs) (i : Nat) (ptr size addrmask : BitVec 64) : Msrs :=
  let newPhysbase := ptr &&& addrmask ||| 0x1
  let msrs := blWrmsr msrs (blMsrMtrrPhysbaseN i) ((newPhysbase &&& 0xffffffff).setWidth 32)
    ((newPhysbase >>> 32).setWidth 32)
  let newPhysmask := ~~~(size - 1) &&& addrmask ||| blMsrMtrrPhysmaskV
  blWrmsr msrs (blMsrMtrrPhysmaskN i) ((newPhysmask &&& 0xffffffff).setWidth 32)
    ((newPhysmask >>> 32).setWidth 32)

/-- False only for a range inside one whose type has its lowest bit set. -/
def blMtrrCheckRangeOverlap (ptr size addrmask physbase physmask : BitVec 64) : Bool :=
  if physbase &&& 0x1 = 0 then true
  else if ptr < physbase &&& ~~~0xfff then true
  else if (physbase &&& ~~~0xfff) + 1 + (addrmask &&& ~~~(physmask &&& ~~~0xfff)) < ptr + size then
    true
  else false

/-- The loop over the first registers, with the first free one. `none`: it returns. -/
def scanEntries (msrs : Msrs) (ptr size addrmask : BitVec 64) : Nat → Option (Option Nat)
  | 0 => some none
  | i + 1 =>
    (scanEntries msrs ptr size addrmask i).bind fun freeEntry =>
      let physmask := joinHalves (blRdmsr msrs (blMsrMtrrPhysmaskN i))
      if physmask &&& blMsrMtrrPhysmaskV ≠ 0 then
        let physbase := joinHalves (blRdmsr msrs (blMsrMtrrPhysbaseN i))
        if blMtrrCheckRangeOverlap ptr size addrmask physbase physmask = false then none
        else some freeEntry
      else if freeEntry = none then some (some i)
      else some freeEntry

def physicalAddressMask (cpuid : Cpuid) : BitVec 64 :=
  if 0x80000008 ≤ (cpuid 0x80000000).eax then
    (1 <<< ((cpuid 0x80000008).eax &&& blCpuidFunction0x80000008PhysAddrSize).toNat) - 1
  else (1 <<< 36) - 1

def blMtrrSetWriteCombineCache (cpuid : Cpuid) (msrs : Msrs) (ptr size : BitVec 64) : Msrs :=
  if (cpuid 0x1).edx &&& blCpuidFunction0x1Mtrr = 0 then msrs
  else
    let (low, _) := blRdmsr msrs blMsrMtrr
    if low &&& blMsrMtrrWc = 0 then msrs
    else
      let vcnt := (low &&& blMsrMtrrVcnt).toNat
      if vcnt = 0 ∨ 8 < vcnt then msrs
      else
        let ptr := blMemoryAlignUp ptr 0x1000
        let size := blMemoryAlignUp size 0x1000
        if size &&& (size - 1) ≠ 0 then msrs
        else if 0x1000 < size ∧ ptr ≠ blMemoryAlignUp ptr size then msrs
        else
          let addrmask := physicalAddressMask cpuid
          match scanEntries msrs ptr size addrmask vcnt with
          | none => msrs
          | some none => msrs
          | some (some freeEntry) => blMtrrSetEntry msrs freeEntry ptr size addrmask

end BootLoader.Mtrr

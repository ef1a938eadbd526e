import BootLoader.Elf.Code

/-!
# Relocating the EFI application (`core/arch/i386/uefi/relocate-ia32.c`)

The firmware puts the image anywhere; its relative relocations are applied before anything else
runs. The dynamic section and the relocation table are read where they stand, in the image.
-/

open ByteMemory

namespace BootLoader.Uefi

open Elf

inductive EfiStatus where
  | success
  | loadError
  | invalidParameter
  deriving DecidableEq, Repr

def mzDosMagic : Nat := 0x5a4d

def dtNull : Nat := 0
def dtRel : Nat := 17
def dtRelsz : Nat := 18
def dtRelent : Nat := 19

def r386Relative : Elf32Word := 8

/-- The union `d_un` is one word. -/
structure Elf32Dyn where
  dTag : Nat
  dUn : Nat
  deriving DecidableEq, Repr

/-- `entry[i]`. -/
def dynamicEntry (m : Mem) (entry i : Nat) : Elf32Dyn :=
  ⟨read32 m ((entry + 8 * i) % 2 ^ 32), read32 m ((entry + 8 * i + 4) % 2 ^ 32)⟩

/-- `reloc[i]`. -/
def relocation (m : Mem) (reloc i : Nat) : Elf32Rel :=
  ⟨BitVec.ofNat 32 (read32 m ((reloc + 8 * i) % 2 ^ 32)),
    BitVec.ofNat 32 (read32 m ((reloc + 8 * i + 4) % 2 ^ 32))⟩

/-- What `bl_efi_relocate_self` keeps of the dynamic section. -/
structure Described where
  reloc : Nat
  relocsSize : Nat
  entrySize : Nat
  deriving DecidableEq, Repr

/-- The `switch` over `d_tag`. -/
def Described.add (base : Nat) (d : Described) (e : Elf32Dyn) : Described :=
  if e.dTag = dtRel then { d with reloc := (base + e.dUn) % 2 ^ 32 }
  else if e.dTag = dtRelsz then { d with relocsSize := e.dUn }
  else if e.dTag = dtRelent then { d with entrySize := e.dUn }
  else d

/-- The loop over the dynamic section, for at most `fuel` entries. -/
def dynamicFrom (m : Mem) (base entry : Nat) : Nat → Nat → Described → Option Described
  | 0, _, _ => none
  | fuel + 1, i, d =>
    if (dynamicEntry m entry i).dTag = dtNull then some d
    else dynamicFrom m base entry fuel (i + 1) (d.add base (dynamicEntry m entry i))

/-- The body of the loop over the relocation table. -/
def relocateRelative (base reloc : Nat) (m : Mem) (i : Nat) : Mem :=
  let rel := relocation m reloc i
  let addr := (base + rel.rOffset.toNat) % 2 ^ 32
  if elf32RType rel.rInfo = r386Relative then write32 m addr (read32 m addr + base) else m

/-- `bl_efi_relocate_self`, for at most `fuel` entries of the dynamic section. -/
def blEfiRelocateSelf (m : Mem) (base entry fuel : Nat) : Option (EfiStatus × Mem) :=
  if read16 m base ≠ mzDosMagic then some (.invalidParameter, m)
  else
    match dynamicFrom m base entry fuel 0 ⟨0, 0, 0⟩ with
    | none => none
    | some d =>
      if d.reloc = 0 ∨ d.entrySize = 0 ∨ d.entrySize ≠ 8 then some (.loadError, m)
      else
        some (.success,
          (List.range (d.relocsSize / d.entrySize)).foldl (relocateRelative base d.reloc) m)

end BootLoader.Uefi

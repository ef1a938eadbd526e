import BootLoader.Heap.Code
import BootLoader.Status

/-!
# The module list (`tools/bl-modules.py`, `core/loader/loader.c`, `core/include/loader/module.h`)
-/

open ByteMemory

namespace BootLoader.Loader

open Heap

/-! ## Writing it -/

/-- `struct.pack` of one number, little-endian; it fails if there is no room for the number. -/
def structPack (n v : Nat) : Option (List Byte) :=
  if v < 256 ^ n then some (bytesLE n v) else none

/-- The loop of `modules_list`. -/
def packModules : List (List Byte) → List Byte → Nat → Option (List Byte × Nat)
  | [], l, totalSize => some (l, totalSize)
  | buf :: mods, l, totalSize => do
    let magic ← structPack 8 blModuleHeaderMagic
    let size ← structPack 4 buf.length
    packModules mods (l ++ (magic ++ size ++ buf)) (totalSize + buf.length)

def modulesList (mods : List (List Byte)) : Option (List Byte) := do
  let (l, totalSize) ← packModules mods [] 0
  let magic ← structPack 8 blModuleListHeaderMagic
  let count ← structPack 4 mods.length
  let total ← structPack 4 totalSize
  pure (magic ++ count ++ total ++ l)

/-! ## Walking it -/

variable {σ : Type*}

/-- `bl_elf_load`: what it makes of the bytes of an object, which it may rewrite in place. -/
abbrev ElfLoad (σ : Type*) := List Byte → σ → (Nat → Byte) × σ × BlStatus

/-- Memory, the rest of the machine, and the objects that were loaded or tried, in order. -/
structure Machine (σ : Type*) where
  mem : Mem
  rest : σ
  presented : List (List Byte)

def objectAt (m : Mem) (ptr size : Nat) : List Byte :=
  (List.range size).map fun k => m ((ptr + k) % 2 ^ 32)

/-- The object at `ptr` is rewritten. -/
def putObject (m : Mem) (ptr size : Nat) (object : Nat → Byte) : Mem := fun x =>
  let k := (x + (2 ^ 32 - ptr)) % 2 ^ 32
  if x < 2 ^ 32 ∧ k < size then object k else m x

def blLoaderLoadModule (load : ElfLoad σ) (ptr size : Nat) (s : Machine σ) :
    Machine σ × BlStatus :=
  let (object, rest, status) := load (objectAt s.mem ptr size) s.rest
  (⟨putObject s.mem ptr size object, rest, s.presented ++ [objectAt s.mem ptr size]⟩, status)

/-- The loop over the modules, `left` of them from `mod` on. -/
def loadModules (load : ElfLoad σ) : Nat → Nat → Machine σ → Machine σ × BlStatus
  | 0, _, s => (s, .success)
  | left + 1, mod, s =>
    if read64 s.mem mod ≠ blModuleHeaderMagic then (s, .invalidModule)
    else
      let (s, status) :=
        blLoaderLoadModule load ((mod + 12) % 2 ^ 32) (read32 s.mem (mod + 8)) s
      if status ≠ .success then (s, status)
      else loadModules load left (nextModule s.mem mod) s

def blLoaderInit (load : ElfLoad σ) (blModList : Nat) (s : Machine σ) : Machine σ × BlStatus :=
  if blModList = 0 ∨ read64 s.mem blModList ≠ blModuleListHeaderMagic then
    (s, .invalidModuleList)
  else loadModules load (read32 s.mem (blModList + 8)) ((blModList + 16) % 2 ^ 32) s

end BootLoader.Loader

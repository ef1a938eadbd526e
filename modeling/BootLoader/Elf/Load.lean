import BootLoader.Driver.World
import BootLoader.Elf.Code
import BootLoader.Utils.Strings

/-!
# Modules that are loaded (`bl_elf_load` of `core/loader/elf/elf.c`, `core/loader/loader.c`)

The heap hands out blocks of its own here, and which requests it serves is given from outside.
-/

open ByteMemory

namespace BootLoader.Elf

open Driver Utils

def blModuleMaxNameLen : Nat := 64

structure Elf32Ehdr where
  eIdent : List Byte
  eType : BitVec 16
  eMachine : BitVec 16
  eVersion : Elf32Word
  eShoff : Elf32Word
  eShentsize : BitVec 16
  eShnum : BitVec 16
  eShstrndx : BitVec 16

/-- An object in memory. Section headers are read as an array, and for strings also `e_shentsize`
bytes apart; what stands behind the last header is read too, if a link leads there. -/
structure Elf32Object where
  elf : Nat
  header : Elf32Ehdr
  table : List Elf32Shdr
  spacedTable : List Elf32Shdr
  /-- `section[i].sh_name` -/
  shName : Nat → Elf32Word
  tables : Tables
  complete : header.eShnum.toNat ≤ table.length

def Elf32Object.sections (obj : Elf32Object) : List Elf32Shdr :=
  obj.table.take obj.header.eShnum.toNat

def elfIdent : List Byte := [0x7f, 0x45, 0x4c, 0x46, 1, 1, 1]

def blElfCheck (header : Elf32Ehdr) (size : BitVec 32) : BlStatus :=
  if header.eIdent.take 7 ≠ elfIdent ∨ header.eType ≠ 1 ∨ header.eMachine ≠ 3 ∨
      header.eVersion ≠ 1 then .invalidElf
  else if size ≠ header.eShoff + header.eShnum.setWidth 32 * header.eShentsize.setWidth 32 then
    .invalidModuleSize
  else .success

/-- The address of the first section with this name, 0 without one. `none`: the header of the
string section is not in memory. -/
def blElfSectionByName (obj : Elf32Object) (name : List Byte) : Option Nat :=
  match obj.spacedTable[obj.header.eShstrndx.toNat]? with
  | none => none
  | some strtab =>
    let matching := (List.range obj.sections.length).find? fun i =>
      blStrncmp (ofBytes (obj.tables.strings strtab.shOffset (obj.shName i))) (ofBytes name)
        blModuleMaxNameLen = 0
    some (matching.elim 0 fun i =>
      (obj.elf + ((obj.sections[i]?).elim 0 fun sh => sh.shOffset.toNat)) % 2 ^ 32)

/-- A module in `bl_mods`, with its block and the bytes of its field `name`. -/
structure LoadedModule where
  block : Nat
  name : Mem
  mod : BlModule

/-- The call of an initializer, and the memory it found. -/
structure InitCall where
  address : Nat
  mem : Mem

/-- `ran` are the initializers that were called, in order. -/
structure Machine where
  world : World
  mem : Mem
  blMods : List LoadedModule
  ran : List InitCall

/-- What is given from outside: the heap's answers, where its blocks are, what the boot loader
exports, and what an initializer does to the heap and to memory. None of them loads modules. -/
structure LoadEnv where
  heap : Env
  address : Nat → Nat
  exports : Exports
  init : Nat → World × Mem → World × Mem

def blLoaderGetModule (blMods : List LoadedModule) (name : Mem) : Option LoadedModule :=
  blMods.find? fun mod => blStrncmp mod.name name blModuleMaxNameLen = 0

/-- What a pointer points to. -/
def pointee (m : Mem) (ptr : Nat) : Mem := fun k => m ((ptr + k) % 2 ^ 32)

/-- `bl_elf_load_image`: the block of the segments, and the block of the image. -/
def loadImage (env : LoadEnv) (obj : Elf32Object) (mod : BlModule) (world : World) (m : Mem) :
    World × Mem × BlModule × BlStatus :=
  let mod := { mod with count := (imageInfo obj.sections).count, segments := [] }
  match world.alloc env.heap with
  | (world, none) => (world, m, mod, .memoryAllocationFailed)
  | (world, some segments) =>
    match world.alloc env.heap with
    | (world, none) => (world.free segments, m, mod, .memoryAllocationFailed)
    | (world, some image) =>
      let (m, segments) := placeSections obj.elf obj.sections 0 (env.address image) m
      (world, m, { mod with segments := segments }, .success)

/-- The part of `bl_elf_load` that has a block for the module. -/
def loadInto (env : LoadEnv) (obj : Elf32Object) (name : Nat) (block : Nat) (s : Machine) :
    Option (Machine × Tables × BlStatus) :=
  let field := blStrncpy (pointee s.mem (env.address block)) (pointee s.mem name)
    blModuleMaxNameLen
  match loadImage env obj ⟨0, [], 0, 0⟩ s.world s.mem with
  | (world, m, mod, status) =>
    let failed := { s with world := world.free block, mem := m }
    if status ≠ .success then some (failed, obj.tables, status)
    else
      match loadSymbolsFrom env.exports obj.spacedTable obj.sections obj.tables mod with
      | none => none
      | some (tables, mod, status) =>
        if status ≠ .success then some (failed, tables, status)
        else
          match relocateSymbolsFrom obj.table tables mod obj.sections m with
          | none => none
          | some (m, status) =>
            if status ≠ .success then some ({ failed with mem := m }, tables, status)
            else if mod.init = 0 then some ({ failed with mem := m }, tables, .invalidElf)
            else
              let (world, m') := env.init mod.init (world, m)
              some (⟨world, m', ⟨block, field, mod⟩ :: s.blMods, s.ran ++ [⟨mod.init, m⟩]⟩,
                tables, .success)

/-- What the object's symbol tables are afterwards comes with the status. -/
def blElfLoad (env : LoadEnv) (obj : Elf32Object) (size : BitVec 32) (s : Machine) :
    Option (Machine × Tables × BlStatus) :=
  let status := blElfCheck obj.header size
  if status ≠ .success then some (s, obj.tables, status)
  else
    match blElfSectionByName obj (cString ".bl_mod_name") with
    | none => none
    | some name =>
      if name = 0 then some (s, obj.tables, .invalidElf)
      else if (blLoaderGetModule s.blMods (pointee s.mem name)).isSome then
        some (s, obj.tables, .moduleAlreadyLoaded)
      else
        match s.world.alloc env.heap with
        | (world, none) => some ({ s with world }, obj.tables, .memoryAllocationFailed)
        | (world, some block) => loadInto env obj name block { s with world }

end BootLoader.Elf

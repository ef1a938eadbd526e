import BootLoader.Elf.Load
import BootLoader.Lib.Runs

/-!
# What a load reads of the object (`core/loader/elf/elf.c`)

The bytes of the object are taken at their offsets, which wrap as addresses do. Each read through
the header table, of a section's contents, a string, a symbol or a relocation entry is kept, and
so is each division. The image and the words that are relocated are outside the object; its symbols
are resolved in place. What bounds a loop is read when the loop starts.
-/

open ByteMemory Runs

namespace BootLoader.Elf

open Heap Utils

inductive Access where
  | read (offset len : Nat)
  | divide (divisor : Nat)
  deriving DecidableEq, Repr

/-! ## The object's tables -/

def ehdr (b : Mem) : Elf32Ehdr where
  eIdent := (List.range 16).map b
  eType := BitVec.ofNat 16 (read16 b 16)
  eMachine := BitVec.ofNat 16 (read16 b 18)
  eVersion := BitVec.ofNat 32 (read32 b 20)
  eShoff := BitVec.ofNat 32 (read32 b 32)
  eShentsize := BitVec.ofNat 16 (read16 b 46)
  eShnum := BitVec.ofNat 16 (read16 b 48)
  eShstrndx := BitVec.ofNat 16 (read16 b 50)

def eShnum (b : Mem) : Nat := (ehdr b).eShnum.toNat

/-- The word `k` bytes into what stands at `offset`. -/
def field (b : Mem) (offset k : Nat) : Elf32Word :=
  BitVec.ofNat 32 (read32 b ((offset + k) % 2 ^ 32))

/-- The read of that word. -/
def fieldRead (offset k : Nat) : Access := .read ((offset + k) % 2 ^ 32) 4

/-- `&section[i]`. -/
def sectionOffset (b : Mem) (i : Nat) : Nat := ((ehdr b).eShoff.toNat + 40 * i) % 2 ^ 32

/-- `(bl_uint8_t *)elf + elf->e_shoff + i * elf->e_shentsize`. -/
def spacedOffset (b : Mem) (i : Nat) : Nat :=
  ((ehdr b).eShoff.toNat + i * (ehdr b).eShentsize.toNat) % 2 ^ 32

def shdrAt (b : Mem) (offset : Nat) : Elf32Shdr where
  shType := field b offset 4
  shFlags := field b offset 8
  shOffset := field b offset 16
  shSize := field b offset 20
  shLink := field b offset 24
  shInfo := field b offset 28
  shAddralign := field b offset 32
  shEntsize := field b offset 36

/-- `section[i]`. -/
def sectionAt (b : Mem) (i : Nat) : Elf32Shdr := shdrAt b (sectionOffset b i)

def symAt (b : Mem) (offset : Nat) : Elf32Sym where
  stName := field b offset 0
  stValue := field b offset 4
  stInfo := b ((offset + 12) % 2 ^ 32)
  stShndx := BitVec.ofNat 16 (read16 b ((offset + 14) % 2 ^ 32))

def relAt (b : Mem) (offset : Nat) : Elf32Rel := ⟨field b offset 0, field b offset 4⟩

/-- A symbol that was resolved; its other fields stay. -/
def putSym (b : Mem) (offset : Nat) (symbol : Elf32Sym) : Mem :=
  store (write32 b ((offset + 4) % 2 ^ 32) symbol.stValue.toNat) ((offset + 12) % 2 ^ 32)
    symbol.stInfo

/-! ## Strings -/

/-- The bytes read by a loop that stops at the first one with `stop`. -/
def scanned (stop : Nat → Bool) : Nat → Nat → Nat
  | 0, _ => 0
  | left + 1, k => if stop k then 1 else scanned stop left (k + 1) + 1

/-- How much of each string a comparison reads, of `n` bytes at most. -/
def compared (s₁ s₂ : Mem) (n : Nat) : Nat :=
  scanned (fun k => s₁ k ≠ s₂ k ∨ s₁ k = 0) n 0

/-- How much `bl_strncpy` reads. -/
def copied (src : Mem) (n : Nat) : Nat := scanned (fun k => src k = 0) n 0

/-- The bytes of a string that is read to its end. -/
def cStringFrom (s : Mem) : Nat → Nat → List Byte
  | 0, _ => []
  | left + 1, k => if s k = 0 then [] else s k :: cStringFrom s left (k + 1)

def cStringAt (b : Mem) (offset : Nat) : List Byte := cStringFrom (pointee b offset) (2 ^ 32) 0

/-- What the load finds outside the object: where the object is, the names in `bl_mods`, the heap's
answers (`image` is 0 if there is no room), and what the boot loader exports. -/
structure LoadSite where
  elf : Nat
  modules : List Mem
  module : Bool
  segments : Bool
  image : Nat
  exports : Exports

/-- The pointer to this offset is `NULL`. -/
def LoadSite.Null (site : LoadSite) (offset : Nat) : Prop := (site.elf + offset) % 2 ^ 32 = 0

instance (site : LoadSite) (offset : Nat) : Decidable (site.Null offset) :=
  inferInstanceAs (Decidable (_ = _))

/-- The reads of a function that does nothing with a null pointer. -/
def stringRead (site : LoadSite) (offset len : Nat) : List Access :=
  if site.Null offset then [] else [.read offset len]

/-! ## The name and the image -/

def blModName : List Byte := cString ".bl_mod_name"

/-- `strings + section[i].sh_name`. -/
def sectionName (b : Mem) (i : Nat) : Nat :=
  ((shdrAt b (spacedOffset b (ehdr b).eShstrndx.toNat)).shOffset.toNat +
    (field b (sectionOffset b i) 0).toNat) % 2 ^ 32

def IsNameSection (site : LoadSite) (b : Mem) (i : Nat) : Prop :=
  ¬ site.Null (sectionName b i) ∧
  blStrncmp (pointee b (sectionName b i)) (ofBytes blModName) blModuleMaxNameLen = 0

instance (site : LoadSite) (b : Mem) (i : Nat) : Decidable (IsNameSection site b i) :=
  inferInstanceAs (Decidable (_ ∧ _))

def nameRound (site : LoadSite) (b : Mem) (i : Nat) : List Access × Bool :=
  (fieldRead (sectionOffset b i) 0 :: stringRead site (sectionName b i)
      (compared (pointee b (sectionName b i)) (ofBytes blModName) blModuleMaxNameLen),
    ¬ IsNameSection site b i)

/-- The section that `bl_elf_section_by_name` finds. -/
def nameSection (site : LoadSite) (b : Mem) : Option Nat :=
  (List.range (eShnum b)).find? fun i => IsNameSection site b i

/-- A round of the loop of `bl_loader_get_module`. -/
def moduleRound (site : LoadSite) (b : Mem) (name k : Nat) : List Access × Bool :=
  ([.read name (compared (pointee b name) (site.modules.getD k fun _ => 0) blModuleMaxNameLen)],
    blStrncmp (site.modules.getD k fun _ => 0) (pointee b name) blModuleMaxNameLen ≠ 0)

/-- `image_ptr` before section `i`. -/
def imagePtr (site : LoadSite) (b : Mem) : Nat → Nat
  | 0 => site.image
  | i + 1 =>
    let sh := sectionAt b i
    if sh.loaded then
      (blMemoryAlignUp (imagePtr site b i) sh.shAddralign.toNat + sh.shSize.toNat) % 2 ^ 32
    else imagePtr site b i

/-- `bl_memcpy` to the image; it does nothing with a null pointer. -/
def contentsRead (site : LoadSite) (b : Mem) (i : Nat) : List Access :=
  if blMemoryAlignUp (imagePtr site b i) (sectionAt b i).shAddralign.toNat = 0 then []
  else stringRead site (sectionAt b i).shOffset.toNat (sectionAt b i).shSize.toNat

/-- A round of the second loop of `bl_elf_load_image`. -/
def placeReads (site : LoadSite) (b : Mem) (i : Nat) : List Access :=
  if (sectionAt b i).loaded then
    [fieldRead (sectionOffset b i) 32, fieldRead (sectionOffset b i) 4] ++
      if (sectionAt b i).shType = shtProgbits then
        fieldRead (sectionOffset b i) 16 :: contentsRead site b i
      else []
  else []

/-- A round of the first loop. -/
def sizeReads (b : Mem) (i : Nat) : List Access :=
  [fieldRead (sectionOffset b i) 20, fieldRead (sectionOffset b i) 32,
    fieldRead (sectionOffset b i) 8]

/-! ## Symbols and relocations -/

/-- The object and the module while symbols are resolved. -/
structure Resolving where
  object : Mem
  mod : BlModule

/-- What a symbol's name is compared with. A null pointer is not a string at all. -/
def symbolName (site : LoadSite) (b : Mem) (name : Nat) : List Byte :=
  if site.Null name then [] else cStringAt b name

/-- `bl_symbols_find` fails for a null pointer. -/
def symbolExports (site : LoadSite) (name : Nat) : Exports :=
  if site.Null name then { site.exports with blSymbolsFind := fun _ => none } else site.exports

/-- The name is compared with `s`, by `bl_strcmp`. -/
def strcmpRead (site : LoadSite) (b : Mem) (name : Nat) (s : List Byte) : List Access :=
  stringRead site name (compared (pointee b name) (ofBytes s) (s.length + 1))

/-- `symbol->st_name && symbol->st_shndx == SHN_UNDEF`. -/
def Elf32Sym.Undefined (symbol : Elf32Sym) : Prop :=
  symbol.stName ≠ 0 ∧ symbol.stShndx = shnUndef

instance (symbol : Elf32Sym) : Decidable symbol.Undefined :=
  inferInstanceAs (Decidable (_ ∧ _))

/-- What `bl_elf_resolve_symbol` reads. The name of an undefined symbol is looked up: its hash is
that of the whole name, and so is what is printed of a name that is not found. -/
def symbolReads (site : LoadSite) (b : Mem) (offset name : Nat) : List Access :=
  let symbol := symAt b offset
  let type := elf32StType symbol.stInfo
  [fieldRead offset 0, .read ((offset + 12) % 2 ^ 32) 1] ++
    if type = sttFunc then
      [.read ((offset + 14) % 2 ^ 32) 2, fieldRead offset 4] ++
        strcmpRead site b name (cString "bl_module_initialize") ++
        strcmpRead site b name (cString "bl_module_uninitialize")
    else if type = sttNotype ∨ type = sttObject then
      .read ((offset + 14) % 2 ^ 32) 2 ::
        if symbol.Undefined then
          stringRead site name ((cStringAt b name).length + 1)
        else [fieldRead offset 4]
    else if type = sttSection then [.read ((offset + 14) % 2 ^ 32) 2]
    else []

/-- A round of the inner loop of `bl_elf_load_symbols`. -/
def resolveRound (site : LoadSite) (strings table j : Nat) (s : Resolving) :
    List Access × Resolving × Bool :=
  let offset := (table + 16 * j) % 2 ^ 32
  let symbol := symAt s.object offset
  let name := (strings + symbol.stName.toNat) % 2 ^ 32
  let (resolved, mod, status) := blElfResolveSymbol (symbolExports site name) symbol
    (symbolName site s.object name) s.mod
  (symbolReads site s.object offset name, ⟨putSym s.object offset resolved, mod⟩,
    status = .success)

/-- Where the names of a symbol table are. -/
def stringsOf (b : Mem) (symtab : Elf32Shdr) : Nat :=
  (shdrAt b (spacedOffset b symtab.shLink.toNat)).shOffset.toNat

/-- What is read of the header of a table: some of its fields, the `sh_offset` of the header that it
is linked to, and the quotient that is the number of its entries. -/
def tableReads (b : Mem) (i : Nat) (fields : List Nat) (linked : Nat) : List Access :=
  fields.map (fieldRead (sectionOffset b i)) ++
    [fieldRead linked 16, .divide (sectionAt b i).shEntsize.toNat]

def symtabReads (b : Mem) (i : Nat) : List Access :=
  tableReads b i [16, 24, 20, 36] (spacedOffset b (sectionAt b i).shLink.toNat)

/-- A round of the outer loop. -/
def symtabRound (site : LoadSite) (i : Nat) (s : Resolving) : List Access × Resolving × Bool :=
  let type := fieldRead (sectionOffset s.object i) 4
  let sh := sectionAt s.object i
  if sh.shType ≠ shtSymtab then ([type], s, true)
  else if sh.shEntsize = 0 then (type :: symtabReads s.object i, s, false)
  else
    let (log, s', more) := stateRounds
      (resolveRound site (stringsOf s.object sh) sh.shOffset.toNat) sh.entries 0 s
    (type :: symtabReads s.object i ++ log, s', more)

def relReads (b : Mem) (table symbols k : Nat) : List Access :=
  let offset := (table + 8 * k) % 2 ^ 32
  let rel := relAt b offset
  let type := elf32RType rel.rInfo
  [fieldRead offset 0, fieldRead offset 4] ++
    if type = r386_16 ∨ type = r386_Pc16 ∨ type = r386_32 ∨ type = r386_Pc32 then
      [fieldRead (symbols + 16 * elf32RSym rel.rInfo) 4]
    else []

def relHeaderReads (b : Mem) (i : Nat) : List Access :=
  tableReads b i [24, 28, 16, 20, 36] (sectionOffset b (sectionAt b i).shLink.toNat)

/-- A round of the loop of `bl_elf_relocate_symbols`. -/
def relRound (b : Mem) (i : Nat) : List Access × Bool :=
  let type := fieldRead (sectionOffset b i) 4
  let sh := sectionAt b i
  if sh.shType ≠ shtRel then ([type], true)
  else if sh.shEntsize = 0 then (type :: relHeaderReads b i, false)
  else
    (type :: relHeaderReads b i ++ (List.range sh.entries).flatMap
      (relReads b sh.shOffset.toNat (sectionAt b sh.shLink.toNat).shOffset.toNat), true)

/-! ## The load -/

/-- The module while its symbols are resolved. -/
def placedModule (site : LoadSite) (b : Mem) : BlModule :=
  let sections := (List.range (eShnum b)).map (sectionAt b)
  ⟨(imageInfo sections).count,
    (placeSections site.elf sections 0 site.image fun _ => 0).2, 0, 0⟩

/-- From the symbols on. -/
def linkAccesses (site : LoadSite) (b : Mem) : List Access :=
  let (log, s, more) := stateRounds (symtabRound site) (eShnum b) 0 ⟨b, placedModule site b⟩
  log ++ if more then (logRounds (relRound s.object) (eShnum s.object) 0).1 else []

/-- There is room for the segments and for the image. -/
def LoadSite.PlacesImage (site : LoadSite) : Prop := site.segments = true ∧ site.image ≠ 0

instance (site : LoadSite) : Decidable site.PlacesImage :=
  inferInstanceAs (Decidable (_ ∧ _))

/-- `bl_elf_load_image`, and what follows where it succeeds. -/
def imageAccesses (site : LoadSite) (b : Mem) : List Access :=
  (List.range (eShnum b)).flatMap (sizeReads b) ++
    if site.PlacesImage then
      (List.range (eShnum b)).flatMap (placeReads site b) ++ linkAccesses site b
    else []

/-- From the module's name on. -/
def namedAccesses (site : LoadSite) (b : Mem) (name : Nat) : List Access :=
  let (log, more) := logRounds (moduleRound site b name) site.modules.length 0
  log ++
    if more ∧ site.module then
      .read name (copied (pointee b name) blModuleMaxNameLen) :: imageAccesses site b
    else []

/-- `bl_elf_load`, for an object that passes `bl_elf_check`. -/
def loadAccesses (site : LoadSite) (b : Mem) : List Access :=
  fieldRead (spacedOffset b (ehdr b).eShstrndx.toNat) 16 ::
    (logRounds (nameRound site b) (eShnum b) 0).1 ++
    match nameSection site b with
    | none => []
    | some i =>
      let name := (sectionAt b i).shOffset.toNat
      fieldRead (sectionOffset b i) 16 ::
        if site.Null name then [] else namedAccesses site b name

def blElfLoadAccesses (site : LoadSite) (b : Mem) (size : Nat) : List Access :=
  if blElfCheck (ehdr b) (BitVec.ofNat 32 size) ≠ .success then [] else loadAccesses site b

end BootLoader.Elf

import BootLoader.Heap.Code
import BootLoader.Status
import BootLoader.Utils.Memory

/-!
# Loading a module (`core/loader/elf/elf.c`, `include/elf/elf32.h`)

The section header table is a list; the object's bytes stand in memory from `elf` on. Its symbol
tables, relocation tables and strings are read as arrays.
-/

open ByteMemory

namespace BootLoader.Elf

open Heap Utils

abbrev Elf32Word := BitVec 32

structure Elf32Shdr where
  shType : Elf32Word
  shFlags : Elf32Word
  shOffset : Elf32Word
  shSize : Elf32Word
  shLink : Elf32Word
  shInfo : Elf32Word
  shAddralign : Elf32Word
  shEntsize : Elf32Word
  deriving DecidableEq, Repr

def shtProgbits : Elf32Word := 1
def shtSymtab : Elf32Word := 2
def shtNobits : Elf32Word := 8
def shtRel : Elf32Word := 9
def shfAlloc : Elf32Word := 2

structure BlSegment where
  address : Nat
  size : Nat
  index : Nat
  deriving DecidableEq, Repr

/-- `sizeof(struct bl_segment)`. -/
def blSegmentSize : Nat := 12

/-- `init` and `uninit` are addresses. The array `segments` is a list of its entries. -/
structure BlModule where
  count : Nat
  segments : List BlSegment
  init : Nat
  uninit : Nat
  deriving DecidableEq, Repr

/-! ## The image -/

/-- `section[i].sh_flags & SHF_ALLOC && section[i].sh_size`. -/
def Elf32Shdr.loaded (sh : Elf32Shdr) : Bool := sh.shFlags &&& shfAlloc ≠ 0 ∧ sh.shSize ≠ 0

structure ImageInfo where
  imageSize : Nat
  alignment : Nat
  count : Nat
  deriving DecidableEq, Repr

/-- The body of the first loop of `bl_elf_load_image`. -/
def addSection (r : ImageInfo) (sh : Elf32Shdr) : ImageInfo where
  imageSize := (blMemoryAlignUp r.imageSize r.alignment + sh.shSize.toNat) % 2 ^ 32
  alignment := if sh.shAddralign.toNat > r.alignment then sh.shAddralign.toNat else r.alignment
  count := if sh.loaded then r.count + 1 else r.count

def imageInfo (sections : List Elf32Shdr) : ImageInfo := sections.foldl addSection ⟨0, 1, 0⟩

/-- What is put at `imagePtr` for a section. Neither kind of section: nothing. -/
def fillSection (elf : Nat) (sh : Elf32Shdr) (imagePtr : Nat) (m : Mem) : Mem :=
  if sh.shType = shtProgbits then
    blMemcpy m imagePtr ((elf + sh.shOffset.toNat) % 2 ^ 32) sh.shSize.toNat
  else if sh.shType = shtNobits then blMemset m imagePtr 0 sh.shSize.toNat
  else m

/-- The second loop, from section `i` on. -/
def placeSections (elf : Nat) : List Elf32Shdr → Nat → Nat → Mem → Mem × List BlSegment
  | [], _, _, m => (m, [])
  | sh :: rest, i, imagePtr, m =>
    if sh.loaded then
      let imagePtr := blMemoryAlignUp imagePtr sh.shAddralign.toNat
      let (m, segments) := placeSections elf rest (i + 1) ((imagePtr + sh.shSize.toNat) % 2 ^ 32)
        (fillSection elf sh imagePtr m)
      (m, ⟨imagePtr, sh.shSize.toNat, i⟩ :: segments)
    else placeSections elf rest (i + 1) imagePtr m

/-- The bytes asked for `count` segments. -/
def segmentsSize (sections : List Elf32Shdr) : Nat :=
  (imageInfo sections).count * blSegmentSize % 2 ^ 32

def blElfLoadImage (elf : Nat) (sections : List Elf32Shdr) (mod : BlModule) (s : BlHeap) :
    Option (BlHeap × BlModule × BlStatus) :=
  let info := imageInfo sections
  let mod := { mod with count := info.count, segments := [] }
  match blHeapAlloc s (segmentsSize sections) with
  | none => none
  | some (s, segments) =>
    if segments = 0 then some (s, mod, .memoryAllocationFailed)
    else
      match blHeapAllocAlign s info.imageSize info.alignment with
      | none => none
      | some (s, imagePtr) =>
        if imagePtr = 0 then some (blHeapFree s segments, mod, .memoryAllocationFailed)
        else
          let (m, segments) := placeSections elf sections 0 imagePtr s.mem
          some ({ s with mem := m }, { mod with segments := segments }, .success)

/-! ## Symbols -/

structure Elf32Sym where
  stName : Elf32Word
  stValue : Elf32Word
  stInfo : BitVec 8
  stShndx : BitVec 16
  deriving DecidableEq, Repr

structure Elf32Rel where
  rOffset : Elf32Word
  rInfo : Elf32Word
  deriving DecidableEq, Repr

def elf32StType (val : BitVec 8) : BitVec 8 := val &&& 0xf
def elf32StInfo (bind type : BitVec 8) : BitVec 8 := bind <<< 4 + (type &&& 0xf)

def sttNotype : BitVec 8 := 0
def sttObject : BitVec 8 := 1
def sttFunc : BitVec 8 := 2
def sttSection : BitVec 8 := 3
def sttFile : BitVec 8 := 4

def shnUndef : BitVec 16 := 0

/-- What the object holds at an offset, read as an array of symbols or of relocation entries, or
as the string that begins so many bytes further on. -/
structure Tables where
  symbols : Elf32Word → Nat → Elf32Sym
  rels : Elf32Word → Nat → Elf32Rel
  strings : Elf32Word → Elf32Word → List Byte

inductive BlExport where
  | func
  | var
  deriving DecidableEq, Repr

structure BlExportSymbol where
  address : Elf32Word
  type : BlExport
  deriving DecidableEq, Repr

/-- What the boot loader exports: `bl_symbols_find`, which finds a symbol or fails with
`UNKNOWN_SYMBOL`, and what is added to its addresses: 0 in an executable, and `__bl_image_start`
in a shared library. -/
structure Exports where
  blSymbolsFind : List Byte → Option BlExportSymbol
  imageStart : Elf32Word

def cString (s : String) : List Byte := s.toList.map fun c => BitVec.ofNat 8 c.toNat

def blElfSectionByIndex (mod : BlModule) (index : BitVec 16) : Nat :=
  ((mod.segments.take mod.count).find? fun segment => segment.index = index.toNat).elim 0
    BlSegment.address

def blElfResolveSymbol (exports : Exports) (symbol : Elf32Sym) (name : List Byte)
    (mod : BlModule) : Elf32Sym × BlModule × BlStatus :=
  let type := elf32StType symbol.stInfo
  let address := BitVec.ofNat 32 (blElfSectionByIndex mod symbol.stShndx)
  if type = sttFunc then
    let value := symbol.stValue + address
    let mod := if name = cString "bl_module_initialize" then { mod with init := value.toNat }
      else mod
    let mod := if name = cString "bl_module_uninitialize" then { mod with uninit := value.toNat }
      else mod
    ({ symbol with stValue := value }, mod, .success)
  else if type = sttNotype ∨ type = sttObject then
    if symbol.stName ≠ 0 ∧ symbol.stShndx = shnUndef then
      match exports.blSymbolsFind name with
      | none => (symbol, mod, .unknownSymbol)
      | some exsymbol =>
        ({ symbol with
            stValue := exsymbol.address + exports.imageStart
            stInfo := if exsymbol.type = .func then elf32StInfo type sttFunc else symbol.stInfo },
          mod, .success)
    else ({ symbol with stValue := symbol.stValue + address }, mod, .success)
  else if type = sttSection then ({ symbol with stValue := address }, mod, .success)
  else if type = sttFile then ({ symbol with stValue := 0 }, mod, .success)
  else (symbol, mod, .invalidElf)

/-- The inner loop of `bl_elf_load_symbols`: `n` symbols from number `j` on. -/
def resolveSymbols (exports : Exports) (strings : Elf32Word → List Byte) :
    Nat → Nat → (Nat → Elf32Sym) → BlModule → (Nat → Elf32Sym) × BlModule × BlStatus
  | 0, _, symbols, mod => (symbols, mod, .success)
  | n + 1, j, symbols, mod =>
    let (symbol, mod, status) :=
      blElfResolveSymbol exports (symbols j) (strings (symbols j).stName) mod
    let symbols := fun i => if i = j then symbol else symbols i
    if status ≠ .success then (symbols, mod, status)
    else resolveSymbols exports strings n (j + 1) symbols mod

/-- `section[i].sh_size / section[i].sh_entsize`. -/
def Elf32Shdr.entries (sh : Elf32Shdr) : Nat := sh.shSize.toNat / sh.shEntsize.toNat

/-- The outer loop of `bl_elf_load_symbols`. `none`: a division by zero, or `sh_link` leads out of
the header table. -/
def loadSymbolsFrom (exports : Exports) (sections : List Elf32Shdr) :
    List Elf32Shdr → Tables → BlModule → Option (Tables × BlModule × BlStatus)
  | [], tables, mod => some (tables, mod, .success)
  | sh :: rest, tables, mod =>
    if sh.shType ≠ shtSymtab then loadSymbolsFrom exports sections rest tables mod
    else
      match sections[sh.shLink.toNat]? with
      | none => none
      | some strtab =>
        if sh.shEntsize = 0 then none
        else
          let (symbols, mod, status) := resolveSymbols exports (tables.strings strtab.shOffset)
            sh.entries 0 (tables.symbols sh.shOffset) mod
          let tables := { tables with
            symbols := fun offset =>
              if offset = sh.shOffset then symbols else tables.symbols offset }
          if status ≠ .success then some (tables, mod, status)
          else loadSymbolsFrom exports sections rest tables mod

def blElfLoadSymbols (exports : Exports) (sections : List Elf32Shdr) (tables : Tables)
    (mod : BlModule) : Option (Tables × BlModule × BlStatus) :=
  loadSymbolsFrom exports sections sections tables mod

/-! ## Relocation -/

def elf32RSym (val : Elf32Word) : Nat := (val >>> 8).toNat
def elf32RType (val : Elf32Word) : Elf32Word := val &&& 0xff

def r386_32 : Elf32Word := 1
def r386_Pc32 : Elf32Word := 2
def r386_16 : Elf32Word := 20
def r386_Pc16 : Elf32Word := 21

/-- The body of the loop of `bl_elf_relocate_section`. -/
def relocateEntry (appliedSection : Nat) (symbols : Nat → Elf32Sym) (m : Mem) (rel : Elf32Rel) :
    Mem :=
  let addr := (appliedSection + rel.rOffset.toNat) % 2 ^ 32
  let value := (symbols (elf32RSym rel.rInfo)).stValue
  let type := elf32RType rel.rInfo
  if type = r386_16 then write16 m addr (read16 m addr + value.toNat)
  else if type = r386_Pc16 then
    write16 m addr (read16 m addr + (value - BitVec.ofNat 32 addr).toNat)
  else if type = r386_32 then write32 m addr (read32 m addr + value.toNat)
  else if type = r386_Pc32 then
    write32 m addr (read32 m addr + (value - BitVec.ofNat 32 addr).toNat)
  else m

/-- The relocation entries of a section. -/
def relEntries (tables : Tables) (relSection : Elf32Shdr) : List Elf32Rel :=
  (List.range relSection.entries).map (tables.rels relSection.shOffset)

/-- `sh_info` is cut to 16 bits. `none`: a division by zero. -/
def blElfRelocateSection (mod : BlModule) (tables : Tables) (relSection symSection : Elf32Shdr)
    (m : Mem) : Option (Mem × BlStatus) :=
  if relSection.shEntsize = 0 then none
  else
    let appliedSection := blElfSectionByIndex mod (relSection.shInfo.setWidth 16)
    let symbols := tables.symbols symSection.shOffset
    some ((relEntries tables relSection).foldl (relocateEntry appliedSection symbols) m, .success)

/-- The loop of `bl_elf_relocate_symbols`. `none` also when `sh_link` leads out of the header
table. -/
def relocateSymbolsFrom (sections : List Elf32Shdr) (tables : Tables) (mod : BlModule) :
    List Elf32Shdr → Mem → Option (Mem × BlStatus)
  | [], m => some (m, .success)
  | sh :: rest, m =>
    if sh.shType ≠ shtRel then relocateSymbolsFrom sections tables mod rest m
    else
      match sections[sh.shLink.toNat]? with
      | none => none
      | some symSection =>
        match blElfRelocateSection mod tables sh symSection m with
        | none => none
        | some (m, status) =>
          if status ≠ .success then some (m, status)
          else relocateSymbolsFrom sections tables mod rest m

def blElfRelocateSymbols (sections : List Elf32Shdr) (tables : Tables) (mod : BlModule)
    (m : Mem) : Option (Mem × BlStatus) :=
  relocateSymbolsFrom sections tables mod sections m

end BootLoader.Elf

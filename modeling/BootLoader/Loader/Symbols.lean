import BootLoader.Lib.ByteMemory
import BootLoader.Status

/-!
# Exported symbols (`core/loader/symbols.c` with `BL_SHARED_LIBRARY`, `core/utils/string.c`)

The boot loader is a shared library, and modules are linked against the symbols that the linker
left in its hash section. A string is a list of its bytes without the zero at its end.
-/

open ByteMemory

namespace BootLoader.Loader

def sttObject : Nat := 1
def sttFunc : Nat := 2

/-- Memory, and where the linker script puts the sections. -/
structure ExportTables where
  mem : Mem
  blHashStart : Nat
  blDynsymStart : Nat
  blDynstrStart : Nat

namespace ExportTables

variable (t : ExportTables)

def nbucket : Nat := read32 t.mem t.blHashStart

def nchain : Nat := read32 t.mem (t.blHashStart + 4)

/-- `hash_table->info[k]`. -/
def info (k : Nat) : Nat := read32 t.mem ((t.blHashStart + 8 + 4 * k) % 2 ^ 32)

/-- `&__bl_dynsym_start[i]`. -/
def symbol (i : Nat) : Nat := (t.blDynsymStart + 16 * i) % 2 ^ 32

def stName (i : Nat) : Nat := read32 t.mem (t.symbol i)

def stValue (i : Nat) : Nat := read32 t.mem (t.symbol i + 4)

def stInfo (i : Nat) : Byte := t.mem (t.symbol i + 12)

/-- `__bl_dynstr_start + st_name`. -/
def symbolName (i : Nat) : Nat := (t.blDynstrStart + t.stName i) % 2 ^ 32

end ExportTables

/-! ## Hash and comparison -/

/-- One round of the loop of `bl_symbols_elf_hash`. -/
def elfHashByte (h : BitVec 32) (c : Byte) : BitVec 32 :=
  let h := (h <<< 4) + c.setWidth 32
  let g := h &&& 0xf0000000#32
  let h := if g ≠ 0 then h ^^^ (g >>> 24) else h
  h &&& ~~~g

def blSymbolsElfHash (name : List Byte) : BitVec 32 := name.foldl elfHashByte 0

/-- The loop of `bl_strcmp`; the first string is in memory, the second one is the list. -/
def strcmpFrom (s₁ : Nat → Byte) : List Byte → Nat → Int
  | [], i => (s₁ i).toInt
  | c :: s₂, i =>
    if s₁ i = c ∧ s₁ i ≠ 0 ∧ c ≠ 0 then strcmpFrom s₁ s₂ (i + 1)
    else (s₁ i).toInt - c.toInt

/-- `bl_strcmp` where the second string is there; only the first one can be at `NULL`. -/
def blStrcmp (mem : Mem) (s₁ : Nat) (s₂ : List Byte) : Int :=
  if s₁ = 0 then -1 else strcmpFrom (fun k => mem ((s₁ + k) % 2 ^ 32)) s₂ 0

/-! ## The lookup -/

/-- The name of symbol `i` is the one looked for. -/
def namedSymbol (t : ExportTables) (name : List Byte) (i : Nat) : Bool :=
  blStrcmp t.mem (t.symbolName i) name = 0

/-- The loop of `bl_symbols_elf_find_symbol`, for at most `fuel` symbols. -/
def findSymbolFrom (t : ExportTables) (name : List Byte) : Nat → Nat → Option (Option Nat)
  | 0, _ => none
  | fuel + 1, i =>
    if i = 0 then some none
    else if namedSymbol t name i then some (some i)
    else findSymbolFrom t name fuel (t.info ((i + t.nbucket) % 2 ^ 32))

def blSymbolsElfFindSymbol (t : ExportTables) (name : List Byte) (fuel : Nat) :
    Option (Option Nat) :=
  findSymbolFrom t name fuel (t.info ((blSymbolsElfHash name).toNat % t.nbucket))

inductive BlExportType where
  | unknown
  | func
  | var
  deriving DecidableEq, Repr

/-- The field `name` is an address. -/
structure BlExportSymbol where
  address : Nat
  type : BlExportType
  name : Nat
  deriving DecidableEq, Repr

/-- The `switch` over `ELF32_ST_TYPE`. -/
def exportType (stInfo : Byte) : Option BlExportType :=
  if stInfo.toNat % 16 = sttFunc then some .func
  else if stInfo.toNat % 16 = sttObject then some .var
  else none

/-- `bl_symbols_find`; `exsymbol` says whether there is room for the answer. -/
def blSymbolsFind (t : ExportTables) (name : Option (List Byte)) (exsymbol : Bool) (fuel : Nat) :
    Option (BlStatus × Option BlExportSymbol) :=
  match name with
  | none => some (.invalidParameters, none)
  | some name =>
    if exsymbol = false then some (.invalidParameters, none)
    else
      match blSymbolsElfFindSymbol t name fuel with
      | none => none
      | some none => some (.unknownSymbol, none)
      | some (some i) =>
        match exportType (t.stInfo i) with
        | none => some (.unknownSymbol, none)
        | some type => some (.success, some ⟨t.stValue i, type, t.symbolName i⟩)

end BootLoader.Loader

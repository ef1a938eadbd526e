import BootLoader.Elf.Reads
import Mathlib.Tactic.MkIffOfInductiveProp

/-!
# Objects that are read inside

What the header table, the names, the symbol tables and the relocation tables of an object have to
say for a load to read nothing else.
-/

open ByteMemory Runs

namespace BootLoader.Elf

open Heap Utils

variable {site : LoadSite} {b : Mem} {size : Nat}

/-! ## The condition -/

/-- It stays inside an object of `size` bytes, and divides by something. -/
def Access.Inside (size : Nat) : Access → Prop
  | .read offset len => offset + len ≤ size
  | .divide divisor => divisor ≠ 0

instance (size : Nat) (a : Access) : Decidable (a.Inside size) :=
  match a with
  | .read .. => inferInstanceAs (Decidable (_ ≤ _))
  | .divide _ => inferInstanceAs (Decidable (_ ≠ _))

/-- The word `k` bytes into what stands at `offset` is inside. -/
def FieldInside (size offset k : Nat) : Prop := (offset + k) % 2 ^ 32 + 4 ≤ size

/-- So many bytes of the string are inside, if it is one. -/
def StringInside (site : LoadSite) (size offset len : Nat) : Prop :=
  ¬ site.Null offset → offset + len ≤ size

/-- The object's name is at this offset. -/
def NamedAt (site : LoadSite) (b : Mem) (name : Nat) : Prop :=
  ∃ i, nameSection site b = some i ∧ name = (sectionAt b i).shOffset.toNat ∧ ¬ site.Null name

/-- The `k`th module has another name. -/
def OtherModule (site : LoadSite) (b : Mem) (name k : Nat) : Prop :=
  blStrncmp (site.modules.getD k fun _ => 0) (pointee b name) blModuleMaxNameLen ≠ 0

/-- No module has the name, and there is room for one. -/
def NewModule (site : LoadSite) (b : Mem) (name : Nat) : Prop :=
  (∀ k < site.modules.length, OtherModule site b name k) ∧ site.module = true

/-- Its type is known, and it is found if it is undefined. -/
def Resolves (site : LoadSite) (b : Mem) (offset name : Nat) : Prop :=
  let symbol := symAt b offset
  let type := elf32StType symbol.stInfo
  type = sttFunc ∨ type = sttSection ∨ type = sttFile ∨
    (type = sttNotype ∨ type = sttObject) ∧
      (symbol.Undefined →
        ((symbolExports site name).blSymbolsFind (symbolName site b name)).isSome)

instance (site : LoadSite) (b : Mem) (offset name : Nat) :
    Decidable (Resolves site b offset name) :=
  inferInstanceAs (Decidable (_ ∨ _ ∨ _ ∨ _ ∧ (_ → _)))

/-- Symbol `j` of the table in section `i`. -/
def symbolOffset (b : Mem) (i j : Nat) : Nat := ((sectionAt b i).shOffset.toNat + 16 * j) % 2 ^ 32

def symbolNameOffset (b : Mem) (i j : Nat) : Nat :=
  (stringsOf b (sectionAt b i) + (symAt b (symbolOffset b i j)).stName.toNat) % 2 ^ 32

def SymbolResolves (site : LoadSite) (b : Mem) (i j : Nat) : Prop :=
  Resolves site b (symbolOffset b i j) (symbolNameOffset b i j)

instance (site : LoadSite) (b : Mem) (i j : Nat) : Decidable (SymbolResolves site b i j) :=
  inferInstanceAs (Decidable (Resolves ..))

/-- Section `i` does not stop the symbols from being resolved. -/
def SectionResolves (site : LoadSite) (b : Mem) (i : Nat) : Prop :=
  (sectionAt b i).shType = shtSymtab →
    (sectionAt b i).shEntsize ≠ 0 ∧ ∀ j < (sectionAt b i).entries, SymbolResolves site b i j

/-- What is read of a symbol and of its name is inside. -/
@[mk_iff]
structure SymbolInside (site : LoadSite) (b : Mem) (size offset name : Nat) : Prop where
  stName : FieldInside size offset 0
  info : (offset + 12) % 2 ^ 32 + 1 ≤ size
  shndx : elf32StType (symAt b offset).stInfo ∈ [sttFunc, sttNotype, sttObject, sttSection] →
    (offset + 14) % 2 ^ 32 + 2 ≤ size
  value : elf32StType (symAt b offset).stInfo = sttFunc ∨
      elf32StType (symAt b offset).stInfo ∈ [sttNotype, sttObject] ∧
        ¬ (symAt b offset).Undefined →
    FieldInside size offset 4
  function : elf32StType (symAt b offset).stInfo = sttFunc →
    ∀ s ∈ ["bl_module_initialize", "bl_module_uninitialize"],
      StringInside site size name
        (compared (pointee b name) (ofBytes (cString s)) ((cString s).length + 1))
  undefined : elf32StType (symAt b offset).stInfo ∈ [sttNotype, sttObject] ∧
      (symAt b offset).Undefined →
    StringInside site size name ((cStringAt b name).length + 1)

/-- These fields of a table's header are inside, and the `sh_offset` of the header that it is linked
to; the table has entries of some size. -/
@[mk_iff]
structure TableInside (b : Mem) (size i : Nat) (fields : List Nat) (linked : Nat) : Prop where
  fields : ∀ k ∈ fields, FieldInside size (sectionOffset b i) k
  linked : FieldInside size linked 16
  entsize : (sectionAt b i).shEntsize ≠ 0

/-- A symbol table is linked to its strings. -/
def SymtabInside (b : Mem) (size i : Nat) : Prop :=
  TableInside b size i [16, 24, 20, 36] (spacedOffset b (sectionAt b i).shLink.toNat)

/-- A relocation section is linked to its symbols. -/
def RelInside (b : Mem) (size i : Nat) : Prop :=
  TableInside b size i [24, 28, 16, 20, 36] (sectionOffset b (sectionAt b i).shLink.toNat)

/-- A relocation entry is inside, and so is the value it takes from a symbol. -/
@[mk_iff]
structure RelocationInside (b : Mem) (size table symbols k : Nat) : Prop where
  fields : ∀ f ∈ [0, 4], FieldInside size ((table + 8 * k) % 2 ^ 32) f
  symbol : elf32RType (relAt b ((table + 8 * k) % 2 ^ 32)).rInfo ∈
      [r386_16, r386_Pc16, r386_32, r386_Pc32] →
    FieldInside size (symbols + 16 * elf32RSym (relAt b ((table + 8 * k) % 2 ^ 32)).rInfo) 4

/-- The symbol tables as far as their symbols resolve, and the relocation sections if all do. -/
@[mk_iff]
structure LinkContained (site : LoadSite) (b : Mem) (size : Nat) : Prop where
  symbols : ∀ i < eShnum b, (∀ k < i, SectionResolves site b k) →
    FieldInside size (sectionOffset b i) 4 ∧
    ((sectionAt b i).shType = shtSymtab → SymtabInside b size i ∧
      ∀ j < (sectionAt b i).entries, (∀ k < j, SymbolResolves site b i k) →
        SymbolInside site b size (symbolOffset b i j) (symbolNameOffset b i j))
  relocations : (∀ i < eShnum b, SectionResolves site b i) → ∀ i < eShnum b,
    (∀ k < i, (sectionAt b k).shType = shtRel → (sectionAt b k).shEntsize ≠ 0) →
      FieldInside size (sectionOffset b i) 4 ∧
      ((sectionAt b i).shType = shtRel → RelInside b size i ∧
        ∀ k < (sectionAt b i).entries, RelocationInside b size (sectionAt b i).shOffset.toNat
          (sectionAt b (sectionAt b i).shLink.toNat).shOffset.toNat k)

/-- The header table, and the contents of the sections that are loaded. -/
@[mk_iff]
structure ImageContained (site : LoadSite) (b : Mem) (size : Nat) : Prop where
  headers : ∀ i < eShnum b, ∀ k ∈ [20, 32, 8], FieldInside size (sectionOffset b i) k
  contents : site.PlacesImage → ∀ i < eShnum b, (sectionAt b i).loaded = true →
    (∀ k ∈ [32, 4], FieldInside size (sectionOffset b i) k) ∧
    ((sectionAt b i).shType = shtProgbits → FieldInside size (sectionOffset b i) 16 ∧
      (blMemoryAlignUp (imagePtr site b i) (sectionAt b i).shAddralign.toNat ≠ 0 →
        StringInside site size (sectionAt b i).shOffset.toNat (sectionAt b i).shSize.toNat))
  link : site.PlacesImage → LinkContained site b size

/-- The object's name, which is compared with those of the modules and copied. -/
@[mk_iff]
structure NameContained (site : LoadSite) (b : Mem) (size name : Nat) : Prop where
  modules : ∀ k < site.modules.length, (∀ j < k, OtherModule site b name j) →
    name + compared (pointee b name) (site.modules.getD k fun _ => 0) blModuleMaxNameLen ≤ size
  copy : NewModule site b name → name + copied (pointee b name) blModuleMaxNameLen ≤ size
  image : NewModule site b name → ImageContained site b size

/-- The load comes to the symbols. -/
def Links (site : LoadSite) (b : Mem) : Prop :=
  (∃ name, NamedAt site b name ∧ NewModule site b name) ∧ site.PlacesImage

/-- Every offset, index and size of the object leads to a place inside it, as far as the load comes
to it; no table that it comes to has entries of no size. -/
@[mk_iff]
structure Contained (site : LoadSite) (b : Mem) (size : Nat) : Prop where
  strtab : FieldInside size (spacedOffset b (ehdr b).eShstrndx.toNat) 16
  names : ∀ i < eShnum b, (∀ k < i, ¬ IsNameSection site b k) →
    FieldInside size (sectionOffset b i) 0 ∧
    StringInside site size (sectionName b i)
      (compared (pointee b (sectionName b i)) (ofBytes blModName) blModuleMaxNameLen)
  named : ∀ i, nameSection site b = some i → FieldInside size (sectionOffset b i) 16
  name : ∀ name, NamedAt site b name → NameContained site b size name

/-! ## What each part reads -/

@[simp] theorem inside_fieldRead (offset k : Nat) :
    (fieldRead offset k).Inside size ↔ FieldInside size offset k := Iff.rfl

@[simp] theorem inside_read (offset len : Nat) :
    (Access.read offset len).Inside size ↔ offset + len ≤ size := Iff.rfl

@[simp] theorem inside_divide (divisor : Nat) :
    (Access.divide divisor).Inside size ↔ divisor ≠ 0 := Iff.rfl

theorem stringRead_inside_iff (offset len : Nat) :
    (∀ a ∈ stringRead site offset len, a.Inside size) ↔ StringInside site size offset len := by
  unfold stringRead StringInside
  split_ifs with hnull <;> simp [hnull]

theorem names_inside_iff :
    (∀ a ∈ (logRounds (nameRound site b) (eShnum b) 0).1, a.Inside size) ↔
      ∀ i < eShnum b, (∀ k < i, ¬ IsNameSection site b k) →
        FieldInside size (sectionOffset b i) 0 ∧
        StringInside site size (sectionName b i)
          (compared (pointee b (sectionName b i)) (ofBytes blModName) blModuleMaxNameLen) := by
  rw [forall_mem_logRounds]
  unfold nameRound
  simp only [List.forall_mem_cons, stringRead_inside_iff, inside_fieldRead, decide_eq_true_iff]

theorem modules_inside_iff (name : Nat) :
    (∀ a ∈ (logRounds (moduleRound site b name) site.modules.length 0).1, a.Inside size) ↔
      ∀ k < site.modules.length, (∀ j < k, OtherModule site b name j) →
        name + compared (pointee b name) (site.modules.getD k fun _ => 0) blModuleMaxNameLen ≤
          size := by
  rw [forall_mem_logRounds]
  unfold moduleRound OtherModule
  simp only [List.forall_mem_singleton, inside_read, decide_eq_true_iff]

theorem sizeReads_inside_iff (i : Nat) :
    (∀ a ∈ sizeReads b i, a.Inside size) ↔
      ∀ k ∈ [20, 32, 8], FieldInside size (sectionOffset b i) k := by
  simp [sizeReads]

theorem placeReads_inside_iff (i : Nat) :
    (∀ a ∈ placeReads site b i, a.Inside size) ↔ ((sectionAt b i).loaded = true →
      (∀ k ∈ [32, 4], FieldInside size (sectionOffset b i) k) ∧
      ((sectionAt b i).shType = shtProgbits → FieldInside size (sectionOffset b i) 16 ∧
        (blMemoryAlignUp (imagePtr site b i) (sectionAt b i).shAddralign.toNat ≠ 0 →
          StringInside site size (sectionAt b i).shOffset.toNat
            (sectionAt b i).shSize.toNat))) := by
  have hcontents : (∀ a ∈ contentsRead site b i, a.Inside size) ↔
      (blMemoryAlignUp (imagePtr site b i) (sectionAt b i).shAddralign.toNat ≠ 0 →
        StringInside site size (sectionAt b i).shOffset.toNat
          (sectionAt b i).shSize.toNat) := by
    unfold contentsRead
    split_ifs with hnull
    · simp [hnull]
    · simp [hnull, stringRead_inside_iff]
  unfold placeReads
  split_ifs with hloaded hprogbits
  · simp [hloaded, hprogbits, hcontents, and_assoc]
  · simp [hloaded, hprogbits]
  · simp [hloaded]

theorem symbolReads_inside_iff (offset name : Nat) :
    (∀ a ∈ symbolReads site b offset name, a.Inside size) ↔
      SymbolInside site b size offset name := by
  rw [symbolInside_iff]
  unfold symbolReads strcmpRead
  simp only [List.forall_mem_append, List.forall_mem_cons, inside_fieldRead, inside_read,
    and_assoc]
  refine and_congr_right fun _ => and_congr_right fun _ => ?_
  generalize elf32StType (symAt b offset).stInfo = type
  by_cases hfunc : type = sttFunc
  · simp only [hfunc, if_true, List.forall_mem_append, List.forall_mem_cons, inside_fieldRead,
      inside_read, stringRead_inside_iff]
    simp [show ¬ (sttFunc = sttNotype ∨ sttFunc = sttObject) by decide, and_assoc]
  by_cases hdata : type = sttNotype ∨ type = sttObject
  · have hmem : type ∈ [sttNotype, sttObject] := by simpa using hdata
    have hlisted : type ∈ [sttFunc, sttNotype, sttObject, sttSection] := by
      rcases hdata with rfl | rfl <;> simp
    simp only [hfunc, hdata, hmem, hlisted, if_true, if_false, List.forall_mem_cons, inside_read,
      false_or, true_and, true_imp_iff, false_imp_iff]
    split_ifs with hundefined
    · simp only [stringRead_inside_iff]
      simp [hundefined]
    · simp [hundefined]
  have hmem : type ∉ [sttNotype, sttObject] := by simpa using hdata
  have hlisted : type ∈ [sttFunc, sttNotype, sttObject, sttSection] ↔ type = sttSection := by
    have hneither := not_or.mp hdata
    simp [hfunc, hneither.1, hneither.2]
  simp only [hfunc, hdata, hmem, hlisted, if_false, false_and, false_or, false_imp_iff, and_true]
  split_ifs with hsection <;> simp [hsection]

/-- A round over the symbols of section `i`, as long as they stand as they did. -/
def symbolRound (site : LoadSite) (b : Mem) (i j : Nat) : List Access × Bool :=
  (symbolReads site b (symbolOffset b i j) (symbolNameOffset b i j), SymbolResolves site b i j)

/-- A round over the sections, as long as they and their symbols stand as they did. -/
def sectionRound (site : LoadSite) (b : Mem) (i : Nat) : List Access × Bool :=
  let type := fieldRead (sectionOffset b i) 4
  let sh := sectionAt b i
  if sh.shType ≠ shtSymtab then ([type], true)
  else if sh.shEntsize = 0 then (type :: symtabReads b i, false)
  else
    (type :: symtabReads b i ++ (logRounds (symbolRound site b i) sh.entries 0).1,
      (logRounds (symbolRound site b i) sh.entries 0).2)

theorem sectionRound_more_iff (i : Nat) :
    (sectionRound site b i).2 = true ↔ SectionResolves site b i := by
  unfold sectionRound SectionResolves
  dsimp only
  split_ifs with htype hentsize
  · simp [htype]
  · simp [not_not.mp htype, hentsize]
  · rw [logRounds_more_iff]
    simp only [symbolRound, decide_eq_true_iff, not_not.mp htype, true_imp_iff, ne_eq, hentsize,
      not_false_eq_true, true_and]

theorem tableReads_inside_iff (i : Nat) (fields : List Nat) (linked : Nat) :
    (∀ a ∈ tableReads b i fields linked, a.Inside size) ↔ TableInside b size i fields linked := by
  have hentsize : (sectionAt b i).shEntsize.toNat ≠ 0 ↔ (sectionAt b i).shEntsize ≠ 0 :=
    not_congr (BitVec.toNat_inj (y := 0))
  rw [tableInside_iff]
  unfold tableReads
  simp only [List.forall_mem_append, List.forall_mem_map, List.forall_mem_cons, inside_fieldRead,
    inside_divide, hentsize]
  simp

theorem symtabReads_inside_iff (i : Nat) :
    (∀ a ∈ symtabReads b i, a.Inside size) ↔ SymtabInside b size i :=
  tableReads_inside_iff ..

theorem sectionRound_inside_iff (i : Nat) :
    (∀ a ∈ (sectionRound site b i).1, a.Inside size) ↔
      FieldInside size (sectionOffset b i) 4 ∧
      ((sectionAt b i).shType = shtSymtab → SymtabInside b size i ∧
        ∀ j < (sectionAt b i).entries, (∀ k < j, SymbolResolves site b i k) →
          SymbolInside site b size (symbolOffset b i j) (symbolNameOffset b i j)) := by
  unfold sectionRound
  dsimp only
  split_ifs with htype hentsize
  · simp [htype]
  · have hnot : ¬ SymtabInside b size i := fun h => h.entsize hentsize
    simp only [List.forall_mem_cons, inside_fieldRead, symtabReads_inside_iff]
    simp [hnot, not_not.mp htype]
  · simp only [List.cons_append, List.forall_mem_cons, inside_fieldRead, List.forall_mem_append,
      symtabReads_inside_iff, forall_mem_logRounds]
    unfold symbolRound
    simp only [symbolReads_inside_iff, decide_eq_true_iff, not_not.mp htype, true_imp_iff]

theorem relReads_inside_iff (table symbols k : Nat) :
    (∀ a ∈ relReads b table symbols k, a.Inside size) ↔
      RelocationInside b size table symbols k := by
  rw [relocationInside_iff]
  unfold relReads
  dsimp only
  generalize (table + 8 * k) % 2 ^ 32 = offset
  simp only [List.forall_mem_append, List.forall_mem_cons, inside_fieldRead]
  refine and_congr (by simp) ?_
  split_ifs with htype
  · simp [htype]
  · simp [htype]

theorem relHeaderReads_inside_iff (i : Nat) :
    (∀ a ∈ relHeaderReads b i, a.Inside size) ↔ RelInside b size i :=
  tableReads_inside_iff ..

theorem relRound_more_iff (i : Nat) :
    (relRound b i).2 = true ↔
      ((sectionAt b i).shType = shtRel → (sectionAt b i).shEntsize ≠ 0) := by
  unfold relRound
  dsimp only
  split_ifs with htype hentsize
  · simp [htype]
  · simp [not_not.mp htype, hentsize]
  · exact iff_of_true rfl fun _ => hentsize

theorem relRound_inside_iff (i : Nat) :
    (∀ a ∈ (relRound b i).1, a.Inside size) ↔
      FieldInside size (sectionOffset b i) 4 ∧
      ((sectionAt b i).shType = shtRel → RelInside b size i ∧
        ∀ k < (sectionAt b i).entries, RelocationInside b size (sectionAt b i).shOffset.toNat
          (sectionAt b (sectionAt b i).shLink.toNat).shOffset.toNat k) := by
  unfold relRound
  dsimp only
  split_ifs with htype hentsize
  · simp [htype]
  · have hnot : ¬ RelInside b size i := fun h => h.entsize hentsize
    simp only [List.forall_mem_cons, inside_fieldRead, relHeaderReads_inside_iff]
    simp [hnot, not_not.mp htype]
  · simp only [List.cons_append, List.forall_mem_cons, inside_fieldRead, List.forall_mem_append,
      relHeaderReads_inside_iff, List.forall_mem_flatMap, List.mem_range, relReads_inside_iff,
      not_not.mp htype, true_imp_iff]

end BootLoader.Elf

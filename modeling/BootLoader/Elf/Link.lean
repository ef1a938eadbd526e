import BootLoader.Elf.Code
import BootLoader.Lib.WordUpdates
import Mathlib.Data.List.Forall2

/-!
# Linking a module

What `bl_elf_load_symbols` and `bl_elf_relocate_symbols` do together to the loaded image.
-/

open ByteMemory WordUpdates

namespace BootLoader.Elf

open Heap Utils

/-! ## What relocation is for -/

def headerAt (sections : List Elf32Shdr) (index : Elf32Word) : Elf32Shdr :=
  sections.getD index.toNat ⟨0, 0, 0, 0, 0, 0, 0, 0⟩

/-- The run-time value of a symbol. A section symbol stands for the start of its section, whatever
its `st_value`, and a file symbol for nothing. A section that is not loaded counts as 0. -/
def runTimeValue (exports : Exports) (mod : BlModule) (name : List Byte) (symbol : Elf32Sym) :
    Elf32Word :=
  let loadAddress := BitVec.ofNat 32 (blElfSectionByIndex mod symbol.stShndx)
  let type := elf32StType symbol.stInfo
  if type = sttSection then loadAddress
  else if type = sttFile then 0
  else if symbol.stName ≠ 0 ∧ symbol.stShndx = shnUndef then
    (exports.blSymbolsFind name).elim 0 fun exsymbol => exsymbol.address + exports.imageStart
  else loadAddress + symbol.stValue

/-- A relocation entry, with what its section says of it. -/
structure Relocation where
  shInfo : Elf32Word
  shLink : Elf32Word
  rel : Elf32Rel
  deriving DecidableEq, Repr

def relocations (tables : Tables) (sections : List Elf32Shdr) : List Relocation :=
  sections.flatMap fun sh =>
    if sh.shType = shtRel then (relEntries tables sh).map (Relocation.mk sh.shInfo sh.shLink)
    else []

namespace Relocation

variable (exports : Exports) (sections : List Elf32Shdr) (tables : Tables) (mod : BlModule)
  (r : Relocation)

def type : Elf32Word := elf32RType r.rel.rInfo

/-- The bytes of the word that is relocated. -/
def width : Nat := if r.type = r386_16 ∨ r.type = r386_Pc16 then 2 else 4

/-- Its run-time address. -/
def place : Nat := blElfSectionByIndex mod (r.shInfo.setWidth 16) + r.rel.rOffset.toNat

def symbol : Elf32Sym :=
  tables.symbols (headerAt sections r.shLink).shOffset (elf32RSym r.rel.rInfo)

def name : List Byte :=
  tables.strings (headerAt sections (headerAt sections r.shLink).shLink).shOffset
    (r.symbol sections tables).stName

/-- What the entry adds to its word. -/
def amount : Elf32Word :=
  let value := runTimeValue exports mod (r.name sections tables) (r.symbol sections tables)
  if r.type = r386_Pc16 ∨ r.type = r386_Pc32 then value - BitVec.ofNat 32 (r.place mod) else value

def update : Update := ⟨r.place mod, r.width, (r.amount exports sections tables mod).toNat⟩

end Relocation

/-- A function that another module is to provide. -/
def Elf32Sym.UndefinedFunction (symbol : Elf32Sym) : Prop :=
  elf32StType symbol.stInfo = sttFunc ∧ symbol.stName ≠ 0 ∧ symbol.stShndx = shnUndef

/-- Tables are apart, and each entry has a known type, a symbol of its table, and a word inside a
loaded section; two of these words are the same or apart. -/
structure Linkable (sections : List Elf32Shdr) (tables : Tables) (mod : BlModule) : Prop where
  tablesApart : ((sections.filter (·.shType = shtSymtab)).map Elf32Shdr.shOffset).Nodup
  known : ∀ r ∈ relocations tables sections,
    r.type = r386_32 ∨ r.type = r386_Pc32 ∨ r.type = r386_16 ∨ r.type = r386_Pc16
  linked : ∀ r ∈ relocations tables sections, ∃ sh, sections[r.shLink.toNat]? = some sh ∧
    sh.shType = shtSymtab ∧ elf32RSym r.rel.rInfo < sh.entries
  inside : ∀ r ∈ relocations tables sections, r.shInfo.toNat < 2 ^ 16 ∧
    ∃ segment, (mod.segments.take mod.count).find? (·.index = r.shInfo.toNat) = some segment ∧
      r.rel.rOffset.toNat + r.width ≤ segment.size ∧ segment.address + segment.size ≤ 2 ^ 32
  words : ∀ r ∈ relocations tables sections, ∀ r' ∈ relocations tables sections,
    (r.place mod = r'.place mod ∧ r.width = r'.width) ∨
      r.place mod + r.width ≤ r'.place mod ∨ r'.place mod + r'.width ≤ r.place mod
  defined : ∀ r ∈ relocations tables sections, ¬ (r.symbol sections tables).UndefinedFunction

/-- From `m` to `m'`, each word got the sum of what its entries add, and nothing else changed. -/
structure Relocated (exports : Exports) (sections : List Elf32Shdr) (tables : Tables)
    (mod : BlModule) (m m' : Mem) : Prop where
  word : ∀ r ∈ relocations tables sections, readLE m' (r.place mod) r.width =
    (readLE m (r.place mod) r.width +
      (((relocations tables sections).filter (·.place mod = r.place mod)).map
        fun r' => (r'.amount exports sections tables mod).toNat).sum) % 256 ^ r.width
  rest : ∀ x, (∀ r ∈ relocations tables sections, x < r.place mod ∨ r.place mod + r.width ≤ x) →
    m' x = m x

/-- The same module but for the order of its relocation entries and sections. -/
structure Rearranged (sections : List Elf32Shdr) (tables : Tables) (sections' : List Elf32Shdr)
    (tables' : Tables) : Prop where
  headers : List.Forall₂ (fun a b => a = b ∨ a.shType = shtRel ∧ b.shType = shtRel) sections
    sections'
  strtabs : ∀ sh ∈ sections, sh.shType = shtSymtab →
    (headerAt sections sh.shLink).shOffset = (headerAt sections' sh.shLink).shOffset
  symbols : tables'.symbols = tables.symbols
  strings : tables'.strings = tables.strings
  entries : (relocations tables' sections').Perm (relocations tables sections)

/-! ## Symbols -/

theorem headerAt_eq {sections : List Elf32Shdr} {index : Elf32Word} {sh : Elf32Shdr}
    (h : sections[index.toNat]? = some sh) : headerAt sections index = sh := by
  unfold headerAt
  rw [List.getD_eq_getElem?_getD, h]
  rfl

def SameSegments (mod mod' : BlModule) : Prop :=
  mod'.segments = mod.segments ∧ mod'.count = mod.count

variable {exports : Exports} {sections rest : List Elf32Shdr} {tables tables' : Tables}
  {mod mod' : BlModule} {m m' : Mem}

theorem SameSegments.sectionByIndex (h : SameSegments mod mod') (index : BitVec 16) :
    blElfSectionByIndex mod' index = blElfSectionByIndex mod index := by
  unfold blElfSectionByIndex
  rw [h.1, h.2]

theorem SameSegments.runTimeValue (h : SameSegments mod mod') (name : List Byte)
    (symbol : Elf32Sym) :
    runTimeValue exports mod' name symbol = runTimeValue exports mod name symbol := by
  unfold Elf.runTimeValue
  rw [h.sectionByIndex]

theorem SameSegments.trans {mod'' : BlModule} (h : SameSegments mod mod')
    (h' : SameSegments mod' mod'') : SameSegments mod mod'' :=
  ⟨h'.1.trans h.1, h'.2.trans h.2⟩

theorem blElfResolveSymbol_spec {symbol symbol' : Elf32Sym} {name : List Byte}
    (h : blElfResolveSymbol exports symbol name mod = (symbol', mod', .success)) :
    SameSegments mod mod' ∧ (¬ symbol.UndefinedFunction →
      symbol'.stValue = runTimeValue exports mod name symbol) := by
  unfold blElfResolveSymbol at h
  unfold runTimeValue Elf32Sym.UndefinedFunction
  simp only at h ⊢
  generalize elf32StType symbol.stInfo = type at h ⊢
  by_cases hfunc : type = sttFunc
  · subst hfunc
    rw [if_pos rfl, Prod.mk.injEq, Prod.mk.injEq] at h
    obtain ⟨rfl, rfl, -⟩ := h
    refine ⟨by split_ifs <;> exact ⟨rfl, rfl⟩, fun hdefined => ?_⟩
    rw [if_neg (by decide), if_neg (by decide), if_neg fun hundef => hdefined ⟨rfl, hundef⟩]
    exact BitVec.add_comm _ _
  · rw [if_neg hfunc] at h
    by_cases hplain : type = sttNotype ∨ type = sttObject
    · have hsection : type ≠ sttSection := by rintro rfl; revert hplain; decide
      have hfile : type ≠ sttFile := by rintro rfl; revert hplain; decide
      rw [if_pos hplain] at h
      rw [if_neg hsection, if_neg hfile]
      by_cases hundef : symbol.stName ≠ 0 ∧ symbol.stShndx = shnUndef
      · rw [if_pos hundef] at h ⊢
        cases hfind : exports.blSymbolsFind name with
        | none =>
          rw [hfind] at h
          simp at h
        | some exsymbol =>
          rw [hfind] at h
          simp only [Prod.mk.injEq] at h
          obtain ⟨rfl, rfl, -⟩ := h
          exact ⟨⟨rfl, rfl⟩, fun _ => rfl⟩
      · rw [if_neg hundef, Prod.mk.injEq, Prod.mk.injEq] at h
        obtain ⟨rfl, rfl, -⟩ := h
        rw [if_neg hundef]
        exact ⟨⟨rfl, rfl⟩, fun _ => BitVec.add_comm _ _⟩
    · rw [if_neg hplain] at h
      by_cases hsection : type = sttSection
      · rw [if_pos hsection, Prod.mk.injEq, Prod.mk.injEq] at h
        obtain ⟨rfl, rfl, -⟩ := h
        rw [if_pos hsection]
        exact ⟨⟨rfl, rfl⟩, fun _ => rfl⟩
      · rw [if_neg hsection] at h ⊢
        by_cases hfile : type = sttFile
        · rw [if_pos hfile, Prod.mk.injEq, Prod.mk.injEq] at h
          obtain ⟨rfl, rfl, -⟩ := h
          rw [if_pos hfile]
          exact ⟨⟨rfl, rfl⟩, fun _ => rfl⟩
        · rw [if_neg hfile] at h
          simp at h

theorem resolveSymbols_spec {strings : Elf32Word → List Byte} {n j : Nat}
    {symbols symbols' : Nat → Elf32Sym}
    (h : resolveSymbols exports strings n j symbols mod = (symbols', mod', .success)) :
    SameSegments mod mod' ∧ (∀ i, i < j ∨ j + n ≤ i → symbols' i = symbols i) ∧
      ∀ i, j ≤ i → i < j + n → ¬ (symbols i).UndefinedFunction →
        (symbols' i).stValue =
          runTimeValue exports mod (strings (symbols i).stName) (symbols i) := by
  induction n generalizing j symbols mod with
  | zero =>
    simp only [resolveSymbols, Prod.mk.injEq] at h
    obtain ⟨rfl, rfl, -⟩ := h
    exact ⟨⟨rfl, rfl⟩, fun _ _ => rfl, fun i hi hlt => absurd hlt (by omega)⟩
  | succ n ih =>
    rcases hone : blElfResolveSymbol exports (symbols j) (strings (symbols j).stName) mod with
      ⟨symbol, mod₁, status⟩
    simp only [resolveSymbols, hone] at h
    by_cases hstatus : status = .success
    · subst hstatus
      rw [if_neg (by simp)] at h
      obtain ⟨hsame₁, hvalue⟩ := blElfResolveSymbol_spec hone
      obtain ⟨hsame, hother, hlater⟩ := ih h
      refine ⟨hsame₁.trans hsame, fun i hi => ?_, fun i hi hlt hdefined => ?_⟩
      · rw [hother i (by omega), if_neg (by omega)]
      · by_cases hj : i = j
        · subst hj
          rw [hother i (by omega), if_pos rfl]
          exact hvalue hdefined
        · have hrest := hlater i (by omega) (by omega)
          rw [if_neg hj, hsame₁.runTimeValue] at hrest
          exact hrest hdefined
    · rw [if_pos hstatus, Prod.mk.injEq, Prod.mk.injEq] at h
      exact absurd h.2.2 hstatus

/-- Each symbol table is resolved once, and nothing else of the object changes. -/
theorem loadSymbolsFrom_spec
    (h : loadSymbolsFrom exports sections rest tables mod = some (tables', mod', .success))
    (hapart : ((rest.filter (·.shType = shtSymtab)).map Elf32Shdr.shOffset).Nodup) :
    SameSegments mod mod' ∧ tables'.rels = tables.rels ∧ tables'.strings = tables.strings ∧
      (∀ offset, (∀ sh ∈ rest, sh.shType = shtSymtab → sh.shOffset ≠ offset) →
        tables'.symbols offset = tables.symbols offset) ∧
      ∀ sh ∈ rest, sh.shType = shtSymtab → ∀ i < sh.entries,
        ¬ (tables.symbols sh.shOffset i).UndefinedFunction →
        (tables'.symbols sh.shOffset i).stValue = runTimeValue exports mod
          (tables.strings (headerAt sections sh.shLink).shOffset
            (tables.symbols sh.shOffset i).stName) (tables.symbols sh.shOffset i) := by
  induction rest generalizing tables mod with
  | nil =>
    simp only [loadSymbolsFrom, Option.some.injEq, Prod.mk.injEq] at h
    obtain ⟨rfl, rfl, -⟩ := h
    exact ⟨⟨rfl, rfl⟩, rfl, rfl, fun _ _ => rfl, fun sh hsh => absurd hsh List.not_mem_nil⟩
  | cons sh rest ih =>
    by_cases hsymtab : sh.shType = shtSymtab
    · rw [List.filter_cons_of_pos (by simpa using hsymtab), List.map_cons, List.nodup_cons]
        at hapart
      obtain ⟨hnew, hrest⟩ := hapart
      have hhead : ∀ t ∈ rest, t.shType = shtSymtab → t.shOffset ≠ sh.shOffset := by
        intro t ht htype heq
        rw [← heq] at hnew
        exact hnew (List.mem_map_of_mem (List.mem_filter.mpr ⟨ht, by simpa using htype⟩))
      rw [loadSymbolsFrom, if_neg (not_not.mpr hsymtab)] at h
      cases hlink : sections[sh.shLink.toNat]? with
      | none => simp [hlink] at h
      | some strtab =>
        have hstrtab := headerAt_eq hlink
        rcases hresolve : resolveSymbols exports (tables.strings strtab.shOffset) sh.entries 0
          (tables.symbols sh.shOffset) mod with ⟨symbols, mod₁, status⟩
        simp only [hlink, hresolve] at h
        split at h
        · cases h
        · by_cases hstatus : status = .success
          · subst hstatus
            rw [if_neg (by simp)] at h
            obtain ⟨hsame₁, -, hvalues⟩ := resolveSymbols_spec hresolve
            obtain ⟨hsame, hrels, hstrings, hother, hlater⟩ := ih h hrest
            refine ⟨hsame₁.trans hsame, hrels, hstrings, fun offset hoffset => ?_,
              fun sh' hsh' htype i hi hdefined => ?_⟩
            · have hne := hoffset sh List.mem_cons_self hsymtab
              rw [hother offset fun t ht => hoffset t (List.mem_cons_of_mem sh ht)]
              exact if_neg hne.symm
            · rcases List.mem_cons.mp hsh' with rfl | hmem
              · have hkept := hother sh'.shOffset hhead
                rw [hkept, hstrtab]
                simp only [if_true]
                exact hvalues i (Nat.zero_le i) (by omega) hdefined
              · have hne : sh'.shOffset ≠ sh.shOffset := hhead sh' hmem htype
                have hvalue := hlater sh' hmem htype i hi
                simp only [if_neg hne, hsame₁.runTimeValue] at hvalue
                exact hvalue hdefined
          · rw [if_pos hstatus, Option.some.injEq, Prod.mk.injEq, Prod.mk.injEq] at h
            exact absurd h.2.2 hstatus
    · rw [loadSymbolsFrom, if_pos hsymtab] at h
      rw [List.filter_cons_of_neg (by simpa using hsymtab)] at hapart
      obtain ⟨hsame, hrels, hstrings, hother, hlater⟩ := ih h hapart
      refine ⟨hsame, hrels, hstrings,
        fun offset hoffset => hother offset fun t ht => hoffset t (List.mem_cons_of_mem sh ht),
        fun sh' hsh' htype => ?_⟩
      rcases List.mem_cons.mp hsh' with rfl | hmem
      · exact absurd htype hsymtab
      · exact hlater sh' hmem htype

/-! ## Relocation entries -/

/-- The walk over the sections is a walk over all entries. -/
theorem relocateSymbolsFrom_eq
    (h : relocateSymbolsFrom sections tables mod rest m = some (m', .success)) :
    m' = (relocations tables rest).foldl (fun m r =>
      relocateEntry (blElfSectionByIndex mod (r.shInfo.setWidth 16))
        (tables.symbols (headerAt sections r.shLink).shOffset) m r.rel) m := by
  induction rest generalizing m with
  | nil =>
    simp only [relocateSymbolsFrom, Option.some.injEq, Prod.mk.injEq] at h
    exact h.1.symm
  | cons sh rest ih =>
    rw [relocations, List.flatMap_cons, ← relocations]
    by_cases hrel : sh.shType = shtRel
    · rw [relocateSymbolsFrom, if_neg (not_not.mpr hrel)] at h
      rw [if_pos hrel, List.foldl_append, List.foldl_map]
      cases hlink : sections[sh.shLink.toNat]? with
      | none => simp [hlink] at h
      | some symSection =>
        have hsymSection := headerAt_eq hlink
        simp only [hlink, blElfRelocateSection] at h
        by_cases hsize : sh.shEntsize = 0
        · simp [hsize] at h
        · rw [if_neg hsize] at h
          simp only [ne_eq, not_true_eq_false, if_false] at h
          rw [← hsymSection] at h
          exact ih h
    · rw [relocateSymbolsFrom, if_pos hrel] at h
      rw [if_neg hrel, List.nil_append]
      exact ih h

theorem Relocation.width_pos (r : Relocation) : 0 < r.width := by
  unfold Relocation.width
  split_ifs <;> omega

theorem relocateEntry_eq {r : Relocation} {symbols : Nat → Elf32Sym}
    (hknown : r.type = r386_32 ∨ r.type = r386_Pc32 ∨ r.type = r386_16 ∨ r.type = r386_Pc16)
    (hplace : r.place mod < 2 ^ 32)
    (hvalue : (symbols (elf32RSym r.rel.rInfo)).stValue =
      runTimeValue exports mod (r.name sections tables) (r.symbol sections tables)) :
    relocateEntry (blElfSectionByIndex mod (r.shInfo.setWidth 16)) symbols m r.rel =
      (r.update exports sections tables mod).apply m := by
  unfold Relocation.update Update.apply Relocation.amount
  have haddr : (blElfSectionByIndex mod (r.shInfo.setWidth 16) + r.rel.rOffset.toNat) % 2 ^ 32 =
      r.place mod := Nat.mod_eq_of_lt hplace
  have htype : elf32RType r.rel.rInfo = r.type := rfl
  unfold relocateEntry Relocation.width
  simp only [haddr, hvalue, htype]
  rcases hknown with hkind | hkind | hkind | hkind <;> simp only [hkind] <;> rfl

/-- A module that is linked: its words are updated by one entry after the other. -/
theorem linked_eq (h : Linkable sections tables mod)
    (hload : blElfLoadSymbols exports sections tables mod = some (tables', mod', .success))
    (hrelocate : blElfRelocateSymbols sections tables' mod' m = some (m', .success)) :
    m' = ((relocations tables sections).map
      (Relocation.update exports sections tables mod)).foldl Update.apply m := by
  obtain ⟨hsame, hrels, -, -, hvalues⟩ := loadSymbolsFrom_spec hload h.tablesApart
  have hrelocations : relocations tables' sections = relocations tables sections := by
    unfold relocations relEntries
    rw [hrels]
  have hrun := relocateSymbolsFrom_eq hrelocate
  rw [hrelocations] at hrun
  rw [hrun, List.foldl_map]
  apply List.foldl_ext
  intro m r hr
  obtain ⟨sh, hlink, htype, hindex⟩ := h.linked r hr
  obtain ⟨hinfo, segment, hsegment, hin, hspace⟩ := h.inside r hr
  rw [hsame.sectionByIndex, headerAt_eq hlink]
  have hdefined := h.defined r hr
  unfold Relocation.symbol at hdefined
  rw [headerAt_eq hlink] at hdefined
  apply relocateEntry_eq (h.known r hr)
  · have hindex16 : (r.shInfo.setWidth 16).toNat = r.shInfo.toNat := by
      rw [BitVec.toNat_setWidth, Nat.mod_eq_of_lt hinfo]
    have hwidth := r.width_pos
    unfold Relocation.place blElfSectionByIndex
    rw [hindex16, hsegment]
    simp only [Option.elim_some]
    omega
  · have hmem : sh ∈ sections := List.mem_of_getElem? hlink
    unfold Relocation.name Relocation.symbol
    rw [headerAt_eq hlink]
    exact hvalues sh hmem htype _ hindex hdefined

theorem Linkable.sameOrApart (h : Linkable sections tables mod) :
    ∀ u ∈ (relocations tables sections).map (Relocation.update exports sections tables mod),
      ∀ v ∈ (relocations tables sections).map (Relocation.update exports sections tables mod),
        u.SameOrApart v := by
  intro u hu v hv
  obtain ⟨r, hr, rfl⟩ := List.mem_map.mp hu
  obtain ⟨r', hr', rfl⟩ := List.mem_map.mp hv
  exact h.words r hr r' hr'

theorem Linkable.relocated (h : Linkable sections tables mod)
    (hrun : m' = ((relocations tables sections).map
      (Relocation.update exports sections tables mod)).foldl Update.apply m) :
    Relocated exports sections tables mod m m' := by
  subst hrun
  constructor
  · intro r hr
    have hmem := List.mem_map_of_mem (f := Relocation.update exports sections tables mod) hr
    have hsum := readLE_foldl (m := m) (fun v hv => h.sameOrApart v hv _ hmem) r.width_pos
      fun v hv => by
        obtain ⟨r', -, rfl⟩ := List.mem_map.mp hv
        exact r'.width_pos
    rw [List.filter_map, List.map_map] at hsum
    exact hsum
  · intro x hx
    apply foldl_outside
    intro u hu
    obtain ⟨r, hr, rfl⟩ := List.mem_map.mp hu
    exact hx r hr

/-! ## The order of the entries -/

theorem getElem?_of_headers {sections' : List Elf32Shdr} {i : Nat} {sh : Elf32Shdr}
    (h : List.Forall₂ (fun a b => a = b ∨ a.shType = shtRel ∧ b.shType = shtRel) sections sections')
    (hsh : sections[i]? = some sh) (htype : sh.shType = shtSymtab) : sections'[i]? = some sh := by
  induction h generalizing i with
  | nil => simp at hsh
  | @cons a b _ _ hab _ ih =>
    cases i with
    | zero =>
      rw [List.getElem?_cons_zero, Option.some.injEq] at hsh ⊢
      subst hsh
      rcases hab with rfl | ⟨hrel, -⟩
      · rfl
      · rw [htype] at hrel
        exact absurd hrel (by decide)
    | succ i => exact ih hsh

theorem symtabs_eq_of_headers {sections' : List Elf32Shdr}
    (h : List.Forall₂ (fun a b => a = b ∨ a.shType = shtRel ∧ b.shType = shtRel) sections
      sections') :
    sections'.filter (·.shType = shtSymtab) = sections.filter (·.shType = shtSymtab) := by
  induction h with
  | nil => rfl
  | cons hab _ ih =>
    rcases hab with rfl | ⟨ha, hb⟩
    · rw [List.filter_cons, List.filter_cons, ih]
    · rw [List.filter_cons_of_neg (by rw [hb]; decide),
        List.filter_cons_of_neg (by rw [ha]; decide), ih]

variable {sections₂ : List Elf32Shdr} {tables₂ : Tables}

theorem Rearranged.headerAt_eq (h : Rearranged sections tables sections₂ tables₂)
    (hlink : Linkable sections tables mod) {r : Relocation} (hr : r ∈ relocations tables sections) :
    headerAt sections₂ r.shLink = headerAt sections r.shLink := by
  obtain ⟨sh, hsh, htype, -⟩ := hlink.linked r hr
  rw [Elf.headerAt_eq hsh, Elf.headerAt_eq (getElem?_of_headers h.headers hsh htype)]

theorem Rearranged.symbol_eq (h : Rearranged sections tables sections₂ tables₂)
    (hlink : Linkable sections tables mod) {r : Relocation} (hr : r ∈ relocations tables sections) :
    r.symbol sections₂ tables₂ = r.symbol sections tables := by
  unfold Relocation.symbol
  rw [h.headerAt_eq hlink hr, h.symbols]

theorem Rearranged.update_eq (h : Rearranged sections tables sections₂ tables₂)
    (hlink : Linkable sections tables mod) {r : Relocation} (hr : r ∈ relocations tables sections) :
    r.update exports sections₂ tables₂ mod = r.update exports sections tables mod := by
  obtain ⟨sh, hsh, htype, -⟩ := hlink.linked r hr
  have hstrtab := h.strtabs sh (List.mem_of_getElem? hsh) htype
  have hname : r.name sections₂ tables₂ = r.name sections tables := by
    unfold Relocation.name
    rw [h.symbol_eq hlink hr, h.headerAt_eq hlink hr, h.strings, Elf.headerAt_eq hsh, hstrtab]
  unfold Relocation.update Relocation.amount
  rw [h.symbol_eq hlink hr, hname]

theorem Rearranged.linkable (h : Rearranged sections tables sections₂ tables₂)
    (hlink : Linkable sections tables mod) : Linkable sections₂ tables₂ mod where
  tablesApart := by
    rw [symtabs_eq_of_headers h.headers]
    exact hlink.tablesApart
  known r hr := hlink.known r (h.entries.mem_iff.mp hr)
  linked r hr := by
    obtain ⟨sh, hsh, htype, hindex⟩ := hlink.linked r (h.entries.mem_iff.mp hr)
    exact ⟨sh, getElem?_of_headers h.headers hsh htype, htype, hindex⟩
  inside r hr := hlink.inside r (h.entries.mem_iff.mp hr)
  words r hr r' hr' := hlink.words r (h.entries.mem_iff.mp hr) r' (h.entries.mem_iff.mp hr')
  defined r hr := by
    have hr := h.entries.mem_iff.mp hr
    rw [h.symbol_eq hlink hr]
    exact hlink.defined r hr

/-- **Linking.** Each relocated word ends up with its content and what its entries add, nothing
else changes, and neither depends on the order of the entries or of their sections. -/
theorem blElfRelocateSymbols_relocates (h : Linkable sections tables mod)
    (hload : blElfLoadSymbols exports sections tables mod = some (tables', mod', .success))
    (hrelocate : blElfRelocateSymbols sections tables' mod' m = some (m', .success)) :
    Relocated exports sections tables mod m m' ∧
      ∀ sections₂ tables₂, Rearranged sections tables sections₂ tables₂ →
        ∀ tables₂' mod₂' m₂',
          blElfLoadSymbols exports sections₂ tables₂ mod = some (tables₂', mod₂', .success) →
          blElfRelocateSymbols sections₂ tables₂' mod₂' m = some (m₂', .success) → m₂' = m' := by
  have hrun := linked_eq h hload hrelocate
  refine ⟨h.relocated hrun, ?_⟩
  intro sections₂ tables₂ hrearranged tables₂' mod₂' m₂' hload₂ hreloc₂
  have hrun₂ := linked_eq (hrearranged.linkable h) hload₂ hreloc₂
  have hupdates : (relocations tables₂ sections₂).map
      (Relocation.update exports sections₂ tables₂ mod) =
        (relocations tables₂ sections₂).map (Relocation.update exports sections tables mod) := by
    apply List.map_congr_left
    intro r hr
    exact hrearranged.update_eq h (hrearranged.entries.mem_iff.mp hr)
  rw [hrun, hrun₂, hupdates]
  apply foldl_perm (hrearranged.entries.map _)
  intro u hu v hv
  exact h.sameOrApart u ((hrearranged.entries.map _).mem_iff.mp hu) v
    ((hrearranged.entries.map _).mem_iff.mp hv)

/-! ## A module of one word -/

/-- No section, four bytes of data, a symbol table with its strings, and one relocation entry. -/
def wordSections : List Elf32Shdr :=
  [⟨0, 0, 0, 0, 0, 0, 0, 0⟩, ⟨shtProgbits, shfAlloc, 52, 4, 0, 0, 4, 0⟩,
    ⟨shtSymtab, 0, 56, 32, 4, 0, 4, 16⟩, ⟨shtRel, 0, 88, 8, 2, 1, 4, 8⟩, ⟨3, 0, 96, 1, 0, 0, 1, 0⟩]

/-- The entry adds symbol 1 to the word. -/
def wordTables (symbol : Elf32Sym) : Tables where
  symbols _ j := if j = 1 then symbol else ⟨0, 0, 0, 0⟩
  rels _ _ := ⟨0, 0x101⟩
  strings _ _ := []

def wordModule : BlModule := ⟨1, [⟨0x100000, 4, 1⟩], 0, 0⟩

def noExports : Exports := ⟨fun _ => none, 0⟩

theorem word_linkable {symbol : Elf32Sym} (h : ¬ symbol.UndefinedFunction) :
    Linkable wordSections (wordTables symbol) wordModule := by
  have hentries : relocations (wordTables symbol) wordSections = [⟨1, 2, ⟨0, 0x101⟩⟩] := rfl
  refine ⟨by decide, ?_, ?_, ?_, ?_, ?_⟩ <;> rw [hentries] <;>
    simp only [List.mem_singleton, forall_eq]
  · exact Or.inl rfl
  · exact ⟨wordSections[2], rfl, rfl, by decide⟩
  · exact ⟨by decide, _, rfl, by decide, by decide⟩
  · simp
  · exact h

theorem blElfRelocateSymbols_relocates_word : ∃ tables' mod' m',
    blElfLoadSymbols noExports wordSections (wordTables ⟨0, 2, 1, 1⟩) wordModule =
        some (tables', mod', .success) ∧
      blElfRelocateSymbols wordSections tables' mod' (fun _ => 0) = some (m', .success) ∧
      Relocated noExports wordSections (wordTables ⟨0, 2, 1, 1⟩) wordModule (fun _ => 0) m' := by
  have hdefined : ¬ Elf32Sym.UndefinedFunction ⟨0, 2, 1, 1⟩ := fun h => absurd h.1 (by decide)
  exact ⟨_, _, _, rfl, rfl,
    (blElfRelocateSymbols_relocates (word_linkable hdefined) rfl rfl).1⟩

/-- A section symbol with `st_value` 4, in the section at `0x100000`: the word gets `0x100000`. -/
theorem sectionSymbol_value_dropped :
    Linkable wordSections (wordTables ⟨0, 4, 3, 1⟩) wordModule ∧
      blElfSectionByIndex wordModule 1 = 0x100000 ∧ ∃ tables' mod' m',
        blElfLoadSymbols noExports wordSections (wordTables ⟨0, 4, 3, 1⟩) wordModule =
            some (tables', mod', .success) ∧
          blElfRelocateSymbols wordSections tables' mod' (fun _ => 0) = some (m', .success) ∧
          read32 m' 0x100000 = 0x100000 ∧ read32 m' 0x100000 ≠ 0x100000 + 4 := by
  refine ⟨word_linkable fun h => absurd h.1 (by decide), rfl, _, _, _, rfl, rfl, ?_, ?_⟩ <;> decide

end BootLoader.Elf

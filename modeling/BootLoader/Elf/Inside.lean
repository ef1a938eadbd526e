import BootLoader.Elf.Image
import BootLoader.Elf.Link

/-!
# Where relocation writes

The base of an entry is looked up among the loaded sections, and a section that is not loaded
counts as address 0.
-/

open ByteMemory

namespace BootLoader.Elf

open Heap Utils

/-! ## The writes of an entry -/

def Relocation.Known (r : Relocation) : Prop :=
  r.type = r386_32 ∨ r.type = r386_Pc32 ∨ r.type = r386_16 ∨ r.type = r386_Pc16

instance (r : Relocation) : Decidable r.Known := inferInstanceAs (Decidable (_ ∨ _))

/-- The index of the section it applies to, as `bl_elf_section_by_index` gets it. -/
def Relocation.target (r : Relocation) : BitVec 16 := r.shInfo.setWidth 16

def Relocation.addr (mod : BlModule) (r : Relocation) : Nat :=
  (blElfSectionByIndex mod r.target + r.rel.rOffset.toNat) % 2 ^ 32

/-- The addresses that the `switch` of `bl_elf_relocate_section` writes for it. -/
def Relocation.writes (mod : BlModule) (r : Relocation) : List Nat :=
  if r.Known then (List.range r.width).map (r.addr mod + ·) else []

/-- The addresses that `bl_elf_relocate_symbols` writes. -/
def relocationWrites (sections : List Elf32Shdr) (tables : Tables) (mod : BlModule) : List Nat :=
  (relocations tables sections).flatMap (Relocation.writes mod)

variable {sections rest : List Elf32Shdr} {tables : Tables} {mod mod' : BlModule} {m m' : Mem}
  {r : Relocation} {x elf i p : Nat}

theorem Relocation.mem_writes :
    x ∈ r.writes mod ↔ r.Known ∧ r.addr mod ≤ x ∧ x < r.addr mod + r.width := by
  unfold Relocation.writes
  split_ifs with hknown
  · rw [List.mem_map]
    constructor
    · rintro ⟨k, hk, rfl⟩
      rw [List.mem_range] at hk
      exact ⟨hknown, by omega, by omega⟩
    · rintro ⟨-, hle, hlt⟩
      exact ⟨x - r.addr mod, List.mem_range.mpr (by omega), by omega⟩
  · simp [hknown]

/-- An entry of another type does nothing, and the others write one word at their address. -/
theorem relocateEntry_cases (r : Relocation) (mod : BlModule) (symbols : Nat → Elf32Sym) (m : Mem) :
    (¬r.Known ∧ relocateEntry (blElfSectionByIndex mod r.target) symbols m r.rel = m) ∨
    (r.Known ∧ relocateEntry (blElfSectionByIndex mod r.target) symbols m r.rel =
      writeLE m (r.addr mod) r.width (readLE m (r.addr mod) r.width +
        (if r.type = r386_Pc16 ∨ r.type = r386_Pc32 then
          (symbols (elf32RSym r.rel.rInfo)).stValue - BitVec.ofNat 32 (r.addr mod)
        else (symbols (elf32RSym r.rel.rInfo)).stValue).toNat)) := by
  have htype : elf32RType r.rel.rInfo = r.type := rfl
  have haddr : (blElfSectionByIndex mod r.target + r.rel.rOffset.toNat) % 2 ^ 32 = r.addr mod := rfl
  unfold relocateEntry
  simp only [htype, haddr]
  by_cases hknown : r.Known
  · right
    refine ⟨hknown, ?_⟩
    unfold Relocation.width
    rcases hknown with hkind | hkind | hkind | hkind <;> simp only [hkind] <;> rfl
  · left
    refine ⟨hknown, ?_⟩
    simp only [Relocation.Known, not_or] at hknown
    obtain ⟨h32, hPc32, h16, hPc16⟩ := hknown
    simp [h32, hPc32, h16, hPc16]

theorem relocateEntry_frame (symbols : Nat → Elf32Sym) (hx : x ∉ r.writes mod) :
    relocateEntry (blElfSectionByIndex mod r.target) symbols m r.rel x = m x := by
  rw [Relocation.mem_writes] at hx
  rcases relocateEntry_cases r mod symbols m with ⟨-, hsame⟩ | ⟨hknown, hwrite⟩
  · rw [hsame]
  · rw [hwrite]
    exact writeLE_outside _ _ (by
      by_contra hin
      exact hx ⟨hknown, by omega, by omega⟩)

theorem relocateEntry_writes (hx : x ∈ r.writes mod) : ∃ (symbols : Nat → Elf32Sym) (m : Mem),
    relocateEntry (blElfSectionByIndex mod r.target) symbols m r.rel x ≠ m x := by
  obtain ⟨hknown, hle, hlt⟩ := Relocation.mem_writes.mp hx
  -- the amount that is added has a 1 in each byte
  let value : Elf32Word := if r.type = r386_Pc16 ∨ r.type = r386_Pc32 then
    0x01010101 + BitVec.ofNat 32 (r.addr mod) else 0x01010101
  refine ⟨fun _ => ⟨0, value, 0, 0⟩, fun _ => 0, ?_⟩
  rcases relocateEntry_cases r mod (fun _ => ⟨0, value, 0, 0⟩) (fun _ => 0) with
    ⟨hnot, -⟩ | ⟨-, hwrite⟩
  · exact absurd hknown hnot
  have hamount : (if r.type = r386_Pc16 ∨ r.type = r386_Pc32 then
      value - BitVec.ofNat 32 (r.addr mod) else value) = 0x01010101 := by
    unfold value
    split_ifs
    · exact BitVec.add_sub_cancel _ _
    · rfl
  have hzero : ∀ n a, readLE (fun _ => 0) a n = 0 := by
    intro n
    induction n with
    | zero => intro a; rfl
    | succ n ih => intro a; rw [readLE, ih]; rfl
  rw [hwrite, hamount, hzero]
  obtain ⟨k, hk, rfl⟩ : ∃ k < r.width, x = r.addr mod + k := ⟨x - r.addr mod, by omega, by omega⟩
  rw [writeLE_inside _ _ hk]
  have hwidth : r.width ≤ 4 := by
    unfold Relocation.width
    split_ifs <;> omega
  have hcases : k = 0 ∨ k = 1 ∨ k = 2 ∨ k = 3 := by omega
  show BitVec.ofNat 8 _ ≠ (0 : Byte)
  rcases hcases with rfl | rfl | rfl | rfl <;> decide

theorem foldl_relocateEntry_frame (symbols : Relocation → Nat → Elf32Sym)
    (rs : List Relocation) (hx : x ∉ rs.flatMap (Relocation.writes mod)) :
    rs.foldl (fun m r => relocateEntry (blElfSectionByIndex mod r.target) (symbols r) m r.rel) m x =
      m x := by
  induction rs generalizing m with
  | nil => rfl
  | cons r rs ih =>
    rw [List.flatMap_cons, List.mem_append, not_or] at hx
    rw [List.foldl_cons, ih hx.2, relocateEntry_frame _ hx.1]

theorem blElfRelocateSymbols_frame
    (h : blElfRelocateSymbols sections tables mod m = some (m', .success))
    (hx : x ∉ relocationWrites sections tables mod) : m' x = m x := by
  rw [relocateSymbolsFrom_eq h]
  exact foldl_relocateEntry_frame
    (fun r => tables.symbols (headerAt sections r.shLink).shOffset) _ hx

/-! ## The segments of a loaded module -/

def InSegments (mod : BlModule) (x : Nat) : Prop :=
  ∃ segment ∈ mod.segments, segment.address ≤ x ∧ x < segment.address + segment.size

theorem placeSections_mem {g : BlSegment} (hg : g ∈ (placeSections elf sections i p m).2) :
    i ≤ g.index ∧ ∃ sh, sections[g.index - i]? = some sh ∧ sh.loaded = true ∧ g.size = sh.size := by
  induction sections generalizing i p m with
  | nil => cases hg
  | cons sh rest ih =>
    rw [placeSections] at hg
    split at hg
    next hloaded =>
      rcases List.mem_cons.mp hg with rfl | hg
      · exact ⟨Nat.le_refl i, sh, by simp, hloaded, rfl⟩
      · obtain ⟨hle, hsh⟩ := ih hg
        refine ⟨by omega, ?_⟩
        rwa [show g.index - i = g.index - (i + 1) + 1 by omega, List.getElem?_cons_succ]
    next =>
      obtain ⟨hle, hsh⟩ := ih hg
      refine ⟨by omega, ?_⟩
      rwa [show g.index - i = g.index - (i + 1) + 1 by omega, List.getElem?_cons_succ]

theorem placeSections_sorted (elf : Nat) (sections : List Elf32Shdr) (i p : Nat) (m : Mem) :
    (placeSections elf sections i p m).2.Pairwise fun g g' => g.index < g'.index := by
  induction sections generalizing i p m with
  | nil => exact List.Pairwise.nil
  | cons sh rest ih =>
    rw [placeSections]
    split
    next =>
      refine List.pairwise_cons.mpr ⟨fun g hg => ?_, ih _ _ _⟩
      exact (placeSections_mem hg).1
    next => exact ih _ _ _

theorem placeSections_exists {sh : Elf32Shdr} {j : Nat} (hsh : sections[j]? = some sh)
    (hloaded : sh.loaded = true) (elf i p : Nat) (m : Mem) :
    ∃ g ∈ (placeSections elf sections i p m).2, g.index = i + j := by
  induction sections generalizing i j p m with
  | nil => cases hsh
  | cons first rest ih =>
    rw [placeSections]
    cases j with
    | zero =>
      rw [List.getElem?_cons_zero, Option.some.injEq] at hsh
      subst hsh
      rw [if_pos hloaded]
      exact ⟨_, List.mem_cons_self, rfl⟩
    | succ j =>
      rw [List.getElem?_cons_succ] at hsh
      split
      next =>
        obtain ⟨g, hg, hindex⟩ := ih hsh (i + 1) _ _
        exact ⟨g, List.mem_cons_of_mem _ hg, by omega⟩
      next =>
        obtain ⟨g, hg, hindex⟩ := ih hsh (i + 1) _ _
        exact ⟨g, hg, by omega⟩

theorem placeSections_length (elf : Nat) (sections : List Elf32Shdr) (i p : Nat) (m : Mem)
    (r : ImageInfo) : (sections.foldl addSection r).count =
      r.count + (placeSections elf sections i p m).2.length := by
  induction sections generalizing i p m r with
  | nil => rfl
  | cons sh rest ih =>
    rw [List.foldl_cons, placeSections]
    split
    next hloaded =>
      rw [ih (i + 1), List.length_cons, addSection, if_pos hloaded, Nat.add_right_comm]
      rfl
    next hnot => rw [ih (i + 1), addSection, if_neg hnot]

/-- The segments of a module as `bl_elf_load_image` leaves them. -/
structure Loaded (sections : List Elf32Shdr) (mod : BlModule) : Prop where
  all : mod.segments.length = mod.count
  sorted : mod.segments.Pairwise fun g g' => g.index < g'.index
  recorded : ∀ g ∈ mod.segments, ∃ sh, sections[g.index]? = some sh ∧ sh.loaded = true ∧
    g.size = sh.size
  every : ∀ j sh, sections[j]? = some sh → sh.loaded = true → ∃ g ∈ mod.segments, g.index = j

theorem blElfLoadImage_loaded {s s' : BlHeap}
    (h : blElfLoadImage elf sections mod s = some (s', mod', .success)) :
    Loaded sections mod' := by
  unfold blElfLoadImage at h
  simp only at h
  split at h
  · cases h
  next s₁ segments hsegments =>
  split at h
  · cases h
  split at h
  · cases h
  next s₂ image himage =>
  split at h
  · cases h
  cases h
  refine ⟨?_, placeSections_sorted _ _ _ _ _, fun g hg => (placeSections_mem hg).2, ?_⟩
  · have hcount := placeSections_length elf sections 0 image s₂.mem ⟨0, 1, 0⟩
    rw [Nat.zero_add] at hcount
    exact hcount.symm
  · intro j sh hsh hloaded
    obtain ⟨g, hg, hindex⟩ := placeSections_exists hsh hloaded elf 0 image s₂.mem
    exact ⟨g, hg, by omega⟩

theorem find?_index {segments : List BlSegment}
    (hsorted : segments.Pairwise fun g g' => g.index < g'.index) {g : BlSegment}
    (hg : g ∈ segments) : segments.find? (fun segment => segment.index = g.index) = some g := by
  induction segments with
  | nil => cases hg
  | cons first rest ih =>
    rw [List.pairwise_cons] at hsorted
    rcases List.mem_cons.mp hg with rfl | hrest
    · simp
    · have hlt := hsorted.1 g hrest
      rw [List.find?_cons_of_neg (by simp; omega)]
      exact ih hsorted.2 hrest

theorem Loaded.sectionByIndex (h : Loaded sections mod) {g : BlSegment} (hg : g ∈ mod.segments)
    {index : BitVec 16} (hindex : g.index = index.toNat) :
    blElfSectionByIndex mod index = g.address := by
  unfold blElfSectionByIndex
  rw [← h.all, List.take_length, ← hindex, find?_index h.sorted hg]
  rfl

theorem Loaded.sectionByIndex_none (h : Loaded sections mod) {index : BitVec 16}
    (hnone : ∀ sh, sections[index.toNat]? = some sh → sh.loaded = false) :
    blElfSectionByIndex mod index = 0 := by
  unfold blElfSectionByIndex
  rw [← h.all, List.take_length, List.find?_eq_none.mpr]
  · rfl
  · intro g hg hindex
    obtain ⟨sh, hsh, hloaded, -⟩ := h.recorded g hg
    rw [decide_eq_true_eq] at hindex
    rw [hindex] at hsh
    rw [hnone sh hsh] at hloaded
    cases hloaded

/-! ## Inside the module -/

/-- The word of `width` bytes at `addr` lies in segments of the module. -/
def InSegmentsWord (mod : BlModule) (addr width : Nat) : Prop :=
  ∀ i < width, InSegments mod (addr + i)

/-- The section that the entry applies to is loaded, and from its load address the word is one of
the module; or it is not loaded, and `r_offset` is itself the address of one. -/
def Relocation.LandsInside (sections : List Elf32Shdr) (mod : BlModule) (r : Relocation) : Prop :=
  (∃ g ∈ mod.segments, g.index = r.target.toNat ∧
    InSegmentsWord mod ((g.address + r.rel.rOffset.toNat) % 2 ^ 32) r.width) ∨
  ((∀ sh, sections[r.target.toNat]? = some sh → sh.loaded = false) ∧
    InSegmentsWord mod r.rel.rOffset.toNat r.width)

/-- It is enough that the word lies in the loaded section itself. -/
theorem Relocation.landsInside_of_le {g : BlSegment} (hg : g ∈ mod.segments)
    (hindex : g.index = r.target.toNat)
    (hle : r.rel.rOffset.toNat + r.width ≤ g.size) (hspace : g.address + g.size ≤ 2 ^ 32) :
    r.LandsInside sections mod := by
  refine .inl ⟨g, hg, hindex, fun k hk => ⟨g, hg, ?_⟩⟩
  rw [Nat.mod_eq_of_lt (by omega)]
  omega

theorem Relocation.writes_inside_iff (h : Loaded sections mod) (r : Relocation) :
    (∀ x ∈ r.writes mod, InSegments mod x) ↔ (r.Known → r.LandsInside sections mod) := by
  have hword : (∀ x ∈ r.writes mod, InSegments mod x) ↔
      (r.Known → InSegmentsWord mod (r.addr mod) r.width) := by
    constructor
    · intro hall hknown k hk
      exact hall _ (Relocation.mem_writes.mpr ⟨hknown, by omega, by omega⟩)
    · intro hin x hx
      obtain ⟨hknown, hle, hlt⟩ := Relocation.mem_writes.mp hx
      have hbyte := hin hknown (x - r.addr mod) (by omega)
      rwa [Nat.add_sub_cancel' hle] at hbyte
  rw [hword]
  apply forall_congr'
  intro _
  by_cases hloaded : ∃ sh, sections[r.target.toNat]? = some sh ∧ sh.loaded = true
  · obtain ⟨sh, hsh, hloaded⟩ := hloaded
    obtain ⟨g, hg, hindex⟩ := h.every _ sh hsh hloaded
    have hbase := h.sectionByIndex hg hindex
    unfold Relocation.addr
    rw [hbase]
    constructor
    · intro hin
      exact .inl ⟨g, hg, hindex, hin⟩
    · rintro (⟨g', hg', hindex', hin⟩ | ⟨hnone, -⟩)
      · rwa [← hbase, h.sectionByIndex hg' hindex']
      · rw [hnone sh hsh] at hloaded
        cases hloaded
  · have hnone : ∀ sh, sections[r.target.toNat]? = some sh → sh.loaded = false := by
      intro sh hsh
      by_contra hne
      exact hloaded ⟨sh, hsh, by simpa using hne⟩
    unfold Relocation.addr
    rw [h.sectionByIndex_none hnone, Nat.zero_add, Nat.mod_eq_of_lt r.rel.rOffset.isLt]
    constructor
    · intro hin
      exact .inr ⟨hnone, hin⟩
    · rintro (⟨g, hg, hindex, -⟩ | ⟨-, hin⟩)
      · obtain ⟨sh, hsh, hload, -⟩ := h.recorded g hg
        rw [hindex] at hsh
        exact absurd ⟨sh, hsh, hload⟩ hloaded
      · exact hin

/-- **Relocation stays inside the module exactly if each entry of a known type lands in a
segment**, from the load address of a loaded section or from address 0. The bytes at all other
addresses stay. -/
theorem blElfRelocateSymbols_inside_iff {s s' : BlHeap} {mod₀ : BlModule}
    (hload : blElfLoadImage elf sections mod₀ s = some (s', mod, .success))
    (hrun : blElfRelocateSymbols sections tables mod m = some (m', .success)) :
    ((∀ x ∈ relocationWrites sections tables mod, InSegments mod x) ↔
      ∀ r ∈ relocations tables sections, r.Known → r.LandsInside sections mod) ∧
    ∀ x ∉ relocationWrites sections tables mod, m' x = m x := by
  have hloaded := blElfLoadImage_loaded hload
  refine ⟨?_, fun x hx => blElfRelocateSymbols_frame hrun hx⟩
  unfold relocationWrites
  simp only [List.mem_flatMap, forall_exists_index, and_imp]
  constructor
  · intro hall r hr
    exact (Relocation.writes_inside_iff hloaded r).mp fun x hx => hall x r hr hx
  · intro hall x r hr hx
    exact (Relocation.writes_inside_iff hloaded r).mpr (hall r hr) x hx

theorem blElfRelocateSymbols_inside_iff_word : ∃ s' mod m',
    blElfLoadImage 0x2000 wordSections ⟨0, [], 0, 0⟩ emptyHeap = some (s', mod, .success) ∧
      blElfRelocateSymbols wordSections (wordTables ⟨0, 2, 1, 1⟩) mod s'.mem =
        some (m', .success) ∧
      ∀ x ∈ relocationWrites wordSections (wordTables ⟨0, 2, 1, 1⟩) mod, InSegments mod x := by
  obtain ⟨s', mod, hload, rfl⟩ : ∃ s' mod, blElfLoadImage 0x2000 wordSections ⟨0, [], 0, 0⟩
      emptyHeap = some (s', mod, .success) ∧ mod = ⟨1, [⟨0x100030, 4, 1⟩], 0, 0⟩ :=
    ⟨_, _, rfl, by decide⟩
  obtain ⟨m', hrun⟩ : ∃ m', blElfRelocateSymbols wordSections (wordTables ⟨0, 2, 1, 1⟩)
      ⟨1, [⟨0x100030, 4, 1⟩], 0, 0⟩ s'.mem = some (m', .success) := ⟨_, rfl⟩
  refine ⟨s', _, m', hload, hrun, (blElfRelocateSymbols_inside_iff hload hrun).1.mpr ?_⟩
  have hentries : relocations (wordTables ⟨0, 2, 1, 1⟩) wordSections = [⟨1, 2, ⟨0, 0x101⟩⟩] := rfl
  rw [hentries]
  intro r hr _
  rw [List.mem_singleton] at hr
  subst hr
  exact Relocation.landsInside_of_le List.mem_cons_self rfl (by decide) (by decide)

/-- A loaded word, a debug section that is not loaded, and an entry for the debug section. -/
def debugSections : List Elf32Shdr :=
  [⟨0, 0, 0, 0, 0, 0, 0, 0⟩, ⟨shtProgbits, shfAlloc, 52, 4, 0, 0, 4, 0⟩,
    ⟨shtSymtab, 0, 56, 32, 5, 0, 4, 16⟩, ⟨shtProgbits, 0, 88, 4, 0, 0, 1, 0⟩,
    ⟨shtRel, 0, 92, 8, 2, 3, 4, 8⟩, ⟨3, 0, 100, 1, 0, 0, 1, 0⟩]

/-- The word at address 0 is written, though the only segment is at `0x100030`. -/
theorem debug_entry_writes_low_memory : ∃ s' mod m',
    blElfLoadImage 0x2000 debugSections ⟨0, [], 0, 0⟩ emptyHeap = some (s', mod, .success) ∧
      blElfRelocateSymbols debugSections (wordTables ⟨0, 2, 1, 1⟩) mod s'.mem =
        some (m', .success) ∧
      0 ∈ relocationWrites debugSections (wordTables ⟨0, 2, 1, 1⟩) mod ∧ ¬InSegments mod 0 := by
  refine ⟨_, _, _, rfl, rfl, by decide, ?_⟩
  rintro ⟨segment, hmem, hle, -⟩
  have hsegment := List.mem_singleton.mp hmem
  rw [hsegment] at hle
  exact absurd hle (by decide)

end BootLoader.Elf

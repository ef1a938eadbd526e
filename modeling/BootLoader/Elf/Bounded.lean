import BootLoader.Elf.Contained
import Mathlib.Tactic.IntervalCases

/-!
# Loads that stay inside the object

Symbols are resolved in place. Where none of them is written over what the load still goes by, it
reads what the object asked for at first.
-/

open ByteMemory Runs

namespace BootLoader.Elf

open Heap Utils

variable {site : LoadSite} {b b' : Mem} {size i j : Nat}

/-! ## Resolved symbols -/

/-- Section `i` has a symbol `j`. -/
def HasSymbol (b : Mem) (i j : Nat) : Prop :=
  i < eShnum b ∧ (sectionAt b i).shType = shtSymtab ∧ j < (sectionAt b i).entries

/-- The byte `x` is written when the symbol at `offset` is resolved. -/
def WrittenAt (offset x : Nat) : Prop :=
  (offset + 4) % 2 ^ 32 ≤ x ∧ x < (offset + 4) % 2 ^ 32 + 4 ∨ x = (offset + 12) % 2 ^ 32

/-- No symbol is written to these bytes. -/
def Unwritten (b : Mem) (offset len : Nat) : Prop :=
  ∀ x, offset ≤ x → x < offset + len → ∀ i j, HasSymbol b i j → ¬ WrittenAt (symbolOffset b i j) x

/-- Resolved symbols are written over nothing that the load still goes by. -/
structure WritesApart (b : Mem) : Prop where
  header : Unwritten b 0 52
  sections : ∀ i < eShnum b, ∀ k ≤ 36, Unwritten b ((sectionOffset b i + k) % 2 ^ 32) 4
  strings : ∀ i < eShnum b, (sectionAt b i).shType = shtSymtab →
    Unwritten b ((spacedOffset b (sectionAt b i).shLink.toNat + 16) % 2 ^ 32) 4
  symtabs : ∀ i < eShnum b, (sectionAt b i).shType = shtRel →
    Unwritten b ((sectionOffset b (sectionAt b i).shLink.toNat + 16) % 2 ^ 32) 4
  symbols : ∀ i j i' j', HasSymbol b i j → HasSymbol b i' j' → ¬ (i = i' ∧ j = j') →
    ∀ k m, k + m < 16 → ¬ WrittenAt (symbolOffset b i j) ((symbolOffset b i' j' + k) % 2 ^ 32 + m)
  names : ∀ i j, HasSymbol b i j → ∀ k,
    (∀ m < k, pointee b (symbolNameOffset b i j) m ≠ 0) →
      Unwritten b ((symbolNameOffset b i j + k) % 2 ^ 32) 1
  relocations : ∀ i < eShnum b, (sectionAt b i).shType = shtRel →
    ∀ j < (sectionAt b i).entries, ∀ k ∈ [0, 4],
      Unwritten b (((((sectionAt b i).shOffset.toNat + 8 * j) % 2 ^ 32) + k) % 2 ^ 32) 4

/-- The object when symbol `j` of section `i` is next: what is not a resolved symbol is as it was,
and so are the symbols to come. -/
structure Agrees (b b' : Mem) (i j : Nat) : Prop where
  kept : ∀ offset len, Unwritten b offset len → ∀ x, offset ≤ x → x < offset + len → b' x = b x
  ahead : ∀ i' j', HasSymbol b i' j' → i < i' ∨ i = i' ∧ j ≤ j' → ∀ k m, k + m < 16 →
    b' ((symbolOffset b i' j' + k) % 2 ^ 32 + m) = b ((symbolOffset b i' j' + k) % 2 ^ 32 + m)

theorem Agrees.refl (b : Mem) : Agrees b b 0 0 :=
  ⟨fun _ _ _ _ _ _ => rfl, fun _ _ _ _ _ _ _ => rfl⟩

theorem Agrees.next (h : Agrees b b' i j) : Agrees b b' (i + 1) 0 :=
  ⟨h.kept, fun i' j' hsym hlater => h.ahead i' j' hsym (by omega)⟩

theorem Agrees.readLE_eq (h : Agrees b b' i j) {offset len : Nat} (hkept : Unwritten b offset len)
    {k n : Nat} (hin : offset ≤ k ∧ k + n ≤ offset + len) :
    readLE b' k n = readLE b k n :=
  readLE_congr fun x hlow hhigh => h.kept offset len hkept x (by omega) (by omega)

theorem Agrees.field_eq (h : Agrees b b' i j) {offset k : Nat}
    (hkept : Unwritten b ((offset + k) % 2 ^ 32) 4) : field b' offset k = field b offset k := by
  unfold field
  rw [show read32 b' ((offset + k) % 2 ^ 32) = read32 b ((offset + k) % 2 ^ 32) from
    h.readLE_eq hkept (by omega)]

theorem Agrees.ehdr_eq (h : Agrees b b' i j) (hapart : WritesApart b) : ehdr b' = ehdr b := by
  have hword {k n : Nat} (hk : k + n ≤ 52) : readLE b' k n = readLE b k n :=
    h.readLE_eq hapart.header (by omega)
  have hident : (List.range 16).map b' = (List.range 16).map b := by
    apply List.map_congr_left
    intro k hk
    have hlt := List.mem_range.mp hk
    exact h.kept 0 52 hapart.header k (by omega) (by omega)
  unfold ehdr read16 read32
  rw [hident, hword (by decide), hword (by decide), hword (by decide), hword (by decide),
    hword (by decide), hword (by decide), hword (by decide)]

theorem Agrees.eShnum_eq (h : Agrees b b' i j) (hapart : WritesApart b) :
    eShnum b' = eShnum b := by
  unfold eShnum
  rw [h.ehdr_eq hapart]

theorem Agrees.sectionOffset_eq (h : Agrees b b' i j) (hapart : WritesApart b) (k : Nat) :
    sectionOffset b' k = sectionOffset b k := by
  unfold sectionOffset
  rw [h.ehdr_eq hapart]

theorem Agrees.spacedOffset_eq (h : Agrees b b' i j) (hapart : WritesApart b) (k : Nat) :
    spacedOffset b' k = spacedOffset b k := by
  unfold spacedOffset
  rw [h.ehdr_eq hapart]

theorem Agrees.sectionAt_eq (h : Agrees b b' i j) (hapart : WritesApart b) {k : Nat}
    (hk : k < eShnum b) : sectionAt b' k = sectionAt b k := by
  have hfield {f : Nat} (hf : f ≤ 36) :
      field b' (sectionOffset b k) f = field b (sectionOffset b k) f :=
    h.field_eq (hapart.sections k hk f hf)
  unfold sectionAt shdrAt
  rw [h.sectionOffset_eq hapart, hfield (by decide), hfield (by decide), hfield (by decide),
    hfield (by decide), hfield (by decide), hfield (by decide), hfield (by decide),
    hfield (by decide)]

theorem Agrees.shOffset_eq (h : Agrees b b' i j) {offset : Nat}
    (hkept : Unwritten b ((offset + 16) % 2 ^ 32) 4) :
    (shdrAt b' offset).shOffset = (shdrAt b offset).shOffset :=
  h.field_eq hkept

theorem Agrees.symAt_eq (h : Agrees b b' i j) {i' j' : Nat} (hsym : HasSymbol b i' j')
    (hahead : i < i' ∨ i = i' ∧ j ≤ j') :
    symAt b' (symbolOffset b i' j') = symAt b (symbolOffset b i' j') := by
  have hread {k n : Nat} (hk : k + n ≤ 16) :
      readLE b' ((symbolOffset b i' j' + k) % 2 ^ 32) n =
        readLE b ((symbolOffset b i' j' + k) % 2 ^ 32) n :=
    readLE_congr_at fun m hm => h.ahead i' j' hsym hahead k m (by omega)
  have hinfo : b' ((symbolOffset b i' j' + 12) % 2 ^ 32) =
      b ((symbolOffset b i' j' + 12) % 2 ^ 32) :=
    h.ahead i' j' hsym hahead 12 0 (by decide)
  unfold symAt field read16 read32
  rw [hread (by decide), hread (by decide), hread (by decide), hinfo]

/-! ## Names -/

theorem scanned_congr {stop stop' : Nat → Bool}
    (h : ∀ k, (∀ m < k, stop m = false) → stop' k = stop k) (n : Nat) {k : Nat}
    (hk : ∀ m < k, stop m = false) : scanned stop' n k = scanned stop n k := by
  induction n generalizing k with
  | zero => rfl
  | succ n ih =>
    rw [scanned, scanned, h k hk]
    split_ifs with hstop
    · rfl
    · rw [ih]
      intro m hm
      rcases Nat.lt_succ_iff_lt_or_eq.mp hm with hm | rfl
      · exact hk m hm
      · simpa using hstop

theorem cStringFrom_congr {s s' : Mem} (h : ∀ k, (∀ m < k, s m ≠ 0) → s' k = s k) (n : Nat)
    {k : Nat} (hk : ∀ m < k, s m ≠ 0) : cStringFrom s' n k = cStringFrom s n k := by
  induction n generalizing k with
  | zero => rfl
  | succ n ih =>
    rw [cStringFrom, cStringFrom, h k hk]
    split_ifs with hend
    · rfl
    · rw [ih]
      intro m hm
      rcases Nat.lt_succ_iff_lt_or_eq.mp hm with hm | rfl
      · exact hk m hm
      · exact hend

theorem compared_congr {s s' t : Mem} (h : ∀ k, (∀ m < k, s m ≠ 0) → s' k = s k) (n : Nat) :
    compared s' t n = compared s t n := by
  apply scanned_congr _ n (fun m hm => absurd hm (Nat.not_lt_zero m))
  intro k hbefore
  have hnonzero : ∀ m < k, s m ≠ 0 := by
    intro m hm hzero
    simpa [hzero] using hbefore m hm
  rw [h k hnonzero]

theorem Agrees.name_eq (h : Agrees b b' i j) (hapart : WritesApart b) {i' j' : Nat}
    (hsym : HasSymbol b i' j') (k : Nat)
    (hbefore : ∀ m < k, pointee b (symbolNameOffset b i' j') m ≠ 0) :
    pointee b' (symbolNameOffset b i' j') k = pointee b (symbolNameOffset b i' j') k :=
  h.kept _ 1 (hapart.names i' j' hsym k hbefore) _ le_rfl (Nat.lt_succ_self _)

/-! ## Rounds -/

theorem blElfResolveSymbol_success_iff (offset name : Nat) (mod : BlModule) :
    (blElfResolveSymbol (symbolExports site name) (symAt b offset) (symbolName site b name)
      mod).2.2 = .success ↔ Resolves site b offset name := by
  unfold blElfResolveSymbol Resolves Elf32Sym.Undefined
  dsimp only
  generalize elf32StType (symAt b offset).stInfo = type
  by_cases hfunc : type = sttFunc
  · simp [hfunc]
  by_cases hdata : type = sttNotype ∨ type = sttObject
  · have hother : type ≠ sttSection ∧ type ≠ sttFile := by
      rcases hdata with rfl | rfl <;> decide
    rw [if_neg hfunc, if_pos hdata]
    simp only [hfunc, hother.1, hother.2, hdata, false_or, true_and]
    split_ifs with hundefined
    · cases (symbolExports site name).blSymbolsFind (symbolName site b name) with
      | none => exact iff_of_false (by simp) fun h => absurd (h hundefined) (by simp)
      | some exsymbol => exact iff_of_true rfl fun _ => rfl
    · exact iff_of_true rfl fun h => absurd h hundefined
  · rw [if_neg hfunc, if_neg hdata]
    split_ifs with hsection hfile
    · simp [hsection]
    · simp [hfile]
    · simp [hfunc, hdata, hsection, hfile]

/-- Where a symbol is written, nothing else is changed. -/
theorem putSym_outside (offset : Nat) (symbol : Elf32Sym) {x : Nat} (h : ¬ WrittenAt offset x) :
    putSym b offset symbol x = b x := by
  unfold WrittenAt at h
  unfold putSym write32
  rw [store_other _ _ (by omega), writeLE_outside _ _ (by omega)]

theorem Agrees.putSym (h : Agrees b b' i j) (hapart : WritesApart b) (hsym : HasSymbol b i j)
    (symbol : Elf32Sym) : Agrees b (putSym b' (symbolOffset b i j) symbol) i (j + 1) where
  kept offset len hkept x hlow hhigh := by
    rw [putSym_outside _ _ (hkept x hlow hhigh i j hsym), h.kept offset len hkept x hlow hhigh]
  ahead i' j' hsym' hlater k m hin := by
    have hother := hapart.symbols i j i' j' hsym hsym' (by omega) k m hin
    rw [putSym_outside _ _ hother, h.ahead i' j' hsym' (by omega) k m hin]

theorem resolveRound_eq (hapart : WritesApart b) {s : Resolving} (h : Agrees b s.object i j)
    (hsym : HasSymbol b i j) :
    let r := resolveRound site (stringsOf b (sectionAt b i)) (sectionAt b i).shOffset.toNat j s
    r.1 = (symbolRound site b i j).1 ∧ r.2.2 = (symbolRound site b i j).2 ∧
      Agrees b r.2.1.object i (j + 1) := by
  have hsymAt := h.symAt_eq hsym (.inr ⟨rfl, le_rfl⟩)
  have hname := h.name_eq hapart hsym
  have hstring : cStringAt s.object (symbolNameOffset b i j) =
      cStringAt b (symbolNameOffset b i j) :=
    cStringFrom_congr hname _ fun m hm => absurd hm (Nat.not_lt_zero m)
  have hsymbolName : symbolName site s.object (symbolNameOffset b i j) =
      symbolName site b (symbolNameOffset b i j) := by
    unfold symbolName
    rw [hstring]
  have hreads : symbolReads site s.object (symbolOffset b i j) (symbolNameOffset b i j) =
      symbolReads site b (symbolOffset b i j) (symbolNameOffset b i j) := by
    unfold symbolReads strcmpRead
    rw [hsymAt, hstring, compared_congr hname, compared_congr hname]
  have hoffset : ((sectionAt b i).shOffset.toNat + 16 * j) % 2 ^ 32 = symbolOffset b i j := rfl
  have hnameOffset : (stringsOf b (sectionAt b i) +
      (symAt b (symbolOffset b i j)).stName.toNat) % 2 ^ 32 = symbolNameOffset b i j := rfl
  unfold resolveRound symbolRound
  dsimp only
  rw [hoffset, hsymAt, hnameOffset, hreads, hsymbolName]
  exact ⟨rfl, decide_eq_decide.mpr (blElfResolveSymbol_success_iff _ _ _),
    h.putSym hapart hsym _⟩

theorem symtabRound_eq (hapart : WritesApart b) {s : Resolving} (h : Agrees b s.object i 0)
    (hi : i < eShnum b) :
    (symtabRound site i s).1 = (sectionRound site b i).1 ∧
      (symtabRound site i s).2.2 = (sectionRound site b i).2 ∧
      ((sectionRound site b i).2 = true →
        Agrees b (symtabRound site i s).2.1.object (i + 1) 0) := by
  have hsection := h.sectionAt_eq hapart hi
  have hreads : symtabReads s.object i = symtabReads b i := by
    unfold symtabReads tableReads
    rw [h.sectionOffset_eq hapart, h.spacedOffset_eq hapart, hsection]
  unfold symtabRound sectionRound
  dsimp only
  rw [h.sectionOffset_eq hapart, hsection, hreads]
  split_ifs with htype hentsize
  · exact ⟨rfl, rfl, fun _ => h.next⟩
  · exact ⟨rfl, rfl, fun hmore => by simp at hmore⟩
  · have hstrings : stringsOf s.object (sectionAt b i) = stringsOf b (sectionAt b i) := by
      unfold stringsOf
      rw [h.spacedOffset_eq hapart, h.shOffset_eq (hapart.strings i hi (not_not.mp htype))]
    rw [hstrings]
    have hrounds : ∀ j s, j < 0 + (sectionAt b i).entries → Agrees b s.object i j →
        (resolveRound site (stringsOf b (sectionAt b i)) (sectionAt b i).shOffset.toNat j s).1 =
          (symbolRound site b i j).1 ∧
        (resolveRound site (stringsOf b (sectionAt b i)) (sectionAt b i).shOffset.toNat j
          s).2.2 = (symbolRound site b i j).2 ∧
        ((symbolRound site b i j).2 = true →
          Agrees b (resolveRound site (stringsOf b (sectionAt b i))
            (sectionAt b i).shOffset.toNat j s).2.1.object i (j + 1)) := by
      intro j s hj hs
      obtain ⟨hlog, hmore, hnext⟩ := resolveRound_eq hapart hs
        ⟨hi, not_not.mp htype, by omega⟩
      exact ⟨hlog, hmore, fun _ => hnext⟩
    obtain ⟨hlog, hmore, hlast⟩ := stateRounds_eq hrounds h
    exact ⟨by rw [hlog], hmore, fun hend => (hlast hend).next⟩

theorem relRound_eq (hapart : WritesApart b) (h : Agrees b b' i j) {k : Nat}
    (hk : k < eShnum b) : relRound b' k = relRound b k := by
  have hsection := h.sectionAt_eq hapart hk
  have hheader : relHeaderReads b' k = relHeaderReads b k := by
    unfold relHeaderReads tableReads
    rw [h.sectionOffset_eq hapart, h.sectionOffset_eq hapart, hsection]
  unfold relRound
  dsimp only
  rw [h.sectionOffset_eq hapart, hsection, hheader]
  split_ifs with htype hentsize
  · rfl
  · rfl
  · have hsymbols : (sectionAt b' (sectionAt b k).shLink.toNat).shOffset =
        (sectionAt b (sectionAt b k).shLink.toNat).shOffset := by
      unfold sectionAt
      rw [h.sectionOffset_eq hapart]
      exact h.shOffset_eq (hapart.symtabs k hk (not_not.mp htype))
    rw [hsymbols]
    refine congrArg (fun reads => (_ ++ reads, true)) (List.flatMap_congr ?_)
    intro n hn
    have hrel : relAt b' (((sectionAt b k).shOffset.toNat + 8 * n) % 2 ^ 32) =
        relAt b (((sectionAt b k).shOffset.toNat + 8 * n) % 2 ^ 32) := by
      have hkept := hapart.relocations k hk (not_not.mp htype) n (List.mem_range.mp hn)
      unfold relAt
      rw [h.field_eq (hkept 0 (by simp)), h.field_eq (hkept 4 (by simp))]
    unfold relReads
    dsimp only
    rw [hrel]

/-- What is read from the symbols on is what the object asked for before any of them was written. -/
theorem linkAccesses_eq (hapart : WritesApart b) :
    linkAccesses site b = (logRounds (sectionRound site b) (eShnum b) 0).1 ++
      if (logRounds (sectionRound site b) (eShnum b) 0).2 then
        (logRounds (relRound b) (eShnum b) 0).1
      else [] := by
  have hrounds : ∀ k s, k < 0 + eShnum b → Agrees b s.object k 0 →
      (symtabRound site k s).1 = (sectionRound site b k).1 ∧
      (symtabRound site k s).2.2 = (sectionRound site b k).2 ∧
      ((sectionRound site b k).2 = true →
        Agrees b (symtabRound site k s).2.1.object (k + 1) 0) :=
    fun k s hk hs => symtabRound_eq hapart hs (by omega)
  obtain ⟨hlog, hmore, hlast⟩ := stateRounds_eq (s := ⟨b, placedModule site b⟩) hrounds
    (Agrees.refl b)
  unfold linkAccesses
  dsimp only
  rw [hlog, hmore]
  split_ifs with hend
  · have hagrees := hlast hend
    rw [hagrees.eShnum_eq hapart]
    rw [logRounds_congr fun k hk => relRound_eq hapart hagrees hk]
  · rfl

/-! ## The load -/

theorem linkAccesses_inside_iff (hapart : WritesApart b) :
    (∀ a ∈ linkAccesses site b, a.Inside size) ↔ LinkContained site b size := by
  have hmore : (logRounds (sectionRound site b) (eShnum b) 0).2 = true ↔
      ∀ i < eShnum b, SectionResolves site b i := by
    rw [logRounds_more_iff]
    simp only [sectionRound_more_iff]
  rw [linkAccesses_eq hapart, linkContained_iff, List.forall_mem_append, forall_mem_logRounds]
  simp only [sectionRound_more_iff, sectionRound_inside_iff]
  refine and_congr_right fun _ => ?_
  rw [← hmore]
  split_ifs with hend
  · rw [forall_mem_logRounds]
    simp only [relRound_more_iff, relRound_inside_iff, hend, true_imp_iff]
  · simp [hend]

theorem imageAccesses_inside_iff (hapart : site.PlacesImage → WritesApart b) :
    (∀ a ∈ imageAccesses site b, a.Inside size) ↔ ImageContained site b size := by
  rw [imageContained_iff]
  unfold imageAccesses
  simp only [List.forall_mem_append, List.forall_mem_flatMap, List.mem_range,
    sizeReads_inside_iff]
  refine and_congr_right fun _ => ?_
  by_cases hplaces : site.PlacesImage
  · rw [if_pos hplaces]
    simp only [List.forall_mem_append, List.forall_mem_flatMap, List.mem_range,
      placeReads_inside_iff, linkAccesses_inside_iff (hapart hplaces), hplaces, true_imp_iff]
  · rw [if_neg hplaces]
    simp [hplaces]

theorem namedAccesses_inside_iff (name : Nat)
    (hapart : NewModule site b name → site.PlacesImage → WritesApart b) :
    (∀ a ∈ namedAccesses site b name, a.Inside size) ↔ NameContained site b size name := by
  have hnew : ((logRounds (moduleRound site b name) site.modules.length 0).2 = true ∧
      site.module = true) ↔ NewModule site b name := by
    rw [logRounds_more_iff]
    simp [NewModule, moduleRound, OtherModule]
  rw [nameContained_iff]
  unfold namedAccesses
  dsimp only
  rw [List.forall_mem_append, modules_inside_iff]
  refine and_congr_right fun _ => ?_
  split_ifs with hgoes
  · have himage : (∀ a ∈ imageAccesses site b, a.Inside size) ↔ ImageContained site b size :=
      imageAccesses_inside_iff (hapart (hnew.mp hgoes))
    simp only [List.forall_mem_cons, inside_read, himage, hnew.mp hgoes, true_imp_iff]
  · simp [mt hnew.mpr hgoes]

/-- One string table, which is also the section with the module's name, and one symbol. -/
def smallObject : Mem :=
  ofPieces [(0, elfIdent), (16, [1, 0, 3, 0, 1, 0, 0, 0]), (32, [104]), (46, [40, 0, 2, 0, 0, 0]),
    (52, cString "m\x00.bl_mod_name\x00bl_module_initialize"),
    (88, [15, 0, 0, 0, 0, 0, 0, 0, 0, 0, 0, 0, 0x12, 0, 0, 0]),
    (104, [2, 0, 0, 0, 1, 0, 0, 0, 2, 0, 0, 0, 0, 0, 0, 0, 52, 0, 0, 0, 36]), (136, [1]),
    (144, [0, 0, 0, 0, 2, 0, 0, 0, 0, 0, 0, 0, 0, 0, 0, 0, 88, 0, 0, 0, 16]),
    (176, [4, 0, 0, 0, 16])]

/-- There is room for everything, and no module yet. -/
def emptySite : LoadSite := ⟨0x100000, [], true, true, 0x200000, ⟨fun _ => none, 0⟩⟩

theorem smallObject_symtab (hi : i < eShnum smallObject)
    (htype : (sectionAt smallObject i).shType = shtSymtab) : i = 1 := by
  rw [show eShnum smallObject = 2 by decide +kernel] at hi
  interval_cases i
  · exact absurd htype (by decide +kernel)
  · rfl

theorem smallObject_symbol (h : HasSymbol smallObject i j) : i = 1 ∧ j = 0 := by
  obtain ⟨hi, htype, hj⟩ := h
  obtain rfl := smallObject_symtab hi htype
  rw [show (sectionAt smallObject 1).entries = 1 by decide +kernel] at hj
  omega

theorem smallObject_unwritten {offset len : Nat} (h : offset + len ≤ 92 ∨ 101 ≤ offset) :
    Unwritten smallObject offset len := by
  intro x hlow hhigh i j hsym
  obtain ⟨rfl, rfl⟩ := smallObject_symbol hsym
  rw [show symbolOffset smallObject 1 0 = 88 by decide +kernel, WrittenAt]
  omega

theorem smallObject_writesApart : WritesApart smallObject where
  header := smallObject_unwritten (by decide)
  sections := by
    intro i hi k hk
    rw [show eShnum smallObject = 2 by decide +kernel] at hi
    have hoffset : sectionOffset smallObject i = 104 + 40 * i := by
      unfold sectionOffset
      rw [show (ehdr smallObject).eShoff.toNat = 104 by decide +kernel]
      omega
    rw [hoffset, Nat.mod_eq_of_lt (by omega)]
    exact smallObject_unwritten (by omega)
  strings := by
    intro i hi htype
    obtain rfl := smallObject_symtab hi htype
    have hlink : (spacedOffset smallObject (sectionAt smallObject 1).shLink.toNat + 16) % 2 ^ 32 =
        120 := by decide +kernel
    rw [hlink]
    exact smallObject_unwritten (by decide)
  symtabs := by
    rw [show eShnum smallObject = 2 by decide +kernel]
    intro i hi htype
    interval_cases i <;> exact absurd htype (by decide +kernel)
  symbols := by
    intro i j i' j' hsym hsym' hother
    obtain ⟨rfl, rfl⟩ := smallObject_symbol hsym
    exact absurd (smallObject_symbol hsym') (by omega)
  names := by
    intro i j hsym k hbefore
    obtain ⟨rfl, rfl⟩ := smallObject_symbol hsym
    have hname : symbolNameOffset smallObject 1 0 = 67 := by decide +kernel
    have hk : k ≤ 20 := by
      by_contra hlong
      exact hbefore 20 (by omega) (by decide +kernel)
    rw [hname]
    exact smallObject_unwritten (by omega)
  relocations := by
    rw [show eShnum smallObject = 2 by decide +kernel]
    intro i hi htype
    interval_cases i <;> exact absurd htype (by decide +kernel)

/-- An ELF header alone: its one section header has no size, and begins where the object ends. -/
def headerOnly : Mem :=
  ofPieces [(0, elfIdent), (16, [1, 0, 3, 0, 1, 0, 0, 0]), (32, [52]), (46, [0, 0, 1, 0, 0, 0])]

end BootLoader.Elf

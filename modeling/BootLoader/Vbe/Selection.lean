import BootLoader.Driver.Ledger
import BootLoader.Vbe.RealMode

/-!
# Which mode is set

The first mode of the BIOS's list that is fit, whatever the BIOS does to the memory of the list
after it was copied; and if there is none, or it cannot be set, the copy is given back.
-/

open ByteMemory

namespace BootLoader.Vbe

open Driver Video

variable {p : Platform} {s : State} {n mode : BitVec 16} {m block info info' : Mem}

/-! ## Calls of the BIOS -/

@[simp] theorem setWidth_setLow (r : BitVec 32) (v : BitVec 16) : (setLow r v).setWidth 16 = v := by
  rw [setLow, BitVec.setWidth_append]
  simp

/-- What is at the pointer that a call was given. -/
def filled (m : Mem) (ptr : BitVec 32) (size : Nat) (block : Mem) : Mem :=
  writeFar m (blBiosPmToRmSegment ptr) (blBiosPmToRmOffset ptr) size block

/-- What a call leaves that has a block to fill in, and the registers it answers with. -/
def answer (regs : BlBiosRegisters) (m : Mem) (card : Card) (ptr : BitVec 32) (block : Option Mem)
    (size : Nat) : Mem × Card × BlBiosRegisters :=
  match block with
  | none => (m, card, regs.setAx vbeFailure)
  | some block => (filled m ptr size block, card, regs.setAx blVbeSuccess)

section

variable {regs : BlBiosRegisters} (bios : VideoBios) (m : Mem) (card : Card) (mode : BitVec 16)
  (ptr : BitVec 32)

theorem interrupt_info (h : regs.ax = 0x4f00) (hes : regs.es = blBiosPmToRmSegment ptr)
    (hdi : regs.di = blBiosPmToRmOffset ptr) :
    bios.interrupt regs m card = answer regs m card ptr bios.infoBlock sizeofInfoBlock := by
  rw [VideoBios.interrupt, if_pos h, hes, hdi]
  cases bios.infoBlock <;> rfl

theorem interrupt_modeInfo (h : regs.ax = 0x4f01) (hmode : regs.cx = mode)
    (hes : regs.es = blBiosPmToRmSegment ptr) (hdi : regs.di = blBiosPmToRmOffset ptr) :
    bios.interrupt regs m card =
      answer regs m card ptr (bios.modeInfo mode) sizeofModeInfoBlock := by
  rw [VideoBios.interrupt, h, hmode, hes, hdi, if_neg (by decide), if_pos rfl]
  cases bios.modeInfo mode <;> rfl

theorem interrupt_setMode (h : regs.ax = 0x4f02) (hmode : regs.bx = mode) :
    bios.interrupt regs m card =
      if bios.canSet mode then (m, { card with mode := some mode }, regs.setAx blVbeSuccess)
      else (m, card, regs.setAx vbeFailure) := by
  rw [VideoBios.interrupt, h, hmode]
  rfl

theorem interrupt_setStart (x y : BitVec 16) (h : regs.ax = 0x4f07)
    (hbl : regs.bx.setWidth 8 = (0 : BitVec 8)) (hx : regs.cx = x) (hy : regs.dx = y) :
    bios.interrupt regs m card =
      if bios.canStart then (m, { card with start := (x, y) }, regs.setAx blVbeSuccess)
      else (m, card, regs.setAx vbeFailure) := by
  rw [VideoBios.interrupt, h, hbl, hx, hy]
  rfl

end

@[simp] theorem ax_setAx (r : BlBiosRegisters) (v : BitVec 16) : (r.setAx v).ax = v :=
  setWidth_setLow r.eax v

theorem vbeFailure_ne : vbeFailure ≠ blVbeSuccess := by decide

theorem blVbeGetModeInfoBlock_eq (p : Platform) (mode : BitVec 16) (ptr : BitVec 32) (s : State) :
    blVbeGetModeInfoBlock p mode ptr s =
      if mode < 0x100 then (s, .unsupported)
      else
        match p.bios.modeInfo mode with
        | none => (s, .failure)
        | some block =>
          ({ s with mem := filled s.mem ptr sizeofModeInfoBlock block }, .success) := by
  rw [blVbeGetModeInfoBlock]
  split_ifs with hlow
  · rfl
  · dsimp only
    rw [biosInterrupt, interrupt_modeInfo _ _ _ mode ptr]
    · cases p.bios.modeInfo mode with
      | none =>
        dsimp only [answer]
        simp only [ax_setAx, vbeFailure_ne, if_false]
      | some block =>
        dsimp only [answer]
        simp only [ax_setAx, if_true]
    · exact setWidth_setLow _ _
    · exact setWidth_setLow _ _
    · rfl
    · exact setWidth_setLow _ _

/-- The number of a mode as it is set: of 9 bits, and with a linear frame buffer. -/
def modeWithFlags (mode : BitVec 16) : BitVec 16 := 1 <<< 14 ||| (mode &&& 0x1ff)

theorem blVbeSetMode_eq (p : Platform) (mode : BitVec 16) (s : State) :
    blVbeSetMode p mode s =
      if p.bios.canSet (modeWithFlags mode) then
        ({ s with card := { s.card with mode := some (modeWithFlags mode) } }, .success)
      else (s, .failure) := by
  rw [blVbeSetMode]
  dsimp only
  have hfailed : setLow (setLow 0 0x4f02) vbeFailure ≠ 0x0000004f := by decide
  have hdone : setLow (setLow 0 0x4f02) blVbeSuccess = 0x0000004f := by decide
  rw [biosInterrupt, interrupt_setMode _ _ _ (modeWithFlags mode)]
  · cases p.bios.canSet (modeWithFlags mode) with
    | false =>
      simp only [BlBiosRegisters.setAx, blBiosInitRegisters, hfailed, if_false,
        Bool.false_eq_true]
    | true =>
      simp only [BlBiosRegisters.setAx, blBiosInitRegisters, hdone, if_true]
  · exact setWidth_setLow _ _
  · exact setWidth_setLow _ _

theorem blVbeSetDisplayStart_eq (p : Platform) (x y : BitVec 16) (s : State) :
    blVbeSetDisplayStart p x y s =
      if p.bios.canStart then ({ s with card := { s.card with start := (x, y) } }, .success)
      else (s, .failure) := by
  rw [blVbeSetDisplayStart]
  dsimp only
  rw [biosInterrupt, interrupt_setStart _ _ _ x y]
  · cases p.bios.canStart with
    | false => simp only [ax_setAx, vbeFailure_ne, if_false, Bool.false_eq_true]
    | true => simp only [ax_setAx, if_true]
  · exact setWidth_setLow _ _
  · rfl
  · exact setWidth_setLow _ _
  · exact setWidth_setLow _ _

/-- The block is one that the driver takes for the VBE's. -/
def Valid (block : Mem) : Prop :=
  signature block = blVbeInfoBlockSignature ∧
    (version block = blVbeVersion20 ∨ version block = blVbeVersion30)

instance (block : Mem) : Decidable (Valid block) := inferInstanceAs (Decidable (_ ∧ _))

theorem infoBlock_status {regs : BlBiosRegisters} (h : regs.ax = blVbeSuccess) (block : Mem) :
    (if regs.ax ≠ blVbeSuccess then BlStatus.failure
      else if signature block ≠ blVbeInfoBlockSignature then .unsupported
      else if version block ≠ blVbeVersion20 ∧ version block ≠ blVbeVersion30 then .unsupported
      else .success) = if Valid block then .success else .unsupported := by
  rw [if_neg (not_not.mpr h)]
  by_cases hsignature : signature block = blVbeInfoBlockSignature
  · rw [if_neg (not_not.mpr hsignature)]
    by_cases hversion : version block = blVbeVersion20 ∨ version block = blVbeVersion30
    · rw [if_neg (fun h => hversion.elim h.1 h.2), if_pos ⟨hsignature, hversion⟩]
    · rw [if_pos (not_or.mp hversion), if_neg fun h => hversion h.2]
  · rw [if_pos hsignature, if_neg fun h => hsignature h.1]

theorem blVbeGetInfoBlock_eq (p : Platform) (ptr : BitVec 32) (s : State) :
    blVbeGetInfoBlock p ptr s =
      match p.bios.infoBlock with
      | none => (s, .failure)
      | some block =>
        ({ s with mem := filled s.mem ptr sizeofInfoBlock block },
          if Valid (blockAt (filled s.mem ptr sizeofInfoBlock block) ptr) then .success
          else .unsupported) := by
  rw [blVbeGetInfoBlock, biosInterrupt, interrupt_info _ _ _ ptr]
  · cases p.bios.infoBlock with
    | none =>
      exact Prod.ext rfl (if_pos fun h => vbeFailure_ne ((ax_setAx _ _).symm.trans h))
    | some block =>
      dsimp only [answer]
      generalize filled s.mem ptr sizeofInfoBlock block = mem
      exact Prod.ext rfl (infoBlock_status (ax_setAx _ _) _)
  · exact setWidth_setLow _ _
  · rfl
  · exact setWidth_setLow _ _

/-! ## Blocks by their bytes -/

theorem read16_congr {a b : Mem} {size k : Nat} (h : ∀ i < size, a i = b i) (hk : k + 2 ≤ size) :
    read16 a k = read16 b k := by
  simp only [read16, readLE, h k (by omega), h (k + 1) (by omega)]

theorem read32_congr {a b : Mem} {size k : Nat} (h : ∀ i < size, a i = b i) (hk : k + 4 ≤ size) :
    read32 a k = read32 b k :=
  readLE_congr_at fun i hi => h (k + i) (by omega)

theorem acceptable_congr (h : ∀ k < sizeofModeInfoBlock, info' k = info k) :
    Acceptable info' ↔ Acceptable info := by
  have hword : ∀ k, k + 2 ≤ sizeofModeInfoBlock → read16 info' k = read16 info k :=
    fun k hk => read16_congr h hk
  simp only [Acceptable, xResolution, yResolution, modeAttributes, memoryModel, bitsPerPixel,
    redMaskSize, greenMaskSize, blueMaskSize, reservedMaskSize, hword 0 (by decide),
    hword 18 (by decide), hword 20 (by decide), h 25 (by decide), h 27 (by decide),
    h 31 (by decide), h 33 (by decide), h 35 (by decide), h 37 (by decide)]

/-- What a mode's block says about the frame buffer. -/
def infoOf (info : Mem) : BlVideoInfo where
  width := xResolution info
  height := yResolution info
  pitch := bytesPerScanLine info
  frameBuffer := physicalBaseAddress info
  bitsPerPixel := bitsPerPixel info
  bytesPerPixel := (bitsPerPixel info + (bitsPerPixel info &&& 0x7)) >>> 3 % 2 ^ 8
  red := ⟨redFieldPosition info, redMaskSize info⟩
  green := ⟨greenFieldPosition info, greenMaskSize info⟩
  blue := ⟨blueFieldPosition info, blueMaskSize info⟩
  reserved := ⟨reservedFieldPosition info, reservedMaskSize info⟩

theorem infoOf_congr (h : ∀ k < sizeofModeInfoBlock, info' k = info k) :
    infoOf info' = infoOf info := by
  have hword : ∀ k, k + 2 ≤ sizeofModeInfoBlock → read16 info' k = read16 info k :=
    fun k hk => read16_congr h hk
  simp only [infoOf, xResolution, yResolution, bytesPerScanLine, physicalBaseAddress, bitsPerPixel,
    redMaskSize, greenMaskSize, blueMaskSize, reservedMaskSize, redFieldPosition,
    greenFieldPosition, blueFieldPosition, reservedFieldPosition, hword 16 (by decide),
    hword 18 (by decide), hword 20 (by decide), read32_congr h (by decide : 40 + 4 ≤ 256),
    h 25 (by decide), h 31 (by decide), h 32 (by decide), h 33 (by decide), h 34 (by decide),
    h 35 (by decide), h 36 (by decide), h 37 (by decide), h 38 (by decide)]

theorem valid_congr (h : ∀ k < sizeofInfoBlock, info' k = info k) : Valid info' ↔ Valid info := by
  simp only [Valid, signature, version, h 0 (by decide), h 1 (by decide), h 2 (by decide),
    h 3 (by decide), read16_congr h (by decide : 4 + 2 ≤ 512)]

/-! ## The list -/

/-- Where the BIOS has the list. -/
def listAddress (info : Mem) : Nat := (blBiosFarPtrToAddress (videoModes info)).toNat

theorem listAddress_congr (h : ∀ k < sizeofInfoBlock, info' k = info k) :
    listAddress info' = listAddress info := by
  rw [listAddress, listAddress, videoModes, videoModes,
    read32_congr h (by decide : 14 + 4 ≤ 512)]

/-- These modes are listed, and then the end. -/
structure ListedAt (m : Mem) (list : Nat) (modes : List (BitVec 16)) : Prop where
  mode : ∀ i (h : i < modes.length), listedMode m list i = modes[i].toNat
  notEnd : ∀ n ∈ modes, n.toNat ≠ blVbeVideoModesListEnd
  stop : listedMode m list modes.length = blVbeVideoModesListEnd
  short : modes.length < 2 ^ 31

variable {modes rest : List (BitVec 16)} {start : Nat} {bytes : Mem} {i : Nat}

theorem ListedAt.listEndFrom (h : ListedAt m start modes) :
    listEndFrom m start listFuel 0 = some modes.length := by
  have hgo : ∀ fuel i, i ≤ modes.length → modes.length - i < fuel →
      Vbe.listEndFrom m start fuel i = some modes.length := by
    intro fuel
    induction fuel with
    | zero => exact fun i _ hi => absurd hi (Nat.not_lt_zero _)
    | succ fuel ih =>
      intro i hi hfuel
      rw [Vbe.listEndFrom]
      rcases Nat.lt_or_ge i modes.length with hlt | hge
      · rw [if_neg, ih (i + 1) hlt (by omega)]
        rw [h.mode i hlt]
        exact h.notEnd _ (List.getElem_mem hlt)
      · obtain rfl : i = modes.length := by omega
        rw [if_pos h.stop]
  have hshort := h.short
  exact hgo listFuel 0 (Nat.zero_le _) (by rw [listFuel]; omega)

theorem listedMode_lt (m : Mem) (start i : Nat) : listedMode m start i < 2 ^ 16 := read16_lt m _

/-- The copy is of the list as it was. -/
theorem read16_copyModes {n : Nat} (hi : i < n) :
    read16 (copyModes m start n bytes) (2 * i) = listedMode m start i := by
  induction n with
  | zero => exact absurd hi (Nat.not_lt_zero i)
  | succ n ih =>
    rw [copyModes]
    rcases Nat.lt_succ_iff_lt_or_eq.mp hi with hlt | rfl
    · rw [read16, write16, readLE_writeLE_apart _ _ (by omega)]
      exact ih hlt
    · rw [read16, write16, readLE_writeLE_same]
      exact Nat.mod_eq_of_lt (listedMode_lt m start i)

/-- From number `i` on, the copy holds these. -/
def CopiedFrom (bytes : Mem) (i : Nat) (rest : List (BitVec 16)) : Prop :=
  ∀ k (h : k < rest.length), BitVec.ofNat 16 (read16 bytes (2 * (i + k))) = rest[k]

theorem ListedAt.copied (h : ListedAt m start modes) :
    CopiedFrom (copyModes m start modes.length bytes) 0 modes := by
  intro k hk
  rw [Nat.zero_add, read16_copyModes hk, h.mode k hk]
  exact BitVec.eq_of_toNat_eq (by simp)

/-! ## The first mode that is fit -/

/-- What the driver is told about a mode. It does not ask for the modes of the VGA. -/
def modeBlock (bios : VideoBios) (n : BitVec 16) : Option Mem :=
  if n < 0x100 then none else bios.modeInfo n

def fit (bios : VideoBios) (n : BitVec 16) : Bool :=
  (modeBlock bios n).any fun block => decide (Acceptable block)

theorem blVbeGetModeInfoBlock_cases (p : Platform) (n : BitVec 16) (ptr : BitVec 32) (s : State) :
    (modeBlock p.bios n = none ∧
        ∃ status ≠ .success, blVbeGetModeInfoBlock p n ptr s = (s, status)) ∨
      ∃ block, modeBlock p.bios n = some block ∧ blVbeGetModeInfoBlock p n ptr s =
        ({ s with mem := filled s.mem ptr sizeofModeInfoBlock block }, .success) := by
  rw [blVbeGetModeInfoBlock_eq, modeBlock]
  split_ifs with hlow
  · exact .inl ⟨rfl, _, by decide, rfl⟩
  · cases p.bios.modeInfo n with
    | none => exact .inl ⟨rfl, _, by decide, rfl⟩
    | some block => exact .inr ⟨block, rfl, rfl⟩

/-- How the loop over the copy ends: without a mode, or at the first that is fit, with its block. -/
inductive Search (p : Platform) (bytes : Mem) (rest : List (BitVec 16)) (mem : Mem) :
    Option Nat → Prop
  | none (h : rest.find? (fit p.bios) = none) : Search p bytes rest mem none
  | some {n block k} (h : rest.find? (fit p.bios) = some n)
      (hblock : modeBlock p.bios n = some block)
      (hmode : BitVec.ofNat 16 (read16 bytes (2 * k)) = n)
      (hinfo : ∀ j < sizeofModeInfoBlock, blockAt mem p.modeInfoBlock j = block j) :
      Search p bytes rest mem (some k)

theorem Search.skip {mem : Mem} {found : Option Nat} (hn : fit p.bios n = false)
    (h : Search p bytes rest mem found) : Search p bytes (n :: rest) mem found := by
  have hfind : (n :: rest).find? (fit p.bios) = rest.find? (fit p.bios) :=
    List.find?_cons_of_neg (by rw [hn]; decide)
  cases h with
  | none h => exact .none (hfind.trans h)
  | some h hblock hmode hinfo => exact .some (hfind.trans h) hblock hmode hinfo

theorem CopiedFrom.tail (h : CopiedFrom bytes i (n :: rest)) : CopiedFrom bytes (i + 1) rest := by
  intro k hk
  rw [Nat.add_right_comm, Nat.add_assoc]
  exact h (k + 1) (Nat.succ_lt_succ hk)

theorem selectFrom_search (hsegment : InSegment p.modeInfoBlock sizeofModeInfoBlock)
    (h : CopiedFrom bytes i rest) (s : State) :
    ∃ mem found, selectFrom p bytes rest.length i s = ({ s with mem }, found) ∧
      Search p bytes rest mem found := by
  induction rest generalizing i s with
  | nil => exact ⟨s.mem, none, rfl, .none rfl⟩
  | cons n rest ih =>
    have hread : BitVec.ofNat 16 (read16 bytes (2 * i)) = n := h 0 (Nat.succ_pos _)
    have hunfit : fit p.bios n = false → ∀ s' : State, (∃ mem, s' = { s with mem }) →
        ∃ mem found, selectFrom p bytes rest.length (i + 1) s' = ({ s with mem }, found) ∧
          Search p bytes (n :: rest) mem found := by
      rintro hn s' ⟨mem', rfl⟩
      obtain ⟨mem, found, hselect, hsearch⟩ := ih h.tail { s with mem := mem' }
      exact ⟨mem, found, hselect, hsearch.skip hn⟩
    rw [List.length_cons, selectFrom, hread]
    rcases blVbeGetModeInfoBlock_cases p n p.modeInfoBlock s with
      ⟨hblock, status, hstatus, hget⟩ | ⟨block, hblock, hget⟩
    · rw [hget]
      dsimp only
      rw [if_neg fun h => hstatus h.1]
      exact hunfit (by rw [fit, hblock]; rfl) s ⟨s.mem, rfl⟩
    · have hinfo : ∀ j < sizeofModeInfoBlock, blockAt (filled s.mem p.modeInfoBlock
          sizeofModeInfoBlock block) p.modeInfoBlock j = block j :=
        fun j hj => blockAt_writeFar hsegment s.mem block hj
      have hfit : fit p.bios n = decide (Acceptable block) := by rw [fit, hblock]; rfl
      rw [hget]
      dsimp only
      generalize filled s.mem p.modeInfoBlock sizeofModeInfoBlock block = mem at hinfo ⊢
      by_cases hok : Acceptable block
      · simp only [acceptable_congr hinfo, hok, and_self, if_true]
        refine ⟨mem, some i, rfl, .some (List.find?_cons_of_pos ?_) hblock hread hinfo⟩
        rw [hfit, decide_eq_true hok]
      · simp only [acceptable_congr hinfo, hok, and_false, if_false]
        exact hunfit (hfit.trans (decide_eq_false hok)) _ ⟨mem, rfl⟩

end BootLoader.Vbe

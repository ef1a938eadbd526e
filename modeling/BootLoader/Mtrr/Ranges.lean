import BootLoader.Lib.AlignedBlock
import BootLoader.Mtrr.Code

/-!
# Which addresses are write-combining

A register pair matches the addresses of an aligned block of a power of two. Registers of other
types that match some of them too are not looked for.
-/

open RoundUp

namespace BootLoader.Mtrr

/-! ## What the hardware does -/

def physicalWidth (cpuid : Cpuid) : Nat :=
  if 0x80000008 ≤ (cpuid 0x80000000).eax then
    ((cpuid 0x80000008).eax &&& blCpuidFunction0x80000008PhysAddrSize).toNat
  else 36

def variableCount (msrs : Msrs) : Nat := ((blRdmsr msrs blMsrMtrr).1 &&& blMsrMtrrVcnt).toNat

def Valid (msrs : Msrs) (i : Nat) : Prop :=
  msrs (blMsrMtrrPhysmaskN i) &&& blMsrMtrrPhysmaskV ≠ 0

instance (msrs : Msrs) (i : Nat) : Decidable (Valid msrs i) := inferInstanceAs (Decidable (_ ≠ _))

def memoryType (msrs : Msrs) (i : Nat) : BitVec 64 := msrs (blMsrMtrrPhysbaseN i) &&& 0xff

/-- The page number agrees with the base where the mask has a bit. -/
def Matches (cpuid : Cpuid) (msrs : Msrs) (i : Nat) (a : BitVec 64) : Prop :=
  Valid msrs i ∧
    (a ^^^ msrs (blMsrMtrrPhysbaseN i)) &&&
      (msrs (blMsrMtrrPhysmaskN i) &&& (physicalAddressMask cpuid &&& ~~~0xfff)) = 0#64

structure InRange (start len : Nat) (a : BitVec 64) : Prop where
  start_le : start ≤ a.toNat
  lt_end : a.toNat < start + len

/-! ## What is asked for -/

/-- No register of a type other than uncacheable and write-combining is in the way. -/
def NoConflict (cpuid : Cpuid) (msrs : Msrs) (start len : Nat) : Prop :=
  ∀ i < variableCount msrs, Valid msrs i → memoryType msrs i ≠ 0 → memoryType msrs i ≠ 1 →
    ∀ a, InRange start len a → ¬Matches cpuid msrs i a

structure WriteCombines (cpuid : Cpuid) (msrs msrs' : Msrs) (start len i : Nat) : Prop where
  unused : ¬Valid msrs i
  others : ∀ n, n ≠ blMsrMtrrPhysbaseN i → n ≠ blMsrMtrrPhysmaskN i → msrs' n = msrs n
  memoryType_eq : memoryType msrs' i = 1
  matches_iff : ∀ a : BitVec 64, a.toNat < 2 ^ physicalWidth cpuid →
    (Matches cpuid msrs' i a ↔ InRange start len a)

/-- At most one pair is programmed, and it is exact. -/
def Exact (cpuid : Cpuid) (msrs msrs' : Msrs) (start len : Nat) : Prop :=
  msrs' = msrs ∨ ∃ i < variableCount msrs,
    WriteCombines cpuid msrs msrs' start len i ∧ NoConflict cpuid msrs start len

/-- The check lets the range pass the register. -/
def Clear (msrs : Msrs) (ptr size addrmask : BitVec 64) (i : Nat) : Prop :=
  Valid msrs i → blMtrrCheckRangeOverlap ptr size addrmask (msrs (blMsrMtrrPhysbaseN i))
    (msrs (blMsrMtrrPhysmaskN i)) = true

instance (msrs : Msrs) (ptr size addrmask : BitVec 64) (i : Nat) :
    Decidable (Clear msrs ptr size addrmask i) :=
  inferInstanceAs (Decidable (_ → _))

/-- Nothing of what is checked is in the way. -/
structure Programs (cpuid : Cpuid) (msrs : Msrs) (start len : Nat) : Prop where
  mtrr : (cpuid 0x1).edx &&& blCpuidFunction0x1Mtrr ≠ 0
  writeCombining : (blRdmsr msrs blMsrMtrr).1 &&& blMsrMtrrWc ≠ 0
  count_ne : variableCount msrs ≠ 0
  count_le : variableCount msrs ≤ 8
  power : ∃ k, len = 2 ^ k
  aligned : len ∣ start
  free : ∃ i < variableCount msrs, ¬Valid msrs i
  clear : ∀ i < variableCount msrs, Clear msrs (BitVec.ofNat 64 start) (BitVec.ofNat 64 len)
    (physicalAddressMask cpuid) i

def pageUp (x : BitVec 64) : Nat := roundUp x.toNat (2 ^ 12)

/-- The rounded range lies in the physical address space. -/
structure Mapped (cpuid : Cpuid) (ptr size : BitVec 64) : Prop where
  width_ge : 36 ≤ physicalWidth cpuid
  width_le : physicalWidth cpuid ≤ 52
  size_pos : 0 < size.toNat
  range_le : pageUp ptr + pageUp size ≤ 2 ^ physicalWidth cpuid

variable {cpuid : Cpuid} {msrs : Msrs} {ptr size addrmask x y : BitVec 64} {i j k n start len : Nat}

/-! ## Registers -/

theorem join_rdmsr (msrs : Msrs) (msr : Nat) : joinHalves (blRdmsr msrs msr) = msrs msr := by
  refine BitVec.eq_of_getLsbD_eq fun i hi => ?_
  unfold joinHalves blRdmsr
  simp only [BitVec.getLsbD_or, BitVec.getLsbD_shiftLeft, BitVec.getLsbD_setWidth,
    BitVec.getLsbD_ushiftRight]
  by_cases hlow : i < 32
  · simp [hi, hlow]
  · simp [hi, hlow, show i - 32 < 32 by omega, show i - 32 < 64 by omega,
      show 32 + (i - 32) = i by omega]

theorem wrmsr_halves (msrs : Msrs) (msr : Nat) (x : BitVec 64) :
    blWrmsr msrs msr ((x &&& 0xffffffff).setWidth 32) ((x >>> 32).setWidth 32) =
      Function.update msrs msr x := by
  have hlow : (x &&& 0xffffffff).setWidth 32 = x.setWidth 32 := by
    rw [BitVec.setWidth_and, show (0xffffffff : BitVec 64).setWidth 32 = BitVec.allOnes 32 from rfl,
      BitVec.and_allOnes]
  unfold blWrmsr
  rw [hlow]
  congr 1
  refine BitVec.eq_of_getLsbD_eq fun i hi => ?_
  rw [BitVec.getLsbD_append]
  by_cases hhalf : i < 32
  · simp [hhalf]
  · simp [hi, hhalf, show i - 32 < 32 by omega, show 32 + (i - 32) = i by omega]

/-! ## Arithmetic -/

theorem blMemoryAlignUp_toNat (hk : k < 64) (hfits : roundUp x.toNat (2 ^ k) < 2 ^ 64) :
    (blMemoryAlignUp x (BitVec.ofNat 64 (2 ^ k))).toNat = roundUp x.toNat (2 ^ k) := by
  rw [blMemoryAlignUp, toNat_alignUp x hk, wrapped_roundUp _ hk, Nat.mod_eq_of_lt hfits]

theorem physicalAddressMask_bit (hwidth : physicalWidth cpuid ≤ 52) (i : Nat) :
    (physicalAddressMask cpuid).getLsbD i = decide (i < physicalWidth cpuid) := by
  have hmask : ∀ w ≤ 52, (((1 : BitVec 64) <<< w) - 1).getLsbD i = decide (i < w) := by
    intro w hw
    have hpos := Nat.two_pow_pos w
    have hpow : 2 ^ w < 2 ^ 64 := Nat.pow_lt_pow_right (by decide) (by omega)
    have hone : ((1 : BitVec 64) <<< w).toNat = 2 ^ w := by
      rw [BitVec.toNat_shiftLeft, Nat.shiftLeft_eq, show (1 : BitVec 64).toNat = 1 from rfl,
        one_mul, Nat.mod_eq_of_lt hpow]
    have hval : (((1 : BitVec 64) <<< w) - 1).toNat = 2 ^ w - 1 := by
      rw [BitVec.toNat_sub, hone, show (1 : BitVec 64).toNat = 1 from rfl]
      omega
    rw [BitVec.getLsbD, hval, Nat.testBit_two_pow_sub_one]
  unfold physicalAddressMask physicalWidth at *
  split_ifs at hwidth ⊢
  · exact hmask _ hwidth
  · exact hmask 36 (by decide)

theorem Mapped.space_le (h : Mapped cpuid ptr size) : 2 ^ physicalWidth cpuid ≤ 2 ^ 52 :=
  Nat.pow_le_pow_right (by decide) h.width_le

theorem Mapped.len_pos (h : Mapped cpuid ptr size) : 0 < pageUp size :=
  h.size_pos.trans_le (le_roundUp (by decide))

theorem page_dvd (x : BitVec 64) : 2 ^ 12 ∣ pageUp x := dvd_roundUp _ _

theorem alignUp_page (hx : pageUp x < 2 ^ 64) :
    blMemoryAlignUp x 0x1000 = BitVec.ofNat 64 (pageUp x) := by
  apply BitVec.eq_of_toNat_eq
  rw [BitVec.toNat_ofNat, Nat.mod_eq_of_lt hx]
  exact @blMemoryAlignUp_toNat x 12 (by decide) hx

theorem power_iff (hpos : 0 < n) (hn : n < 2 ^ 64) :
    BitVec.ofNat 64 n &&& (BitVec.ofNat 64 n - 1) = 0 ↔ ∃ k, n = 2 ^ k := by
  have hand : (BitVec.ofNat 64 n &&& (BitVec.ofNat 64 n - 1)).toNat = n &&& (n - 1) := by
    rw [BitVec.toNat_and, BitVec.toNat_sub, BitVec.toNat_ofNat, Nat.mod_eq_of_lt hn,
      show (1 : BitVec 64).toNat = 1 from rfl]
    congr 1
    omega
  have hpower := Nat.and_sub_one_eq_zero_iff_isPowerOfTwo hpos.ne'
  rw [← BitVec.toNat_inj, hand]
  exact hpower

/-- Ranges of one page are aligned already. -/
theorem aligned_iff (hlen : n = 2 ^ k) (hpage : 2 ^ 12 ∣ n) (hstart : 2 ^ 12 ∣ start)
    (hend : start + n ≤ 2 ^ 52) :
    (0x1000 < BitVec.ofNat 64 n ∧
      BitVec.ofNat 64 start ≠ blMemoryAlignUp (BitVec.ofNat 64 start) (BitVec.ofNat 64 n)) ↔
      ¬n ∣ start := by
  subst hlen
  have hpos := Nat.two_pow_pos k
  have hk : k < 64 := (Nat.pow_lt_pow_iff_right (by decide)).mp
    (show 2 ^ k < 2 ^ 64 by omega)
  have hto : (BitVec.ofNat 64 start).toNat = start := Nat.mod_eq_of_lt (by omega)
  have hround := roundUp_lt_add (x := start) hpos
  have hup := blMemoryAlignUp_toNat (x := BitVec.ofNat 64 start) hk (by rw [hto]; omega)
  rw [hto] at hup
  have hbig : 0x1000 < BitVec.ofNat 64 (2 ^ k) ↔ 2 ^ 12 < 2 ^ k := by
    rw [BitVec.lt_def, BitVec.toNat_ofNat, Nat.mod_eq_of_lt (show 2 ^ k < 2 ^ 64 by omega)]
    rfl
  rw [hbig, Ne, ← BitVec.toNat_inj, hto, hup]
  constructor
  · rintro ⟨-, hne⟩ hdvd
    exact hne (roundUp_of_dvd hpos hdvd).symm
  · intro hdvd
    refine ⟨?_, fun heq => hdvd (heq ▸ dvd_roundUp start (2 ^ k))⟩
    by_contra hsmall
    have hone : 2 ^ k = 2 ^ 12 := le_antisymm (not_lt.mp hsmall) (Nat.le_of_dvd hpos hpage)
    exact hdvd (hone ▸ hstart)

/-! ## The loop -/

theorem scanEntries_eq (msrs : Msrs) (ptr size addrmask : BitVec 64) (n : Nat) :
    scanEntries msrs ptr size addrmask n =
      if ∀ i < n, Clear msrs ptr size addrmask i then
        some ((List.range n).find? fun i => ¬Valid msrs i)
      else none := by
  induction n with
  | zero => rfl
  | succ n ih =>
    have hmore : (∀ i < n + 1, Clear msrs ptr size addrmask i) ↔
        (∀ i < n, Clear msrs ptr size addrmask i) ∧ Clear msrs ptr size addrmask n := by
      simp only [Nat.lt_succ_iff_lt_or_eq, or_imp, forall_and, forall_eq]
    simp only [scanEntries, ih, join_rdmsr, List.range_succ, List.find?_append, hmore]
    by_cases hall : ∀ i < n, Clear msrs ptr size addrmask i
    · rw [if_pos hall, Option.bind_some]
      by_cases hvalid : msrs (blMsrMtrrPhysmaskN n) &&& blMsrMtrrPhysmaskV = 0
      · have hfree : ¬Valid msrs n := not_not.mpr hvalid
        have hclear : Clear msrs ptr size addrmask n := fun h => absurd h hfree
        rw [if_neg (not_not.mpr hvalid), if_pos (And.intro hall hclear)]
        cases (List.range n).find? fun i => ¬Valid msrs i <;> simp [hfree]
      · have hused : Valid msrs n := hvalid
        rw [if_pos hvalid]
        cases hcheck : blMtrrCheckRangeOverlap ptr size addrmask (msrs (blMsrMtrrPhysbaseN n))
          (msrs (blMsrMtrrPhysmaskN n)) with
        | false =>
          rw [if_pos rfl, if_neg fun h => by simpa [hcheck] using h.2 hused]
        | true =>
          have hclear : Clear msrs ptr size addrmask n := fun _ => hcheck
          rw [if_neg (by decide), if_pos (And.intro hall hclear)]
          simp [hused]
    · rw [if_neg hall, if_neg fun h => hall h.1]
      rfl

/-! ## The pair that is programmed -/

theorem setEntry_msrs (msrs : Msrs) (i : Nat) (ptr size addrmask : BitVec 64) :
    blMtrrSetEntry msrs i ptr size addrmask =
      Function.update (Function.update msrs (blMsrMtrrPhysbaseN i) (ptr &&& addrmask ||| 0x1))
        (blMsrMtrrPhysmaskN i) (~~~(size - 1) &&& addrmask ||| blMsrMtrrPhysmaskV) := by
  simp only [blMtrrSetEntry, wrmsr_halves]

/-! ### Its bits -/

theorem one_bit (i : Nat) : (1 : BitVec 64).getLsbD i = decide (i = 0) := by
  rw [show (1 : BitVec 64) = 1#64 from rfl, BitVec.getLsbD_one]
  simp

theorem lowMask_bit (hk : k < 64) (i : Nat) :
    (BitVec.ofNat 64 (2 ^ k) - 1).getLsbD i = decide (i < k) := by
  have hpos := Nat.two_pow_pos k
  have hlt : 2 ^ k < 2 ^ 64 := Nat.pow_lt_pow_right (by decide) hk
  have hval : (BitVec.ofNat 64 (2 ^ k) - 1).toNat = 2 ^ k - 1 := by
    rw [BitVec.toNat_sub, BitVec.toNat_ofNat, Nat.mod_eq_of_lt hlt,
      show (1 : BitVec 64).toNat = 1 from rfl]
    omega
  rw [BitVec.getLsbD, hval, Nat.testBit_two_pow_sub_one]

theorem page_bit (hdvd : 2 ^ k ∣ x.toNat) (hi : i < k) : x.getLsbD i = false := by
  obtain ⟨c, hc⟩ := hdvd
  rw [BitVec.getLsbD, hc, Nat.testBit_two_pow_mul, decide_eq_false (by omega), Bool.false_and]

/-- Of the stored mask, the bits that compare page numbers. -/
theorem pageMask_bit (hwidth : physicalWidth cpuid ≤ 52) (hpage : 12 ≤ k) (hk : k < 64)
    (hi : i < 64) :
    ((~~~(BitVec.ofNat 64 (2 ^ k) - 1) &&& physicalAddressMask cpuid ||| blMsrMtrrPhysmaskV) &&&
      (physicalAddressMask cpuid &&& ~~~0xfff)).getLsbD i =
      (decide (k ≤ i) && decide (i < physicalWidth cpuid)) := by
  have hvalid : blMsrMtrrPhysmaskV.getLsbD i = decide (i = 11) := by
    revert i
    decide
  have hlow : (0xfff : BitVec 64).getLsbD i = decide (i < 12) := by
    revert i
    decide
  simp only [BitVec.getLsbD_and, BitVec.getLsbD_or, BitVec.getLsbD_not, lowMask_bit hk,
    physicalAddressMask_bit hwidth, hvalid, hlow]
  grind

theorem valid_or (x : BitVec 64) : (x ||| blMsrMtrrPhysmaskV) &&& blMsrMtrrPhysmaskV ≠ 0 := by
  intro hzero
  have hbit := congrArg (fun z => z.getLsbD 11) hzero
  simp [blMsrMtrrPhysmaskV] at hbit

/-- The type bits of the base are not compared. -/
theorem base_and_pageMask {mask : BitVec 64} (hwidth : physicalWidth cpuid ≤ 52) (hpage : 12 ≤ k)
    (hmask : ∀ i < 64, mask.getLsbD i = (decide (k ≤ i) && decide (i < physicalWidth cpuid)))
    (x y : BitVec 64) :
    (x ^^^ (y &&& physicalAddressMask cpuid ||| 0x1)) &&& mask = (x ^^^ y) &&& mask := by
  refine BitVec.eq_of_getLsbD_eq fun i hi => ?_
  simp only [BitVec.getLsbD_and, BitVec.getLsbD_xor, BitVec.getLsbD_or,
    physicalAddressMask_bit hwidth, one_bit, hmask i hi]
  grind

theorem writeCombines_setEntry (h : Mapped cpuid ptr size) (hlen : pageUp size = 2 ^ k)
    (hdvd : pageUp size ∣ pageUp ptr) (hunused : ¬Valid msrs i) :
    WriteCombines cpuid msrs
      (blMtrrSetEntry msrs i (BitVec.ofNat 64 (pageUp ptr)) (BitVec.ofNat 64 (pageUp size))
        (physicalAddressMask cpuid)) (pageUp ptr) (pageUp size) i := by
  have hspace := h.space_le
  have hrange := h.range_le
  have hpages := page_dvd size
  have hne : blMsrMtrrPhysbaseN i ≠ blMsrMtrrPhysmaskN i := by
    unfold blMsrMtrrPhysbaseN blMsrMtrrPhysmaskN blMsrMtrrPhysbase blMsrMtrrPhysmask
    omega
  rw [setEntry_msrs]
  rw [hlen] at hdvd hpages hrange ⊢
  have hpage : 12 ≤ k := (Nat.pow_dvd_pow_iff_le_right (by decide)).mp hpages
  have hk : k < 64 := (Nat.pow_lt_pow_iff_right (by decide)).mp (show 2 ^ k < 2 ^ 64 by omega)
  have hstart : (BitVec.ofNat 64 (pageUp ptr)).toNat = pageUp ptr := Nat.mod_eq_of_lt (by omega)
  refine ⟨hunused, fun n hbase hmask => ?_, ?_, fun a ha => ?_⟩
  · rw [Function.update_of_ne hmask, Function.update_of_ne hbase]
  · unfold memoryType
    rw [Function.update_of_ne hne, Function.update_self]
    refine BitVec.eq_of_getLsbD_eq fun j hj => ?_
    have hbyte : (0xff : BitVec 64).getLsbD j = decide (j < 8) := by
      revert j
      decide
    have hlow : j < 8 → (BitVec.ofNat 64 (pageUp ptr)).getLsbD j = false := fun hj8 =>
      page_bit (by rw [hstart]; exact page_dvd ptr) (show j < 12 by omega)
    simp only [BitVec.getLsbD_and, BitVec.getLsbD_or, one_bit, hbyte]
    grind
  · unfold Matches Valid
    rw [Function.update_self, Function.update_of_ne hne, Function.update_self]
    have hbits := fun j (hj : j < 64) => pageMask_bit h.width_le hpage hk hj
    have hblock := AlignedBlock.xor_and_eq_zero_iff hbits ha (by rw [hstart]; omega)
    rw [base_and_pageMask h.width_le hpage hbits, hblock, hstart, AlignedBlock.mem_iff hdvd]
    exact ⟨fun hin => ⟨hin.2.1, hin.2.2⟩, fun hin => ⟨valid_or _, hin.start_le, hin.lt_end⟩⟩

theorem blMtrrSetWriteCombineCache_eq (h : Mapped cpuid ptr size) (msrs : Msrs) :
    (Programs cpuid msrs (pageUp ptr) (pageUp size) ∧ ∃ i < variableCount msrs, ¬Valid msrs i ∧
      blMtrrSetWriteCombineCache cpuid msrs ptr size =
        blMtrrSetEntry msrs i (BitVec.ofNat 64 (pageUp ptr)) (BitVec.ofNat 64 (pageUp size))
          (physicalAddressMask cpuid)) ∨
    ¬Programs cpuid msrs (pageUp ptr) (pageUp size) ∧
      blMtrrSetWriteCombineCache cpuid msrs ptr size = msrs := by
  have hspace := h.space_le
  have hrange := h.range_le
  have hpower := power_iff h.len_pos (show pageUp size < 2 ^ 64 by omega)
  unfold blMtrrSetWriteCombineCache
  rw [alignUp_page (show pageUp ptr < 2 ^ 64 by omega),
    alignUp_page (show pageUp size < 2 ^ 64 by omega)]
  dsimp only
  by_cases hmtrr : (cpuid 0x1).edx &&& blCpuidFunction0x1Mtrr = 0
  · exact .inr ⟨fun hp => hp.mtrr hmtrr, if_pos hmtrr⟩
  rw [if_neg hmtrr]
  by_cases hcombining : (blRdmsr msrs blMsrMtrr).1 &&& blMsrMtrrWc = 0
  · exact .inr ⟨fun hp => hp.writeCombining hcombining, if_pos hcombining⟩
  rw [if_neg hcombining, ← variableCount]
  by_cases hcount : variableCount msrs = 0 ∨ 8 < variableCount msrs
  · rw [if_pos hcount]
    refine .inr ⟨fun hp => ?_, rfl⟩
    have hne := hp.count_ne
    have hle := hp.count_le
    omega
  rw [if_neg hcount]
  by_cases hpow : ∃ k, pageUp size = 2 ^ k
  · rw [if_neg (not_not.mpr (hpower.mpr hpow))]
    obtain ⟨k, hk⟩ := hpow
    have haligned := aligned_iff hk (page_dvd size) (page_dvd ptr) (hrange.trans hspace)
    by_cases hdvd : pageUp size ∣ pageUp ptr
    · rw [if_neg fun hmis => haligned.mp hmis hdvd, scanEntries_eq]
      by_cases hclear : ∀ i < variableCount msrs, Clear msrs (BitVec.ofNat 64 (pageUp ptr))
          (BitVec.ofNat 64 (pageUp size)) (physicalAddressMask cpuid) i
      · rw [if_pos hclear]
        cases hfree : (List.range (variableCount msrs)).find? fun i => ¬Valid msrs i with
        | none =>
          refine .inr ⟨fun hp => ?_, rfl⟩
          obtain ⟨i, hi, hunused⟩ := hp.free
          have hnone := List.find?_eq_none.mp hfree i (List.mem_range.mpr hi)
          exact hnone (decide_eq_true hunused)
        | some i =>
          have hi := List.mem_range.mp (List.mem_of_find?_eq_some hfree)
          have hunused : ¬Valid msrs i := by simpa using List.find?_some hfree
          exact .inl ⟨⟨hmtrr, hcombining, fun h => hcount (.inl h), by omega, ⟨k, hk⟩, hdvd,
            ⟨i, hi, hunused⟩, hclear⟩, i, hi, hunused, rfl⟩
      · rw [if_neg hclear]
        exact .inr ⟨fun hp => hclear hp.clear, rfl⟩
    · rw [if_pos (haligned.mpr hdvd)]
      exact .inr ⟨fun hp => hdvd hp.aligned, rfl⟩
  · rw [if_pos fun hand => hpow (hpower.mp hand)]
    exact .inr ⟨fun hp => hpow hp.power, rfl⟩

theorem WriteCombines.ne {msrs' : Msrs} (hpair : WriteCombines cpuid msrs msrs' start len i)
    (hpos : 0 < len) (hspace : physicalWidth cpuid ≤ 52)
    (hrange : start + len ≤ 2 ^ physicalWidth cpuid) : msrs' ≠ msrs := by
  rintro rfl
  have hpow := Nat.pow_le_pow_right (show 0 < 2 by decide) hspace
  have hfirst : (BitVec.ofNat 64 start).toNat = start := Nat.mod_eq_of_lt (by omega)
  have hin : InRange start len (BitVec.ofNat 64 start) :=
    ⟨by rw [hfirst], by rw [hfirst]; omega⟩
  exact hpair.unused ((hpair.matches_iff _ (by rw [hfirst]; omega)).mpr hin).1

/-- **A programmed range is exact, and nothing conflicts** exactly if the range is not programmed or
nothing conflicts. -/
theorem writeCombine_exact_iff (cpuid : Cpuid) (msrs : Msrs) (ptr size : BitVec 64)
    (h : Mapped cpuid ptr size) :
    Exact cpuid msrs (blMtrrSetWriteCombineCache cpuid msrs ptr size) (pageUp ptr) (pageUp size) ↔
      (Programs cpuid msrs (pageUp ptr) (pageUp size) →
        NoConflict cpuid msrs (pageUp ptr) (pageUp size)) := by
  obtain ⟨hprograms, i, hi, hunused, hset⟩ | ⟨hnot, hkept⟩ := blMtrrSetWriteCombineCache_eq h msrs
  · obtain ⟨k, hlen⟩ := hprograms.power
    have hpair := writeCombines_setEntry h hlen hprograms.aligned hunused
    rw [hset]
    constructor
    · rintro (hsame | ⟨j, -, -, hconflict⟩) -
      · -- The pair is valid now, so the registers have changed.
        exact absurd hsame (hpair.ne h.len_pos h.width_le h.range_le)
      · exact hconflict
    · exact fun hconflict => .inr ⟨i, hi, hpair, hconflict hprograms⟩
  · rw [hkept]
    exact ⟨fun _ hprograms => absurd hprograms hnot, fun _ => .inl rfl⟩

/-! ### A range that is write-back already -/

/-- With addresses of 36 bits. -/
def smallCpuid : Cpuid := fun f =>
  ⟨if f = 0x80000000 then 0x80000008 else if f = 0x80000008 then 36 else 0, 0, 0, 0x1000⟩

/-- Eight pairs, and the first one holds `base` and `mask`. -/
def firstPair (base mask : BitVec 64) : Msrs := fun n =>
  if n = 0xfe then 0x508 else if n = 0x200 then base else if n = 0x201 then mask else 0

theorem smallCpuid_mapped : Mapped smallCpuid 0xe0000000 0x1000000 :=
  ⟨by decide, by decide, by decide, by decide⟩

theorem lowMemory_exact :
    Exact smallCpuid (firstPair 6 0xf80000800)
        (blMtrrSetWriteCombineCache smallCpuid (firstPair 6 0xf80000800) 0xe0000000 0x1000000)
        (pageUp 0xe0000000) (pageUp 0x1000000) ↔
      (Programs smallCpuid (firstPair 6 0xf80000800) (pageUp 0xe0000000) (pageUp 0x1000000) →
        NoConflict smallCpuid (firstPair 6 0xf80000800) (pageUp 0xe0000000) (pageUp 0x1000000)) :=
  writeCombine_exact_iff smallCpuid (firstPair 6 0xf80000800) 0xe0000000 0x1000000
    smallCpuid_mapped

/-- All four gigabytes are write-back. -/
def allWriteBack : Msrs := firstPair 6 0xf00000800

theorem allWriteBack_programs : Programs smallCpuid allWriteBack 0xe0000000 0x1000000 :=
  ⟨by decide, by decide, by decide, by decide, ⟨24, by decide⟩, by decide, ⟨1, by decide⟩,
    by decide⟩

theorem allWriteBack_not_exact :
    Mapped smallCpuid 0xe0000000 0x1000000 ∧
    ¬Exact smallCpuid allWriteBack
      (blMtrrSetWriteCombineCache smallCpuid allWriteBack 0xe0000000 0x1000000)
      (pageUp 0xe0000000) (pageUp 0x1000000) := by
  refine ⟨smallCpuid_mapped, ?_⟩
  rintro (hsame | ⟨i, -, -, hconflict⟩)
  · obtain ⟨hprograms, i, -, hunused, hset⟩ | ⟨hnot, -⟩ :=
      blMtrrSetWriteCombineCache_eq smallCpuid_mapped allWriteBack
    · have hpair := writeCombines_setEntry (k := 24) smallCpuid_mapped (by decide)
        hprograms.aligned hunused
      rw [← hset] at hpair
      exact hpair.ne (by decide) (by decide) (by decide) hsame
    · exact hnot allWriteBack_programs
  · exact hconflict 0 (by decide) (by decide) (by decide) (by decide) 0xe0000000
      ⟨by decide, by decide⟩ ⟨by decide, by decide⟩

end BootLoader.Mtrr

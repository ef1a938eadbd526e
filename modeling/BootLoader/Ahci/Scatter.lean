import BootLoader.Ahci.Code

/-!
# The scatter list of a command

The number of entries, their sizes and their places are computed apart from each other. They fit
together: each entry but the last is full.
-/

open ByteMemory

namespace BootLoader.Ahci

open Storage (blStorageSectorSize)

/-! ## What the controller reads -/

def BlAhciPrdt.base (e : BlAhciPrdt) : Nat := e.dba.toNat + 2 ^ 32 * e.dbau.toNat

def BlAhciPrdt.bytes (e : BlAhciPrdt) : Nat := e.dbc.toNat + 1

/-- The entries are of `[start, stop)`, one behind the other. -/
def Covers : List BlAhciPrdt → Nat → Nat → Prop
  | [], start, stop => start = stop
  | e :: es, start, stop => e.base = start ∧ Covers es (start + e.bytes) stop

/-- The entries that the header of a slot counts. -/
def BlAhciPort.entries (port : BlAhciPort) (slot : Nat) : List BlAhciPrdt :=
  (List.range (port.commandList slot).prdtl.toNat).map (port.commandTable slot).prdt

/-- The sectors that a drive is asked for, by a command with a 48-bit address. -/
def BlAhciFisHostToDevice.sectors (fis : BlAhciFisHostToDevice) : Option (Nat × Nat) :=
  let lba := fis.lba0.toNat + 2 ^ 8 * fis.lba1.toNat + 2 ^ 16 * fis.lba2.toNat +
    2 ^ 24 * fis.lba3.toNat + 2 ^ 32 * fis.lba4.toNat + 2 ^ 40 * fis.lba5.toNat
  let count := fis.count0.toNat + 2 ^ 8 * fis.count1.toNat
  if fis.fisType = 0x27 ∧ fis.c = 1 ∧ fis.command = 0x25 ∧ fis.device &&& 0x40 ≠ 0 then
    some (lba, if count = 0 then 65536 else count)
  else none

/-- The command in a slot is for these sectors and this buffer. -/
structure CommandBuilt (port : BlAhciPort) (slot : Nat) (command : Byte) (buf : BitVec 32)
    (lba sectors : BitVec 64) : Prop where
  few : (port.entries slot).length ≤ 8
  small : ∀ e ∈ port.entries slot, e.bytes ≤ 4 * 2 ^ 20
  covers : Covers (port.entries slot) buf.toNat (buf.toNat + sectors.toNat * blStorageSectorSize)
  fis : command = blSataCommandReadSectorsDmaExt →
    (port.commandTable slot).cfis.sectors = some (lba.toNat, sectors.toNat)

/-! ## The entries -/

variable {buf : BitVec 32} {count off lba sectors : BitVec 64} {prdt : Nat → BlAhciPrdt}
  {i left n : Nat}

theorem toNat_prdtSectors : prdtSectors.toNat = 8192 := by decide

theorem toNat_blMin (a b : BitVec 64) : (blMin a b).toNat = min a.toNat b.toNat := by
  unfold blMin
  split_ifs with h
  · rw [BitVec.lt_def] at h
    omega
  · rw [BitVec.lt_def] at h
    omega

/-- The bytes of one entry: as many as there are, or those of a full one. -/
def readSize (count : BitVec 64) : BitVec 32 :=
  (blMin count prdtSectors * BitVec.ofNat 64 blStorageSectorSize).setWidth 32

theorem toNat_readSize (count : BitVec 64) :
    (readSize count).toNat = 512 * min count.toNat 8192 := by
  have hsize : (BitVec.ofNat 64 blStorageSectorSize).toNat = 512 := rfl
  rw [readSize, BitVec.toNat_setWidth, BitVec.toNat_mul, toNat_blMin, toNat_prdtSectors, hsize]
  omega

theorem toNat_signExtend_readSize (count : BitVec 64) :
    ((readSize count).signExtend 64).toNat = 512 * min count.toNat 8192 := by
  have hsize := toNat_readSize count
  have hmsb : (readSize count).msb = false := by
    rw [BitVec.msb_eq_decide, hsize]
    simp
    omega
  rw [BitVec.signExtend_eq_setWidth_of_msb_false hmsb, BitVec.toNat_setWidth, hsize]
  omega

/-- The entry that the loop writes. -/
def entry (buf : BitVec 32) (count off : BitVec 64) (old : BlAhciPrdt) : BlAhciPrdt :=
  { old with
    dba := (buf.setWidth 64 + off).setWidth 32
    dbc := (readSize count - 1).setWidth 22
    i := 1 }

theorem entry_base (count : BitVec 64) {old : BlAhciPrdt} (hupper : old.dbau = 0)
    (hin : buf.toNat + off.toNat < 2 ^ 32) :
    (entry buf count off old).base = buf.toNat + off.toNat := by
  rw [BlAhciPrdt.base, entry, hupper]
  simp only [BitVec.toNat_setWidth, BitVec.toNat_add]
  have hbuf := buf.isLt
  have hzero : (0 : BitVec 32).toNat = 0 := rfl
  omega

theorem entry_bytes (buf : BitVec 32) (off : BitVec 64) (old : BlAhciPrdt)
    (hcount : count.toNat ≠ 0) :
    (entry buf count off old).bytes = 512 * min count.toNat 8192 := by
  have hsize := toNat_readSize count
  have hone : (1 : BitVec 32).toNat = 1 := rfl
  rw [BlAhciPrdt.bytes, entry]
  simp only [BitVec.toNat_setWidth, BitVec.toNat_sub, hsize, hone]
  omega

theorem setPrdt_succ (buf : BitVec 32) (left i : Nat) (count off : BitVec 64)
    (prdt : Nat → BlAhciPrdt) :
    setPrdt buf (left + 1) i count off prdt =
      setPrdt buf left (i + 1) (count - prdtSectors) (off + (readSize count).signExtend 64)
        (Function.update prdt i (entry buf count off (prdt i))) := rfl

theorem setPrdt_before {j : Nat} (hj : j < i) : setPrdt buf left i count off prdt j = prdt j := by
  induction left generalizing i count off prdt with
  | zero => rfl
  | succ left ih =>
    rw [setPrdt_succ, ih (by omega)]
    exact Function.update_of_ne (by omega) _ _

/-- From the entry `i` on, `n` sectors being left for so many entries. -/
theorem setPrdt_covers (hcount : left ≠ 0 → count.toNat = n) (hlow : 8192 * left < n + 8192)
    (hhigh : n ≤ 8192 * left) (hin : buf.toNat + off.toNat + 512 * n ≤ 2 ^ 32)
    (hupper : ∀ j, (prdt j).dbau = 0) :
    Covers ((List.range left).map fun k => setPrdt buf left i count off prdt (i + k))
      (buf.toNat + off.toNat) (buf.toNat + off.toNat + 512 * n) := by
  induction left generalizing i n count off prdt with
  | zero =>
    obtain rfl : n = 0 := by omega
    rfl
  | succ left ih =>
    have hn : count.toNat = n := hcount (Nat.succ_ne_zero left)
    have hbytes := entry_bytes buf off (prdt i) (show count.toNat ≠ 0 by omega)
    have hbase := entry_base count (hupper i) (show buf.toNat + off.toNat < 2 ^ 32 by omega)
    have hext := toNat_signExtend_readSize count
    have hoff : (off + (readSize count).signExtend 64).toNat = off.toNat + 512 * min n 8192 := by
      rw [BitVec.toNat_add, hext, hn]
      omega
    have hleft : left ≠ 0 → (count - prdtSectors).toNat = n - 8192 := by
      intro hne
      rw [BitVec.toNat_sub, toNat_prdtSectors, hn]
      omega
    have hupper' : ∀ j, (Function.update prdt i (entry buf count off (prdt i)) j).dbau = 0 := by
      intro j
      by_cases hj : j = i
      · subst hj
        rw [Function.update_self]
        exact hupper j
      · rw [Function.update_of_ne hj]
        exact hupper j
    have hrest := ih (i := i + 1) hleft (by omega) (by omega) (by rw [hoff]; omega) hupper'
    have hstop : buf.toNat + (off.toNat + 512 * min n 8192) + 512 * (n - 8192) =
        buf.toNat + off.toNat + 512 * n := by omega
    rw [hoff, hstop] at hrest
    have hfirst : setPrdt buf left (i + 1) (count - prdtSectors)
        (off + (readSize count).signExtend 64)
        (Function.update prdt i (entry buf count off (prdt i))) (i + 0) =
          entry buf count off (prdt i) := by
      simp only [Nat.add_zero]
      rw [setPrdt_before (Nat.lt_succ_self i), Function.update_self]
    rw [List.range_succ_eq_map, List.map_cons, List.map_map, setPrdt_succ, Covers, hfirst, hbase,
      hbytes, hn, Nat.add_assoc buf.toNat off.toNat]
    refine ⟨rfl, ?_⟩
    have hshift : ∀ k, i + 1 + k = i + (k + 1) := fun k => by omega
    simpa only [hshift, Function.comp_def, Nat.succ_eq_add_one] using hrest

/-! ## The registers -/

theorem toNat_low_byte (x : BitVec 64) : ((x &&& 0xff).setWidth 8).toNat = x.toNat % 256 := by
  rw [BitVec.toNat_setWidth, BitVec.toNat_and]
  change (x.toNat &&& (2 ^ 8 - 1)) % 2 ^ 8 = _
  rw [Nat.and_two_pow_sub_one_eq_mod, Nat.mod_mod]

theorem setFis_sectors (fis : BlAhciFisHostToDevice) (hlba : lba.toNat < 2 ^ 48)
    (hpos : 1 ≤ sectors.toNat) (hsectors : sectors.toNat ≤ 65536) :
    (setFis fis blSataCommandReadSectorsDmaExt lba sectors).sectors =
      some (lba.toNat, sectors.toNat) := by
  rw [setFis, if_pos rfl, BlAhciFisHostToDevice.sectors]
  simp only [toNat_low_byte, BitVec.toNat_ushiftRight, Nat.shiftRight_eq_div_pow]
  rw [if_pos (by decide)]
  refine congrArg some (Prod.ext ?_ ?_)
  · dsimp only
    omega
  · dsimp only
    split_ifs <;> omega

/-! ## The command -/

theorem clearTable_dbau (table : BlAhciCommandTable) (i : Nat) :
    ((clearTable table).prdt i).dbau = 0 := by
  unfold clearTable
  dsimp only
  split_ifs <;> rfl

def prdtl (sectors : BitVec 64) : BitVec 16 :=
  (sectors / prdtSectors + if 0 < sectors % prdtSectors then 1 else 0).setWidth 16

theorem prdtl_bounds (hsectors : sectors.toNat ≤ 65536) :
    (prdtl sectors).toNat ≤ 8 ∧ 8192 * (prdtl sectors).toNat < sectors.toNat + 8192 ∧
      sectors.toNat ≤ 8192 * (prdtl sectors).toNat := by
  have hrest : 0 < sectors % prdtSectors ↔ 0 < sectors.toNat % 8192 := by
    rw [BitVec.lt_def, BitVec.toNat_umod, toNat_prdtSectors]
    rfl
  have hquotient : (sectors / prdtSectors).toNat = sectors.toNat / 8192 := by
    rw [BitVec.toNat_udiv, toNat_prdtSectors]
  have hzero : (0 : BitVec 64).toNat = 0 := rfl
  have hone : (1 : BitVec 64).toNat = 1 := rfl
  simp only [prdtl, hrest]
  split_ifs with h
  · rw [BitVec.toNat_setWidth, BitVec.toNat_add, hquotient, hone]
    omega
  · rw [BitVec.toNat_setWidth, BitVec.toNat_add, hquotient, hzero]
    omega

theorem blAhciDoCommand_tables (hba : Hba) {commandSlots : Nat} {port : BlAhciPort} (command : Byte)
    (buf : BitVec 32) (lba sectors : BitVec 64) (hsectors : sectors.toNat ≤ 65536) {slot : Nat}
    (hslot : blAhciFindFreeCommandSlot port commandSlots = some slot) :
    let port' := (blAhciDoCommand hba commandSlots port command buf lba sectors).1
    (port'.commandList slot).prdtl = prdtl sectors ∧
      (port'.commandTable slot).cfis = setFis zeroFis command lba sectors ∧
      (port'.commandTable slot).prdt = setPrdt buf (prdtl sectors).toNat 0 sectors 0
        (clearTable (port.commandTable slot)).prdt := by
  have hnot : ¬ blAhciPrdtEntries * prdtSectors < sectors := by
    have hlimit : (blAhciPrdtEntries * prdtSectors).toNat = 65536 := by decide
    rw [BitVec.lt_def, hlimit]
    omega
  rw [blAhciDoCommand, if_neg hnot, hslot]
  dsimp only
  rw [Function.update_self, Function.update_self]
  exact ⟨rfl, rfl, rfl⟩

/-- **The scatter list.** A request for more than 65536 sectors changes nothing. Any other that
finds a slot has there at most eight entries, which are of the buffer and nothing else, and
registers for the sectors that were asked for. -/
theorem blAhciDoCommand_scatter (hba : Hba) (commandSlots : Nat) (port : BlAhciPort)
    (command : Byte) (buf : BitVec 32) (lba sectors : BitVec 64) :
    (65536 < sectors.toNat → blAhciDoCommand hba commandSlots port command buf lba sectors =
      (port, .invalidParameters)) ∧
    (1 ≤ sectors.toNat → sectors.toNat ≤ 65536 → lba.toNat < 2 ^ 48 →
      buf.toNat + sectors.toNat * blStorageSectorSize ≤ 2 ^ 32 →
        ∀ slot, blAhciFindFreeCommandSlot port commandSlots = some slot →
          CommandBuilt (blAhciDoCommand hba commandSlots port command buf lba sectors).1 slot
            command buf lba sectors) := by
  constructor
  · intro hlarge
    have hlimit : (blAhciPrdtEntries * prdtSectors).toNat = 65536 := by decide
    rw [blAhciDoCommand, if_pos (by rw [BitVec.lt_def, hlimit]; exact hlarge)]
  · intro hpos hsectors hlba hin slot hslot
    obtain ⟨hlist, hfis, htable⟩ :=
      blAhciDoCommand_tables hba command buf lba sectors hsectors hslot
    obtain ⟨hfew, hlow, hhigh⟩ := prdtl_bounds hsectors
    rw [blStorageSectorSize, Nat.mul_comm] at hin
    have hin' : buf.toNat + (0 : BitVec 64).toNat + 512 * sectors.toNat ≤ 2 ^ 32 := hin
    have hcovers := setPrdt_covers (i := 0) (fun _ => rfl) hlow hhigh hin'
      (clearTable_dbau (port.commandTable slot))
    simp only [Nat.zero_add] at hcovers
    refine ⟨?_, fun e _ => e.dbc.isLt, ?_, fun hcommand => ?_⟩
    · rw [BlAhciPort.entries, List.length_map, List.length_range, hlist]
      exact hfew
    · rw [BlAhciPort.entries, hlist, htable, blStorageSectorSize, Nat.mul_comm sectors.toNat]
      exact hcovers
    · rw [hfis, hcommand]
      exact setFis_sectors zeroFis hlba hpos hsectors

def idlePort : BlAhciPort :=
  ⟨0, 0, fun _ => ⟨0, 0, 0⟩, fun _ => ⟨zeroFis, fun _ => ⟨0, 0, 0, 0, 0, 0⟩⟩⟩

/-- One sector more than an entry has. -/
theorem blAhciDoCommand_scatter_two :
    CommandBuilt (blAhciDoCommand ⟨fun _ => 0, 0⟩ 32 idlePort blSataCommandReadSectorsDmaExt
      0x100000 2048 8193).1 0 blSataCommandReadSectorsDmaExt 0x100000 2048 8193 :=
  (blAhciDoCommand_scatter ⟨fun _ => 0, 0⟩ 32 idlePort blSataCommandReadSectorsDmaExt 0x100000 2048
    8193).2 (by decide) (by decide) (by decide) (by decide) 0 (by decide)

end BootLoader.Ahci

import BootLoader.Pata.Read

/-!
# What the drive makes of a command

A register of the task file keeps the byte that was written last and the one before. Which of them
count depends on the command, and that is written after all the others.
-/

open ByteMemory

namespace BootLoader.Pata

/-! ## The drive -/

/-- A register that is two bytes deep. -/
structure Fifo where
  recent : Byte
  previous : Byte

def Fifo.push (f : Fifo) (val : Byte) : Fifo := ⟨val, f.recent⟩

structure TaskFile where
  sectorCount : Fifo
  lbaLow : Fifo
  lbaMid : Fifo
  lbaHigh : Fifo
  device : Byte

def TaskFile.write (tf : TaskFile) (val : Byte) : WriteReg → TaskFile
  | .sectorCount => { tf with sectorCount := tf.sectorCount.push val }
  | .lba48Low | .lbaLow => { tf with lbaLow := tf.lbaLow.push val }
  | .lba48Mid | .lbaMid => { tf with lbaMid := tf.lbaMid.push val }
  | .lba48High | .lbaHigh => { tf with lbaHigh := tf.lbaHigh.push val }
  | .device => { tf with device := val }
  | .features | .command => tf

/-- The first sector and their number, by the 28-bit READ SECTORS. -/
def TaskFile.sectors28 (tf : TaskFile) : Nat × Nat :=
  (tf.lbaLow.recent.toNat + 2 ^ 8 * tf.lbaMid.recent.toNat + 2 ^ 16 * tf.lbaHigh.recent.toNat +
      2 ^ 24 * (tf.device.toNat % 16),
    if tf.sectorCount.recent = 0 then 256 else tf.sectorCount.recent.toNat)

/-- And by the 48-bit one. -/
def TaskFile.sectors48 (tf : TaskFile) : Nat × Nat :=
  let count := tf.sectorCount.recent.toNat + 2 ^ 8 * tf.sectorCount.previous.toNat
  (tf.lbaLow.recent.toNat + 2 ^ 8 * tf.lbaMid.recent.toNat + 2 ^ 16 * tf.lbaHigh.recent.toNat +
      2 ^ 24 * (tf.lbaLow.previous.toNat + 2 ^ 8 * tf.lbaMid.previous.toNat +
        2 ^ 16 * tf.lbaHigh.previous.toNat),
    if count = 0 then 65536 else count)

def blPataCmdReadSectorsExt : Byte := 0x24

/-- What a command transfers; the others read no sectors. -/
def TaskFile.transfers (tf : TaskFile) (command : Byte) : Option (Nat × Nat) :=
  if command = blPataCmdReadSectors then some tf.sectors28
  else if command = blPataCmdReadSectorsExt then some tf.sectors48
  else none

/-- The commands that the accesses issue, with what the drive transfers for each. -/
def issued : TaskFile → List Access → List (Option (Nat × Nat))
  | _, [] => []
  | tf, .write .command val :: log => tf.transfers val :: issued tf log
  | tf, .write reg val :: log => issued (tf.write val reg) log
  | tf, .status _ :: log | tf, .data _ _ :: log => issued tf log

/-! ## Accesses after the command -/

variable {drive : Drive} {ports : Ports} {tf : TaskFile} {a b : List Access}

def ReadsOnly (log : List Access) : Prop := ∀ x ∈ log, ∀ reg val, x ≠ .write reg val

theorem ReadsOnly.append (ha : ReadsOnly a) (hb : ReadsOnly b) : ReadsOnly (a ++ b) := by
  intro x hx
  rcases List.mem_append.mp hx with hx | hx
  · exact ha x hx
  · exact hb x hx

theorem ReadsOnly.issued (h : ReadsOnly a) (tf : TaskFile) : Pata.issued tf a = [] := by
  induction a with
  | nil => rfl
  | cons x a ih =>
    obtain ⟨hx, hrest⟩ := List.forall_mem_cons.mp h
    cases x with
    | write reg val => exact absurd rfl (hx reg val)
    | status val => exact ih hrest
    | data addr word => exact ih hrest

/-- A stage of the driver that only reads adds accesses to the log that do. -/
def AddsReads (ports ports' : Ports) : Prop := ∃ log, ports'.log = ports.log ++ log ∧ ReadsOnly log

theorem AddsReads.refl (ports : Ports) : AddsReads ports ports :=
  ⟨[], by simp, by simp [ReadsOnly]⟩

theorem AddsReads.trans {ports' ports'' : Ports} (h : AddsReads ports ports')
    (h' : AddsReads ports' ports'') : AddsReads ports ports'' := by
  obtain ⟨log, hlog, hreads⟩ := h
  obtain ⟨log', hlog', hreads'⟩ := h'
  exact ⟨log ++ log', by rw [hlog', hlog, List.append_assoc], hreads.append hreads'⟩

theorem addsReads_status (drive : Drive) (ports : Ports) :
    AddsReads ports (blPataReadStatus drive ports).1 :=
  ⟨_, rfl, by simp [ReadsOnly]⟩

theorem addsReads_data (drive : Drive) (addr : Nat) (ports : Ports) :
    AddsReads ports (blPataReadData drive addr ports) :=
  ⟨_, rfl, by simp [ReadsOnly]⟩

theorem addsReads_poll (drive : Drive) (polls : Nat) (ports : Ports) :
    AddsReads ports (pollStatus drive polls ports).1 := by
  induction polls generalizing ports with
  | zero => exact .refl ports
  | succ polls ih =>
    rw [pollStatus_succ]
    split_ifs
    · exact (addsReads_status drive ports).trans (ih _)
    · exact addsReads_status drive ports

theorem addsReads_sector (drive : Drive) (buf : Nat) (ports : Ports) :
    AddsReads ports (blPataBufferReadSector drive buf ports) := by
  unfold blPataBufferReadSector
  induction List.range sectorWords generalizing ports with
  | nil => exact .refl ports
  | cons i is ih => exact (addsReads_data drive _ ports).trans (ih _)

theorem addsReads_sectors (drive : Drive) (buf left i : Nat) (readStatus : Byte) (ports : Ports) :
    AddsReads ports (readSectors drive buf left i readStatus ports).1 := by
  induction left generalizing i readStatus ports with
  | zero => exact .refl ports
  | succ left ih =>
    rw [readSectors]
    split_ifs
    · exact .refl ports
    · have hwait := (addsReads_sector drive ((buf + i * Storage.blStorageSectorSize) % 2 ^ 32)
        ports).trans (addsReads_poll drive waitPolls _)
      dsimp only
      split_ifs
      · exact hwait
      · exact (hwait.trans (addsReads_status drive _)).trans (ih _ _ _)

theorem addsReads_command (drive : Drive) (buf left : Nat) (ports : Ports) :
    AddsReads ports (sectorsFrom drive buf left 0 ports).1 := by
  have hwait := addsReads_poll drive waitPolls ports
  unfold sectorsFrom
  dsimp only
  split_ifs
  · exact hwait
  · exact (hwait.trans (addsReads_status drive _)).trans (addsReads_sectors ..)

/-! ## The command -/

/-- The bytes that the task file holds when the command is written. -/
def commandFile (type : Byte) (lba sectors : BitVec 64) : TaskFile where
  sectorCount := ⟨sectors.setWidth 8, (sectors >>> 8).setWidth 8⟩
  lbaLow := ⟨lba.setWidth 8, (lba >>> 24).setWidth 8⟩
  lbaMid := ⟨(lba >>> 8).setWidth 8, (lba >>> 32).setWidth 8⟩
  lbaHigh := ⟨(lba >>> 16).setWidth 8, (lba >>> 40).setWidth 8⟩
  device := blPataRegDeviceSet 1 type

theorem issued_writeCommand (tf : TaskFile) (type command : Byte) (lba sectors : BitVec 64)
    (hreads : ReadsOnly a) :
    issued tf ((writeCommand atStart type command lba sectors).log ++ a) =
      [(commandFile type lba sectors).transfers command] := by
  have hrest := hreads.issued (commandFile type lba sectors)
  exact congrArg _ hrest

theorem blPataRead_issued (drive : Drive) (tf : TaskFile) (type : Byte) (buf : Nat)
    (lba sectors : BitVec 64) :
    issued tf (blPataRead drive atStart type buf lba sectors).1.log =
      [some (commandFile type lba sectors).sectors28] := by
  rw [blPataRead_eq]
  obtain ⟨log, hlog, hreads⟩ := addsReads_command drive buf sectors.toNat
    (writeCommand atStart type blPataCmdReadSectors lba sectors)
  rw [hlog, issued_writeCommand tf type blPataCmdReadSectors lba sectors hreads]
  rfl

theorem blPataRegDeviceSet_low (type : Byte) : (blPataRegDeviceSet 1 type).toNat % 16 = 0 := by
  revert type
  decide

theorem sectors28_commandFile (type : Byte) (lba sectors : BitVec 64) :
    (commandFile type lba sectors).sectors28 = (lba.toNat % 2 ^ 24,
      if sectors.toNat % 256 = 0 then 256 else sectors.toNat % 256) := by
  have hcount : sectors.setWidth 8 = 0 ↔ sectors.toNat % 256 = 0 := by
    rw [← BitVec.toNat_inj, BitVec.toNat_setWidth]
    rfl
  simp only [TaskFile.sectors28, commandFile, blPataRegDeviceSet_low, hcount,
    BitVec.toNat_setWidth, BitVec.toNat_ushiftRight, Nat.shiftRight_eq_div_pow]
  refine Prod.ext ?_ rfl
  dsimp only
  omega

/-- The drive transfers the sectors that were asked for, if it can count them; if not, no command
is issued. -/
structure Addressed (drive : Drive) (tf : TaskFile) (type : Byte) (buf : Nat)
    (lba sectors : BitVec 64) : Prop where
  transferred : sectors.toNat ≤ 65536 →
    issued tf (blPataRead drive atStart type buf lba sectors).1.log =
      [some (lba.toNat, sectors.toNat)]
  rejected : 65536 < sectors.toNat →
    issued tf (blPataRead drive atStart type buf lba sectors).1.log = []

/-- **When a read addresses the right sectors.** The registers are written for a 48-bit command, but
the command is the 28-bit one. -/
theorem blPataRead_addressed_iff (drive : Drive) (tf : TaskFile) (type : Byte) (buf : Nat)
    (lba sectors : BitVec 64) (hlba : lba.toNat < 2 ^ 48) (hsectors : 1 ≤ sectors.toNat) :
    Addressed drive tf type buf lba sectors ↔ lba.toNat < 2 ^ 24 ∧ sectors.toNat ≤ 256 := by
  have hissued := blPataRead_issued drive tf type buf lba sectors
  rw [sectors28_commandFile] at hissued
  constructor
  · intro h
    by_cases hlarge : 65536 < sectors.toNat
    · have hnone := h.rejected hlarge
      rw [hissued] at hnone
      cases hnone
    · have hright := h.transferred (by omega)
      rw [hissued] at hright
      obtain ⟨hfirst, hcount⟩ : lba.toNat % 2 ^ 24 = lba.toNat ∧
          (if sectors.toNat % 256 = 0 then 256 else sectors.toNat % 256) = sectors.toNat := by
        simpa using hright
      split_ifs at hcount <;> omega
  · rintro ⟨hfirst, hcount⟩
    refine ⟨fun _ => ?_, fun hlarge => by omega⟩
    rw [hissued, Nat.mod_eq_of_lt hfirst]
    split_ifs
    · rw [show sectors.toNat = 256 by omega]
    · rw [Nat.mod_eq_of_lt (by omega)]

def emptyTaskFile : TaskFile := ⟨⟨0, 0⟩, ⟨0, 0⟩, ⟨0, 0⟩, ⟨0, 0⟩, 0⟩

theorem blPataRead_addressed_one : Addressed failing emptyTaskFile 0 0x7000 2048 1 :=
  (blPataRead_addressed_iff failing emptyTaskFile 0 0x7000 2048 1 (by decide) (by decide)).mpr
    (by decide)

theorem highLba_not_addressed : ¬ ∀ drive tf type buf (lba sectors : BitVec 64),
    lba.toNat < 2 ^ 48 → 1 ≤ sectors.toNat → Addressed drive tf type buf lba sectors := by
  intro h
  have hright := (h failing emptyTaskFile 0 0x7000 (2 ^ 24) 1 (by decide) (by decide)).transferred
    (by decide)
  rw [blPataRead_issued, sectors28_commandFile] at hright
  contradiction

end BootLoader.Pata

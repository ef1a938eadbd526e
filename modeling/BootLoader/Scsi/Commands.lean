import BootLoader.Lib.ByteOrder
import BootLoader.Scsi.Outcome
import Mathlib.Tactic.IntervalCases

/-!
# What a device is asked for

A command block has its numbers with the highest byte first. What is in the wrapper around it has
the lowest byte first, and is computed from the same numbers before they are cut.
-/

open ByteMemory

namespace BootLoader.Scsi

/-! ## Swapped bytes -/

theorem bytesSwap16_reversed (v : BitVec 16) : Reversed 2 v.toNat (bytesSwap16 v).toNat := by
  refine reversed_toNat_iff.mpr fun i hi => ?_
  interval_cases i <;> ext j hj <;> interval_cases j <;> simp [bytesSwap16]

theorem bytesSwap32_reversed (v : BitVec 32) : Reversed 4 v.toNat (bytesSwap32 v).toNat := by
  refine reversed_toNat_iff.mpr fun i hi => ?_
  interval_cases i <;> ext j hj <;> interval_cases j <;> simp [bytesSwap32]

/-! ## The wrapper of a command -/

/-- The transfer of the wrapper, the first of a command. -/
def commandTransfer (env : Env) (bus : Bus) (cmd : List Byte) (length : BitVec 32) : Transfer :=
  ⟨.outEndp, sizeofCbw, (List.range (min 31 (env.takes bus.log.length))).map
    (ofBytes (blUsbScsiBbbInitCbw env bus.tag 0 false cmd length).bytes)⟩

theorem blUsbScsiBbbExecuteCommand_in (env : Env) (bus : Bus) (cmd : List Byte) (buf : Mem)
    (length : BitVec 32) :
    blUsbScsiBbbExecuteCommand env bus false cmd buf length =
      (⟨bus.tag + 1, bus.log ++ [commandTransfer env bus cmd length,
          dataTransfer env bus.log.length length, cswTransfer env bus.log.length]⟩,
        fun k => (dataTransfer env bus.log.length length).bytes.getD k (buf k), .success) := by
  have hcbw : sizeofCbw.toInt.toNat = 31 := rfl
  unfold blUsbScsiBbbExecuteCommand
  simp [blUsbBulkTransfer, Bus.add, commandTransfer, dataTransfer, cswTransfer, sizeofCsw, hcbw]
  rfl

theorem length_cbw (env : Env) (tag : BitVec 32) {cmd : List Byte} (length : BitVec 32)
    (hcmd : cmd.length ≤ 16) :
    (blUsbScsiBbbInitCbw env tag 0 false cmd length).bytes.length = 31 := by
  simp [BlUsbBbbCbw.bytes, blUsbScsiBbbInitCbw]
  omega

/-- A device that takes the wrapper takes all of it. -/
theorem commandTransfer_bytes {env : Env} {bus : Bus} {cmd : List Byte} (length : BitVec 32)
    (htakes : 31 ≤ env.takes bus.log.length) (hcmd : cmd.length ≤ 16) :
    (commandTransfer env bus cmd length).bytes =
      (blUsbScsiBbbInitCbw env bus.tag 0 false cmd length).bytes := by
  have hlength := length_cbw env bus.tag length hcmd
  rw [commandTransfer, Nat.min_eq_left htakes]
  refine List.ext_getElem (by rw [List.length_map, List.length_range, hlength]) fun i _ hi' => ?_
  rw [List.getElem_map, List.getElem_range, ofBytes, List.getD_eq_getElem _ _ hi']

/-! ## Reads -/

/-- What a device makes of the wrapper of a READ(10). -/
structure AsksFor (cbw : List Byte) (lba sectors length : Nat) : Prop where
  whole : cbw.length = 31
  opcode : ofBytes cbw 15 = blScsiCommandRead10
  lba : readBE (ofBytes cbw) 17 4 = lba
  sectors : readBE (ofBytes cbw) 22 2 = sectors
  length : read32 (ofBytes cbw) 8 = length

theorem toNat_masked32 (x : BitVec 64) :
    ((x &&& 0xffffffff).setWidth 32).toNat = x.toNat % 2 ^ 32 := by
  rw [BitVec.toNat_setWidth, BitVec.toNat_and]
  change (x.toNat &&& (2 ^ 32 - 1)) % 2 ^ 32 = _
  rw [Nat.and_two_pow_sub_one_eq_mod, Nat.mod_mod]

theorem toNat_masked16 (x : BitVec 64) :
    ((x &&& 0xffff).setWidth 16).toNat = x.toNat % 2 ^ 16 := by
  rw [BitVec.toNat_setWidth, BitVec.toNat_and]
  change (x.toNat &&& (2 ^ 16 - 1)) % 2 ^ 16 = _
  rw [Nat.and_two_pow_sub_one_eq_mod, Nat.mod_mod]

theorem read10_asksFor {env : Env} {bus : Bus} (lba sectors : BitVec 64) (length : BitVec 32)
    (htakes : 31 ≤ env.takes bus.log.length) :
    AsksFor (commandTransfer env bus (blScsiRead10 env lba sectors) length).bytes
      (lba.toNat % 2 ^ 32) (sectors.toNat % 2 ^ 16) length.toNat := by
  have hcmd : (blScsiRead10 env lba sectors).length = 10 := rfl
  rw [commandTransfer_bytes length htakes (by omega)]
  have hbytes := hasBytes_ofBytes
    (blUsbScsiBbbInitCbw env bus.tag 0 false (blScsiRead10 env lba sectors) length).bytes
  have hwhole := length_cbw env bus.tag length (show (blScsiRead10 env lba sectors).length ≤ 16 by
    omega)
  generalize hcbw : ofBytes (blUsbScsiBbbInitCbw env bus.tag 0 false
    (blScsiRead10 env lba sectors) length).bytes = cbw at hbytes
  simp only [BlUsbBbbCbw.bytes, blUsbScsiBbbInitCbw, blScsiRead10, List.append_assoc,
    hasBytes_append, length_bytesLE, List.length_cons, List.length_nil] at hbytes
  obtain ⟨-, -, hlength, -, hopcode, hlba, -, hsectors, -⟩ := hbytes
  refine ⟨hwhole, ?_, ?_, ?_, ?_⟩
  · rw [hcbw]
    exact hopcode.1
  · rw [hcbw, readBE_of_reversed (bytesSwap32_reversed _) hlba, toNat_masked32]
    exact Nat.mod_mod _ _
  · rw [hcbw, readBE_of_reversed (bytesSwap16_reversed _) hsectors, toNat_masked16]
    exact Nat.mod_mod _ _
  · rw [hcbw, read32, readLE_of_hasBytes hlength]
    exact Nat.mod_eq_of_lt length.isLt

theorem blUsbScsiRead_command (env : Env) (bus : Bus) (sectorSize : BitVec 32) (buf : Mem)
    (lba sectors : BitVec 64) :
    (blUsbScsiRead env bus sectorSize buf lba sectors).1.log[bus.log.length]? =
      some (commandTransfer env bus (blScsiRead10 env lba sectors)
        ((sectors * sectorSize.setWidth 64).setWidth 32)) := by
  unfold blUsbScsiRead blUsbScsiRead10 blUsbScsiSenseData
  simp only [blUsbScsiBbbExecuteCommand_in, ne_eq, not_true_eq_false, if_false]
  rw [List.append_assoc, List.getElem?_append_right le_rfl, Nat.sub_self]
  rfl

/-- The read fails and nothing is sent, or the command is for these sectors and all their bytes. -/
def ReadAsked (env : Env) (bus : Bus) (sectorSize : BitVec 32) (buf : Mem)
    (lba sectors : BitVec 64) : Prop :=
  ((blUsbScsiRead env bus sectorSize buf lba sectors).2.2 ≠ .success ∧
      (blUsbScsiRead env bus sectorSize buf lba sectors).1.log = bus.log) ∨
    ∃ t, (blUsbScsiRead env bus sectorSize buf lba sectors).1.log[bus.log.length]? = some t ∧
      t.endp = .outEndp ∧
      AsksFor t.bytes lba.toNat sectors.toNat (sectors.toNat * sectorSize.toNat)

def taking : Env := ⟨fun _ => [], fun _ => 512, fun _ => 0⟩

end BootLoader.Scsi

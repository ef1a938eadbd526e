import BootLoader.Scsi.Code

/-!
# What a command reports

The driver asks for the status wrapper and never looks at it.
-/

open ByteMemory

namespace BootLoader.Scsi

variable {env : Env} {bus : Bus} {direction : Bool} {cmd : List Byte} {buf : Mem}
  {length : BitVec 32}

theorem blUsbBulkTransfer_log (env : Env) (bus : Bus) (direction : Bool) (data : Mem)
    (length : BitVec 32) :
    ∃ t : Transfer, (blUsbBulkTransfer env bus direction data length).1 = bus.add t := by
  cases direction
  · exact ⟨_, rfl⟩
  · exact ⟨_, rfl⟩

/-- What was received in the status phase of the command with this tag says that it succeeded. -/
structure CswReceived (tag : BitVec 32) (t : Transfer) : Prop where
  endp : t.endp = .inEndp
  whole : t.bytes.length = 13
  signature : cswSignature (ofBytes t.bytes) = blUsbBbbCswSignature.toNat
  tag : cswTag (ofBytes t.bytes) = tag.toNat
  dataResidue : cswDataResidue (ofBytes t.bytes) = 0
  status : cswStatus (ofBytes t.bytes) = 0

/-- The status wrapper of a command that succeeded. -/
def passedCsw (tag : BitVec 32) : List Byte :=
  bytesLE 4 blUsbBbbCswSignature.toNat ++ (bytesLE 4 tag.toNat ++ (bytesLE 4 0 ++ [0]))

theorem length_passedCsw (tag : BitVec 32) : (passedCsw tag).length = 13 := by simp [passedCsw]

/-- The thirteen bytes are settled by the fields. -/
theorem eq_passedCsw_iff {tag : BitVec 32} {bs : List Byte} :
    bs = passedCsw tag ↔ CswReceived tag ⟨.inEndp, sizeofCsw, bs⟩ := by
  have hfields : HasBytes (ofBytes bs) 0 (passedCsw tag) ↔
      cswSignature (ofBytes bs) = blUsbBbbCswSignature.toNat ∧ cswTag (ofBytes bs) = tag.toNat ∧
        cswDataResidue (ofBytes bs) = 0 ∧ cswStatus (ofBytes bs) = 0 := by
    have htag : tag.toNat % 256 ^ 4 = tag.toNat := Nat.mod_eq_of_lt tag.isLt
    simp only [passedCsw, hasBytes_append, hasBytes_bytesLE_iff, length_bytesLE, htag]
    simp [HasBytes, cswSignature, cswTag, cswDataResidue, cswStatus, blUsbBbbCswSignature]
  constructor
  · rintro rfl
    obtain ⟨h₁, h₂, h₃, h₄⟩ := hfields.mp (hasBytes_ofBytes _)
    exact ⟨rfl, length_passedCsw tag, h₁, h₂, h₃, h₄⟩
  · rintro ⟨-, hlen, h₁, h₂, h₃, h₄⟩
    refine hasBytes_unique (hasBytes_ofBytes bs) (hfields.mpr ⟨h₁, h₂, h₃, h₄⟩) ?_
    exact hlen.trans (length_passedCsw tag).symm

/-- The transfer of the status wrapper, the third of the command that begins behind `n` others. -/
def cswTransfer (env : Env) (n : Nat) : Transfer :=
  ⟨.inEndp, sizeofCsw, (env.delivers (n + 2)).take 13⟩

/-- The transfer of the data to the host, the second one. -/
def dataTransfer (env : Env) (n : Nat) (length : BitVec 32) : Transfer :=
  ⟨.inEndp, length, (env.delivers (n + 1)).take length.toInt.toNat⟩

/-- A command is three transfers, whatever becomes of them. -/
theorem blUsbScsiBbbExecuteCommand_spec (env : Env) (bus : Bus) (direction : Bool)
    (cmd : List Byte) (buf : Mem) (length : BitVec 32) :
    ∃ cbw data buf', blUsbScsiBbbExecuteCommand env bus direction cmd buf length =
        (⟨bus.tag + 1, bus.log ++ [cbw, data, cswTransfer env bus.log.length]⟩, buf', .success) ∧
      (direction = false → data = dataTransfer env bus.log.length length ∧
        buf' = fun k => data.bytes.getD k (buf k)) := by
  obtain ⟨cbw, hcbw⟩ := blUsbBulkTransfer_log env { bus with tag := bus.tag + 1 } true
    (ofBytes (blUsbScsiBbbInitCbw env bus.tag 0 direction cmd length).bytes) sizeofCbw
  have htag : (blUsbScsiBbbInitCbw env bus.tag 0 direction cmd length).tag = bus.tag + 1 := rfl
  unfold blUsbScsiBbbExecuteCommand
  simp only [htag, hcbw]
  cases direction with
  | true =>
    obtain ⟨data, hdata⟩ := blUsbBulkTransfer_log env (Bus.add { bus with tag := bus.tag + 1 } cbw)
      true buf length
    refine ⟨cbw, data, buf, ?_, fun h => Bool.noConfusion h⟩
    rw [hdata]
    simp [blUsbBulkTransfer, Bus.add, cswTransfer, sizeofCsw]
  | false =>
    refine ⟨cbw, dataTransfer env bus.log.length length,
      fun k => (dataTransfer env bus.log.length length).bytes.getD k (buf k), ?_,
      fun _ => ⟨rfl, rfl⟩⟩
    simp [blUsbBulkTransfer, Bus.add, cswTransfer, dataTransfer, sizeofCsw]

/-- A read is the command and then the one that asks for the sense data. -/
theorem blUsbScsiRead_spec (env : Env) (bus : Bus) (sectorSize : BitVec 32) (buf : Mem)
    (lba sectors : BitVec 64) :
    ∃ cbw rest, blUsbScsiRead env bus sectorSize buf lba sectors =
      (⟨bus.tag + 2, bus.log ++ cbw ::
          dataTransfer env bus.log.length ((sectors * sectorSize.setWidth 64).setWidth 32) :: rest⟩,
        fun k => (dataTransfer env bus.log.length
          ((sectors * sectorSize.setWidth 64).setWidth 32)).bytes.getD k (buf k), .success) := by
  obtain ⟨cbw, data, buf', hread, hdata⟩ := blUsbScsiBbbExecuteCommand_spec env bus false
    (blScsiRead10 env lba sectors) buf ((sectors * sectorSize.setWidth 64).setWidth 32)
  obtain ⟨rfl, rfl⟩ := hdata rfl
  generalize hbus : (⟨bus.tag + 1, _⟩ : Bus) = bus' at hread
  obtain ⟨cbw', data', buf'', hsense, -⟩ := blUsbScsiBbbExecuteCommand_spec env bus' false
    (blScsiRequestSense env) env.stack (BitVec.ofNat 32 sizeofRequestSenseData)
  refine ⟨cbw, cswTransfer env bus.log.length :: [cbw', data', cswTransfer env bus'.log.length],
    ?_⟩
  unfold blUsbScsiRead blUsbScsiRead10 blUsbScsiSenseData
  simp only [hread, hsense, ne_eq, not_true_eq_false, if_false]
  rw [← hbus]
  simp [BitVec.add_assoc]

/-! ## When the answer is right -/

/-- The data phase moved so many bytes, and they are in the buffer. -/
structure DataDelivered (n : Nat) (buf : Mem) (t : Transfer) : Prop where
  endp : t.endp = .inEndp
  whole : t.bytes.length = n
  delivered : HasBytes buf 0 t.bytes

/-- An `int` has room for a length below `2 ^ 31` only. -/
theorem toInt_toNat_le (n : Nat) (length : BitVec 32) (h : length.toNat = n % 2 ^ 32) :
    n ≤ length.toInt.toNat ↔ n < 2 ^ 31 := by
  rw [BitVec.toInt_eq_toNat_cond, h]
  split_ifs <;> omega

theorem toInt_toNat_of_lt {n : Nat} {length : BitVec 32} (h : length.toNat = n % 2 ^ 32)
    (hn : n < 2 ^ 31) : length.toInt.toNat = n := by
  rw [BitVec.toInt_eq_toNat_cond, h]
  split_ifs <;> omega

theorem toNat_length (sectors : BitVec 64) (sectorSize : BitVec 32) :
    ((sectors * sectorSize.setWidth 64).setWidth 32).toNat =
      sectors.toNat * sectorSize.toNat % 2 ^ 32 := by
  have hsize := sectorSize.isLt
  rw [BitVec.toNat_setWidth, BitVec.toNat_mul, BitVec.toNat_setWidth,
    Nat.mod_eq_of_lt (by omega : sectorSize.toNat < 2 ^ 64), Nat.mod_mod_of_dvd _ (by decide)]

theorem getD_hasBytes (bs : List Byte) (buf : Mem) :
    HasBytes (fun k => bs.getD k (buf k)) 0 bs := by
  refine hasBytes_iff.mpr fun k hk => ?_
  rw [Nat.zero_add, List.getD_eq_getElem _ _ hk]

theorem dataDelivered_iff (n : Nat) (bus : Bus) (h : length.toNat = n % 2 ^ 32) :
    DataDelivered n (fun k => (dataTransfer env bus.log.length length).bytes.getD k (buf k))
        (dataTransfer env bus.log.length length) ↔
      n < 2 ^ 31 ∧ n ≤ (env.delivers (bus.log.length + 1)).length := by
  have hcount : (dataTransfer env bus.log.length length).bytes.length =
      min length.toInt.toNat (env.delivers (bus.log.length + 1)).length := List.length_take ..
  constructor
  · rintro ⟨-, hwhole, -⟩
    rw [hcount] at hwhole
    rw [← toInt_toNat_le n length h]
    omega
  · rintro ⟨hn, hdelivers⟩
    refine ⟨rfl, ?_, getD_hasBytes _ buf⟩
    rw [hcount, toInt_toNat_of_lt h hn]
    omega

/-- **When success is reported rightly**: for a command, if the status phase delivers a wrapper that
says so; for a read, if the data phase delivers all the bytes and their number is an `int`. -/
theorem commands_report_iff (env : Env) (bus : Bus) (direction : Bool) (cmd : List Byte)
    (buf : Mem) (length sectorSize : BitVec 32) (lba sectors : BitVec 64) :
    (((blUsbScsiBbbExecuteCommand env bus direction cmd buf length).2.2 = .success →
        ∃ t, (blUsbScsiBbbExecuteCommand env bus direction cmd buf length).1.log[
            bus.log.length + 2]? = some t ∧
          CswReceived (blUsbScsiBbbExecuteCommand env bus direction cmd buf length).1.tag t) ↔
      (env.delivers (bus.log.length + 2)).take 13 = passedCsw (bus.tag + 1)) ∧
    (((blUsbScsiRead env bus sectorSize buf lba sectors).2.2 = .success →
        ∃ t, (blUsbScsiRead env bus sectorSize buf lba sectors).1.log[bus.log.length + 1]? =
            some t ∧
          DataDelivered (sectors.toNat * sectorSize.toNat)
            (blUsbScsiRead env bus sectorSize buf lba sectors).2.1 t) ↔
      sectors.toNat * sectorSize.toNat < 2 ^ 31 ∧
        sectors.toNat * sectorSize.toNat ≤ (env.delivers (bus.log.length + 1)).length) := by
  constructor
  · obtain ⟨cbw, data, buf', hcommand, -⟩ :=
      blUsbScsiBbbExecuteCommand_spec env bus direction cmd buf length
    have hlast : (bus.log ++ [cbw, data, cswTransfer env bus.log.length])[bus.log.length + 2]? =
        some (cswTransfer env bus.log.length) := by
      rw [List.getElem?_append_right (Nat.le_add_right _ _), Nat.add_sub_cancel_left]
      rfl
    simp only [hcommand, hlast, forall_const, Option.some.injEq, exists_eq_left']
    exact eq_passedCsw_iff.symm
  · obtain ⟨cbw, rest, hread⟩ := blUsbScsiRead_spec env bus sectorSize buf lba sectors
    simp only [hread, forall_const]
    rw [List.getElem?_append_right (Nat.le_add_right _ _), Nat.add_sub_cancel_left]
    simp only [List.getElem?_cons_succ, List.getElem?_cons_zero, Option.some.injEq,
      exists_eq_left']
    exact dataDelivered_iff _ bus (toNat_length sectors sectorSize)

def silent : Env := ⟨fun _ => [], fun _ => 0, fun _ => 0⟩

theorem silent_not_reported : ¬ ∀ env bus direction cmd buf length,
    (blUsbScsiBbbExecuteCommand env bus direction cmd buf length).2.2 = .success →
      ∃ t, (blUsbScsiBbbExecuteCommand env bus direction cmd buf length).1.log[
          bus.log.length + 2]? = some t ∧
        CswReceived (blUsbScsiBbbExecuteCommand env bus direction cmd buf length).1.tag t := by
  intro h
  obtain ⟨t, ht, hreceived⟩ := h silent ⟨0, []⟩ false [0x12, 0, 0, 0, 36, 0] (fun _ => 0) 36 rfl
  have hempty : t = ⟨.inEndp, sizeofCsw, []⟩ := (Option.some.inj ht).symm
  have hwhole := hreceived.whole
  rw [hempty] at hwhole
  contradiction

end BootLoader.Scsi

import BootLoader.Scsi.Commands

/-!
# The size of a disk

READ CAPACITY answers with the last block and the size of a block, both with the highest byte first.
-/

open ByteMemory

namespace BootLoader.Scsi

variable {env : Env} {bus : Bus}

/-! ## Eight bytes swapped -/

/-- The lowest byte of the result lacks two bits. -/
theorem bytesSwap64_byte (v : BitVec 64) {i : Nat} (hi : i < 8) :
    (bytesSwap64 v).extractLsb' (8 * i) 8 =
      if i = 0 then v.extractLsb' 56 8 >>> 2 else v.extractLsb' (8 * (7 - i)) 8 := by
  interval_cases i <;> ext j hj <;> interval_cases j <;> simp [bytesSwap64]

theorem byte_shifted_eq_iff (b : Byte) : b >>> 2 = b ↔ b = 0 := by
  revert b
  decide

theorem bytesSwap64_reversed_iff (v : BitVec 64) :
    Reversed 8 v.toNat (bytesSwap64 v).toNat ↔ v.extractLsb' 56 8 = 0 := by
  rw [reversed_toNat_iff, ← byte_shifted_eq_iff]
  constructor
  · intro h
    have hlow := h 0 (by decide)
    rw [bytesSwap64_byte v (by decide), if_pos rfl] at hlow
    exact hlow
  · intro h i hi
    rw [bytesSwap64_byte v hi]
    split_ifs with hzero
    · rw [h, hzero]
    · rfl

theorem bytesSwap64_twice_iff (v : BitVec 64) :
    bytesSwap64 (bytesSwap64 v) = v ↔ v.extractLsb' 56 8 = 0 ∧ v.extractLsb' 0 8 = 0 := by
  have hlow : (bytesSwap64 v).extractLsb' 0 8 = v.extractLsb' 56 8 >>> 2 :=
    bytesSwap64_byte v (show 0 < 8 by decide)
  have hhigh : (bytesSwap64 v).extractLsb' 56 8 = v.extractLsb' 0 8 :=
    bytesSwap64_byte v (show 7 < 8 by decide)
  constructor
  · intro h
    have hlow' := bytesSwap64_byte (bytesSwap64 v) (show 0 < 8 by decide)
    have hhigh' := bytesSwap64_byte (bytesSwap64 v) (show 7 < 8 by decide)
    rw [h, if_pos rfl, hhigh] at hlow'
    rw [h, if_neg (by decide)] at hhigh'
    rw [← byte_shifted_eq_iff, ← byte_shifted_eq_iff (v.extractLsb' 0 8)]
    exact ⟨hlow.symm.trans hhigh'.symm, hlow'.symm⟩
  · rintro ⟨htop, hbottom⟩
    refine Reversed.twice (n := 8) (by decide) ((bytesSwap64_reversed_iff v).mpr htop) ?_
    exact (bytesSwap64_reversed_iff _).mpr (hhigh.trans hbottom)

/-! ## What the answer says -/

/-- The size is that of an answer whose last block has `width` bytes. -/
structure Sized (size : DiskSize) (answer : Mem) (width : Nat) : Prop where
  sectorCount : size.sectorCount.toNat = readBE answer 0 width + 1
  sectorSize : size.sectorSize.toNat = readBE answer width 4

/-- The transfer of this number is that of a command with this code. -/
def CommandSent (log : List Transfer) (k : Nat) (opcode : Byte) : Prop :=
  ∃ t, log[k]? = some t ∧ t.endp = .outEndp ∧ ∀ b, t.bytes[15]? = some b → b = opcode

/-- What the device answers to the command of ten bytes. -/
def answer10 (env : Env) (bus : Bus) : Mem := ofBytes (env.delivers (bus.log.length + 1))

/-- And to the one of sixteen, if it is asked: two commands come before. -/
def answer16 (env : Env) (bus : Bus) : Mem := ofBytes (env.delivers (bus.log.length + 7))

def AllOnes (env : Env) (bus : Bus) : Prop := readBE (answer10 env bus) 0 4 = 0xffffffff

/-- The command of sixteen bytes is sent if it has to be, and the size is that of the answer. -/
structure SizeRight (env : Env) (bus : Bus) (size : DiskSize) : Prop where
  success : (blUsbScsiGetSize env bus size).2.2 = .success
  first : CommandSent (blUsbScsiGetSize env bus size).1.log bus.log.length
    blScsiCommandReadCapacity10
  second : CommandSent (blUsbScsiGetSize env bus size).1.log (bus.log.length + 6)
    blScsiCommandReadCapacity16 ↔ AllOnes env bus
  size10 : ¬ AllOnes env bus →
    Sized (blUsbScsiGetSize env bus size).2.1 (answer10 env bus) 4
  size16 : AllOnes env bus → Sized (blUsbScsiGetSize env bus size).2.1 (answer16 env bus) 8

/-! ## The run -/

theorem blUsbScsiSenseData_eq (env : Env) (bus : Bus) :
    blUsbScsiSenseData env bus = (⟨bus.tag + 1, bus.log ++
      [commandTransfer env bus (blScsiRequestSense env) 18, dataTransfer env bus.log.length 18,
        cswTransfer env bus.log.length]⟩, .success) := by
  unfold blUsbScsiSenseData
  rw [blUsbScsiBbbExecuteCommand_in]
  rfl

/-- A command that asks for the size, and then for the sense data. -/
def askedFor (env : Env) (bus : Bus) (cmd : List Byte) (length : BitVec 32) : Bus :=
  (blUsbScsiSenseData env (blUsbScsiBbbExecuteCommand env bus false cmd env.stack length).1).1

theorem askedFor_log (env : Env) (bus : Bus) (cmd : List Byte) (length : BitVec 32) :
    ∃ rest, (askedFor env bus cmd length).log =
      bus.log ++ commandTransfer env bus cmd length :: rest ∧ rest.length = 5 := by
  refine ⟨dataTransfer env bus.log.length length :: cswTransfer env bus.log.length :: ?_, ?_, ?_⟩
  rotate_left
  · rw [askedFor, blUsbScsiBbbExecuteCommand_in, blUsbScsiSenseData_eq, List.append_assoc]
    rfl
  · rfl

/-- What is in the variable that was given for the answer. -/
def received (env : Env) (bus : Bus) (length : BitVec 32) : Mem :=
  fun k => (dataTransfer env bus.log.length length).bytes.getD k (env.stack k)

theorem blUsbScsiGetSize_eq (env : Env) (bus : Bus) (size : DiskSize) :
    blUsbScsiGetSize env bus size =
      let bus₁ := askedFor env bus (blScsiReadCapacity10 env) 8
      if capacityLba10 (received env bus 8) < 0xffffffff then
        (bus₁, ⟨(bytesSwap32 (capacityLba10 (received env bus 8)) + 1).setWidth 64,
          bytesSwap32 (capacityBlockSize10 (received env bus 8))⟩, .success)
      else
        (askedFor env bus₁ (blScsiReadCapacity16 env) 32,
          ⟨bytesSwap64 (capacityLba16 (received env bus₁ 32)) + 1,
            bytesSwap32 (capacityBlockSize16 (received env bus₁ 32))⟩, .success) := by
  unfold blUsbScsiGetSize askedFor
  simp only [blUsbScsiBbbExecuteCommand_in, blUsbScsiSenseData_eq, ne_eq, not_true_eq_false,
    if_false]
  rfl

theorem received_eq {length : BitVec 32} {k : Nat} (hk : k < length.toInt.toNat)
    (hdelivers : k < (env.delivers (bus.log.length + 1)).length) :
    received env bus length k = ofBytes (env.delivers (bus.log.length + 1)) k := by
  have htake : k < ((env.delivers (bus.log.length + 1)).take length.toInt.toNat).length := by
    rw [List.length_take]
    omega
  rw [received, dataTransfer, List.getD_eq_getElem _ _ htake, List.getElem_take, ofBytes,
    List.getD_eq_getElem _ _ hdelivers]

theorem readLE_received {length : BitVec 32} {a n : Nat} (hin : a + n ≤ length.toInt.toNat)
    (hdelivers : a + n ≤ (env.delivers (bus.log.length + 1)).length) :
    readLE (received env bus length) a n =
      readLE (ofBytes (env.delivers (bus.log.length + 1))) a n :=
  readLE_congr fun x _ hx => received_eq (by omega) (by omega)

/-! ## When the size is right -/

theorem toNat_bytesSwap32_read (m : Mem) (a : Nat) :
    (bytesSwap32 (BitVec.ofNat 32 (read32 m a))).toNat = readBE m a 4 := by
  have hswap := bytesSwap32_reversed (BitVec.ofNat 32 (read32 m a))
  rw [BitVec.toNat_ofNat, Nat.mod_eq_of_lt (read32_lt m a)] at hswap
  exact (reversed_readLE_iff (bytesSwap32 _).isLt).mp hswap

/-- The comparison is made before the bytes are swapped: that they are all ones does not change. -/
theorem capacityLba10_lt_iff (m : Mem) :
    capacityLba10 m < 0xffffffff ↔ readBE m 0 4 ≠ 0xffffffff := by
  have hlt := (capacityLba10 m).isLt
  have hones : ∀ x : BitVec 32, bytesSwap32 x = 0xffffffff ↔ x = 0xffffffff := by
    intro x
    constructor
    · intro h
      have htwice := Reversed.twice (n := 4) (by decide) (bytesSwap32_reversed x)
        (bytesSwap32_reversed (bytesSwap32 x))
      rw [← htwice, h]
      decide
    · rintro rfl
      decide
  have hread : readBE m 0 4 = 0xffffffff ↔ bytesSwap32 (capacityLba10 m) = 0xffffffff := by
    rw [← BitVec.toNat_inj, capacityLba10, toNat_bytesSwap32_read]
    rfl
  rw [ne_eq, hread, hones, ← BitVec.toNat_inj, BitVec.lt_def]
  have hmax : (0xffffffff : BitVec 32).toNat = 4294967295 := rfl
  omega

theorem sized10 {answer data : Mem} (hlba : read32 data 0 = read32 answer 0)
    (hsize : read32 data 4 = read32 answer 4) (hones : readBE answer 0 4 ≠ 0xffffffff) :
    Sized ⟨(bytesSwap32 (capacityLba10 data) + 1).setWidth 64,
      bytesSwap32 (capacityBlockSize10 data)⟩ answer 4 := by
  have hlt := readBE_lt answer 0 4
  rw [capacityLba10, capacityBlockSize10, hlba, hsize]
  constructor
  · rw [BitVec.toNat_setWidth, BitVec.toNat_add, toNat_bytesSwap32_read]
    have hone : (1 : BitVec 32).toNat = 1 := rfl
    rw [hone]
    omega
  · exact toNat_bytesSwap32_read answer 4

theorem sized16_iff {answer data : Mem} (hlba : read64 data 0 = read64 answer 0)
    (hsize : read32 data 8 = read32 answer 8) :
    Sized ⟨bytesSwap64 (capacityLba16 data) + 1, bytesSwap32 (capacityBlockSize16 data)⟩ answer 8 ↔
      answer 7 = 0 := by
  have hx : (capacityLba16 data).toNat = read64 answer 0 := by
    rw [capacityLba16, hlba, BitVec.toNat_ofNat, Nat.mod_eq_of_lt (read64_lt answer 0)]
  generalize capacityLba16 data = x at hx
  have htop : answer 7 = x.extractLsb' 56 8 := by
    have hbytes : HasBytes answer 0 (bytesLE 8 x.toNat) := by
      rw [hasBytes_bytesLE_iff, hx]
      exact (Nat.mod_eq_of_lt (read64_lt answer 0)).symm
    rw [bytesLE_toNat] at hbytes
    exact hasBytes_iff.mp hbytes 7 (by simp)
  have hswap : (bytesSwap64 x).toNat = readBE answer 0 8 ↔ answer 7 = 0 := by
    rw [htop, ← bytesSwap64_reversed_iff, hx, reversed_readLE_iff (bytesSwap64 x).isLt]
  have hlow : readBE answer 0 8 = 256 * readBE answer 0 7 + (answer 7).toNat := rfl
  have hlt := readBE_lt answer 0 8
  have hone : (1 : BitVec 64).toNat = 1 := rfl
  constructor
  · intro h
    have hcount := h.sectorCount
    have hsum := (bytesSwap64 x + 1).isLt
    have hin := (bytesSwap64 x).isLt
    rw [BitVec.toNat_add, hone] at hcount
    rw [BitVec.toNat_add, hone] at hsum
    exact hswap.mp (by omega)
  · intro hzero
    have hcount := hswap.mpr hzero
    have hbyte : (answer 7).toNat = 0 := by rw [hzero]; rfl
    constructor
    · rw [BitVec.toNat_add, hone, hcount]
      omega
    · rw [capacityBlockSize16, hsize]
      exact toNat_bytesSwap32_read answer 8

/-! ## The command that is sent -/

/-- The code of a command is behind the fifteen bytes of the wrapper's head. -/
theorem commandTransfer_opcode {opcode b : Byte} {rest : List Byte} {length : BitVec 32}
    (h : (commandTransfer env bus (opcode :: rest) length).bytes[15]? = some b) : b = opcode := by
  obtain ⟨hin, rfl⟩ := List.getElem?_eq_some_iff.mp h
  have hbytes := hasBytes_ofBytes
    (blUsbScsiBbbInitCbw env bus.tag 0 false (opcode :: rest) length).bytes
  simp only [BlUsbBbbCbw.bytes, blUsbScsiBbbInitCbw, List.append_assoc, hasBytes_append,
    length_bytesLE, List.length_cons, List.length_nil] at hbytes
  obtain ⟨-, -, -, -, hcmd, -⟩ := hbytes
  simp only [commandTransfer, List.getElem_map, List.getElem_range]
  exact hcmd.1

theorem commandSent_at {log rest : List Transfer} {opcode : Byte} {cmd : List Byte}
    {length : BitVec 32} (hlog : log = bus.log ++ commandTransfer env bus (opcode :: cmd) length ::
      rest) : CommandSent log bus.log.length opcode := by
  refine ⟨commandTransfer env bus (opcode :: cmd) length, ?_, rfl,
    fun b hb => commandTransfer_opcode hb⟩
  rw [hlog, List.getElem?_append_right le_rfl, Nat.sub_self]
  rfl

theorem received_fields10 (h10 : 8 ≤ (env.delivers (bus.log.length + 1)).length) :
    read32 (received env bus 8) 0 = read32 (answer10 env bus) 0 ∧
      read32 (received env bus 8) 4 = read32 (answer10 env bus) 4 :=
  ⟨readLE_received (by decide) (by omega), readLE_received (by decide) (by omega)⟩

theorem received_fields16 {bus' : Bus} (hlog : bus'.log.length = bus.log.length + 6)
    (h16 : 12 ≤ (env.delivers (bus.log.length + 7)).length) :
    read64 (received env bus' 32) 0 = read64 (answer16 env bus) 0 ∧
      read32 (received env bus' 32) 8 = read32 (answer16 env bus) 8 := by
  have hanswer : answer16 env bus = ofBytes (env.delivers (bus'.log.length + 1)) := by
    rw [hlog]
    rfl
  have hdelivers : 12 ≤ (env.delivers (bus'.log.length + 1)).length := by
    rw [hlog]
    exact h16
  rw [hanswer]
  exact ⟨readLE_received (by decide) (by omega), readLE_received (by decide) (by omega)⟩

theorem capacityLba10_received_lt_iff (h10 : 8 ≤ (env.delivers (bus.log.length + 1)).length) :
    capacityLba10 (received env bus 8) < 0xffffffff ↔ ¬ AllOnes env bus := by
  rw [capacityLba10, (received_fields10 h10).1]
  exact capacityLba10_lt_iff (answer10 env bus)

theorem sizeRight_iff (size : DiskSize)
    (h10 : 8 ≤ (env.delivers (bus.log.length + 1)).length)
    (h16 : AllOnes env bus → 12 ≤ (env.delivers (bus.log.length + 7)).length) :
    SizeRight env bus size ↔ (AllOnes env bus → answer16 env bus 7 = 0) := by
  obtain ⟨rest, hlog, hrest⟩ := askedFor_log env bus (blScsiReadCapacity10 env) 8
  have hrun := blUsbScsiGetSize_eq env bus size
  dsimp only at hrun
  by_cases hones : AllOnes env bus
  · rw [if_neg (not_not.mpr hones ∘ (capacityLba10_received_lt_iff h10).mp)] at hrun
    have hlength : (askedFor env bus (blScsiReadCapacity10 env) 8).log.length =
        bus.log.length + 6 := by
      rw [hlog, List.length_append, List.length_cons, hrest]
    generalize askedFor env bus (blScsiReadCapacity10 env) 8 = bus' at hrun hlog hlength
    obtain ⟨rest', hlog', -⟩ := askedFor_log env bus' (blScsiReadCapacity16 env) 32
    obtain ⟨hlba, hsize⟩ := received_fields16 hlength (h16 hones)
    have hiff := sized16_iff hlba hsize
    have hall : (askedFor env bus' (blScsiReadCapacity16 env) 32).log =
        bus.log ++ commandTransfer env bus (blScsiReadCapacity10 env) 8 ::
          (rest ++ commandTransfer env bus' (blScsiReadCapacity16 env) 32 :: rest') := by
      rw [hlog', hlog, List.append_assoc]
      rfl
    constructor
    · intro h _
      have hsized := h.size16 hones
      rw [hrun] at hsized
      exact hiff.mp hsized
    · intro h
      refine ⟨by rw [hrun], ?_, ⟨fun _ => hones, fun _ => ?_⟩, fun hnot => absurd hones hnot,
        fun _ => ?_⟩
      · rw [hrun]
        exact commandSent_at hall
      · rw [hrun, ← hlength]
        exact commandSent_at hlog'
      · rw [hrun]
        exact hiff.mpr (h hones)
  · rw [if_pos ((capacityLba10_received_lt_iff h10).mpr hones)] at hrun
    obtain ⟨hlba, hsize⟩ := received_fields10 h10
    refine iff_of_true ⟨by rw [hrun], ?_, ⟨?_, fun h => absurd h hones⟩, fun _ => ?_,
      fun h => absurd h hones⟩ fun h => absurd h hones
    · rw [hrun]
      exact commandSent_at hlog
    · rintro ⟨t, ht, -⟩
      rw [hrun, hlog, List.getElem?_eq_none (by simp [hrest])] at ht
      cases ht
    · rw [hrun]
      exact sized10 hlba hsize hones

/-- **When the size of a disk is right.** Two of the three swaps reverse all bytes; the one of eight
bytes does if the highest is zero, and so a size that needs it is right if the lowest byte of the
last block is zero. -/
theorem diskSize_right_iff (env : Env) (bus : Bus) (size : DiskSize)
    (h10 : 8 ≤ (env.delivers (bus.log.length + 1)).length)
    (h16 : AllOnes env bus → 12 ≤ (env.delivers (bus.log.length + 7)).length) :
    (∀ v, Reversed 2 v.toNat (bytesSwap16 v).toNat ∧ bytesSwap16 (bytesSwap16 v) = v) ∧
      (∀ v, Reversed 4 v.toNat (bytesSwap32 v).toNat ∧ bytesSwap32 (bytesSwap32 v) = v) ∧
      (∀ v, (Reversed 8 v.toNat (bytesSwap64 v).toNat ↔ v.extractLsb' 56 8 = 0) ∧
        (bytesSwap64 (bytesSwap64 v) = v ↔ v.extractLsb' 56 8 = 0 ∧ v.extractLsb' 0 8 = 0)) ∧
      (SizeRight env bus size ↔ (AllOnes env bus → answer16 env bus 7 = 0)) := by
  refine ⟨fun v => ⟨bytesSwap16_reversed v, ?_⟩, fun v => ⟨bytesSwap32_reversed v, ?_⟩,
    fun v => ⟨bytesSwap64_reversed_iff v, bytesSwap64_twice_iff v⟩, sizeRight_iff size h10 h16⟩
  · exact Reversed.twice (n := 2) (by decide) (bytesSwap16_reversed v) (bytesSwap16_reversed _)
  · exact Reversed.twice (n := 4) (by decide) (bytesSwap32_reversed v) (bytesSwap32_reversed _)

/-- A disk with this many blocks of 4096 bytes behind the last 32-bit number. -/
def largeDisk : Env :=
  ⟨fun k => if k = 1 then [255, 255, 255, 255, 0, 0, 16, 0]
    else if k = 7 then [0, 0, 0, 1, 0, 0, 0, 255, 0, 0, 16, 0] else [], fun _ => 31, fun _ => 0⟩

theorem diskSize_right_iff_large :
    SizeRight largeDisk ⟨0, []⟩ ⟨0, 0⟩ ↔
      (AllOnes largeDisk ⟨0, []⟩ → answer16 largeDisk ⟨0, []⟩ 7 = 0) :=
  (diskSize_right_iff largeDisk ⟨0, []⟩ ⟨0, 0⟩ (by decide) fun _ => by decide).2.2.2

theorem largeDisk_size_wrong : ¬ ∀ env bus size,
    8 ≤ (env.delivers (bus.log.length + 1)).length →
      (AllOnes env bus → 12 ≤ (env.delivers (bus.log.length + 7)).length) →
        SizeRight env bus size := by
  intro h
  have hright := h largeDisk ⟨0, []⟩ ⟨0, 0⟩ (by decide) fun _ => by decide
  have hzero := (sizeRight_iff _ (by decide) fun _ => by decide).mp hright (by
    unfold AllOnes
    decide)
  revert hzero
  decide

end BootLoader.Scsi

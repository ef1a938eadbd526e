import BootLoader.Lib.BulkOnly
import BootLoader.Scsi.Commands

/-!
# The driver and the device in step

Whatever the driver is asked for, one request after another, the device executes the commands of it
and no others, in order and each once, and every answer is that to the command.
-/

open ByteMemory BulkOnly

namespace BootLoader.Scsi

variable {δ : Type*} {exec : Target δ} {env : Env} {target : δ} {bus : Bus} {d' : Device δ}
  {cmd : List Byte} {length : BitVec 32} {log rest : List Transfer}

/-! ## Requests -/

inductive Request where
  | inquiry
  | size
  | read (sectorSize : BitVec 32) (buf : Mem) (lba sectors : BitVec 64)

inductive Reply where
  | inquired
  | size (size : DiskSize)
  | data (buf : Mem)

/-- What the driver does. -/
def perform (env : Env) (bus : Bus) : Request → Bus × Reply
  | .inquiry => ((blUsbScsiInquiry env bus).1, .inquired)
  | .size =>
    let (bus, size, _) := blUsbScsiGetSize env bus ⟨0, 0⟩
    (bus, .size size)
  | .read sectorSize buf lba sectors =>
    let (bus, buf, _) := blUsbScsiRead env bus sectorSize buf lba sectors
    (bus, .data buf)

def performAll (env : Env) (bus : Bus) : List Request → Bus × List Reply
  | [] => (bus, [])
  | r :: rs =>
    let (bus, reply) := perform env bus r
    let (bus, replies) := performAll env bus rs
    (bus, reply :: replies)

/-- The length of a read is one that a transfer can have, and not zero. -/
def Request.InRange : Request → Prop
  | .read sectorSize _ _ sectors =>
    0 < sectors.toNat * sectorSize.toNat ∧ sectors.toNat * sectorSize.toNat < 2 ^ 31
  | _ => True

/-! ## The same without a bus -/

/-- The target executes the command block, and the transfers are those of a command that succeeds:
wrapper, answer, status. -/
def directCommand (env : Env) (exec : Target δ) (s : δ × Bus) (cmd : List Byte)
    (length : BitVec 32) : (δ × Bus) × List Byte :=
  let data := answer exec s.1 cmd length.toNat
  (((exec s.1 cmd).1,
    ⟨s.2.tag + 1, s.2.log ++
      [⟨.outEndp, sizeofCbw, (blUsbScsiBbbInitCbw env s.2.tag 0 false cmd length).bytes⟩,
        ⟨.inEndp, length, data⟩,
        ⟨.inEndp, sizeofCsw,
          csw (s.2.tag + 1).toNat (length.toNat - data.length) (exec s.1 cmd).2.2⟩]⟩),
    data)

def directSense (env : Env) (exec : Target δ) (s : δ × Bus) : δ × Bus :=
  (directCommand env exec s (blScsiRequestSense env) (BitVec.ofNat 32 sizeofRequestSenseData)).1

/-- What is in a variable behind the answer was there before. -/
def answered (buf : Mem) (data : List Byte) : Mem := fun k => data.getD k (buf k)

def direct (env : Env) (exec : Target δ) (s : δ × Bus) : Request → (δ × Bus) × Reply
  | .inquiry =>
    let (s, _) := directCommand env exec s blScsiInquiry (BitVec.ofNat 32 sizeofInquiryData)
    (directSense env exec s, .inquired)
  | .size =>
    let (s, data) := directCommand env exec s (blScsiReadCapacity10 env)
      (BitVec.ofNat 32 sizeofReadCapacity10Data)
    let data1 := answered env.stack data
    let s := directSense env exec s
    if capacityLba10 data1 < 0xffffffff then
      (s, .size ⟨(bytesSwap32 (capacityLba10 data1) + 1).setWidth 64,
        bytesSwap32 (capacityBlockSize10 data1)⟩)
    else
      let (s, data) := directCommand env exec s (blScsiReadCapacity16 env)
        (BitVec.ofNat 32 sizeofReadCapacity16Data)
      let data2 := answered env.stack data
      (directSense env exec s, .size ⟨bytesSwap64 (capacityLba16 data2) + 1,
        bytesSwap32 (capacityBlockSize16 data2)⟩)
  | .read sectorSize buf lba sectors =>
    let (s, data) := directCommand env exec s (blScsiRead10 env lba sectors)
      ((sectors * sectorSize.setWidth 64).setWidth 32)
    (directSense env exec s, .data (answered buf data))

def directAll (env : Env) (exec : Target δ) (s : δ × Bus) : List Request → (δ × Bus) × List Reply
  | [] => (s, [])
  | r :: rs =>
    let (s, reply) := direct env exec s r
    let (s, replies) := directAll env exec s rs
    (s, reply :: replies)

/-! ## The device at the other end -/

def Transfer.move (t : Transfer) : Move :=
  match t.endp with
  | .outEndp => .toDevice t.bytes
  | .inEndp => .toHost t.length.toInt.toNat t.bytes

/-- The transfers are what the device does, and it takes all that it is sent. -/
def Answered (exec : Target δ) (d : Device δ) (log : List Transfer) (d' : Device δ) : Prop :=
  (∀ t ∈ log, t.endp = .outEndp → t.bytes.length = t.length.toNat) ∧
    Follows exec d (log.map Transfer.move) d'

/-! ## One command -/

theorem cbw_fields (env : Env) (tag length : BitVec 32) (hcmd : 1 ≤ cmd.length ∧ cmd.length ≤ 16) :
    Wrapper (blUsbScsiBbbInitCbw env tag 0 false cmd length).bytes ∧
      wrapperTag (blUsbScsiBbbInitCbw env tag 0 false cmd length).bytes = (tag + 1).toNat ∧
      wrapperLength (blUsbScsiBbbInitCbw env tag 0 false cmd length).bytes = length.toNat ∧
      wrapperBlock (blUsbScsiBbbInitCbw env tag 0 false cmd length).bytes = cmd := by
  have hwhole := length_cbw env tag length hcmd.2
  have hbytes := hasBytes_ofBytes (blUsbScsiBbbInitCbw env tag 0 false cmd length).bytes
  generalize hcbw : ofBytes (blUsbScsiBbbInitCbw env tag 0 false cmd length).bytes = cbw at hbytes
  simp only [BlUsbBbbCbw.bytes, blUsbScsiBbbInitCbw, List.append_assoc, hasBytes_append,
    length_bytesLE, List.length_cons, List.length_nil] at hbytes
  obtain ⟨hsignature, htag, hlength, ⟨hflags, hlun, hcount, -⟩, -⟩ := hbytes
  have hcount' : (BitVec.ofNat 8 cmd.length).toNat = cmd.length := by
    rw [BitVec.toNat_ofNat, Nat.mod_eq_of_lt (by omega)]
  refine ⟨⟨hwhole, ?_, ?_, ?_, ?_⟩, ?_, ?_, ?_⟩
  · rw [hcbw, read32, readLE_of_hasBytes hsignature]
    rfl
  · rw [hcbw]
    exact hflags
  · rw [hcbw]
    exact hlun
  · rw [hcbw, show cbw 14 = BitVec.ofNat 8 cmd.length from hcount, hcount']
    exact hcmd
  · rw [wrapperTag, hcbw, read32, readLE_of_hasBytes htag]
    exact Nat.mod_eq_of_lt (tag + 1).isLt
  · rw [wrapperLength, hcbw, read32, readLE_of_hasBytes hlength]
    exact Nat.mod_eq_of_lt length.isLt
  · rw [wrapperBlock, hcbw, show cbw 14 = BitVec.ofNat 8 cmd.length from hcount, hcount']
    simp only [BlUsbBbbCbw.bytes, blUsbScsiBbbInitCbw, List.append_assoc]
    rw [List.drop_append, List.drop_append, List.drop_append, List.drop_append,
      List.drop_eq_nil_of_le (by simp), List.drop_eq_nil_of_le (by simp),
      List.drop_eq_nil_of_le (by simp), List.drop_eq_nil_of_le (by simp)]
    simp

/-- The transfers of a command, as the driver logs them. -/
def commandLog (env : Env) (bus : Bus) (cmd : List Byte) (length : BitVec 32) : List Transfer :=
  [commandTransfer env bus cmd length, dataTransfer env bus.log.length length,
    cswTransfer env bus.log.length]

/-- The bus behind a command is the one that it should be, and what is in the buffer is the answer;
the device waits for the next command. -/
theorem command_in_step (hcmd : 1 ≤ cmd.length ∧ cmd.length ≤ 16)
    (hlength : 0 < length.toNat ∧ length.toNat < 2 ^ 31)
    (h : Answered exec ⟨target, .command⟩ (commandLog env bus cmd length ++ rest) d') (buf : Mem) :
    blUsbScsiBbbExecuteCommand env bus false cmd buf length =
        ((directCommand env exec (target, bus) cmd length).1.2,
          answered buf (directCommand env exec (target, bus) cmd length).2, .success) ∧
      Answered exec ⟨(exec target cmd).1, .command⟩ rest d' := by
  obtain ⟨hout, hfollows⟩ := h
  obtain ⟨hwrapper, htag, hlen, hblock⟩ := cbw_fields env bus.tag length hcmd
  have htakes : 31 ≤ env.takes bus.log.length := by
    have hall := hout _ List.mem_cons_self rfl
    rw [commandTransfer, List.length_map, List.length_range] at hall
    simp only [sizeofCbw] at hall
    change min 31 _ = 31 at hall
    omega
  have hsent := @commandTransfer_bytes env bus cmd length htakes hcmd.2
  have hcount : length.toInt.toNat = length.toNat := by
    rw [BitVec.toInt_eq_toNat_cond]
    split_ifs <;> omega
  have hmoves : (commandLog env bus cmd length ++ rest).map Transfer.move =
      .toDevice (blUsbScsiBbbInitCbw env bus.tag 0 false cmd length).bytes ::
        .toHost (wrapperLength (blUsbScsiBbbInitCbw env bus.tag 0 false cmd length).bytes)
          (dataTransfer env bus.log.length length).bytes ::
        .toHost 13 (cswTransfer env bus.log.length).bytes :: rest.map Transfer.move := by
    rw [hlen, ← hcount, ← hsent]
    rfl
  rw [hmoves] at hfollows
  obtain ⟨hdata, hstatus, hrest⟩ := follows_command hwrapper (by omega) hfollows
  rw [hblock, hlen] at hdata hstatus
  rw [hblock] at hrest
  rw [htag] at hstatus
  refine ⟨?_, fun t ht => hout t (List.mem_append_right _ ht), hrest⟩
  have hcommand : commandTransfer env bus cmd length =
      ⟨.outEndp, sizeofCbw, (blUsbScsiBbbInitCbw env bus.tag 0 false cmd length).bytes⟩ := by
    rw [← hsent]
    rfl
  have htransfer : dataTransfer env bus.log.length length =
      ⟨.inEndp, length, answer exec target cmd length.toNat⟩ := by
    rw [← hdata]
    rfl
  have hcsw : cswTransfer env bus.log.length = ⟨.inEndp, sizeofCsw, csw (bus.tag + 1).toNat
      (length.toNat - (answer exec target cmd length.toNat).length) (exec target cmd).2.2⟩ := by
    rw [← hdata, ← hstatus]
    rfl
  rw [blUsbScsiBbbExecuteCommand_in, hcommand, htransfer, hcsw]
  rfl

/-! ## Commands one after another

A request is a program of commands, which may depend on what was answered before. -/

inductive Program (ρ : Type) where
  | done (reply : ρ)
  | command (cmd : List Byte) (buf : Mem) (length : BitVec 32) (next : Mem → Program ρ)

namespace Program

variable {ρ : Type}

def onBus (env : Env) : Program ρ → Bus → Bus × ρ
  | .done reply, bus => (bus, reply)
  | .command cmd buf length next, bus =>
    let (bus, buf, _) := blUsbScsiBbbExecuteCommand env bus false cmd buf length
    (next buf).onBus env bus

def onTarget (env : Env) (exec : Target δ) : Program ρ → δ × Bus → (δ × Bus) × ρ
  | .done reply, s => (s, reply)
  | .command cmd buf length next, s =>
    let (s, data) := directCommand env exec s cmd length
    (next (answered buf data)).onTarget env exec s

/-- The transfers of the program. -/
def transfers (env : Env) : Program ρ → Bus → List Transfer
  | .done _, _ => []
  | .command cmd buf length next, bus =>
    let (bus', buf, _) := blUsbScsiBbbExecuteCommand env bus false cmd buf length
    commandLog env bus cmd length ++ (next buf).transfers env bus'

def InRange : Program ρ → Prop
  | .done _ => True
  | .command cmd _ length next => (1 ≤ cmd.length ∧ cmd.length ≤ 16) ∧
      (0 < length.toNat ∧ length.toNat < 2 ^ 31) ∧ ∀ buf, (next buf).InRange

theorem onBus_log (env : Env) (p : Program ρ) (bus : Bus) :
    (p.onBus env bus).1.log = bus.log ++ p.transfers env bus := by
  induction p generalizing bus with
  | done reply => exact (List.append_nil _).symm
  | command cmd buf length next ih =>
    rw [onBus, transfers, ih]
    rw [blUsbScsiBbbExecuteCommand_in]
    simp only [commandLog, List.append_assoc]

theorem in_step {p : Program ρ} (hin : p.InRange)
    (h : Answered exec ⟨target, .command⟩ (p.transfers env bus ++ rest) d') :
    p.onBus env bus = ((p.onTarget env exec (target, bus)).1.2,
        (p.onTarget env exec (target, bus)).2) ∧
      Answered exec ⟨(p.onTarget env exec (target, bus)).1.1, .command⟩ rest d' := by
  induction p generalizing target bus with
  | done reply => exact ⟨rfl, h⟩
  | command cmd buf length next ih =>
    obtain ⟨hcmd, hlength, hnext⟩ := hin
    rw [transfers, List.append_assoc] at h
    obtain ⟨hcommand, hrest⟩ := command_in_step hcmd hlength h buf
    rw [hcommand] at hrest
    obtain ⟨hsame, hrest'⟩ := ih _ (hnext _) hrest
    rw [onBus, hcommand]
    exact ⟨hsame, hrest'⟩

end Program

/-! ## Requests are programs -/

def senseProgram {ρ : Type} (env : Env) (reply : ρ) : Program ρ :=
  .command (blScsiRequestSense env) env.stack (BitVec.ofNat 32 sizeofRequestSenseData) fun _ =>
    .done reply

def Request.program (env : Env) : Request → Program Reply
  | .inquiry =>
    .command blScsiInquiry env.stack (BitVec.ofNat 32 sizeofInquiryData) fun _ =>
      senseProgram env .inquired
  | .size =>
    .command (blScsiReadCapacity10 env) env.stack (BitVec.ofNat 32 sizeofReadCapacity10Data)
      fun data1 => .command (blScsiRequestSense env) env.stack
        (BitVec.ofNat 32 sizeofRequestSenseData) fun _ =>
          if capacityLba10 data1 < 0xffffffff then
            .done (.size ⟨(bytesSwap32 (capacityLba10 data1) + 1).setWidth 64,
              bytesSwap32 (capacityBlockSize10 data1)⟩)
          else
            .command (blScsiReadCapacity16 env) env.stack
              (BitVec.ofNat 32 sizeofReadCapacity16Data) fun data2 =>
                senseProgram env (.size ⟨bytesSwap64 (capacityLba16 data2) + 1,
                  bytesSwap32 (capacityBlockSize16 data2)⟩)
  | .read sectorSize buf lba sectors =>
    .command (blScsiRead10 env lba sectors) buf ((sectors * sectorSize.setWidth 64).setWidth 32)
      fun buf => senseProgram env (.data buf)

theorem Request.program_onBus (env : Env) (bus : Bus) (r : Request) :
    (r.program env).onBus env bus = perform env bus r := by
  cases r with
  | inquiry =>
    simp only [perform, blUsbScsiInquiry, blUsbScsiSenseData, Request.program, senseProgram,
      Program.onBus, blUsbScsiBbbExecuteCommand_in, ne_eq, not_true_eq_false, if_false]
  | size =>
    simp only [perform, blUsbScsiGetSize, blUsbScsiSenseData, Request.program, senseProgram,
      Program.onBus, blUsbScsiBbbExecuteCommand_in, ne_eq, not_true_eq_false, if_false]
    split_ifs <;> simp only [Program.onBus, blUsbScsiBbbExecuteCommand_in]
  | read sectorSize buf lba sectors =>
    simp only [perform, blUsbScsiRead, blUsbScsiRead10, blUsbScsiSenseData, Request.program,
      senseProgram, Program.onBus, blUsbScsiBbbExecuteCommand_in, ne_eq, not_true_eq_false,
      if_false]

theorem Request.program_onTarget (env : Env) (exec : Target δ) (s : δ × Bus) (r : Request) :
    (r.program env).onTarget env exec s = direct env exec s r := by
  cases r with
  | inquiry => rfl
  | size =>
    simp only [Request.program, Program.onTarget, direct]
    split_ifs <;> rfl
  | read sectorSize buf lba sectors => rfl

theorem Request.program_inRange (env : Env) {r : Request} (h : r.InRange) :
    (r.program env).InRange := by
  have hsense : ∀ {ρ : Type} (reply : ρ), (senseProgram env reply).InRange := fun _ =>
    ⟨(by decide : 1 ≤ 6 ∧ 6 ≤ 16), by decide, fun _ => trivial⟩
  have hten : 1 ≤ 10 ∧ 10 ≤ 16 := by decide
  cases r with
  | inquiry => exact ⟨by decide, by decide, fun _ => hsense _⟩
  | size =>
    refine ⟨hten, by decide, fun data1 => ⟨(hsense ()).1, by decide, fun _ => ?_⟩⟩
    dsimp only
    split_ifs
    · trivial
    · exact ⟨(by decide : 1 ≤ 16 ∧ 16 ≤ 16), by decide, fun _ => hsense _⟩
  | read sectorSize buf lba sectors =>
    refine ⟨hten, ?_, fun _ => hsense _⟩
    rw [toNat_length, Nat.mod_eq_of_lt (h.2.trans (by decide))]
    exact h

/-! ## Runs -/

/-- The transfers of the requests. -/
def runLog (env : Env) : List Request → Bus → List Transfer
  | [], _ => []
  | r :: rs, bus => (r.program env).transfers env bus ++ runLog env rs (perform env bus r).1

theorem performAll_log (env : Env) (rs : List Request) (bus : Bus) :
    (performAll env bus rs).1.log = bus.log ++ runLog env rs bus := by
  induction rs generalizing bus with
  | nil => exact (List.append_nil _).symm
  | cons r rs ih =>
    have hlog := (r.program env).onBus_log env bus
    rw [Request.program_onBus] at hlog
    rw [performAll, runLog]
    dsimp only
    rw [ih, hlog, List.append_assoc]

theorem performAll_in_step {rs : List Request} (hin : ∀ r ∈ rs, r.InRange)
    (h : Answered exec ⟨target, .command⟩ (runLog env rs bus) d') :
    d' = ⟨(directAll env exec (target, bus) rs).1.1, .command⟩ ∧
      performAll env bus rs = ((directAll env exec (target, bus) rs).1.2,
        (directAll env exec (target, bus) rs).2) := by
  induction rs generalizing target bus with
  | nil => exact ⟨h.2, rfl⟩
  | cons r rs ih =>
    obtain ⟨hr, hrs⟩ := List.forall_mem_cons.mp hin
    rw [runLog] at h
    obtain ⟨hfirst, hrest⟩ := Program.in_step (r.program_inRange env hr) h
    rw [Request.program_onBus, Request.program_onTarget] at hfirst
    rw [Request.program_onTarget, hfirst] at hrest
    obtain ⟨hd', hall⟩ := ih hrs hrest
    refine ⟨hd', ?_⟩
    rw [performAll, hfirst]
    dsimp only
    rw [hall]
    rfl

def countingContent (k : Nat) : Byte := BitVec.ofNat 8 k

/-- Sectors of 4 bytes, each byte its own number; all other answers are zeros. -/
def countingDisk : Target Unit := fun _ block =>
  if ofBytes block 0 = blScsiCommandRead10 then
    ((), (List.range (readBE (ofBytes block) 7 2 * 4)).map fun k =>
      countingContent (readBE (ofBytes block) 2 4 * 4 + k), 0)
  else ((), List.replicate 18 0, 0)

def sizeThenRead : List Request := [.size, .read 4 (fun _ => 9) 5 2]

/-- What comes over the bus is what a device with this disk sends. -/
def countingEnv : Env where
  delivers n := (((directAll ⟨fun _ => [], fun _ => 0, fun _ => 0⟩ countingDisk ((), ⟨0, []⟩)
    sizeThenRead).1.2.log[n]?).elim [] Transfer.bytes)
  takes _ := 31
  stack _ := 0

theorem countingEnv_answered : Answered countingDisk ⟨(), .command⟩
    ((performAll countingEnv ⟨0, []⟩ sizeThenRead).1.log.drop 0) ⟨(), .command⟩ := by
  refine ⟨?_, ?_⟩
  · decide +kernel
  · decide +kernel

/-- The target is a disk with this content: what it answers to a READ(10) are the sectors that the
block names. -/
def IsDisk (exec : Target δ) (content : Nat → Byte) (sector : Nat) : Prop :=
  ∀ target block, block.length = 10 → ofBytes block 0 = blScsiCommandRead10 →
    (exec target block).2.1 = (List.range (readBE (ofBytes block) 7 2 * sector)).map fun k =>
      content (readBE (ofBytes block) 2 4 * sector + k)

/-- The numbers fit into a READ(10), the sectors are the disk's, and they are some. -/
def Request.Fits (sector : Nat) : Request → Prop
  | .read sectorSize _ lba sectors => sectorSize.toNat = sector ∧ lba.toNat < 2 ^ 32 ∧
      sectors.toNat < 2 ^ 16 ∧ 0 < sectors.toNat * sector ∧ sectors.toNat * sector < 2 ^ 31
  | _ => True

/-- The sectors that were asked for are in the buffer, and behind them is what was there before. -/
def Right (content : Nat → Byte) (sector : Nat) : Request → Reply → Prop
  | .read _ buf lba sectors, .data buf' =>
    ∀ k, buf' k =
      if k < sectors.toNat * sector then content (lba.toNat * sector + k) else buf k
  | .read .., _ => False
  | _, _ => True

variable {content : Nat → Byte} {sector : Nat}

theorem read10_block (env : Env) {lba sectors : BitVec 64} (hlba : lba.toNat < 2 ^ 32)
    (hsectors : sectors.toNat < 2 ^ 16) :
    readBE (ofBytes (blScsiRead10 env lba sectors)) 2 4 = lba.toNat ∧
      readBE (ofBytes (blScsiRead10 env lba sectors)) 7 2 = sectors.toNat := by
  have hbytes := hasBytes_ofBytes (blScsiRead10 env lba sectors)
  generalize ofBytes (blScsiRead10 env lba sectors) = block at hbytes
  simp only [blScsiRead10, List.append_assoc, hasBytes_append, length_bytesLE, List.length_cons,
    List.length_nil] at hbytes
  obtain ⟨-, hlba', -, hsectors', -⟩ := hbytes
  constructor
  · rw [readBE_of_reversed (bytesSwap32_reversed _) hlba', toNat_masked32]
    exact (Nat.mod_mod _ _).trans (Nat.mod_eq_of_lt hlba)
  · rw [readBE_of_reversed (bytesSwap16_reversed _) hsectors', toNat_masked16]
    exact (Nat.mod_mod _ _).trans (Nat.mod_eq_of_lt hsectors)

theorem direct_right (hdisk : IsDisk exec content sector) (env : Env) (s : δ × Bus) {r : Request}
    (h : r.Fits sector) : Right content sector r (direct env exec s r).2 := by
  cases r with
  | inquiry => trivial
  | size => trivial
  | read sectorSize buf lba sectors =>
    obtain ⟨rfl, hlba, hsectors, -, hlength⟩ := h
    obtain ⟨hfirst, hcount⟩ := read10_block env hlba hsectors
    have hanswer := hdisk s.1 (blScsiRead10 env lba sectors) rfl rfl
    rw [hfirst, hcount] at hanswer
    intro k
    change (answer exec s.1 (blScsiRead10 env lba sectors) _).getD k (buf k) = _
    rw [toNat_length, Nat.mod_eq_of_lt (hlength.trans (by decide)), answer, hanswer,
      List.take_of_length_le (by simp)]
    split_ifs with hk
    · rw [List.getD_eq_getElem _ _ (by simpa using hk), List.getElem_map, List.getElem_range]
    · rw [List.getD_eq_default _ _ (by simpa using hk)]

theorem directAll_right (hdisk : IsDisk exec content sector) (env : Env) {rs : List Request}
    (h : ∀ r ∈ rs, r.Fits sector) (s : δ × Bus) :
    List.Forall₂ (Right content sector) rs (directAll env exec s rs).2 := by
  induction rs generalizing s with
  | nil => exact .nil
  | cons r rs ih =>
    obtain ⟨hr, hrs⟩ := List.forall_mem_cons.mp h
    exact .cons (direct_right hdisk env s hr) (ih hrs _)

theorem countingDisk_isDisk : IsDisk countingDisk countingContent 4 := by
  intro target block _ hopcode
  rw [countingDisk, if_pos hopcode]

end BootLoader.Scsi

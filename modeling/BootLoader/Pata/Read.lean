import BootLoader.Pata.Code

/-!
# When a read reports success

The log of the port accesses says what a read did: each word taken, and the last value that the
status register had shown before.
-/

open ByteMemory

namespace BootLoader.Pata

open Storage (blStorageSectorSize)

/-! ## What the log must show -/

def Busy (val : Byte) : Prop := val &&& blPataRegStatusBsy ≠ 0
def HasError (val : Byte) : Prop := val &&& blPataRegStatusErr ≠ 0
def Requests (val : Byte) : Prop := val &&& blPataRegStatusDrq ≠ 0

instance : DecidablePred Busy := fun val => by unfold Busy; infer_instance
instance : DecidablePred HasError := fun val => by unfold HasError; infer_instance
instance : DecidablePred Requests := fun val => by unfold Requests; infer_instance

/-- The words taken, and where they went. -/
def words : List Access → List (Nat × BitVec 16)
  | [] => []
  | .data addr word :: log => (addr, word) :: words log
  | .write _ _ :: log | .status _ :: log => words log

/-- Each word is taken while the last status shown, `last` at first, has `BSY` clear and `DRQ`
set. -/
def ReadyAt : Option Byte → List Access → Prop
  | _, [] => True
  | _, .status val :: log => ReadyAt (some val) log
  | last, .data _ _ :: log =>
    (∃ val, last = some val ∧ ¬ Busy val ∧ Requests val) ∧ ReadyAt last log
  | last, .write _ _ :: log => ReadyAt last log

/-- The other bits mean something only while `BSY` is clear. -/
def Disturbs (val : Byte) : Prop := ¬ Busy val ∧ (HasError val ∨ ¬ Requests val)

/-- As long as some of the `n` words are missing the drive shows no error and goes on requesting. -/
def Undisturbed : Nat → List Access → Prop
  | _, [] => True
  | n, .status val :: log => (0 < n → ¬ Disturbs val) ∧ Undisturbed n log
  | n, .data _ _ :: log => Undisturbed (n - 1) log
  | n, .write _ _ :: log => Undisturbed n log

/-- The words of the sectors in order, each in its place of the buffer. -/
def sectorData (drive : Drive) (buf first n : Nat) : List (Nat × BitVec 16) :=
  (List.range n).map fun k => ((buf + 2 * k) % 2 ^ 32, drive.data (first + k))

/-- Success is reported only after a complete transfer without a disturbance. -/
structure Reported (drive : Drive) (buf : Nat) (sectors : BitVec 64) (ret : Ports × BlStatus) :
    Prop where
  complete : ret.2 = .success →
    words ret.1.log = sectorData drive buf 0 (sectorWords * sectors.toNat)
  ready : ret.2 = .success → ReadyAt none ret.1.log
  undisturbed : ret.2 = .success → Undisturbed (sectorWords * sectors.toNat) ret.1.log

/-! ## What the drive must show -/

/-- The poll, from number `n` on and among so many, that finds `BSY` clear. -/
def answerAt (drive : Drive) : Nat → Nat → Option Nat
  | 0, _ => none
  | polls + 1, n => if Busy (drive.status n) then answerAt drive polls (n + 1) else some n

/-- `BSY` clear, no error, data waiting. -/
def Asks (val : Byte) : Prop := ¬ Busy val ∧ ¬ HasError val ∧ Requests val

/-- Before each of the `left` sectors the drive gets ready, and asks for the transfer in the poll
that finds it so and in the one after. -/
def AsksEachTime (drive : Drive) : Nat → Nat → Prop
  | 0, _ => True
  | left + 1, n => ∃ m, answerAt drive waitPolls n = some m ∧ Asks (drive.status m) ∧
    Asks (drive.status (m + 1)) ∧ AsksEachTime drive left (m + 2)

/-- One of the waits gets no answer, and before it no poll ends the loop. -/
def TimesOut (drive : Drive) : Nat → Nat → Prop
  | 0, n => answerAt drive waitPolls n = none
  | left + 1, n => answerAt drive waitPolls n = none ∨
    ∃ m, answerAt drive waitPolls n = some m ∧
      ¬ (HasError (drive.status (m + 1)) ∧ ¬ Requests (drive.status (m + 1))) ∧
      TimesOut drive left (m + 2)

/-! ## The log piece by piece -/

variable {drive : Drive} {a b : List Access} {buf first i k left n : Nat} {last : Option Byte}
  {m : Nat} {ports ports' : Ports} {sectors : BitVec 64} {val : Byte}

theorem words_append (a b : List Access) : words (a ++ b) = words a ++ words b := by
  induction a with
  | nil => rfl
  | cons x a ih => cases x <;> simp [words, ih]

/-- Polls that find the drive busy. -/
def BusyPolls (log : List Access) : Prop := ∀ x ∈ log, ∃ val, x = .status val ∧ Busy val

theorem BusyPolls.words_nil (h : BusyPolls a) : words a = [] := by
  induction a with
  | nil => rfl
  | cons x a ih =>
    obtain ⟨⟨val, rfl, -⟩, hrest⟩ := List.forall_mem_cons.mp h
    exact ih hrest

/-- The status that counts is the one shown after them. -/
theorem BusyPolls.readyAt (h : BusyPolls a) :
    ReadyAt last (a ++ .status val :: b) ↔ ReadyAt (some val) b := by
  induction a generalizing last with
  | nil => exact Iff.rfl
  | cons x a ih =>
    obtain ⟨⟨val, rfl, -⟩, hrest⟩ := List.forall_mem_cons.mp h
    exact ih hrest

theorem BusyPolls.undisturbed (h : BusyPolls a) : Undisturbed n (a ++ b) ↔ Undisturbed n b := by
  induction a with
  | nil => exact Iff.rfl
  | cons x a ih =>
    obtain ⟨⟨val, rfl, hbusy⟩, hrest⟩ := List.forall_mem_cons.mp h
    simp only [List.cons_append, Undisturbed, ih hrest]
    exact and_iff_right fun _ hdist => hdist.1 hbusy

/-- The log of so many words, from number `first` on. -/
def dataLog (drive : Drive) (buf first n : Nat) : List Access :=
  (sectorData drive buf first n).map fun w => .data w.1 w.2

theorem words_dataLog : words (dataLog drive buf first n) = sectorData drive buf first n := by
  unfold dataLog
  induction sectorData drive buf first n with
  | nil => rfl
  | cons w ws ih => simp [words, ih]

theorem readyAt_map_data (ws : List (Nat × BitVec 16)) (hne : ws ≠ []) :
    ReadyAt (some val) ((ws.map fun w => .data w.1 w.2) ++ b) ↔
      (¬ Busy val ∧ Requests val) ∧ ReadyAt (some val) b := by
  induction ws with
  | nil => exact absurd rfl hne
  | cons w ws ih =>
    simp only [List.map_cons, List.cons_append, ReadyAt, Option.some.injEq, exists_eq_left']
    cases ws with
    | nil => simp
    | cons w' ws =>
      rw [ih (List.cons_ne_nil w' ws)]
      exact ⟨fun h => h.2, fun h => ⟨h.1, h⟩⟩

theorem undisturbed_map_data (ws : List (Nat × BitVec 16)) :
    Undisturbed (ws.length + n) ((ws.map fun w => .data w.1 w.2) ++ b) ↔ Undisturbed n b := by
  induction ws with
  | nil => simp
  | cons w ws ih =>
    simp only [List.map_cons, List.cons_append, Undisturbed, List.length_cons]
    rw [show ws.length + 1 + n - 1 = ws.length + n by omega]
    exact ih

theorem length_sectorData : (sectorData drive buf first n).length = n := by simp [sectorData]

/-! ## Waiting and reading -/

theorem pollStatus_succ (drive : Drive) (polls : Nat) (ports : Ports) :
    pollStatus drive (polls + 1) ports =
      if Busy (drive.status ports.statusReads) then
        pollStatus drive polls (blPataReadStatus drive ports).1
      else ((blPataReadStatus drive ports).1, .success) := by
  rw [pollStatus]
  split_ifs with hbusy
  · exact if_neg hbusy
  · exact if_pos (not_not.mp hbusy)

theorem pollStatus_none {polls : Nat} (h : answerAt drive polls ports.statusReads = none) :
    (pollStatus drive polls ports).2 = .diskOperationTimeout := by
  induction polls generalizing ports with
  | zero => rfl
  | succ polls ih =>
    rw [pollStatus_succ]
    rw [answerAt] at h
    split_ifs at h with hbusy
    rw [if_pos hbusy]
    exact ih h

theorem pollStatus_some {polls : Nat} (h : answerAt drive polls ports.statusReads = some m) :
    ¬ Busy (drive.status m) ∧ ∃ log, BusyPolls log ∧
      pollStatus drive polls ports = (⟨m + 1, ports.dataReads,
        ports.log ++ (log ++ [.status (drive.status m)])⟩, .success) := by
  induction polls generalizing ports with
  | zero => simp [answerAt] at h
  | succ polls ih =>
    rw [pollStatus_succ]
    rw [answerAt] at h
    split_ifs at h with hbusy
    · obtain ⟨hready, log, hlog, hpoll⟩ := @ih (blPataReadStatus drive ports).1 h
      refine ⟨hready, .status (drive.status ports.statusReads) :: log, ?_, ?_⟩
      · exact List.forall_mem_cons.mpr ⟨⟨_, rfl, hbusy⟩, hlog⟩
      · rw [if_pos hbusy, hpoll]
        simp [blPataReadStatus]
    · obtain rfl := Option.some.inj h
      refine ⟨hbusy, [], by simp [BusyPolls], ?_⟩
      rw [if_neg hbusy]
      rfl

theorem foldl_blPataReadData (drive : Drive) (buf n : Nat) (ports : Ports) :
    (List.range n).foldl (fun ports i => blPataReadData drive ((buf + 2 * i) % 2 ^ 32) ports)
        ports =
      ⟨ports.statusReads, ports.dataReads + n,
        ports.log ++ dataLog drive buf ports.dataReads n⟩ := by
  induction n with
  | zero => simp [dataLog, sectorData]
  | succ n ih =>
    rw [List.range_succ, List.foldl_append, ih]
    simp [blPataReadData, dataLog, sectorData, List.range_succ, Nat.add_assoc]

theorem sectorData_wrap (drive : Drive) (buf first n : Nat) :
    sectorData drive (buf % 2 ^ 32) first n = sectorData drive buf first n := by
  simp only [sectorData, Nat.mod_add_mod]

theorem two_mul_sectorWords : 2 * sectorWords = blStorageSectorSize := by decide

theorem blPataBufferReadSector_eq (drive : Drive) (buf : Nat) (ports : Ports) :
    blPataBufferReadSector drive (buf % 2 ^ 32) ports =
      ⟨ports.statusReads, ports.dataReads + sectorWords,
        ports.log ++ dataLog drive buf ports.dataReads sectorWords⟩ := by
  rw [blPataBufferReadSector, foldl_blPataReadData, dataLog, sectorData_wrap, dataLog]

/-! ## The loop over the sectors -/

/-- From a wait on, `left` sectors being still to read. -/
def sectorsFrom (drive : Drive) (buf left i : Nat) (ports : Ports) : Ports × BlStatus :=
  let ret := blPataWaitReady drive ports
  if ret.2 ≠ .success then ret
  else
    let next := blPataReadStatus drive ret.1
    readSectors drive buf left i next.2 next.1

set_option maxRecDepth 10000 in
theorem refused_iff (val : Byte) :
    val &&& (blPataRegStatusDrq ||| blPataRegStatusErr) = blPataRegStatusErr ↔
      HasError val ∧ ¬ Requests val := by
  unfold HasError Requests blPataRegStatusDrq blPataRegStatusErr
  revert val
  decide

theorem readSectors_succ (drive : Drive) (buf left i : Nat) (val : Byte) (ports : Ports) :
    readSectors drive buf (left + 1) i val ports =
      if HasError val ∧ ¬ Requests val then (ports, .success)
      else sectorsFrom drive buf left (i + 1)
        (blPataBufferReadSector drive ((buf + i * blStorageSectorSize) % 2 ^ 32) ports) := by
  simp only [readSectors, refused_iff, sectorsFrom]

theorem sectorsFrom_none (buf left i : Nat)
    (h : answerAt drive waitPolls ports.statusReads = none) :
    (sectorsFrom drive buf left i ports).2 ≠ .success := by
  have hwait : (blPataWaitReady drive ports).2 ≠ .success := by
    rw [blPataWaitReady, pollStatus_none h]
    decide
  simp only [sectorsFrom, if_pos hwait]
  exact hwait

theorem sectorsFrom_some (buf left i : Nat)
    (h : answerAt drive waitPolls ports.statusReads = some m) :
    ¬ Busy (drive.status m) ∧ ∃ polls, BusyPolls polls ∧
      sectorsFrom drive buf left i ports =
        readSectors drive buf left i (drive.status (m + 1)) ⟨m + 2, ports.dataReads, ports.log ++
          (polls ++ [.status (drive.status m), .status (drive.status (m + 1))])⟩ := by
  obtain ⟨hready, polls, hpolls, hwait⟩ := pollStatus_some h
  refine ⟨hready, polls, hpolls, ?_⟩
  simp only [sectorsFrom, blPataWaitReady, hwait]
  simp [blPataReadStatus]

/-- The part of the log that a stage adds, and what it has to be. -/
structure Transferred (drive : Drive) (buf first n : Nat) (last : Option Byte)
    (log : List Access) : Prop where
  complete : words log = sectorData drive buf first n
  ready : ReadyAt last log
  undisturbed : Undisturbed n log

/-- The two polls before a piece of the data, the piece, and the rest. -/
theorem transferred_piece {polls : List Access} {size : Nat} (hsize : 0 < size)
    (hpolls : BusyPolls polls) (v w : Byte) (hv : ¬ Busy v) :
    Transferred drive buf first (size + n) last
        (polls ++ .status v :: .status w :: (dataLog drive buf first size ++ b)) ↔
      Asks v ∧ Asks w ∧ Transferred drive (buf + 2 * size) (first + size) n (some w) b := by
  have hsplit : sectorData drive buf first (size + n) =
      sectorData drive buf first size ++ sectorData drive (buf + 2 * size) (first + size) n := by
    simp only [sectorData, List.range_add, List.map_append, List.map_map]
    congr 2
    funext k
    simp only [Function.comp_apply, Nat.mul_add, Nat.add_assoc]
  have hne : sectorData drive buf first size ≠ [] := by
    rw [← List.length_pos_iff, length_sectorData]
    exact hsize
  have hwords : words (polls ++ .status v :: .status w :: (dataLog drive buf first size ++ b)) =
      sectorData drive buf first (size + n) ↔
      words b = sectorData drive (buf + 2 * size) (first + size) n := by
    rw [words_append, hpolls.words_nil, hsplit, words, words, words_append, words_dataLog,
      List.nil_append]
    exact List.append_right_inj _
  have hready :
      ReadyAt last (polls ++ .status v :: .status w :: (dataLog drive buf first size ++ b)) ↔
      (¬ Busy w ∧ Requests w) ∧ ReadyAt (some w) b := by
    rw [hpolls.readyAt, ReadyAt, dataLog]
    exact readyAt_map_data _ hne
  have hundisturbed : Undisturbed (size + n)
      (polls ++ .status v :: .status w :: (dataLog drive buf first size ++ b)) ↔
      ¬ Disturbs v ∧ ¬ Disturbs w ∧ Undisturbed n b := by
    have hdata := undisturbed_map_data (n := n) (b := b) (sectorData drive buf first size)
    rw [length_sectorData] at hdata
    rw [hpolls.undisturbed, Undisturbed, Undisturbed, dataLog, hdata]
    simp only [Nat.add_pos_left hsize n, forall_const]
  have hasks (val : Byte) (hval : ¬ Busy val) : ¬ Disturbs val ↔ Asks val := by
    unfold Disturbs Asks
    rw [and_iff_right hval, and_iff_right hval, not_or, not_not]
  constructor
  · rintro ⟨h₁, h₂, h₃⟩
    obtain ⟨hw, hrest⟩ := hready.mp h₂
    obtain ⟨hdv, hdw, hun⟩ := hundisturbed.mp h₃
    exact ⟨(hasks v hv).mp hdv, (hasks w hw.1).mp hdw, hwords.mp h₁, hrest, hun⟩
  · rintro ⟨hav, haw, h₁, h₂, h₃⟩
    exact ⟨hwords.mpr h₁, hready.mpr ⟨⟨haw.1, haw.2.2⟩, h₂⟩,
      hundisturbed.mpr ⟨(hasks v hv).mpr hav, (hasks w haw.1).mpr haw, h₃⟩⟩

theorem transferred_nil {polls : List Access} (hpolls : BusyPolls polls) (v w : Byte) :
    Transferred drive buf first 0 last (polls ++ [.status v, .status w]) where
  complete := by rw [words_append, hpolls.words_nil]; rfl
  ready := hpolls.readyAt.mpr trivial
  undisturbed := by
    rw [hpolls.undisturbed]
    simp [Undisturbed]

/-- A loop that the drive ends has not read everything. -/
theorem not_transferred {polls : List Access} (hpolls : BusyPolls polls) (v w : Byte)
    (hn : 0 < n) : ¬ Transferred drive buf first n last (polls ++ [.status v, .status w]) := by
  intro h
  have hlen := congrArg List.length h.complete
  rw [words_append, hpolls.words_nil, length_sectorData] at hlen
  exact absurd hlen (by simp [words]; omega)

theorem sectorsFrom_spec (drive : Drive) (buf left i : Nat) (ports : Ports) :
    ((sectorsFrom drive buf left i ports).2 ≠ .success ↔
      TimesOut drive left ports.statusReads) ∧
    ((sectorsFrom drive buf left i ports).2 = .success →
      ∃ log, (sectorsFrom drive buf left i ports).1.log = ports.log ++ log ∧ ∀ last,
        (Transferred drive (buf + i * blStorageSectorSize) ports.dataReads (sectorWords * left)
          last log ↔ AsksEachTime drive left ports.statusReads)) := by
  induction left generalizing i ports with
  | zero =>
    cases hanswer : answerAt drive waitPolls ports.statusReads with
    | none =>
      have hfail := sectorsFrom_none buf 0 i hanswer
      exact ⟨iff_of_true hfail hanswer, fun h => absurd h hfail⟩
    | some m =>
      obtain ⟨-, polls, hpolls, heq⟩ := sectorsFrom_some buf 0 i hanswer
      rw [heq]
      refine ⟨by simp [readSectors, TimesOut, hanswer], fun _ => ⟨_, rfl, fun last => ?_⟩⟩
      exact iff_of_true (transferred_nil hpolls _ _) trivial
  | succ left ih =>
    cases hanswer : answerAt drive waitPolls ports.statusReads with
    | none =>
      have hfail := sectorsFrom_none buf (left + 1) i hanswer
      exact ⟨iff_of_true hfail (.inl hanswer), fun h => absurd h hfail⟩
    | some m =>
      obtain ⟨hready, polls, hpolls, heq⟩ :=
        sectorsFrom_some buf (left + 1) i hanswer
      rw [heq, readSectors_succ]
      simp only [TimesOut, AsksEachTime, hanswer, reduceCtorEq, Option.some.injEq, exists_eq_left',
        false_or]
      by_cases hrefused : HasError (drive.status (m + 1)) ∧ ¬ Requests (drive.status (m + 1))
      · rw [if_pos hrefused]
        refine ⟨by simp [hrefused], fun _ => ⟨_, rfl, fun last => iff_of_false ?_ ?_⟩⟩
        · exact not_transferred hpolls _ _ (by simp [sectorWords, blStorageSectorSize])
        · rintro ⟨-, hasks, -⟩
          exact hrefused.2 hasks.2.2
      · rw [if_neg hrefused, blPataBufferReadSector_eq]
        obtain ⟨hstops, hreads⟩ := ih (i + 1) ⟨m + 2, ports.dataReads + sectorWords,
          ports.log ++ (polls ++ [.status (drive.status m), .status (drive.status (m + 1))]) ++
            dataLog drive (buf + i * blStorageSectorSize) ports.dataReads sectorWords⟩
        rw [hstops]
        refine ⟨by simp [hrefused], fun hsuccess => ?_⟩
        obtain ⟨log, hlog, hrest⟩ := hreads hsuccess
        refine ⟨polls ++ .status (drive.status m) :: .status (drive.status (m + 1)) ::
          (dataLog drive (buf + i * blStorageSectorSize) ports.dataReads sectorWords ++ log), ?_,
          fun last => ?_⟩
        · rw [hlog]
          simp only [List.append_assoc, List.cons_append, List.nil_append]
        · rw [← hrest (some (drive.status (m + 1))), Nat.mul_succ,
            Nat.add_comm (sectorWords * left), transferred_piece (by decide) hpolls _ _ hready,
            two_mul_sectorWords, Nat.succ_mul, Nat.add_assoc buf]

/-! ## The whole read -/

/-- Nothing was read yet. -/
def atStart : Ports := ⟨0, 0, []⟩

theorem blPataRead_eq (drive : Drive) (ports : Ports) (type : Byte) (buf : Nat)
    (lba sectors : BitVec 64) :
    blPataRead drive ports type buf lba sectors =
      sectorsFrom drive buf sectors.toNat 0
        (writeCommand ports type blPataCmdReadSectors lba sectors) := by
  have hcommand :
      blPataDeviceCommand drive ports type blPataCmdReadSectors buf sectors lba sectors =
        sectorsFrom drive buf sectors.toNat 0
          (writeCommand ports type blPataCmdReadSectors lba sectors) := by
    simp only [blPataDeviceCommand, sectorsFrom]
  simp only [blPataRead, hcommand]
  split_ifs with hstatus
  · rfl
  · exact Prod.ext rfl (not_not.mp hstatus).symm

theorem transferred_writes (ws : List (WriteReg × Byte)) :
    Transferred drive buf first n last ((ws.map fun w => .write w.1 w.2) ++ b) ↔
      Transferred drive buf first n last b := by
  induction ws with
  | nil => exact Iff.rfl
  | cons w ws ih =>
    rw [← ih]
    exact ⟨fun ⟨h₁, h₂, h₃⟩ => ⟨h₁, h₂, h₃⟩, fun ⟨h₁, h₂, h₃⟩ => ⟨h₁, h₂, h₃⟩⟩

theorem writeCommand_eq (type command : Byte) (lba sectors : BitVec 64) :
    ∃ ws : List (WriteReg × Byte), writeCommand atStart type command lba sectors =
      ⟨0, 0, ws.map fun w => .write w.1 w.2⟩ :=
  ⟨[(.features, 0), (.sectorCount, (sectors >>> 8).setWidth 8),
    (.lba48Low, (lba >>> 24).setWidth 8), (.lba48Mid, (lba >>> 32).setWidth 8),
    (.lba48High, (lba >>> 40).setWidth 8), (.sectorCount, sectors.setWidth 8),
    (.lbaLow, lba.setWidth 8), (.lbaMid, (lba >>> 8).setWidth 8),
    (.lbaHigh, (lba >>> 16).setWidth 8), (.device, blPataRegDeviceSet 1 type),
    (.command, command)], rfl⟩

/-- **When a read is reported rightly**: some wait gets no answer, or the drive asks for the
transfer of every sector. -/
theorem blPataRead_reported_iff (drive : Drive) (type : Byte) (buf : Nat)
    (lba sectors : BitVec 64) :
    Reported drive buf sectors (blPataRead drive atStart type buf lba sectors) ↔
      TimesOut drive sectors.toNat 0 ∨ AsksEachTime drive sectors.toNat 0 := by
  rw [blPataRead_eq]
  obtain ⟨ws, hws⟩ := writeCommand_eq type blPataCmdReadSectors lba sectors
  rw [hws]
  obtain ⟨hstops, hreads⟩ := sectorsFrom_spec drive buf sectors.toNat 0
    ⟨0, 0, ws.map fun w => .write w.1 w.2⟩
  rw [← hstops]
  by_cases hsuccess :
      (sectorsFrom drive buf sectors.toNat 0 ⟨0, 0, ws.map fun w => .write w.1 w.2⟩).2 = .success
  · obtain ⟨log, hlog, hrest⟩ := hreads hsuccess
    rw [Nat.zero_mul, Nat.add_zero] at hrest
    simp only [hsuccess, ne_eq, not_true_eq_false, false_or]
    rw [← hrest none, ← transferred_writes ws, ← hlog]
    exact ⟨fun h => ⟨h.complete hsuccess, h.ready hsuccess, h.undisturbed hsuccess⟩,
      fun h => ⟨fun _ => h.complete, fun _ => h.ready, fun _ => h.undisturbed⟩⟩
  · refine iff_of_true ⟨fun h => ?_, fun h => ?_, fun h => ?_⟩ (.inl hsuccess) <;>
      exact absurd h hsuccess

/-- A drive that shows the error bit and nothing else. -/
def failing : Drive := ⟨fun _ => blPataRegStatusErr, fun _ => 0⟩

theorem failing_read_reported :
    ¬ ∀ (drive : Drive) (type : Byte) (buf : Nat) (lba sectors : BitVec 64),
      Reported drive buf sectors (blPataRead drive atStart type buf lba sectors) := by
  intro h
  have hcomplete := (h failing 0 0x7000 0 1).complete rfl
  exact absurd (congrArg List.length hcomplete) (by rw [length_sectorData]; decide)

end BootLoader.Pata

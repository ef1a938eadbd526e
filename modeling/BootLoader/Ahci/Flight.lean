import Mathlib.Data.Finset.Card
import BootLoader.Ahci.Scatter
import BootLoader.Lib.ScatterList

/-!
# Commands in flight

The driver gives a command up after its polls, and the drive does not. The command stays in its
slot, and its data may come at any later time. What still holds of every run is that a slot in
flight is as it was built, and so all that ever comes is what was asked for.
-/

open ByteMemory ScatterList

namespace BootLoader.Ahci

open Storage (blStorageSectorSize)

/-! ## The drive -/

/-- The bit of a slot in `ci`. -/
def slotBit (slot : Nat) : BitVec 32 := 1 <<< slot

def BlAhciPrdt.piece (e : BlAhciPrdt) : Piece := ⟨e.base, e.bytes⟩

/-- The registers and tables of the port, its interrupt status, and the memory. -/
structure System where
  port : BlAhciPort
  is : BitVec 32
  mem : Mem

/-- What a drive does with the commands that are issued, in any order and at any time. -/
inductive Move where
  /-- So many bytes of the command's data are in memory. -/
  | transfer (slot moved : Nat)
  /-- All of it is, and the command is done. -/
  | finish (slot : Nat)
  | error
  deriving DecidableEq, Repr

/-- Of the sectors in the registers, the bytes go where the entries say: all of them, or the first
ones. -/
def execute (disk : Mem) (port : BlAhciPort) (slot : Nat) (moved : Option Nat) (m : Mem) : Mem :=
  match (port.commandTable slot).cfis.sectors with
  | none => m
  | some (lba, count) =>
    let bytes := blStorageSectorSize * count
    scatter (fun k => disk (blStorageSectorSize * lba + k))
      ((port.entries slot).map BlAhciPrdt.piece) (min (moved.getD bytes) bytes) m

def Move.make (disk : Mem) (s : System) : Move → System
  | .transfer slot moved =>
    if s.port.ci.getLsbD slot then { s with mem := execute disk s.port slot (some moved) s.mem }
    else s
  | .finish slot =>
    if s.port.ci.getLsbD slot then
      { s with
        port := { s.port with ci := s.port.ci &&& ~~~slotBit slot }
        mem := execute disk s.port slot none s.mem }
    else s
  | .error => { s with is := s.is ||| blAhciPortIsTfes }

def makeAll (disk : Mem) (s : System) (moves : List Move) : System :=
  moves.foldl (Move.make disk) s

/-! ## The driver beside it -/

structure Request where
  buf : BitVec 32
  lba : BitVec 64
  sectors : BitVec 64
  deriving DecidableEq, Repr

/-- `moves k` are made before the poll with number `k`. -/
def System.after (disk : Mem) (s : System) (moves : Nat → List Move) : Nat → System
  | 0 => makeAll disk s (moves 0)
  | k + 1 => makeAll disk (s.after disk moves k) (moves (k + 1))

/-- The poll behind the loop, by number. -/
def lastPoll (ci : Nat → BitVec 32) (slot : Nat) : Nat :=
  match (List.range 99).find? fun k => ci k &&& slotBit slot = 0 with
  | some k => k + 1
  | none => 99

/-- What the port is like when the driver begins to poll. -/
def System.issue (s : System) (commandSlots : Nat) (r : Request) : System :=
  { s with port := (blAhciRead ⟨fun _ => 0, 0⟩ commandSlots s.port r.buf r.lba r.sectors).1 }

/-- A read, while the drive makes its moves. -/
def System.read (disk : Mem) (commandSlots : Nat) (s : System) (r : Request)
    (moves : Nat → List Move) : System × BlStatus :=
  let shown := (s.issue commandSlots r).after disk moves
  let ci := fun k => (shown k).port.ci
  let last := match blAhciFindFreeCommandSlot s.port commandSlots with
    | none => 0
    | some slot => lastPoll ci slot
  (shown last, (blAhciRead ⟨ci, (shown last).is⟩ commandSlots s.port r.buf r.lba r.sectors).2)

inductive Event where
  | read (r : Request) (moves : Nat → List Move)
  | idle (moves : List Move)

/-- The reads of a run with their outcomes, the last one first. -/
abbrev Log := List (Request × BlStatus)

def System.event (disk : Mem) (commandSlots : Nat) (s : System × Log) : Event → System × Log
  | .read r moves =>
    let (s', status) := s.1.read disk commandSlots r moves
    (s', (r, status) :: s.2)
  | .idle moves => (makeAll disk s.1 moves, s.2)

def System.run (disk : Mem) (commandSlots : Nat) (s : System) (events : List Event) :
    System × Log :=
  events.foldl (System.event disk commandSlots) (s, [])

/-! ## Slots -/

variable {commandSlots left i slot k : Nat} {x slots : BitVec 32} {port : BlAhciPort}

theorem getLsbD_slotBit : (slotBit slot).getLsbD k = decide (k = slot ∧ k < 32) := by
  change (BitVec.ofNat 32 (1 <<< slot)).getLsbD k = _
  rw [BitVec.getLsbD_ofNat, Nat.one_shiftLeft, Nat.testBit_two_pow, ← Bool.decide_and]
  exact decide_eq_decide.mpr ⟨fun h => ⟨h.2.symm, h.1⟩, fun h => ⟨h.2, h.1.symm⟩⟩

theorem and_slotBit (hslot : slot < 32) : x &&& slotBit slot = 0 ↔ x.getLsbD slot = false := by
  constructor
  · intro h
    have hbit := congrArg (fun y : BitVec 32 => y.getLsbD slot) h
    simpa only [BitVec.getLsbD_and, getLsbD_slotBit, hslot, and_self, decide_true, Bool.and_true,
      BitVec.ofNat_eq_ofNat, BitVec.getLsbD_zero] using hbit
  · intro h
    apply BitVec.eq_of_getLsbD_eq
    intro k hk
    rw [BitVec.getLsbD_and, getLsbD_slotBit]
    by_cases hkslot : k = slot
    · subst hkslot
      simp [h]
    · simp [hkslot]

theorem and_not_slotBit :
    (x &&& ~~~slotBit slot).getLsbD k = (x.getLsbD k && decide (k ≠ slot)) := by
  rw [BitVec.getLsbD_and, BitVec.getLsbD_not, getLsbD_slotBit]
  by_cases hk : k < 32
  · simp [hk]
  · simp [hk, x.getLsbD_of_ge k (by omega)]

theorem findSlotFrom_spec (left i : Nat) (slots : BitVec 32) :
    (∀ slot, findSlotFrom left i slots = some slot →
      i ≤ slot ∧ slot < i + left ∧ slots.getLsbD (slot - i) = false) ∧
    (findSlotFrom left i slots = none → ∀ k < left, slots.getLsbD k = true) := by
  induction left generalizing i slots with
  | zero => exact ⟨fun _ h => (Option.some_ne_none _ h.symm).elim, fun _ k hk => by omega⟩
  | succ left ih =>
    have hlow : slots &&& 1 = 0 ↔ slots.getLsbD 0 = false := and_slotBit (by omega : 0 < 32)
    have hrest := ih (i + 1) (slots >>> 1)
    simp only [BitVec.getLsbD_ushiftRight] at hrest
    rw [findSlotFrom]
    split_ifs with hfree
    · refine ⟨fun slot hslot => ?_, fun hnone => nomatch hnone⟩
      obtain rfl := Option.some.inj hslot
      exact ⟨le_rfl, by omega, by rw [Nat.sub_self]; exact hlow.mp hfree⟩
    · refine ⟨fun slot hslot => ?_, fun hnone k hk => ?_⟩
      · obtain ⟨hge, hlt, hbit⟩ := hrest.1 slot hslot
        exact ⟨by omega, by omega, by rwa [show 1 + (slot - (i + 1)) = slot - i by omega] at hbit⟩
      · cases k with
        | zero => simpa using fun h => hfree (hlow.mpr h)
        | succ k =>
          rw [Nat.add_comm]
          exact hrest.2 hnone k (by omega)

theorem blAhciFindFreeCommandSlot_some
    (h : blAhciFindFreeCommandSlot port commandSlots = some slot) :
    slot < commandSlots ∧ port.ci.getLsbD slot = false := by
  obtain ⟨-, hlt, hbit⟩ := (findSlotFrom_spec commandSlots 0 (port.sact ||| port.ci)).1 slot h
  rw [Nat.sub_zero, BitVec.getLsbD_or, Bool.or_eq_false_iff] at hbit
  exact ⟨by omega, hbit.2⟩

theorem blAhciFindFreeCommandSlot_none (hsact : port.sact = 0)
    (h : blAhciFindFreeCommandSlot port commandSlots = none) (hk : k < commandSlots) :
    port.ci.getLsbD k = true := by
  have hbit := (findSlotFrom_spec commandSlots 0 (port.sact ||| port.ci)).2 h k hk
  rwa [hsact, BitVec.getLsbD_or, show (0 : BitVec 32).getLsbD k = false from BitVec.getLsbD_zero,
    Bool.false_or] at hbit

/-! ## What is built -/

variable {disk m : Mem} {r q : Request} {s s' : System} {lba sectors : BitVec 64}

def Request.Covers (r : Request) (x : Nat) : Prop :=
  r.buf.toNat ≤ x ∧ x < r.buf.toNat + 512 * r.sectors.toNat

/-- What belongs at an address of the buffer. -/
def Request.content (disk : Mem) (r : Request) (x : Nat) : Byte :=
  disk (512 * r.lba.toNat + (x - r.buf.toNat))

structure Request.InRange (r : Request) : Prop where
  lba : r.lba.toNat < 2 ^ 48
  buffer : r.buf.toNat + 512 * r.sectors.toNat ≤ 2 ^ 32

/-- The slot is for this request. A drive that is asked for 0 sectors reads 65536, but there is no
entry that they could go to. -/
structure Built (port : BlAhciPort) (slot : Nat) (r : Request) : Prop where
  tiles : Tiles ((port.entries slot).map BlAhciPrdt.piece) r.buf.toNat
    (r.buf.toNat + 512 * r.sectors.toNat)
  fis : ∃ count, (port.commandTable slot).cfis.sectors = some (r.lba.toNat, count) ∧
    r.sectors.toNat ≤ count

theorem tiles_of_covers {es : List BlAhciPrdt} {start stop : Nat} (h : Covers es start stop) :
    Tiles (es.map BlAhciPrdt.piece) start stop := by
  induction es generalizing start with
  | nil => exact h
  | cons e es ih => exact ⟨h.1, ih h.2⟩

theorem setFis_reads (fis : BlAhciFisHostToDevice) (hlba : lba.toNat < 2 ^ 48)
    (hsectors : sectors.toNat ≤ 65536) :
    ∃ count, (setFis fis blSataCommandReadSectorsDmaExt lba sectors).sectors =
      some (lba.toNat, count) ∧ sectors.toNat ≤ count := by
  by_cases hpos : 1 ≤ sectors.toNat
  · exact ⟨_, setFis_sectors fis hlba hpos hsectors, le_rfl⟩
  · -- Both bytes of the count are 0, as they are for 65536.
    have hzero : sectors = 0 := BitVec.eq_of_toNat_eq (by simpa using hpos)
    subst hzero
    refine ⟨65536, ?_, by simp⟩
    exact @setFis_sectors lba 65536 fis hlba (by decide) (by decide)

theorem execute_eq (h : Built s.port slot r) (moved : Option Nat) (m : Mem) :
    execute disk s.port slot moved m = place (fun k => disk (512 * r.lba.toNat + k)) r.buf.toNat
      (min (moved.getD (512 * r.sectors.toNat)) (512 * r.sectors.toNat)) m := by
  obtain ⟨count, hfis, hcount⟩ := h.fis
  rw [execute, hfis]
  dsimp only
  rw [scatter_eq_place h.tiles, blStorageSectorSize]
  congr 1
  cases moved <;> simp only [Option.getD_none, Option.getD_some] <;> omega

theorem execute_changes (disk : Mem) (h : Built s.port slot r) (moved : Option Nat) (m : Mem) (a : Nat) :
    execute disk s.port slot moved m a = m a ∨
      r.Covers a ∧ execute disk s.port slot moved m a = r.content disk a := by
  rw [execute_eq h, place]
  split_ifs with hin
  · exact .inr ⟨⟨hin.1, by omega⟩, rfl⟩
  · exact .inl rfl

theorem execute_all (h : Built s.port slot r) (m : Mem) {a : Nat} (ha : r.Covers a) :
    execute disk s.port slot none m a = r.content disk a := by
  rw [execute_eq h, place, Option.getD_none, min_self]
  exact if_pos ha

/-! ## A move -/

/-- A slot in flight is as it was built, for a request that may be in it. -/
def InFlight (may : Nat → Request → Prop) (s : System) : Prop :=
  ∀ k, s.port.ci.getLsbD k = true → ∃ q, may k q ∧ Built s.port k q

/-- What comes to memory is what one of the requests asked for. -/
def Changed (disk : Mem) (may : Request → Prop) (m m' : Mem) : Prop :=
  ∀ a, m' a = m a ∨ ∃ q, may q ∧ q.Covers a ∧ m' a = q.content disk a

/-- The data is there, except where data of the others may be. -/
def Arrived (disk : Mem) (others : Request → Prop) (r : Request) (m : Mem) : Prop :=
  ∀ a, r.Covers a → m a = r.content disk a ∨ ∃ q, others q ∧ q.Covers a

variable {may : Nat → Request → Prop} {among others : Request → Prop} {move : Move}
  {m' m'' : Mem}

theorem Changed.trans (h : Changed disk among m m') (h' : Changed disk among m' m'') :
    Changed disk among m m'' := by
  intro a
  rcases h' a with hsame | hnew
  · rw [hsame]
    exact h a
  · exact .inr hnew

theorem Changed.mono (h : Changed disk among m m') (hmay : ∀ q, among q → others q) :
    Changed disk others m m' :=
  fun a => (h a).imp_right fun ⟨q, hq, ha⟩ => ⟨q, hmay q hq, ha⟩

/-- The slots whose bit is set. -/
def busy (s : System) : Finset Nat := (Finset.range 32).filter fun k => s.port.ci.getLsbD k = true

/-- A move leaves the tables as they are, and issues nothing. -/
structure Passive (s s' : System) : Prop where
  sact : s'.port.sact = s.port.sact
  list : s'.port.commandList = s.port.commandList
  table : s'.port.commandTable = s.port.commandTable
  issued : ∀ k, s'.port.ci.getLsbD k = true → s.port.ci.getLsbD k = true

theorem make_passive (move : Move) (s : System) : Passive s (move.make disk s) := by
  cases move with
  | transfer slot moved =>
    rw [Move.make]
    split_ifs <;> exact ⟨rfl, rfl, rfl, fun _ h => h⟩
  | finish slot =>
    rw [Move.make]
    split_ifs
    · refine ⟨rfl, rfl, rfl, fun k hk => ?_⟩
      rw [and_not_slotBit, Bool.and_eq_true] at hk
      exact hk.1
    · exact ⟨rfl, rfl, rfl, fun _ h => h⟩
  | error => exact ⟨rfl, rfl, rfl, fun _ h => h⟩

theorem Passive.trans {s'' : System} (h : Passive s s') (h' : Passive s' s'') : Passive s s'' :=
  ⟨h'.sact.trans h.sact, h'.list.trans h.list, h'.table.trans h.table,
    fun k hk => h.issued k (h'.issued k hk)⟩

theorem Passive.built (h : Passive s s') (hb : Built s.port slot r) : Built s'.port slot r := by
  have hentries : s'.port.entries slot = s.port.entries slot := by
    rw [BlAhciPort.entries, BlAhciPort.entries, h.list, h.table]
  exact ⟨by rw [hentries]; exact hb.tiles, by rw [h.table]; exact hb.fis⟩

theorem Passive.inFlight (h : Passive s s') (hs : InFlight may s) : InFlight may s' := by
  intro k hk
  obtain ⟨q, hq, hb⟩ := hs k (h.issued k hk)
  exact ⟨q, hq, h.built hb⟩

theorem Passive.busy (h : Passive s s') : busy s' ⊆ busy s := by
  intro k hk
  rw [Ahci.busy, Finset.mem_filter] at hk ⊢
  exact ⟨hk.1, h.issued k hk.2⟩

theorem make_changed (hs : InFlight may s) (move : Move) :
    Changed disk (fun q => ∃ k, may k q) s.mem (move.make disk s).mem := by
  intro a
  cases move with
  | transfer slot moved =>
    rw [Move.make]
    split_ifs with hbit
    · obtain ⟨q, hq, hb⟩ := hs slot hbit
      exact (execute_changes disk hb (some moved) s.mem a).imp_right fun h => ⟨q, ⟨slot, hq⟩, h⟩
    · exact .inl rfl
  | finish slot =>
    rw [Move.make]
    split_ifs with hbit
    · obtain ⟨q, hq, hb⟩ := hs slot hbit
      exact (execute_changes disk hb none s.mem a).imp_right fun h => ⟨q, ⟨slot, hq⟩, h⟩
    · exact .inl rfl
  | error => exact .inl rfl

/-- The request is in the slot, and the others are elsewhere. -/
def during (slot : Nat) (r : Request) (others : Request → Prop) (k : Nat) (q : Request) : Prop :=
  if k = slot then q = r else others q

/-- **What is done has arrived.** Nothing but the last part of its data ends a command, and then it
is the others alone that may write over it. -/
theorem make_arrived (hs : InFlight (during slot r others) s)
    (h : s.port.ci.getLsbD slot = false → Arrived disk others r s.mem) (move : Move)
    (hdone : (move.make disk s).port.ci.getLsbD slot = false) :
    Arrived disk others r (move.make disk s).mem := by
  -- While another slot is served, what was there stays or is overwritten by one of the others.
  have hother : ∀ k, k ≠ slot → s.port.ci.getLsbD k = true → s.port.ci.getLsbD slot = false →
      ∀ moved, Arrived disk others r (execute disk s.port k moved s.mem) := by
    intro k hk hbit hslot moved a ha
    obtain ⟨q, hq, hb⟩ := hs k hbit
    rw [during, if_neg hk] at hq
    rcases execute_changes disk hb moved s.mem a with hsame | ⟨hcovers, -⟩
    · rw [hsame]
      exact h hslot a ha
    · exact .inr ⟨q, hq, hcovers⟩
  cases move with
  | transfer k moved =>
    rw [Move.make] at hdone ⊢
    split_ifs at hdone ⊢ with hbit
    · have hk : k ≠ slot := by
        rintro rfl
        rw [hbit] at hdone
        contradiction
      exact hother k hk hbit hdone (some moved)
    · exact h hdone
  | finish k =>
    rw [Move.make] at hdone ⊢
    split_ifs at hdone ⊢ with hbit
    · by_cases hk : k = slot
      · subst hk
        obtain ⟨q, hq, hb⟩ := hs k hbit
        rw [during, if_pos rfl] at hq
        subst hq
        exact fun a ha => .inl (execute_all hb s.mem ha)
      · refine hother k hk hbit ?_ none
        rw [and_not_slotBit] at hdone
        simpa [Ne.symm hk] using hdone
    · exact h hdone
  | error => exact h hdone

/-! ## A read -/

variable {moves : Nat → List Move} {P : System → Prop} {status : BlStatus}

theorem makeAll_induction (hstep : ∀ s move, P s → P (Move.make disk s move)) (hs : P s)
    (moves : List Move) : P (makeAll disk s moves) := by
  induction moves generalizing s with
  | nil => exact hs
  | cons move moves ih => exact ih (hstep s move hs)

theorem after_induction (hstep : ∀ s move, P s → P (Move.make disk s move)) (hs : P s) (k : Nat) :
    P (s.after disk moves k) := by
  induction k with
  | zero => exact makeAll_induction hstep hs _
  | succ k ih => exact makeAll_induction hstep ih _

theorem too_many : blAhciPrdtEntries * prdtSectors < sectors ↔ 65536 < sectors.toNat := by
  rw [BitVec.lt_def, show (blAhciPrdtEntries * prdtSectors).toNat = 65536 by decide]

theorem issue_refused (r : Request) (h : 65536 < r.sectors.toNat ∨
    blAhciFindFreeCommandSlot s.port commandSlots = none) : s.issue commandSlots r = s := by
  have hport : (blAhciRead ⟨fun _ => 0, 0⟩ commandSlots s.port r.buf r.lba r.sectors).1 =
      s.port := by
    rw [blAhciRead, blAhciDoCommand]
    rcases h with hlarge | hnone
    · rw [if_pos (too_many.mpr hlarge)]
      rfl
    · rw [hnone]
      split_ifs <;> rfl
  rw [System.issue, hport]

/-- What the registers and tables are when the command is issued. -/
structure Issued (s : System) (slot : Nat) (r : Request) (s' : System) : Prop where
  sact : s'.port.sact = s.port.sact
  ci : s'.port.ci = s.port.ci ||| slotBit slot
  mem : s'.mem = s.mem
  built : Built s'.port slot r
  others : ∀ k, k ≠ slot → ∀ q, Built s.port k q → Built s'.port k q

theorem issue_issued (hr : r.InRange) (hsectors : r.sectors.toNat ≤ 65536)
    (hslot : blAhciFindFreeCommandSlot s.port commandSlots = some slot) :
    Issued s slot r (s.issue commandSlots r) := by
  have hnot : ¬ blAhciPrdtEntries * prdtSectors < r.sectors := by
    rw [too_many]
    omega
  have hport : (s.issue commandSlots r).port = (blAhciDoCommand ⟨fun _ => 0, 0⟩ commandSlots s.port
      blSataCommandReadSectorsDmaExt r.buf r.lba r.sectors).1 := by
    rw [System.issue, blAhciRead]
    dsimp only
    split_ifs <;> rfl
  obtain ⟨hlist, hfis, htable⟩ := blAhciDoCommand_tables ⟨fun _ => 0, 0⟩
    blSataCommandReadSectorsDmaExt r.buf r.lba r.sectors hsectors hslot
  have hbuilt : Built (s.issue commandSlots r).port slot r := by
    obtain ⟨-, hlow, hhigh⟩ := prdtl_bounds hsectors
    have hcovers := setPrdt_covers (i := 0) (fun _ => rfl) hlow hhigh
      (show r.buf.toNat + (0 : BitVec 64).toNat + 512 * r.sectors.toNat ≤ 2 ^ 32 from hr.buffer)
      (clearTable_dbau (s.port.commandTable slot))
    simp only [Nat.zero_add] at hcovers
    rw [hport]
    refine ⟨tiles_of_covers ?_, ?_⟩
    · rw [BlAhciPort.entries, hlist, htable]
      exact hcovers
    · rw [hfis]
      exact setFis_reads zeroFis hr.lba hsectors
  have hother : ∀ k, k ≠ slot →
      (s.issue commandSlots r).port.commandList k = s.port.commandList k ∧
        (s.issue commandSlots r).port.commandTable k = s.port.commandTable k := by
    intro k hk
    rw [hport, blAhciDoCommand, if_neg hnot, hslot]
    exact ⟨Function.update_of_ne hk _ _, Function.update_of_ne hk _ _⟩
  refine ⟨?_, ?_, rfl, hbuilt, fun k hk q hq => ?_⟩
  · rw [hport, blAhciDoCommand, if_neg hnot, hslot]
  · rw [hport, blAhciDoCommand, if_neg hnot, hslot]
    rfl
  · obtain ⟨hlistK, htableK⟩ := hother k hk
    have hentries : (s.issue commandSlots r).port.entries k = s.port.entries k := by
      rw [BlAhciPort.entries, BlAhciPort.entries, hlistK, htableK]
    exact ⟨by rw [hentries]; exact hq.tiles, by rw [htableK]; exact hq.fis⟩

theorem waitCommand_spec (hba : Hba) (hslot : slot < 32) :
    (waitCommand hba slot = .diskOperationTimeout ↔
      (hba.ci (lastPoll hba.ci slot)).getLsbD slot = true) ∧
    waitCommand hba slot ≠ .invalidParameters ∧ waitCommand hba slot ≠ .insufficientResources := by
  have heq : waitCommand hba slot =
      if hba.ci (lastPoll hba.ci slot) &&& slotBit slot ≠ 0 then .diskOperationTimeout
      else if hba.is &&& blAhciPortIsTfes ≠ 0 then .diskControllerInternalError
      else .success := rfl
  rw [heq]
  by_cases hclear : hba.ci (lastPoll hba.ci slot) &&& slotBit slot = 0
  · rw [if_neg (not_not.mpr hclear), (and_slotBit hslot).mp hclear]
    split_ifs <;> simp
  · have hset : (hba.ci (lastPoll hba.ci slot)).getLsbD slot = true := by
      rwa [and_slotBit hslot, Bool.not_eq_false] at hclear
    rw [if_pos hclear, hset]
    simp

theorem blAhciRead_status (hba : Hba) (commandSlots : Nat) (port : BlAhciPort) (r : Request) :
    (blAhciRead hba commandSlots port r.buf r.lba r.sectors).2 =
      if 65536 < r.sectors.toNat then .invalidParameters
      else
        match blAhciFindFreeCommandSlot port commandSlots with
        | none => .insufficientResources
        | some slot => waitCommand hba slot := by
  have hsame : (blAhciRead hba commandSlots port r.buf r.lba r.sectors).2 =
      (blAhciDoCommand hba commandSlots port blSataCommandReadSectorsDmaExt r.buf r.lba
        r.sectors).2 := by
    rw [blAhciRead]
    dsimp only
    split_ifs with hstatus
    · rfl
    · exact (not_ne_iff.mp hstatus).symm
  rw [hsame, blAhciDoCommand]
  by_cases hlarge : 65536 < r.sectors.toNat
  · rw [if_pos (too_many.mpr hlarge), if_pos hlarge]
  · rw [if_neg (fun h => hlarge (too_many.mp h)), if_neg hlarge]
    cases blAhciFindFreeCommandSlot port commandSlots <;> rfl

/-- While the drive makes its moves, and the driver none. -/
theorem after_passive (disk : Mem) (moves : Nat → List Move) (hs : InFlight may s) (k : Nat) :
    Passive s (s.after disk moves k) ∧
      Changed disk (fun q => ∃ k, may k q) s.mem (s.after disk moves k).mem := by
  refine after_induction (P := fun x => Passive s x ∧
    Changed disk (fun q => ∃ k, may k q) s.mem x.mem) ?_ ?_ k
  · intro x move ⟨hpassive, hchanged⟩
    exact ⟨hpassive.trans (make_passive move x),
      hchanged.trans (make_changed (hpassive.inFlight hs) move)⟩
  · exact ⟨⟨rfl, rfl, rfl, fun _ h => h⟩, fun a => .inl rfl⟩

/-- What a read does, from a state in which the commands in flight are of `others`. -/
structure ReadDone (disk : Mem) (commandSlots : Nat) (others : Request → Prop) (r : Request)
    (s s' : System) (status : BlStatus) : Prop where
  sact : s'.port.sact = s.port.sact
  flight : InFlight (fun _ q => others q ∨ status = .diskOperationTimeout ∧ q = r) s'
  changed : Changed disk (fun q => others q ∨ q = r ∧ status ≠ .invalidParameters ∧
    status ≠ .insufficientResources) s.mem s'.mem
  arrived : status = .success → Arrived disk others r s'.mem
  busy : (busy s').card ≤ (busy s).card + if status = .diskOperationTimeout then 1 else 0
  full : status = .insufficientResources → commandSlots ≤ (Ahci.busy s).card

theorem read_refused (hslots : commandSlots ≤ 32) (hsact : s.port.sact = 0)
    (hflight : InFlight (fun _ => others) s) {hba : Hba}
    (h : 65536 < r.sectors.toNat ∨ blAhciFindFreeCommandSlot s.port commandSlots = none) (k : Nat) :
    ReadDone disk commandSlots others r s (s.after disk moves k)
      (blAhciRead hba commandSlots s.port r.buf r.lba r.sectors).2 := by
  obtain ⟨hpassive, hchanged⟩ := after_passive disk moves hflight k
  have hstatus : (blAhciRead hba commandSlots s.port r.buf r.lba r.sectors).2 = .invalidParameters ∨
      (blAhciRead hba commandSlots s.port r.buf r.lba r.sectors).2 = .insufficientResources ∧
        blAhciFindFreeCommandSlot s.port commandSlots = none := by
    rw [blAhciRead_status]
    split_ifs with hlarge
    · exact .inl rfl
    · have hnone := h.resolve_left hlarge
      rw [hnone]
      exact .inr ⟨rfl, rfl⟩
  have hcard := Finset.card_le_card hpassive.busy
  refine ⟨hpassive.sact, fun slot hslot => ?_, hchanged.mono fun q ⟨_, hq⟩ => .inl hq, ?_,
    by omega, fun hfull => ?_⟩
  · obtain ⟨q, hq, hb⟩ := hpassive.inFlight hflight slot hslot
    exact ⟨q, .inl hq, hb⟩
  · rcases hstatus with hstatus | ⟨hstatus, -⟩ <;> rw [hstatus] <;> exact fun h => nomatch h
  · rcases hstatus with hstatus | ⟨-, hnone⟩
    · rw [hstatus] at hfull
      exact nomatch hfull
    · have hall : Finset.range commandSlots ⊆ Ahci.busy s := by
        intro slot hslot
        rw [Finset.mem_range] at hslot
        rw [Ahci.busy, Finset.mem_filter, Finset.mem_range]
        exact ⟨by omega, blAhciFindFreeCommandSlot_none hsact hnone hslot⟩
      have hle := Finset.card_le_card hall
      rwa [Finset.card_range] at hle

/-- From the store to `ci` on. -/
theorem read_issued {s₁ : System} (hslot : slot < 32) (hfree : s.port.ci.getLsbD slot = false)
    (hflight : InFlight (fun _ => others) s) (hissued : Issued s slot r s₁) (is : BitVec 32) :
    let ci := fun k => (s₁.after disk moves k).port.ci
    ReadDone disk commandSlots others r s (s₁.after disk moves (lastPoll ci slot))
      (waitCommand ⟨ci, is⟩ slot) := by
  intro ci
  have hbit : ∀ k, s₁.port.ci.getLsbD k = (s.port.ci.getLsbD k || decide (k = slot ∧ k < 32)) :=
    fun k => by rw [hissued.ci, BitVec.getLsbD_or, getLsbD_slotBit]
  have hduring : InFlight (during slot r others) s₁ := by
    intro k hk
    by_cases hkslot : k = slot
    · subst hkslot
      exact ⟨r, by rw [during, if_pos rfl], hissued.built⟩
    · rw [hbit] at hk
      obtain ⟨q, hq, hb⟩ := hflight k (by simpa [hkslot] using hk)
      exact ⟨q, by rwa [during, if_neg hkslot], hissued.others k hkslot q hb⟩
  obtain ⟨hstatus, hissuedStatus⟩ := waitCommand_spec ⟨ci, is⟩ hslot
  generalize waitCommand ⟨ci, is⟩ slot = status at hstatus hissuedStatus ⊢
  dsimp only at hstatus
  generalize lastPoll ci slot = last at hstatus ⊢
  obtain ⟨hpassive, hchanged⟩ := after_passive disk moves hduring last
  -- The command is in its slot, or all its data has arrived.
  have harrived : (s₁.after disk moves last).port.ci.getLsbD slot = false →
      Arrived disk others r (s₁.after disk moves last).mem := by
    refine (after_induction (P := fun x => InFlight (during slot r others) x ∧
      (x.port.ci.getLsbD slot = false → Arrived disk others r x.mem)) ?_ ⟨hduring, ?_⟩ last).2
    · exact fun x move ⟨hx, hdone⟩ =>
        ⟨(make_passive move x).inFlight hx, make_arrived hx hdone move⟩
    · intro hclear
      rw [hbit] at hclear
      simp [hslot] at hclear
  refine ⟨hpassive.sact.trans hissued.sact, fun k hk => ?_, ?_, fun hok => harrived ?_, ?_,
    fun hfull => absurd hfull hissuedStatus.2⟩
  · obtain ⟨q, hq, hb⟩ := hpassive.inFlight hduring k hk
    refine ⟨q, ?_, hb⟩
    by_cases hkslot : k = slot
    · subst hkslot
      rw [during, if_pos rfl] at hq
      exact .inr ⟨hstatus.mpr hk, hq⟩
    · rw [during, if_neg hkslot] at hq
      exact .inl hq
  · rw [← hissued.mem]
    refine hchanged.mono ?_
    rintro q ⟨k, hq⟩
    unfold during at hq
    split_ifs at hq
    · exact .inr ⟨hq, hissuedStatus⟩
    · exact .inl hq
  · rw [← Bool.not_eq_true, ← hstatus, hok]
    exact fun h => nomatch h
  · have hsub : Ahci.busy (s₁.after disk moves last) ⊆ insert slot (Ahci.busy s) := by
      intro k hk
      rw [Ahci.busy, Finset.mem_filter] at hk
      have hk₁ := hpassive.issued k hk.2
      rw [hbit, Bool.or_eq_true, decide_eq_true_iff] at hk₁
      rw [Finset.mem_insert, Ahci.busy, Finset.mem_filter]
      exact hk₁.elim (fun h => .inr ⟨hk.1, h⟩) fun h => .inl h.1
    have hcard := (Finset.card_le_card hsub).trans (Finset.card_insert_le _ _)
    split_ifs with htimeout
    · exact hcard
    · have hclear : slot ∉ Ahci.busy (s₁.after disk moves last) := by
        rw [Ahci.busy, Finset.mem_filter, ← hstatus]
        exact fun h => htimeout h.2
      exact Finset.card_le_card ((Finset.subset_insert_iff_of_notMem hclear).mp hsub)

theorem read_done (disk : Mem) (hslots : commandSlots ≤ 32) (hsact : s.port.sact = 0)
    (hflight : InFlight (fun _ => others) s) (hr : r.InRange) (moves : Nat → List Move) :
    ReadDone disk commandSlots others r s (s.read disk commandSlots r moves).1
      (s.read disk commandSlots r moves).2 := by
  rw [System.read]
  dsimp only
  by_cases hrefused : 65536 < r.sectors.toNat ∨
      blAhciFindFreeCommandSlot s.port commandSlots = none
  · rw [issue_refused r hrefused]
    exact read_refused hslots hsact hflight hrefused _
  · obtain ⟨hsectors, hsome⟩ := not_or.mp hrefused
    obtain ⟨slot, hslot⟩ := Option.ne_none_iff_exists'.mp hsome
    obtain ⟨hlt, hfree⟩ := blAhciFindFreeCommandSlot_some hslot
    rw [blAhciRead_status, if_neg hsectors, hslot]
    exact read_issued (by omega) hfree hflight (issue_issued hr (by omega) hslot) _

/-! ## A run -/

/-- The reads that were given up. -/
def timedOut (log : Log) : List Request :=
  (log.filter fun e => e.2 = .diskOperationTimeout).map Prod.fst

/-- The reads that found a slot. -/
def issued (log : Log) : List Request :=
  (log.filter fun e => e.2 ≠ .invalidParameters ∧ e.2 ≠ .insufficientResources).map Prod.fst

def Event.InRange : Event → Prop
  | .read r _ => r.InRange
  | .idle _ => True

/-- What every run keeps, from `s` on. -/
structure Kept (disk : Mem) (s : System) (now : System × Log) : Prop where
  sact : now.1.port.sact = 0
  flight : InFlight (fun _ q => q ∈ timedOut now.2) now.1
  changed : Changed disk (· ∈ issued now.2) s.mem now.1.mem
  few : (busy now.1).card ≤ (timedOut now.2).length

variable {log : Log} {e : Event} {events : List Event} {now : System × Log}

theorem mem_timedOut_cons :
    q ∈ timedOut ((r, status) :: log) ↔
      q ∈ timedOut log ∨ status = .diskOperationTimeout ∧ q = r := by
  rw [timedOut, List.filter_cons]
  by_cases h : status = .diskOperationTimeout
  · simp [timedOut, h, or_comm]
  · simp [timedOut, h]

theorem mem_issued_cons :
    q ∈ issued ((r, status) :: log) ↔
      q ∈ issued log ∨ q = r ∧ status ≠ .invalidParameters ∧ status ≠ .insufficientResources := by
  rw [issued, List.filter_cons]
  by_cases h : status ≠ .invalidParameters ∧ status ≠ .insufficientResources
  · simp [issued, h, or_comm]
  · simp [issued, h]

theorem timedOut_subset_issued (h : q ∈ timedOut log) : q ∈ issued log := by
  rw [timedOut, List.mem_map] at h
  obtain ⟨⟨r, status⟩, hmem, rfl⟩ := h
  rw [List.mem_filter, decide_eq_true_iff] at hmem
  obtain ⟨hlog, rfl⟩ := hmem
  refine List.mem_map.mpr ⟨_, List.mem_filter.mpr ⟨hlog, ?_⟩, rfl⟩
  rw [decide_eq_true_iff]
  constructor <;> exact fun h => nomatch h

theorem makeAll_passive (disk : Mem) (hs : InFlight may s) (moves : List Move) :
    Passive s (makeAll disk s moves) ∧
      Changed disk (fun q => ∃ k, may k q) s.mem (makeAll disk s moves).mem :=
  after_passive disk (fun _ => moves) hs 0

theorem kept_event (hslots : commandSlots ≤ 32) (h : Kept disk s now) (he : e.InRange) :
    Kept disk s (System.event disk commandSlots now e) := by
  cases e with
  | read r moves =>
    have hdone := read_done disk hslots h.sact h.flight he moves
    rw [System.event]
    generalize now.1.read disk commandSlots r moves = result at hdone ⊢
    obtain ⟨s', status⟩ := result
    refine ⟨hdone.sact.trans h.sact, fun k hk => ?_, ?_, ?_⟩
    · obtain ⟨q, hq, hb⟩ := hdone.flight k hk
      exact ⟨q, mem_timedOut_cons.mpr hq, hb⟩
    · refine (h.changed.mono fun q hq => mem_issued_cons.mpr (.inl hq)).trans
        (hdone.changed.mono fun q hq => mem_issued_cons.mpr ?_)
      exact hq.imp_left timedOut_subset_issued
    · refine hdone.busy.trans ?_
      have hfew := h.few
      rw [timedOut] at hfew ⊢
      rw [List.filter_cons]
      by_cases htimeout : status = .diskOperationTimeout
      · simpa [htimeout] using hfew
      · simpa [htimeout] using hfew
  | idle moves =>
    obtain ⟨hpassive, hchanged⟩ := makeAll_passive disk h.flight moves
    exact ⟨hpassive.sact.trans h.sact, hpassive.inFlight h.flight,
      h.changed.trans (hchanged.mono fun q ⟨_, hq⟩ => timedOut_subset_issued hq),
      (Finset.card_le_card hpassive.busy).trans h.few⟩

theorem kept_run (disk : Mem) (hslots : commandSlots ≤ 32) (hsact : s.port.sact = 0)
    (hci : s.port.ci = 0) (hevents : ∀ e ∈ events, e.InRange) : Kept disk s (s.run disk commandSlots events) := by
  have hclear : ∀ k, s.port.ci.getLsbD k = false := fun k => by rw [hci]; exact BitVec.getLsbD_zero
  have hstart : Kept disk s (s, []) := by
    refine ⟨hsact, fun k hk => ?_, fun a => .inl rfl, ?_⟩
    · rw [hclear k] at hk
      contradiction
    · simp [busy, hclear]
  suffices ∀ now, Kept disk s now → Kept disk s (events.foldl (System.event disk commandSlots) now)
    from this _ hstart
  intro now hnow
  induction events generalizing now with
  | nil => exact hnow
  | cons e events ih =>
    exact ih (fun e' he' => hevents e' (List.mem_cons_of_mem _ he')) _
      (kept_event hslots hnow (hevents e List.mem_cons_self))

/-- **What commands in flight can do.** After any run from an idle port, memory differs from what it
was by sectors that were asked for, where they were asked for. A read that succeeds has its sectors,
except where a command lies that was given up; no byte changes but for this read and for those; and
when no slot is left, as many reads were given up as there are slots. -/
theorem commands_in_flight (disk : Mem) (hslots : commandSlots ≤ 32) (s : System)
    (hsact : s.port.sact = 0) (hci : s.port.ci = 0) (events : List Event)
    (hevents : ∀ e ∈ events, e.InRange) (r : Request) (hr : r.InRange)
    (moves : Nat → List Move) :
    let (before, log) := s.run disk commandSlots events
    let (after, status) := before.read disk commandSlots r moves
    Changed disk (· ∈ issued log) s.mem before.mem ∧
      (status = .success → Arrived disk (· ∈ timedOut log) r after.mem) ∧
      (∀ a, ¬ r.Covers a → (∀ q ∈ timedOut log, ¬ q.Covers a) → after.mem a = before.mem a) ∧
      (status = .insufficientResources → commandSlots ≤ (timedOut log).length) := by
  have hkept := kept_run disk hslots hsact hci hevents
  have hdone := read_done disk hslots hkept.sact hkept.flight hr moves
  refine ⟨hkept.changed, hdone.arrived, fun a hr hothers => ?_,
    fun hfull => (hdone.full hfull).trans hkept.few⟩
  rcases hdone.changed a with hsame | ⟨q, hq, hcovers, -⟩
  · exact hsame
  · rcases hq with hq | ⟨rfl, -⟩
    · exact absurd hcovers (hothers q hq)
    · exact absurd hcovers hr

/-- The data of a read that was given up comes before the next one, which lies behind it. -/
theorem commands_in_flight_late :
    let s : System := ⟨idlePort, 0, fun _ => 0⟩
    let first : Request := ⟨0x100000, 7, 1⟩
    let r : Request := ⟨0x100200, 8, 2⟩
    let (before, log) := s.run (BitVec.ofNat 8) 32 [.read first fun _ => [], .idle [.finish 0]]
    let (after, status) := before.read (BitVec.ofNat 8) 32 r fun _ => [.finish 0]
    Changed (BitVec.ofNat 8) (· ∈ issued log) s.mem before.mem ∧
      (status = .success → Arrived (BitVec.ofNat 8) (· ∈ timedOut log) r after.mem) ∧
      (∀ a, ¬ r.Covers a → (∀ q ∈ timedOut log, ¬ q.Covers a) → after.mem a = before.mem a) ∧
      (status = .insufficientResources → 32 ≤ (timedOut log).length) :=
  commands_in_flight (BitVec.ofNat 8) le_rfl ⟨idlePort, 0, fun _ => 0⟩ rfl rfl
    [.read ⟨0x100000, 7, 1⟩ fun _ => [], .idle [.finish 0]]
    (by
      intro e he
      simp only [List.mem_cons, List.not_mem_nil, or_false] at he
      rcases he with rfl | rfl
      · exact ⟨by decide, by decide⟩
      · trivial)
    ⟨0x100200, 8, 2⟩ ⟨by decide, by decide⟩ fun _ => [.finish 0]

end BootLoader.Ahci

import BootLoader.Ahci.Flight
import BootLoader.Storage.Read

/-!
# From the drive to the caller's buffer

`bl_storage_device_read` on a disk of this controller: the heap's block is what the entries are of,
and the caller's buffer is filled from it.
-/

open ByteMemory RoundUp

namespace BootLoader.Ahci

open Heap Utils Storage

variable {disk : Mem} {commandSlots : Nat} {port : BlAhciPort} {is : BitVec 32}
  {moves : Nat → List Move} {read : ControllerRead} {s : BlHeap} {bs : List Block}
  {buf lba size offset : Nat}

/-- `read` of this disk's controller, while the drive makes its moves. -/
def ahciRead (disk : Mem) (commandSlots : Nat) (port : BlAhciPort) (is : BitVec 32)
    (moves : Nat → List Move) : ControllerRead :=
  fun m raw lba count =>
    let (s, status) := System.read disk commandSlots ⟨port, is, m⟩
      ⟨BitVec.ofNat 32 raw, BitVec.ofNat 64 lba, BitVec.ofNat 64 count⟩ moves
    (s.mem, status)

/-- The calls that a drive and its addresses are large enough for. -/
def Reachable (raw lba count : Nat) : Prop := lba < 2 ^ 48 ∧ raw + 512 * count ≤ 2 ^ 32

instance (raw lba count : Nat) : Decidable (Reachable raw lba count) :=
  inferInstanceAs (Decidable (_ ∧ _))

/-- No other call is made. -/
def within (read : ControllerRead) : ControllerRead := fun m raw lba count =>
  if Reachable raw lba count then read m raw lba count else (m, .invalidParameters)

theorem inFlight_idle (hci : port.ci = 0) (m : Mem) :
    InFlight (fun _ _ => False) ⟨port, is, m⟩ := by
  intro k hk
  rw [show (System.mk port is m).port.ci = 0 from hci] at hk
  exact absurd hk (by simp)

theorem ahciRead_delivers (is : BitVec 32) (moves : Nat → List Move) (disk : Mem)
    (hslots : commandSlots ≤ 32) (hsact : port.sact = 0) (hci : port.ci = 0) :
    Delivers (within (ahciRead disk commandSlots port is moves)) disk := by
  have hdone : ∀ m raw lba count, Reachable raw lba count →
      ReadDone disk commandSlots (fun _ => False)
        ⟨BitVec.ofNat 32 raw, BitVec.ofNat 64 lba, BitVec.ofNat 64 count⟩ ⟨port, is, m⟩
        (System.read disk commandSlots ⟨port, is, m⟩
          ⟨BitVec.ofNat 32 raw, BitVec.ofNat 64 lba, BitVec.ofNat 64 count⟩ moves).1
        (ahciRead disk commandSlots port is moves m raw lba count).2 := by
    intro m raw lba count hreach
    obtain ⟨hlba, hraw⟩ := hreach
    refine read_done disk hslots hsact (inFlight_idle hci m) ⟨?_, ?_⟩ moves
    · exact (Nat.mod_le _ _).trans_lt hlba
    · simp only [BitVec.toNat_ofNat]
      omega
  constructor
  · intro m raw lba count x hx
    rw [within]
    split_ifs with hreach
    · rcases (hdone m raw lba count hreach).changed x with hsame | ⟨q, hq, hcovers, -⟩
      · exact hsame
      · obtain ⟨rfl, -⟩ := hq.resolve_left not_false
        obtain ⟨hlow, hhigh⟩ := hcovers
        simp only [BitVec.toNat_ofNat, Reachable] at hlow hhigh hreach
        omega
    · rfl
  · intro m raw lba count hok i hi
    rw [within] at hok ⊢
    split_ifs at hok ⊢ with hreach
    obtain ⟨hlba, hraw⟩ := id hreach
    have hcovers : Request.Covers
        ⟨BitVec.ofNat 32 raw, BitVec.ofNat 64 lba, BitVec.ofNat 64 count⟩ (raw + i) := by
      simp only [Request.Covers, BitVec.toNat_ofNat]
      omega
    have hthere := ((hdone m raw lba count hreach).arrived hok (raw + i) hcovers).resolve_right
      fun ⟨_, hq, _⟩ => hq
    refine hthere.trans ?_
    simp only [Request.content, BitVec.toNat_ofNat]
    congr 1
    omega

/-- The read of the storage makes one call, of its own block. -/
theorem blStorageDeviceRead_within (hlba : lba < 2 ^ 48) (hsize : offset + size ≤ 2 ^ 32 - 512)
    (hroom : RoomFor s (roundUp (offset + size) 512) 1) :
    blStorageDeviceRead read s buf lba size offset =
      blStorageDeviceRead (within read) s buf lba size offset := by
  rw [blStorageDeviceRead, blStorageDeviceRead, readSectorsSize_eq hsize, blStorageSectorSize]
  cases halloc : blHeapAlloc s (roundUp (offset + size) 512) with
  | none => rfl
  | some granted =>
    obtain ⟨s', raw⟩ := granted
    have hspace := hroom.2 s' raw halloc
    have hreach : Reachable raw lba (roundUp (offset + size) 512 / 512) :=
      ⟨hlba, by omega⟩
    simp only [within, if_pos hreach]

theorem sectorsArrive_within (hlba : lba < 2 ^ 48)
    (hroom : RoomFor s (roundUp (offset + size) 512) 1) :
    SectorsArrive read s lba (roundUp (offset + size) 512) ↔
      SectorsArrive (within read) s lba (roundUp (offset + size) 512) := by
  constructor
  · rintro ⟨s', raw, halloc, hraw, hok⟩
    have hspace := hroom.2 s' raw halloc
    exact ⟨s', raw, halloc, hraw, by rwa [within, if_pos ⟨hlba, by omega⟩]⟩
  · rintro ⟨s', raw, halloc, hraw, hok⟩
    have hspace := hroom.2 s' raw halloc
    exact ⟨s', raw, halloc, hraw, by rwa [within, if_pos ⟨hlba, by omega⟩] at hok⟩

/-- **Byte-exact reads of a drive.** While no command is in flight, and whatever the drive does with
this one, the read ends with the bytes of the disk in the buffer, or with the buffer as it was; the
heap has its blocks again. -/
theorem drive_reads_are_byte_exact (hslots : commandSlots ≤ 32) (hsact : port.sact = 0)
    (hci : port.ci = 0) (is : BitVec 32) (moves : Nat → List Move) (disk : Mem) (h : HeapInv s bs)
    (hlba : lba < 2 ^ 48) (hsize : offset + size ≤ 2 ^ 32 - 512) (hbuf : CallerBuffer s bs buf size)
    (hroom : RoomFor s (roundUp (offset + size) 512) 1) :
    let read := ahciRead disk commandSlots port is moves
    ∃ s' status, blStorageDeviceRead read s buf lba size offset = some (s', status) ∧
      ReadSpec read disk s bs buf lba size offset s' status := by
  intro read
  obtain ⟨s', status, hrun, hspec⟩ := blStorageDeviceRead_spec lba
    (ahciRead_delivers is moves disk hslots hsact hci) h hsize hbuf hroom
  exact ⟨s', status, (blStorageDeviceRead_within hlba hsize hroom).trans hrun,
    hspec.success_iff.trans (sectorsArrive_within hlba hroom).symm, hspec.data, hspec.outside,
    hspec.untouched, hspec.released⟩

/-- The drive has half of the sectors ready at the first poll, and all at the second. -/
theorem drive_reads_are_byte_exact_halves :
    let moves : Nat → List Move := fun k => if k = 0 then [.transfer 0 512] else [.finish 0]
    let s : BlHeap := ⟨fun _ => 0, 0x100000, 0, 0⟩
    let read := ahciRead (BitVec.ofNat 8) 32 idlePort 0 moves
    ∃ s' status, blStorageDeviceRead read s 0x1000 1 3 600 = some (s', status) ∧
      ReadSpec read (BitVec.ofNat 8) s [] 0x1000 1 3 600 s' status :=
  drive_reads_are_byte_exact le_rfl rfl rfl 0
    (fun k => if k = 0 then [.transfer 0 512] else [.finish 0]) (BitVec.ofNat 8)
    (heapInv_base (fun _ => 0) 0x100000 (by omega) (by omega)) (by omega) (by omega)
    ⟨by omega, by omega, fun x _ hlt hown => absurd hown.1 (by simp only; omega)⟩
    ⟨by simp [AddressesFit, roundUp], by rintro s' p ⟨⟩; decide⟩

end BootLoader.Ahci

import BootLoader.Heap.Owned
import BootLoader.Storage.Code

/-!
# Reads are byte-exact

What a caller sees of `bl_storage_device_read` is its buffer. The sectors pass through a block
that is the heap's before and after.
-/

open ByteMemory RoundUp

namespace BootLoader.Storage

open Heap Utils

/-- Whole sectors of `disk` are delivered, or the read fails; only their place is written. -/
structure Delivers (read : ControllerRead) (disk : Nat → Byte) : Prop where
  frame : ∀ m raw lba count x, x < raw ∨ raw + 512 * count ≤ x → (read m raw lba count).1 x = m x
  data : ∀ m raw lba count, (read m raw lba count).2 = .success →
    ∀ i < 512 * count, (read m raw lba count).1 (raw + i) = disk (512 * lba + i)

/-- Memory that the caller may pass as `buf`. -/
structure CallerBuffer (s : BlHeap) (bs : List Block) (buf size : Nat) : Prop where
  nonnull : buf ≠ 0
  inSpace : buf + size ≤ 2 ^ 32
  apart : ∀ x, buf ≤ x → x < buf + size → ¬ OwnedByHeap s bs x

/-- The allocation and the controller's read both succeed. -/
def SectorsArrive (read : ControllerRead) (s : BlHeap) (lba sectorsSize : Nat) : Prop :=
  ∃ s' raw, blHeapAlloc s sectorsSize = some (s', raw) ∧ raw ≠ 0 ∧
    (read s'.mem raw lba (sectorsSize / 512)).2 = .success

/-- What a caller is promised about a read that ends in `s'` with `status`. -/
structure ReadSpec (read : ControllerRead) (disk : Nat → Byte) (s : BlHeap) (bs : List Block)
    (buf lba size offset : Nat) (s' : BlHeap) (status : BlStatus) : Prop where
  success_iff : status = .success ↔ SectorsArrive read s lba (roundUp (offset + size) 512)
  data : status = .success → ∀ i < size, s'.mem (buf + i) = disk (512 * lba + offset + i)
  outside : ∀ x, ¬ OwnedByHeap s bs x → x < buf ∨ buf + size ≤ x → s'.mem x = s.mem x
  untouched : status ≠ .success → ∀ i < size, s'.mem (buf + i) = s.mem (buf + i)
  released : ∃ bs', HeapInv s' bs' ∧ bs'.filter (·.used) = bs.filter (·.used)

variable {read : ControllerRead} {disk : Nat → Byte} {s : BlHeap} {bs : List Block}
  {buf lba size offset : Nat}

theorem readSectorsSize_eq (h : offset + size ≤ 2 ^ 32 - 512) :
    readSectorsSize size offset = roundUp (offset + size) 512 := by
  have hlt : roundUp (offset + size) 512 < offset + size + 512 := roundUp_lt_add (by omega)
  exact blMemoryAlignUp_eq_roundUp (k := 9) (by omega) (lt_of_lt_of_le hlt (by omega))

theorem arrived_spec {m mem : Mem} {b : Block} {count : Nat} (hb : b.payload ≠ 0)
    (hbuf : buf ≠ 0) (hspace : buf + size ≤ 2 ^ 32) (hraw : b.payload + 512 * count ≤ 2 ^ 32)
    (hin : offset + size ≤ 512 * count)
    (hframe : ∀ x, x < b.payload ∨ b.payload + 512 * count ≤ x → mem x = m x)
    (hdata : ∀ i < 512 * count, mem (b.payload + i) = disk (512 * lba + i)) :
    (∀ i < size, blMemcpy mem buf ((b.payload + offset) % 2 ^ 32) size (buf + i) =
        disk (512 * lba + offset + i)) ∧
      ∀ x, x < buf ∨ buf + size ≤ x → x < b.payload ∨ b.payload + 512 * count ≤ x →
        blMemcpy mem buf ((b.payload + offset) % 2 ^ 32) size x = m x := by
  rcases Nat.eq_zero_or_pos size with rfl | hpos
  · have hnone : blMemcpy mem buf ((b.payload + offset) % 2 ^ 32) 0 = mem := by
      unfold blMemcpy
      split_ifs <;> rfl
    rw [hnone]
    exact ⟨fun i hi => absurd hi (by omega), fun x _ hx => hframe x hx⟩
  · rw [Nat.mod_eq_of_lt (by omega), blMemcpy_eq hbuf (by omega) hspace (by omega)]
    refine ⟨fun i hi => ?_, fun x hx hout => ?_⟩
    · rw [copyRange_inside _ _ hi, add_assoc, hdata _ (by omega), add_assoc]
    · rw [copyRange_outside _ _ hx, hframe x hout]

theorem blStorageDeviceRead_spec (lba : Nat) (hread : Delivers read disk) (h : HeapInv s bs)
    (hsize : offset + size ≤ 2 ^ 32 - 512) (hbuf : CallerBuffer s bs buf size)
    (hroom : RoomFor s (roundUp (offset + size) 512) 1) :
    ∃ s' status, blStorageDeviceRead read s buf lba size offset = some (s', status) ∧
      ReadSpec read disk s bs buf lba size offset s' status := by
  have hlt : roundUp (offset + size) 512 < 2 ^ 32 :=
    lt_of_lt_of_le (roundUp_lt_add (by omega)) (by omega)
  have hle : offset + size ≤ roundUp (offset + size) 512 := le_roundUp (by omega)
  obtain ⟨count, hcount⟩ := dvd_roundUp (offset + size) 512
  rw [blStorageDeviceRead, readSectorsSize_eq hsize, blStorageSectorSize]
  rcases blHeapAllocAlign_spec h hlt (by omega : 1 < 2 ^ 32) hroom.1 with
    hnull | ⟨s₁, bs₁, b, hsome, hall⟩
  · have hnone : blHeapAlloc s (roundUp (offset + size) 512) = some (s, 0) := hnull
    refine ⟨s, .memoryAllocationFailed, by simp [hnone], ⟨?_, by simp, fun _ _ _ => rfl,
      fun _ _ _ => rfl, bs, h, rfl⟩⟩
    simp [SectorsArrive, hnone]
  · have hblock : blHeapAlloc s (512 * count) = some (s₁, b.payload) := hcount ▸ hsome
    obtain ⟨hb, hused⟩ := hall.granted.mem_used
    have hne : b.payload ≠ 0 := by simp [Block.payload]
    have hspace := hroom.2 _ _ hsome
    have hroomy := hall.room
    have hinPayload : ∀ x, ¬ b.InPayload x → x < b.payload ∨ b.payload + 512 * count ≤ x := by
      intro x hx
      simp only [Block.InPayload, Block.stop, Block.payload] at hx ⊢
      omega
    have houtside : ∀ x, ¬ OwnedByHeap s bs x → x < b.payload ∨ b.payload + 512 * count ≤ x :=
      fun x hx => hinPayload x (hall.outside hx).2
    have hhead : ∀ c ∈ bs₁, ∀ x, c.InHead x →
        (x < buf ∨ buf + size ≤ x) ∧ (x < b.payload ∨ b.payload + 512 * count ≤ x) := by
      refine fun c hc x hx => ⟨?_, hinPayload x fun hin => ?_⟩
      · by_contra hin
        exact (hall.outside (hbuf.apart x (by omega) (by omega))).1 c hc hx
      · exact payload_not_head hall.inv.ordered hb hc hin hx
    have harrive : SectorsArrive read s lba (roundUp (offset + size) 512) ↔
        (read s₁.mem b.payload lba count).2 = .success := by
      simp [SectorsArrive, hblock, hne, hcount]
    simp only [hblock, hne, if_false, hcount, Nat.mul_div_cancel_left count (by omega : 0 < 512)]
    by_cases hok : (read s₁.mem b.payload lba count).2 = .success
    · obtain ⟨hdata, hcopied⟩ := arrived_spec hne hbuf.nonnull hbuf.inSpace (by omega)
        (hcount ▸ hle) (hread.frame s₁.mem b.payload lba count) (hread.data _ _ _ _ hok)
      obtain ⟨hreleased, hvisible⟩ := hall.release fun c hc x hx =>
        hcopied x (hhead c hc x hx).1 (hhead c hc x hx).2
      refine ⟨_, _, rfl, ⟨harrive.symm, fun _ i hi => ?_, fun x hx hout => ?_,
        fun hfail => absurd hok hfail, ?_⟩⟩ <;> simp only [hok, ne_eq, not_true_eq_false, if_false]
      · rw [hvisible _ (hbuf.apart _ (by omega) (by omega)), hdata i hi]
      · rw [hvisible x hx, hcopied x hout (houtside x hx), hall.frame_outside hx]
      · exact hreleased
    · obtain ⟨hreleased, hvisible⟩ := hall.release fun c hc x hx =>
        hread.frame s₁.mem b.payload lba count x (hhead c hc x hx).2
      have hsame : ∀ x, ¬ OwnedByHeap s bs x → _ = s.mem x := fun x hx =>
        (hvisible x hx).trans <| (hread.frame _ _ _ _ x (houtside x hx)).trans <|
          hall.frame_outside hx
      refine ⟨_, _, rfl, ⟨harrive.symm, fun hsucc => absurd hsucc hok, fun x hx _ => ?_,
        fun _ i hi => ?_, ?_⟩⟩ <;> simp only [hok, ne_eq, not_false_eq_true, if_true]
      · exact hsame x hx
      · exact hsame _ (hbuf.apart _ (by omega) (by omega))
      · exact hreleased

/-! ## Whole sectors of offset -/

theorem sectors_offset (lba size offset : Nat) :
    512 * (lba + offset / 512) + offset % 512 = 512 * lba + offset ∧
      roundUp (offset % 512 + size) 512 ≤ roundUp (offset + size) 512 :=
  ⟨by omega, roundUp_mono 512 (by have := Nat.mod_le offset 512; omega)⟩

/-- **Byte-exact reads.** The read returns and keeps `ReadSpec`; and when the sectors arrive
both times or neither time, skipping whole sectors by `lba` instead of `offset` shows the caller
the same. -/
theorem reads_are_byte_exact (lba : Nat) (hread : Delivers read disk) (h : HeapInv s bs)
    (hsize : offset + size ≤ 2 ^ 32 - 512) (hbuf : CallerBuffer s bs buf size)
    (hroom : RoomFor s (roundUp (offset + size) 512) 1) :
    ∃ s₁ status₁, blStorageDeviceRead read s buf lba size offset = some (s₁, status₁) ∧
      ReadSpec read disk s bs buf lba size offset s₁ status₁ ∧
      ∃ s₂ status₂, blStorageDeviceRead read s buf (lba + offset / 512) size (offset % 512) =
          some (s₂, status₂) ∧
        ((SectorsArrive read s lba (roundUp (offset + size) 512) ↔
            SectorsArrive read s (lba + offset / 512) (roundUp (offset % 512 + size) 512)) →
          (status₁ = .success ↔ status₂ = .success) ∧
            ∀ x, ¬ OwnedByHeap s bs x → s₂.mem x = s₁.mem x) := by
  have hmod := Nat.mod_le offset 512
  obtain ⟨hsame, hle⟩ := sectors_offset lba size offset
  have hlt : roundUp (offset + size) 512 < 2 ^ 32 :=
    lt_of_lt_of_le (roundUp_lt_add (by omega)) (by omega)
  obtain ⟨s₁, status₁, hrun₁, hspec₁⟩ := blStorageDeviceRead_spec lba hread h hsize hbuf hroom
  obtain ⟨s₂, status₂, hrun₂, hspec₂⟩ := blStorageDeviceRead_spec (lba + offset / 512) hread h
    (show offset % 512 + size ≤ 2 ^ 32 - 512 by omega) hbuf (hroom.of_le h hle hlt)
  refine ⟨s₁, status₁, hrun₁, hspec₁, s₂, status₂, hrun₂, fun harrive => ?_⟩
  have hstatus : status₁ = .success ↔ status₂ = .success := by
    rw [hspec₁.success_iff, hspec₂.success_iff, harrive]
  refine ⟨hstatus, fun x hx => ?_⟩
  by_cases hin : buf ≤ x ∧ x < buf + size
  · obtain ⟨i, hi, rfl⟩ : ∃ i < size, x = buf + i := ⟨x - buf, by omega, by omega⟩
    by_cases hok : status₁ = .success
    · rw [hspec₁.data hok i hi, hspec₂.data (hstatus.mp hok) i hi, hsame]
    · rw [hspec₁.untouched hok i hi, hspec₂.untouched (fun h₂ => hok (hstatus.mpr h₂)) i hi]
  · rw [hspec₁.outside x hx (by omega), hspec₂.outside x hx (by omega)]

/-- A controller that never fails. -/
def readAll (disk : Nat → Byte) : ControllerRead := fun m raw lba count =>
  (fun x => if raw ≤ x ∧ x < raw + 512 * count then disk (512 * lba + (x - raw)) else m x, .success)

theorem readAll_delivers (disk : Nat → Byte) : Delivers (readAll disk) disk where
  frame m raw lba count x hx := by simp only [readAll]; rw [if_neg (by omega)]
  data m raw lba count _ i hi := by
    simp only [readAll]
    rw [if_pos (by omega), Nat.add_sub_cancel_left]

theorem reads_are_byte_exact_three :
    ∃ s₁ status₁, blStorageDeviceRead (readAll (BitVec.ofNat 8)) ⟨fun _ => 0, 0x100000, 0, 0⟩
        0x1000 1 3 600 = some (s₁, status₁) ∧
      ReadSpec (readAll (BitVec.ofNat 8)) (BitVec.ofNat 8) ⟨fun _ => 0, 0x100000, 0, 0⟩ []
        0x1000 1 3 600 s₁ status₁ := by
  obtain ⟨s₁, status₁, hrun, hspec, -⟩ := reads_are_byte_exact 1 (readAll_delivers (BitVec.ofNat 8))
    (heapInv_base (fun _ => 0) 0x100000 (by omega) (by omega))
    (show 600 + 3 ≤ 2 ^ 32 - 512 by omega)
    (show CallerBuffer _ _ 0x1000 3 from
      ⟨by omega, by omega, fun x _ hlt hown => absurd hown.1 (by simp only; omega)⟩)
    ⟨by simp [AddressesFit, roundUp], by rintro s' p ⟨⟩; decide⟩
  exact ⟨s₁, status₁, hrun, hspec⟩

end BootLoader.Storage

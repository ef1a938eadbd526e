import BootLoader.Scsi.Commands
import BootLoader.Storage.Read

/-!
# Disks on the USB with sectors of any size

`bl_storage_device_read` counts in sectors of 512 bytes, and the driver takes the same number for
one of the disk's own sectors.
-/

open ByteMemory

namespace BootLoader.Storage

open Heap Utils Scsi

variable {m : Mem} {raw buf size offset first moved pos : Nat} {content : Nat → Byte}

/-! ## What arrives is copied -/

/-- `moved` bytes of the disk, from `first` on, came to `raw`. -/
def arrived (m : Mem) (raw first moved : Nat) (content : Nat → Byte) : Mem :=
  fun x => if raw ≤ x ∧ x < raw + moved then content (first + (x - raw)) else m x

theorem arrived_congr {content' : Nat → Byte}
    (h : ∀ k < moved, content' (first + k) = content (first + k)) :
    arrived m raw first moved content' = arrived m raw first moved content := by
  funext x
  unfold arrived
  split_ifs with hx
  · exact h (x - raw) (by omega)
  · rfl

/-- The first byte is read before anything is written over it, wherever the source lies. -/
theorem blMemcpy_first {d s n : Nat} (hd : d ≠ 0) (hs : s ≠ 0) (hn : n ≠ 0) (hin : d + n ≤ 2 ^ 32) :
    blMemcpy m d s n d = m s := by
  obtain ⟨n, rfl⟩ := Nat.exists_eq_succ_of_ne_zero hn
  rw [blMemcpy, if_neg (by omega)]
  split_ifs with hlt
  · rw [copyUp]
    rcases Nat.eq_zero_or_pos n with rfl | hpos
    · exact store_same m d (m s)
    · rw [copyUp_outside (d := d + 1) (by omega) (.inl (Nat.lt_succ_self d)), store_same]
  · have hcopy := copyDown_eq (m := m) (Nat.le_of_not_lt hlt) hin
    rw [hcopy]
    exact copyRange_inside m s (i := 0) (Nat.succ_pos n)

/-- The copy is of the right bytes of every disk if it begins where it should and all came. -/
theorem copied_iff (m : Mem) (hraw : raw ≠ 0) (hin : raw + moved ≤ 2 ^ 32)
    (hoffset : offset < 2 ^ 32) (hbuf : buf ≠ 0) (hspace : buf + size ≤ 2 ^ 32)
    (hapart : ∀ x, buf ≤ x → x < buf + size → ¬ (raw ≤ x ∧ x < raw + moved)) :
    (∀ content, ∀ i < size, blMemcpy (arrived m raw first moved content) buf
        ((raw + offset) % 2 ^ 32) size (buf + i) = content (pos + offset + i)) ↔
      size = 0 ∨ first = pos ∧ offset + size ≤ moved := by
  constructor
  · intro h
    by_contra hcond
    obtain ⟨hsize, hcond⟩ := not_or.mp hcond
    by_cases hbegin : offset < moved
    · have hsource : (raw + offset) % 2 ^ 32 = raw + offset := Nat.mod_eq_of_lt (by omega)
      by_cases hfirst : first = pos
      · -- The byte behind those that came is another one on two disks that deliver the same.
        have hrest : moved - offset < size := by omega
        have hzero := h (fun _ => 0) _ hrest
        have hone := h (fun k => if k = pos + moved then 1 else 0) _ hrest
        have hsame : arrived m raw first moved (fun k => if k = pos + moved then 1 else 0) =
            arrived m raw first moved fun _ => 0 := arrived_congr fun k hk => if_neg (by omega)
        rw [hsame, hzero] at hone
        simp only [show pos + offset + (moved - offset) = pos + moved by omega] at hone
        contradiction
      · have hdiffers := h (fun k => if k = pos + offset then 1 else 0) 0 (by omega)
        rw [Nat.add_zero, Nat.add_zero, hsource,
          blMemcpy_first hbuf (by omega) hsize hspace, arrived, if_pos (by omega),
          if_neg (by omega), if_pos rfl] at hdiffers
        contradiction
    · -- The first byte of the copy does not come from the disk.
      have hfixed : ∃ v, ∀ content, blMemcpy (arrived m raw first moved content) buf
          ((raw + offset) % 2 ^ 32) size buf = v := by
        have hbufOut := hapart buf le_rfl (by omega)
        by_cases hnull : (raw + offset) % 2 ^ 32 = 0
        · refine ⟨m buf, fun content => ?_⟩
          rw [blMemcpy, if_pos (.inr hnull), arrived, if_neg hbufOut]
        · refine ⟨m ((raw + offset) % 2 ^ 32), fun content => ?_⟩
          rw [blMemcpy_first hbuf hnull hsize hspace, arrived, if_neg (by omega)]
      obtain ⟨v, hv⟩ := hfixed
      have hdiffers := h (fun _ => v + 1) 0 (by omega)
      rw [Nat.add_zero, hv] at hdiffers
      exact absurd hdiffers (by clear hv hdiffers; revert v; decide)
  · rintro (rfl | ⟨rfl, hall⟩) content i hi
    · exact absurd hi (Nat.not_lt_zero i)
    · rw [Nat.mod_eq_of_lt (by omega), blMemcpy_eq hbuf (by omega) hspace (by omega),
        copyRange_inside _ _ hi, arrived, if_pos (by omega)]
      congr 1
      omega

/-! ## The driver's read -/

/-- The bytes that a transfer of the driver's length moves at most: it is an `int`. -/
def transferBytes (sectorSize : BitVec 32) (count : Nat) : Nat :=
  if count * sectorSize.toNat % 2 ^ 32 < 2 ^ 31 then count * sectorSize.toNat % 2 ^ 32 else 0

/-- `read` of the USB disk's controller, into memory. -/
def usbRead (env : Scsi.Env) (bus : Bus) (sectorSize : BitVec 32) : ControllerRead :=
  fun m raw lba count =>
    let (_, buf, status) := blUsbScsiRead env bus sectorSize (fun k => m ((raw + k) % 2 ^ 32))
      (BitVec.ofNat 64 lba) (BitVec.ofNat 64 count)
    (fun x => if x < 2 ^ 32 then buf ((x + (2 ^ 32 - raw)) % 2 ^ 32) else m x, status)

/-- What the device moves in the data phase. -/
def movedBytes (env : Scsi.Env) (bus : Bus) (sectorSize : BitVec 32) (count : Nat) : List Byte :=
  (env.delivers (bus.log.length + 1)).take (transferBytes sectorSize count)

theorem usbRead_eq (env : Scsi.Env) (bus : Bus) (sectorSize : BitVec 32) (m : Mem) {raw count : Nat}
    (lba : Nat) (hraw : raw < 2 ^ 32) (hcount : count < 2 ^ 32) :
    usbRead env bus sectorSize m raw lba count =
      (fun x => if x < 2 ^ 32 then
          (movedBytes env bus sectorSize count).getD ((x + (2 ^ 32 - raw)) % 2 ^ 32) (m x)
        else m x, .success) := by
  obtain ⟨cbw, rest, hread⟩ := blUsbScsiRead_spec env bus sectorSize
    (fun k => m ((raw + k) % 2 ^ 32)) (BitVec.ofNat 64 lba) (BitVec.ofNat 64 count)
  have hlength := toNat_length (BitVec.ofNat 64 count) sectorSize
  rw [BitVec.toNat_ofNat, Nat.mod_eq_of_lt (by omega : count < 2 ^ 64)] at hlength
  have hmoved : (dataTransfer env bus.log.length
      ((BitVec.ofNat 64 count * sectorSize.setWidth 64).setWidth 32)).bytes =
      movedBytes env bus sectorSize count := by
    rw [dataTransfer, movedBytes, transferBytes, BitVec.toInt_eq_toNat_cond, hlength]
    dsimp only
    split_ifs
    · rw [Int.toNat_natCast]
    · omega
    · omega
    · rw [Int.toNat_of_nonpos (by omega)]
  unfold usbRead
  rw [hread, hmoved]
  refine Prod.ext (funext fun x => ?_) rfl
  dsimp only
  split_ifs with hx
  · rw [show (raw + (x + (2 ^ 32 - raw)) % 2 ^ 32) % 2 ^ 32 = x by omega]
  · rfl

/-! ## A device that does what it is asked -/

/-- `count` blocks of the disk, from number `first` on. -/
def blocks (content : Nat → Byte) (sectorSize first count : Nat) : List Byte :=
  (List.range (count * sectorSize)).map fun i => content (first * sectorSize + i)

/-- The device delivers the blocks that the command asks it for. -/
structure Conforms (env : Scsi.Env) (bus : Bus) (sectorSize : BitVec 32) (content : Nat → Byte)
    (lba sectors : BitVec 64) : Prop where
  takes : 31 ≤ env.takes bus.log.length
  delivers : ∀ buf t,
    (blUsbScsiRead env bus sectorSize buf lba sectors).1.log[bus.log.length]? = some t →
      env.delivers (bus.log.length + 1) = blocks content sectorSize.toNat
        (readBE (ofBytes t.bytes) 17 4) (readBE (ofBytes t.bytes) 22 2)

variable {env : Scsi.Env} {bus : Bus} {sectorSize : BitVec 32} {lba count : Nat}

theorem conforms_iff {lba sectors : BitVec 64} (htakes : 31 ≤ env.takes bus.log.length) :
    Conforms env bus sectorSize content lba sectors ↔ env.delivers (bus.log.length + 1) =
      blocks content sectorSize.toNat (lba.toNat % 2 ^ 32) (sectors.toNat % 2 ^ 16) := by
  have hasks := read10_asksFor lba sectors ((sectors * sectorSize.setWidth 64).setWidth 32) htakes
  constructor
  · intro h
    rw [h.delivers (fun _ => 0) _ (blUsbScsiRead_command ..), hasks.lba, hasks.sectors]
  · intro h
    refine ⟨htakes, fun buf t ht => ?_⟩
    rw [blUsbScsiRead_command] at ht
    obtain rfl := Option.some.inj ht
    rw [hasks.lba, hasks.sectors, h]

/-- The bytes of one of these reads that reach the memory: those that the device has for the number
of blocks that it is asked for, as far as the transfer goes. -/
def reachBytes (sectorSize : BitVec 32) (count : Nat) : Nat :=
  min (transferBytes sectorSize count) (count % 2 ^ 16 * sectorSize.toNat)

theorem usbRead_arrived (h : Conforms env bus sectorSize content (BitVec.ofNat 64 lba)
    (BitVec.ofNat 64 count)) (hlba : lba < 2 ^ 64) (hcount : count < 2 ^ 32) (m : Mem)
    (hraw : raw < 2 ^ 32) (hin : raw + reachBytes sectorSize count ≤ 2 ^ 32) :
    usbRead env bus sectorSize m raw lba count =
      (arrived m raw (lba % 2 ^ 32 * sectorSize.toNat) (reachBytes sectorSize count) content,
        .success) := by
  have hdelivers := (conforms_iff h.takes).mp h
  rw [BitVec.toNat_ofNat, BitVec.toNat_ofNat, Nat.mod_eq_of_lt hlba,
    Nat.mod_eq_of_lt (by omega : count < 2 ^ 64)] at hdelivers
  have hbyte : ∀ k v, (movedBytes env bus sectorSize count).getD k v =
      if k < reachBytes sectorSize count then content (lba % 2 ^ 32 * sectorSize.toNat + k)
      else v := by
    intro k v
    have hlength : (movedBytes env bus sectorSize count).length = reachBytes sectorSize count := by
      rw [movedBytes, hdelivers, List.length_take, blocks, List.length_map, List.length_range,
        reachBytes]
    split_ifs with hk
    · rw [List.getD_eq_getElem _ _ (by omega)]
      simp only [movedBytes, hdelivers, blocks, List.getElem_take, List.getElem_map,
        List.getElem_range]
    · exact List.getD_eq_default _ _ (by omega)
  rw [usbRead_eq env bus sectorSize m lba hraw hcount]
  refine Prod.ext (funext fun x => ?_) rfl
  simp only [hbyte, arrived]
  split_ifs with hx hk hin' hin'
  · congr 2
    omega
  · omega
  · omega
  · rfl
  · omega
  · rfl

/-- The device that has this disk, for one read. -/
def device (content : Nat → Byte) (sectorSize : BitVec 32) (lba count : Nat) : Scsi.Env :=
  ⟨fun _ => blocks content sectorSize.toNat (lba % 2 ^ 32) (count % 2 ^ 16), fun _ => 31,
    fun _ => 0⟩

theorem device_conforms (bus : Bus) (content : Nat → Byte) (sectorSize : BitVec 32)
    (hlba : lba < 2 ^ 64) (hcount : count < 2 ^ 32) :
    Conforms (device content sectorSize lba count) bus sectorSize content (BitVec.ofNat 64 lba)
      (BitVec.ofNat 64 count) := by
  refine (conforms_iff le_rfl).mpr ?_
  rw [BitVec.toNat_ofNat, BitVec.toNat_ofNat, Nat.mod_eq_of_lt hlba,
    Nat.mod_eq_of_lt (by omega : count < 2 ^ 64)]
  rfl

/-! ## The bound -/

/-- Whatever the device does, memory outside the `bytes` at `raw` is not written. -/
def StaysWithin (sectorSize : BitVec 32) (raw lba count bytes : Nat) : Prop :=
  ∀ env bus m x, x < raw ∨ raw + bytes ≤ x →
    (usbRead env bus sectorSize m raw lba count).1 x = m x

theorem staysWithin_iff (sectorSize : BitVec 32) (lba : Nat) {bytes : Nat} (hraw : raw < 2 ^ 32)
    (hcount : count < 2 ^ 32) (hbytes : bytes < 2 ^ 32) (hin : raw + bytes ≤ 2 ^ 32) :
    StaysWithin sectorSize raw lba count bytes ↔ transferBytes sectorSize count ≤ bytes := by
  have hmoved : transferBytes sectorSize count < 2 ^ 31 := by
    unfold transferBytes
    split_ifs
    · assumption
    · decide
  constructor
  · intro h
    by_contra hover
    -- A device that goes on delivering writes the first byte behind.
    have hwritten := h ⟨fun _ => List.replicate (2 ^ 31) 1, fun _ => 31, fun _ => 0⟩ ⟨0, []⟩
      (fun _ => 0) ((raw + bytes) % 2 ^ 32) (by omega)
    rw [usbRead_eq _ _ _ _ _ hraw hcount, movedBytes] at hwritten
    dsimp only at hwritten
    rw [if_pos (Nat.mod_lt _ (by decide)),
      show ((raw + bytes) % 2 ^ 32 + (2 ^ 32 - raw)) % 2 ^ 32 = bytes by omega,
      List.take_replicate, List.getD_eq_getElem _ _ (by rw [List.length_replicate]; omega),
      List.getElem_replicate] at hwritten
    contradiction
  · intro h env bus m x hx
    rw [usbRead_eq env bus sectorSize m lba hraw hcount]
    dsimp only
    split_ifs
    · refine List.getD_eq_default _ _ ?_
      rw [movedBytes, List.length_take]
      omega
    · rfl

/-! ## The whole read -/

variable {s : BlHeap} {bs : List Block}

theorem readSectorsSize_cases (size offset : Nat) :
    readSectorsSize size offset < 2 ^ 32 ∧
      readSectorsSize size offset / 512 < 2 ^ 32 ∧
      readSectorsSize size offset / 512 * 512 = readSectorsSize size offset := by
  have heq := blMemoryAlignUp_eq (offset + size) (show 9 < 32 by decide)
  rw [readSectorsSize, blStorageSectorSize, show 512 = 2 ^ 9 by rfl, heq]
  omega

theorem deviceRead_visible {read : ControllerRead} {s₁ : BlHeap} {bs₁ : List Block} {b : Block}
    (hall : Allocated s s₁ bs bs₁ b (readSectorsSize size offset))
    (hblock : blHeapAlloc s (readSectorsSize size offset) = some (s₁, b.payload))
    (hbuf : CallerBuffer s bs buf size) {lba : Nat}
    (hsuccess : (read s₁.mem b.payload lba (readSectorsSize size offset / 512)).2 = .success)
    (hframe : ∀ x, x < b.payload ∨ b.payload + readSectorsSize size offset ≤ x →
      (read s₁.mem b.payload lba (readSectorsSize size offset / 512)).1 x = s₁.mem x) :
    ∃ s', blStorageDeviceRead read s buf lba size offset = some (s', .success) ∧
      ∀ x, ¬ OwnedByHeap s bs x → s'.mem x =
        blMemcpy (read s₁.mem b.payload lba (readSectorsSize size offset / 512)).1 buf
          ((b.payload + offset) % 2 ^ 32) size x := by
  have hne : b.payload ≠ 0 := by simp [Block.payload]
  obtain ⟨hb, -⟩ := hall.granted.mem_used
  have hroomy := hall.room
  have hheads : ∀ c ∈ bs₁, ∀ x, c.InHead x →
      blMemcpy (read s₁.mem b.payload lba (readSectorsSize size offset / 512)).1 buf
        ((b.payload + offset) % 2 ^ 32) size x = s₁.mem x := by
    intro c hc x hx
    have hbufOut : x < buf ∨ buf + size ≤ x := by
      by_contra hin
      exact (hall.outside (hbuf.apart x (by omega) (by omega))).1 c hc hx
    have hpayload : ¬ b.InPayload x := fun hin => payload_not_head hall.inv.ordered hb hc hin hx
    rw [blMemcpy_outside hbuf.inSpace hbufOut]
    refine hframe x ?_
    simp only [Block.InPayload, Block.stop, Block.payload] at hpayload ⊢
    omega
  obtain ⟨-, hvisible⟩ := hall.release hheads
  refine ⟨_, ?_, hvisible⟩
  simp only [blStorageDeviceRead, hblock, if_neg hne, blStorageSectorSize, hsuccess, ne_eq,
    not_true_eq_false, if_false]

/-- The read writes no more than the block that was allocated for it, and is of the bytes of the
disk that were asked for. -/
structure ReadRight (sectorSize : BitVec 32) (s : BlHeap) (buf lba size offset : Nat) : Prop where
  bounded : ∀ s' raw, blHeapAlloc s (readSectorsSize size offset) = some (s', raw) → raw ≠ 0 →
    StaysWithin sectorSize raw lba (readSectorsSize size offset / 512)
      (readSectorsSize size offset)
  data : ∀ content env bus s', Conforms env bus sectorSize content (BitVec.ofNat 64 lba)
      (BitVec.ofNat 64 (readSectorsSize size offset / 512)) →
    blStorageDeviceRead (usbRead env bus sectorSize) s buf lba size offset = some (s', .success) →
      ∀ i < size, s'.mem (buf + i) = content (512 * lba + offset + i)

def Refused (s : BlHeap) (size offset : Nat) : Prop :=
  ∀ s' raw, blHeapAlloc s (readSectorsSize size offset) = some (s', raw) → raw = 0

/-- The transfer has room in the block, begins where it should, and has all the bytes. -/
def SectorsFit (sectorSize : BitVec 32) (lba size offset : Nat) : Prop :=
  transferBytes sectorSize (readSectorsSize size offset / 512) ≤ readSectorsSize size offset ∧
    (size = 0 ∨ lba % 2 ^ 32 * sectorSize.toNat = 512 * lba ∧
      offset + size ≤ reachBytes sectorSize (readSectorsSize size offset / 512))

theorem reachBytes_le (sectorSize : BitVec 32) (count : Nat) :
    reachBytes sectorSize count ≤ transferBytes sectorSize count := Nat.min_le_left _ _

section Granted

variable {s₁ : BlHeap} {bs₁ : List Block} {b : Block}
  (hall : Allocated s s₁ bs bs₁ b (readSectorsSize size offset))
  (hblock : blHeapAlloc s (readSectorsSize size offset) = some (s₁, b.payload))
  (hspace : b.payload + readSectorsSize size offset ≤ 2 ^ 32)
  (hbuf : CallerBuffer s bs buf size)
  (hfits : transferBytes sectorSize (readSectorsSize size offset / 512) ≤
    readSectorsSize size offset)

include hall hbuf hfits

/-- What arrives in the block is not where the caller's buffer is. -/
theorem arrived_apart (x : Nat) (hx : buf ≤ x) (hx' : x < buf + size) : ¬ (b.payload ≤ x ∧
    x < b.payload + reachBytes sectorSize (readSectorsSize size offset / 512)) := by
  intro hin
  have hroomy := hall.room
  have hreach := reachBytes_le sectorSize (readSectorsSize size offset / 512)
  refine (hall.outside (hbuf.apart x hx hx')).2 ?_
  simp only [Block.InPayload, Block.stop, Block.payload] at hin hroomy ⊢
  omega

include hblock hspace

theorem usbDisk_visible (hlba : lba < 2 ^ 64) (hconforms : Conforms env bus sectorSize content
    (BitVec.ofNat 64 lba) (BitVec.ofNat 64 (readSectorsSize size offset / 512))) :
    ∃ s', blStorageDeviceRead (usbRead env bus sectorSize) s buf lba size offset =
        some (s', .success) ∧
      ∀ i < size, s'.mem (buf + i) = blMemcpy (arrived s₁.mem b.payload
        (lba % 2 ^ 32 * sectorSize.toNat)
        (reachBytes sectorSize (readSectorsSize size offset / 512)) content) buf
        ((b.payload + offset) % 2 ^ 32) size (buf + i) := by
  obtain ⟨hsize, hcount, -⟩ := readSectorsSize_cases size offset
  have hraw : b.payload < 2 ^ 32 := (hall.inv.blockOk b hall.granted.mem_used.1).inSpace
  have hreach := reachBytes_le sectorSize (readSectorsSize size offset / 512)
  have harrived := usbRead_arrived hconforms hlba hcount s₁.mem hraw (by omega)
  obtain ⟨s', hrun, hvisible⟩ := deviceRead_visible hall hblock hbuf (by rw [harrived])
    ((staysWithin_iff sectorSize lba hraw hcount hsize hspace).mpr hfits env bus s₁.mem)
  refine ⟨s', hrun, fun i hi => ?_⟩
  rw [hvisible _ (hbuf.apart _ (by omega) (by omega)), harrived]

end Granted

/-- **When the read of a USB disk is right**, of every size of a sector: if there is no memory for
it, or if the sectors of the disk fit into those that the caller counts in. -/
theorem usbDisk_readRight_iff (sectorSize : BitVec 32) (s : BlHeap) (bs : List Block)
    (buf lba size offset : Nat) (hlba : lba < 2 ^ 64) (hoffset : offset < 2 ^ 32)
    (h : HeapInv s bs) (hbuf : CallerBuffer s bs buf size)
    (hroom : RoomFor s (readSectorsSize size offset) 1) :
    ReadRight sectorSize s buf lba size offset ↔
      Refused s size offset ∨ SectorsFit sectorSize lba size offset := by
  obtain ⟨hsize, hcount, -⟩ := readSectorsSize_cases size offset
  rcases blHeapAllocAlign_spec h hsize (by decide : 1 < 2 ^ 32) hroom.1 with
    hnull | ⟨s₁, bs₁, b, hsome, hall⟩
  · have hnone : blHeapAlloc s (readSectorsSize size offset) = some (s, 0) := hnull
    have hrefused : Refused s size offset := by
      intro s' raw hraw
      rw [hnone] at hraw
      exact (congrArg Prod.snd (Option.some.inj hraw)).symm
    refine iff_of_true ⟨fun s' raw hraw hne => absurd (hrefused s' raw hraw) hne, ?_⟩
      (.inl hrefused)
    intro content env bus s' _ hrun
    simp [blStorageDeviceRead, hnone] at hrun
  · have hblock : blHeapAlloc s (readSectorsSize size offset) = some (s₁, b.payload) := hsome
    have hne : b.payload ≠ 0 := by simp [Block.payload]
    have hspace := hroom.2 _ _ hsome
    have hraw : b.payload < 2 ^ 32 := (hall.inv.blockOk b hall.granted.mem_used.1).inSpace
    have hbound := staysWithin_iff sectorSize lba hraw hcount hsize hspace
    have hreach := reachBytes_le sectorSize (readSectorsSize size offset / 512)
    rw [or_iff_right fun hrefused : Refused s size offset => hne (hrefused _ _ hblock)]
    constructor
    · intro hright
      have hfits := hbound.mp (hright.bounded _ _ hblock hne)
      refine ⟨hfits, (copied_iff s₁.mem hne (by omega) hoffset hbuf.nonnull hbuf.inSpace
        (arrived_apart hall hbuf hfits)).mp fun content i hi => ?_⟩
      have hconforms := device_conforms ⟨0, []⟩ content sectorSize hlba hcount
      obtain ⟨s', hrun, hcopy⟩ := usbDisk_visible hall hblock hspace hbuf hfits hlba hconforms
      rw [← hcopy i hi]
      exact hright.data content _ _ s' hconforms hrun i hi
    · rintro ⟨hfits, hcond⟩
      constructor
      · intro s' raw hraw' _
        rw [hblock] at hraw'
        obtain rfl : b.payload = raw := congrArg Prod.snd (Option.some.inj hraw')
        exact hbound.mpr hfits
      · intro content env bus s' hconforms hrun i hi
        obtain ⟨s'', hrun', hcopy⟩ :=
          usbDisk_visible hall hblock hspace hbuf hfits hlba hconforms
        rw [hrun] at hrun'
        obtain rfl : s' = s'' := congrArg Prod.fst (Option.some.inj hrun')
        rw [hcopy i hi]
        exact (copied_iff s₁.mem hne (by omega) hoffset hbuf.nonnull hbuf.inSpace
          (arrived_apart hall hbuf hfits)).mpr hcond content i hi

def freshHeap : BlHeap := ⟨fun _ => 0, 0x100000, 0, 0⟩

theorem freshHeap_inv : HeapInv freshHeap [] :=
  heapInv_base (fun _ => 0) 0x100000 (by decide) (by decide)

theorem freshHeap_buffer : CallerBuffer freshHeap [] 0x1000 3 :=
  ⟨by decide, by decide, fun x _ hlt hown => absurd hown.1 (by simp only [freshHeap]; omega)⟩

theorem freshHeap_room : RoomFor freshHeap (readSectorsSize 3 600) 1 :=
  ⟨by simp [AddressesFit, freshHeap], by rintro s' p ⟨⟩; decide⟩

theorem usbDisk_readRight_usual : ReadRight 512 freshHeap 0x1000 1 3 600 :=
  (usbDisk_readRight_iff 512 freshHeap [] 0x1000 1 3 600 (by decide) (by decide) freshHeap_inv
    freshHeap_buffer freshHeap_room).mpr (.inr ⟨by decide, .inr ⟨by decide, by decide⟩⟩)

/-- The transfer is of two sectors of 4096 bytes, the block of two of 512. -/
theorem wideSectors_not_right : ¬ ∀ sectorSize s bs buf lba size offset, lba < 2 ^ 64 →
    offset < 2 ^ 32 → HeapInv s bs → CallerBuffer s bs buf size →
      RoomFor s (readSectorsSize size offset) 1 → ReadRight sectorSize s buf lba size offset := by
  intro h
  have hright := h 4096 freshHeap [] 0x1000 1 3 600 (by decide) (by decide) freshHeap_inv
    freshHeap_buffer freshHeap_room
  have hwithin := hright.bounded _ _ rfl (by decide)
  exact absurd ((staysWithin_iff _ _ (by decide) (by decide) (by decide) (by decide)).mp hwithin)
    (by decide)

end BootLoader.Storage

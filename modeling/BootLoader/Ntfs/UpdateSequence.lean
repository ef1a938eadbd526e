import BootLoader.Ntfs.Attributes
import BootLoader.Ntfs.Search

/-!
# Update sequences

`bl_ntfs_read_mft` and `bl_ntfs_get_index_allocation` hand a record over as it is on the disk. The
ends of its sectors are neither put back nor looked at.
-/

open ByteMemory

namespace BootLoader.Ntfs

open Driver

variable {m buffer disk logical : Mem} {size attr : Nat} {env : Env} {info : BlNtfsInfo}
  {w : World} {lcn : BitVec 64}

/-! ## What is on the disk -/

def updateSequenceOffset (m : Mem) : Nat := read16 m 4
def updateSequenceCount (m : Mem) : Nat := read16 m 6

def updateSequenceNumber (m : Mem) : Nat := read16 m (updateSequenceOffset m)

/-- What the update sequence array keeps for a sector. -/
def savedTail (m : Mem) (sector : Nat) : Nat :=
  read16 m (updateSequenceOffset m + 2 + 2 * sector)

def sectorTail (m : Mem) (sector : Nat) : Nat := read16 m (512 * sector + 510)

/-- `disk` is what NTFS writes for the record `logical`. -/
structure Written (size : Nat) (disk logical : Mem) : Prop where
  sectors : size % 512 = 0 ∧ 0 < size
  count : updateSequenceCount disk = size / 512 + 1
  array : 8 ≤ updateSequenceOffset disk ∧
    updateSequenceOffset disk + 2 * updateSequenceCount disk ≤ 510
  replaced : ∀ sector < size / 512, sectorTail disk sector = updateSequenceNumber disk
  saved : ∀ sector < size / 512, savedTail disk sector = sectorTail logical sector
  kept : ∀ i < size, i % 512 < 510 → disk i = logical i

def recordOnDisk (env : Env) (lba : BitVec 64) : Mem := fun i => env.disk (512 * lba.toNat + i)

/-- The buffer holds what is on the disk, which is the logical record only when what was replaced
was the update sequence number already. -/
structure HandedOver (size : Nat) (disk buffer : Mem) : Prop where
  as_is : ∀ i < size, buffer i = disk i
  logical_iff : ∀ logical, Written size disk logical → ((∀ i < size, buffer i = logical i) ↔
    ∀ sector < size / 512, savedTail disk sector = updateSequenceNumber disk)

/-- An MFT record is handed over whenever the device read succeeds. -/
structure MftHandedOver (env : Env) (info : BlNtfsInfo) (w : World) (mftRecord : Nat)
    (record : BitVec 64) : Prop where
  status : (blNtfsReadMft env info w mftRecord record).2 = env.reads w.reads
  buffer : env.reads w.reads = .success →
    HandedOver info.mftRecordSize (recordOnDisk env (blNtfsMftRecordLba info record))
      ((blNtfsReadMft env info w mftRecord record).1.bytes mftRecord)

/-- An index record is handed over whenever its block is there, the device read succeeds and it
starts with `INDX`. -/
structure IndexHandedOver (env : Env) (info : BlNtfsInfo) (w : World) (m : Mem) (attr : Nat)
    (vcn lcn : BitVec 64) : Prop where
  returned_iff : (∃ w' index, blNtfsGetIndexAllocation env info w m attr (some vcn) =
      some (w', some index)) ↔ env.allocs w.allocs = true ∧ env.reads w.reads = .success ∧
    blNtfsIndx (recordOnDisk env (blNtfsLcnToLba info lcn)) = true
  buffer : ∀ w' index, blNtfsGetIndexAllocation env info w m attr (some vcn) =
      some (w', some index) →
    HandedOver (indexRecordSize w info) (recordOnDisk env (blNtfsLcnToLba info lcn))
      (w'.bytes index)

/-! ## Tails -/

theorem Written.tail_eq_iff (h : Written size disk logical) {sector : Nat}
    (hsector : sector < size / 512) :
    sectorTail disk sector = sectorTail logical sector ↔
      savedTail disk sector = updateSequenceNumber disk := by
  rw [h.saved sector hsector, h.replaced sector hsector]
  exact eq_comm

theorem Written.logical_iff (h : Written size disk logical) :
    (∀ i < size, disk i = logical i) ↔
      ∀ sector < size / 512, savedTail disk sector = updateSequenceNumber disk := by
  constructor
  · intro hsame sector hsector
    refine (h.tail_eq_iff hsector).mp (readLE_congr fun i hfrom hto => hsame i ?_)
    omega
  · intro hsaved i hi
    by_cases hkept : i % 512 < 510
    · exact h.kept i hi hkept
    · have hsector : i / 512 < size / 512 := by
        have hsectors := h.sectors
        omega
      have htail := readLE_inj ((h.tail_eq_iff hsector).mpr (hsaved _ hsector))
      have hplace : i = 512 * (i / 512) + 510 + (i % 512 - 510) := by omega
      rw [hplace]
      exact htail _ (by omega)

theorem handedOver_of_eq (h : ∀ i < size, buffer i = disk i) : HandedOver size disk buffer := by
  refine ⟨h, fun logical hwritten => ?_⟩
  rw [← hwritten.logical_iff]
  constructor
  · exact fun hsame i hi => (h i hi).symm.trans (hsame i hi)
  · exact fun hsame i hi => (h i hi).trans (hsame i hi)

/-! ## The two reads -/

theorem mftHandedOver (env : Env) (info : BlNtfsInfo) (w : World) (mftRecord : Nat)
    (record : BitVec 64) : MftHandedOver env info w mftRecord record := by
  refine ⟨read_status env w _ _ _, fun hserved => handedOver_of_eq fun i hi => ?_⟩
  unfold blNtfsReadMft
  rw [read_bytes_eq hserved]
  exact if_pos hi

theorem blNtfsIndx_congr (h : ∀ i < 4, m i = disk i) : blNtfsIndx m = blNtfsIndx disk := by
  unfold blNtfsIndx
  rw [h 0 (by omega), h 1 (by omega), h 2 (by omega), h 3 (by omega)]

theorem readIndexRecord_served (hsize : 4 ≤ indexRecordSize w info)
    (halloc : env.allocs w.allocs = true) (hread : env.reads w.reads = .success) :
    ∃ w', (∀ i < indexRecordSize w info,
        w'.bytes w.next i = recordOnDisk env (blNtfsLcnToLba info lcn) i) ∧
      readIndexRecord env info w lcn =
        if blNtfsIndx (recordOnDisk env (blNtfsLcnToLba info lcn)) = true then (w', some w.next)
        else (w'.free w.next, none) := by
  unfold readIndexRecord World.alloc
  rw [if_pos halloc]
  dsimp only
  set handed : World := { w with
    next := w.next + 1, allocs := w.allocs + 1
    used := fun b => if b = w.next then true else w.used b }
  have hsame : indexRecordSize handed info = indexRecordSize w info := rfl
  have hserved : env.reads handed.reads = .success := hread
  have hbytes := read_bytes_eq hserved w.next (blNtfsLcnToLba info lcn).toNat
    (indexRecordSize w info)
  have hdisk : ∀ i < indexRecordSize w info,
      (handed.read env w.next (blNtfsLcnToLba info lcn).toNat
        (indexRecordSize w info)).1.bytes w.next i =
        recordOnDisk env (blNtfsLcnToLba info lcn) i := by
    intro i hi
    rw [hbytes]
    exact if_pos hi
  refine ⟨_, hdisk, ?_⟩
  rw [hsame, read_status, hserved, blNtfsIndx_congr fun i hi => hdisk i (by omega)]
  by_cases hmagic : blNtfsIndx (recordOnDisk env (blNtfsLcnToLba info lcn)) = true
  · simp [hmagic]
  · simp [hmagic]

theorem readIndexRecord_not_served
    (h : ¬(env.allocs w.allocs = true ∧ env.reads w.reads = .success)) :
    ∃ w', readIndexRecord env info w lcn = (w', none) := by
  unfold readIndexRecord World.alloc
  by_cases halloc : env.allocs w.allocs = true
  · rw [if_pos halloc]
    have hread : env.reads w.reads ≠ .success := fun hread => h ⟨halloc, hread⟩
    simp [hread]
  · rw [if_neg halloc]
    exact ⟨_, rfl⟩

theorem indexHandedOver {vcn : BitVec 64} (hsize : 4 ≤ indexRecordSize w info)
    (hname : blNtfsCheckAttributeName m attr blNtfsI30 = .success)
    (hlcn : blNtfsVcnToLcn m attr vcn = some lcn) : IndexHandedOver env info w m attr vcn lcn := by
  have hcode : blNtfsGetIndexAllocation env info w m attr (some vcn) =
      some (readIndexRecord env info w lcn) := by
    rw [blNtfsGetIndexAllocation_eq, if_pos hname, readThrough, hlcn, Option.map_some]
  by_cases hserved : env.allocs w.allocs = true ∧ env.reads w.reads = .success
  · obtain ⟨w', hdisk, hrecord⟩ := readIndexRecord_served hsize hserved.1 hserved.2
    rw [hrecord] at hcode
    refine ⟨?_, fun w'' index h => ?_⟩
    · rw [hcode]
      split_ifs with hmagic
      · exact iff_of_true ⟨w', w.next, rfl⟩ ⟨hserved.1, hserved.2, hmagic⟩
      · simp [hmagic]
    · rw [hcode] at h
      split_ifs at h with hmagic
      · obtain ⟨rfl, rfl⟩ : w' = w'' ∧ w.next = index := by simpa using h
        exact handedOver_of_eq hdisk
      · simp at h
  · obtain ⟨w', hrecord⟩ := readIndexRecord_not_served hserved
    rw [hrecord] at hcode
    refine ⟨?_, fun w'' index h => ?_⟩
    · rw [hcode]
      simp only [Option.some.injEq, Prod.mk.injEq, reduceCtorEq, and_false, exists_false,
        false_iff]
      exact fun h => hserved ⟨h.1, h.2.1⟩
    · simp [hcode] at h

/-- Records are handed over as they are on the disk, whatever the ends of their sectors hold. -/
theorem records_handed_over_as_is (env : Env) (info : BlNtfsInfo) (w : World) :
    (∀ mftRecord record, MftHandedOver env info w mftRecord record) ∧
      ∀ m attr vcn lcn, 4 ≤ indexRecordSize w info →
        blNtfsCheckAttributeName m attr blNtfsI30 = .success →
        blNtfsVcnToLcn m attr vcn = some lcn → IndexHandedOver env info w m attr vcn lcn :=
  ⟨mftHandedOver env info w, fun _ _ _ _ => indexHandedOver⟩

/-! ## A record of one sector -/

/-- The update sequence number is 1, the sector's end was 0, and it is `tail` on the disk. -/
def oneSector (tail : Byte) : Mem := ofPieces
  [(4, bytesLE 2 40 ++ bytesLE 2 2), (40, bytesLE 2 1), (510, [tail])]

def oneSectorEnv (tail : Byte) : Env := ⟨fun _ => true, fun _ => .success, oneSector tail⟩

def oneSectorVolume : BlNtfsInfo := ⟨0, 512, 512, 0, 512, ⟨1, 0⟩⟩

def twoBlocks : World := ⟨2, fun _ _ => 0, fun b => b < 2, 0, 0, []⟩

theorem oneSector_onDisk (tail : Byte) :
    recordOnDisk (oneSectorEnv tail) (blNtfsMftRecordLba oneSectorVolume 0) = oneSector tail := by
  have hlba : (blNtfsMftRecordLba oneSectorVolume 0).toNat = 0 := by decide
  funext i
  rw [recordOnDisk, hlba, mul_zero, Nat.zero_add]
  rfl

theorem oneSector_written :
    Written 512 (oneSector 1) fun i => if 510 ≤ i then 0 else oneSector 1 i where
  sectors := by decide
  count := by decide
  array := by decide
  replaced := by decide
  saved := by decide
  kept i hi hlow := (if_neg (by omega)).symm

theorem smallRecord_handed_over :
    MftHandedOver (smallEnv 101) smallDirectory.info (smallWorld oneRun) 0 7 ∧
      IndexHandedOver (smallEnv 101) smallDirectory.info (smallWorld oneRun) (smallRecord oneRun)
        56 1 101 := by
  obtain ⟨hmft, hindex⟩ :=
    records_handed_over_as_is (smallEnv 101) smallDirectory.info (smallWorld oneRun)
  exact ⟨hmft 0 7, hindex _ _ _ _ (by decide) (by decide) rfl⟩

/-- The end of a sector is handed over with the update sequence number in it, and a record is
accepted without it. -/
theorem oneSector_not_restored :
    (¬ ∀ env info w mftRecord record logical, env.reads w.reads = .success →
      Written info.mftRecordSize (recordOnDisk env (blNtfsMftRecordLba info record)) logical →
      ∀ i < info.mftRecordSize,
        (blNtfsReadMft env info w mftRecord record).1.bytes mftRecord i = logical i) ∧
    ¬ ∀ env info w mftRecord record, env.reads w.reads = .success →
      (∃ sector < info.mftRecordSize / 512,
        sectorTail (recordOnDisk env (blNtfsMftRecordLba info record)) sector ≠
          updateSequenceNumber (recordOnDisk env (blNtfsMftRecordLba info record))) →
      (blNtfsReadMft env info w mftRecord record).2 ≠ .success := by
  constructor
  · intro h
    have hwritten := oneSector_written
    rw [← oneSector_onDisk] at hwritten
    have hend := h (oneSectorEnv 1) oneSectorVolume twoBlocks 0 0 _ rfl hwritten 510 (by decide)
    exact absurd hend (by decide)
  · intro h
    refine h (oneSectorEnv 2) oneSectorVolume twoBlocks 0 0 rfl ⟨0, by decide, ?_⟩ rfl
    rw [oneSector_onDisk]
    decide

end BootLoader.Ntfs

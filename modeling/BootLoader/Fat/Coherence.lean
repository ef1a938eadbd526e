import BootLoader.Fat.Lookup
import BootLoader.Storage.Read

/-!
# The sector cache when reads fail

Reads pass through a block of their own, which may not be allocated and which the controller may
fill in part before it fails.
-/

open ByteMemory RoundUp

namespace BootLoader.Fat

open Driver Heap Storage Utils

/-! ## Reads that may fail -/

/-- How one read goes: whether the block for the sectors is allocated, and what the controller
leaves in it for a first sector and a number of sectors. -/
structure Attempt where
  allocated : Bool
  controller : Nat → Nat → Mem × BlStatus

/-- Where the controller reports success, the sectors of `disk` have arrived. -/
def Attempt.Honest (disk : Mem) (a : Attempt) : Prop :=
  ∀ lba count, (a.controller lba count).2 = .success →
    ∀ i < 512 * count, (a.controller lba count).1 i = disk (512 * lba + i)

/-- `bl_storage_device_read`. -/
def Attempt.read (a : Attempt) (m : Mem) (buf lba size offset : Nat) : Mem × BlStatus :=
  if ¬a.allocated then (m, .memoryAllocationFailed)
  else
    let (rawDiskData, status) := a.controller lba (readSectorsSize size offset / 512)
    if status ≠ .success then (m, status)
    else
      (fun x => if buf ≤ x ∧ x < buf + size then rawDiskData (offset + (x - buf)) else m x, status)

variable {a : Attempt} {m disk : Mem} {buf lba size offset : Nat}

theorem Attempt.read_failed (h : (a.read m buf lba size offset).2 ≠ .success) :
    (a.read m buf lba size offset).1 = m := by
  unfold Attempt.read at h ⊢
  cases halloc : a.allocated with
  | false => rfl
  | true =>
    rcases hcontroller : a.controller lba (readSectorsSize size offset / 512) with ⟨raw, status⟩
    by_cases hstatus : status = .success
    · simp [halloc, hcontroller, hstatus] at h
    · simp [hstatus]

theorem Attempt.read_data (ha : a.Honest disk) (hsize : offset + size ≤ 2 ^ 32 - 512)
    (h : (a.read m buf lba size offset).2 = .success) :
    ∀ i < size, (a.read m buf lba size offset).1 (buf + i) = disk (512 * lba + offset + i) := by
  intro i hi
  have hsectors := readSectorsSize_eq hsize
  obtain ⟨count, hcount⟩ := dvd_roundUp (offset + size) 512
  have hle : offset + size ≤ roundUp (offset + size) 512 := le_roundUp (by omega)
  have hquot : readSectorsSize size offset / 512 = count := by
    rw [hsectors, hcount]
    omega
  unfold Attempt.read at h ⊢
  cases halloc : a.allocated with
  | false => simp [halloc] at h
  | true =>
    rw [hquot] at h ⊢
    rcases hcontroller : a.controller lba count with ⟨raw, status⟩
    have hdata := ha lba count
    rw [hcontroller] at hdata
    by_cases hstatus : status = .success
    · have hbyte : raw (offset + i) = disk (512 * lba + (offset + i)) :=
        hdata hstatus (offset + i) (by omega)
      simp [hstatus, hi, hbyte, Nat.add_assoc]
    · simp [halloc, hcontroller, hstatus] at h

/-- What `bl_storage_device_read` does to a caller's buffer on the heap is one such read. -/
theorem blStorageDeviceRead_attempt {read : ControllerRead} {s : BlHeap} {bs : List Block}
    (lba : Nat) (hread : Storage.Delivers read disk) (h : HeapInv s bs)
    (hsize : offset + size ≤ 2 ^ 32 - 512) (hbuf : CallerBuffer s bs buf size)
    (hroom : RoomFor s (roundUp (offset + size) 512) 1) :
    ∃ s' status a, blStorageDeviceRead read s buf lba size offset = some (s', status) ∧
      Attempt.Honest disk a ∧ (a.read s.mem buf lba size offset).2 = status ∧
      ∀ i < size, s'.mem (buf + i) = (a.read s.mem buf lba size offset).1 (buf + i) := by
  obtain ⟨s', status, hrun, hspec⟩ := blStorageDeviceRead_spec lba hread h hsize hbuf hroom
  let a : Attempt := ⟨true, fun lba _ => (fun i => disk (512 * lba + i), status)⟩
  have ha : a.Honest disk := fun lba count _ i _ => rfl
  have hstatus : (a.read s.mem buf lba size offset).2 = status := by
    by_cases hok : status = .success <;> simp [Attempt.read, a, hok]
  refine ⟨s', status, a, hrun, ha, hstatus, fun i hi => ?_⟩
  by_cases hok : status = .success
  · rw [hspec.data hok i hi, Attempt.read_data ha hsize (hstatus.trans hok) i hi]
  · rw [hspec.untouched hok i hi, Attempt.read_failed fun h => hok (hstatus.symm.trans h)]

/-! ## Lookups through them -/

/-- `bl_fat_get_next_entry`, the cache being read by `read` from a sector on. -/
def blFatGetNextEntryOn (read : Mem → Nat → Nat → Mem × BlStatus) (info : BlFatInfo)
    (s : FatState) (fatEntry : BitVec 32) : FatState × Option (BitVec 32) :=
  let fatSector := blFatEntryToSector info fatEntry
  let (s, status) : FatState × BlStatus :=
    if fatSector ≠ s.cacheSector then
      let (cache, status) := read s.cache fatSector.toNat info.fatCacheSize
      if status ≠ .success then ({ s with cache, reads := s.reads + 1 }, status)
      else (⟨cache, fatSector, s.reads + 1⟩, status)
    else (s, .success)
  if status ≠ .success then (s, some 0) else (s, cachedEntry info s fatEntry)

theorem blFatGetNextEntry_eq_on (env : Env) (info : BlFatInfo) (s : FatState) (k : BitVec 32) :
    blFatGetNextEntry env info s k =
      blFatGetNextEntryOn (fun m lba size => env.deviceRead s.reads m 0 lba size 0) info s k := rfl

/-- A cluster number to look up, and how the read goes if there is one. -/
structure FatLookup where
  entry : BitVec 32
  attempt : Attempt

def FatLookup.run (info : BlFatInfo) (s : FatState) (c : FatLookup) :
    FatState × Option (BitVec 32) :=
  blFatGetNextEntryOn (fun m lba size => c.attempt.read m 0 lba size 0) info s c.entry

def afterLookups (info : BlFatInfo) (s : FatState) (cs : List FatLookup) : FatState :=
  cs.foldl (fun s c => (c.run info s).1) s

/-- The sector of the entry, counted in 64 bits, is below the mark of the empty cache. -/
def SectorBelowMark (info : BlFatInfo) (k : BitVec 32) : Prop :=
  info.fatLba.toNat + k.toNat / ((info.fatCacheSize <<< 3) / info.fatType.bits) < 2 ^ 32 - 1

/-- The read that a lookup makes if its sector is not the cached one. -/
def FatLookup.reading (info : BlFatInfo) (s : FatState) (c : FatLookup) : Mem × BlStatus :=
  c.attempt.read s.cache 0 (blFatEntryToSector info c.entry).toNat info.fatCacheSize 0

instance (info : BlFatInfo) (k : BitVec 32) : Decidable (SectorBelowMark info k) :=
  inferInstanceAs (Decidable (_ < _))

variable {info : BlFatInfo} {s : FatState} {c : FatLookup}

theorem FatLookup.run_cases (info : BlFatInfo) (s : FatState) (c : FatLookup) :
    (blFatEntryToSector info c.entry = s.cacheSector ∧
      c.run info s = (s, cachedEntry info s c.entry)) ∨
    (blFatEntryToSector info c.entry ≠ s.cacheSector ∧ (c.reading info s).2 ≠ .success ∧
      c.run info s = ({ s with reads := s.reads + 1 }, some 0)) ∨
    (blFatEntryToSector info c.entry ≠ s.cacheSector ∧ (c.reading info s).2 = .success ∧
      ∃ s', s' = ⟨(c.reading info s).1, blFatEntryToSector info c.entry, s.reads + 1⟩ ∧
        c.run info s = (s', cachedEntry info s' c.entry)) := by
  unfold FatLookup.run blFatGetNextEntryOn
  by_cases hhit : blFatEntryToSector info c.entry = s.cacheSector
  · exact .inl ⟨hhit, by simp [hhit]⟩
  by_cases hok : (c.reading info s).2 = .success
  · refine .inr (.inr ⟨hhit, hok, _, rfl, ?_⟩)
    unfold FatLookup.reading at hok ⊢
    simp [hhit, hok]
  · refine .inr (.inl ⟨hhit, hok, ?_⟩)
    have hsame := Attempt.read_failed hok
    unfold FatLookup.reading at hok
    simp [hhit, hok, hsame]

theorem blFatEntryToSector_ne_mark {k : BitVec 32} (h : SectorBelowMark info k) :
    blFatEntryToSector info k ≠ -1 := by
  unfold SectorBelowMark at h
  intro hmark
  have hvalue := congrArg BitVec.toNat hmark
  rw [blFatEntryToSector, BitVec.toNat_ofNat, Nat.mod_eq_of_lt (by omega)] at hvalue
  simp at hvalue
  omega

theorem blFatCheckFat_cacheSize {vbr : Mem} {partitionLba : BitVec 64}
    (h : blFatCheckFat vbr partitionLba = .ok info) : info.fatCacheSize ≤ 2 ^ 32 - 512 := by
  unfold blFatCheckFat at h
  split_ifs at h
  cases h
  have hword := read16_lt vbr 0x0b
  simp only [volumeInfo]
  split_ifs <;> omega

/-- A lookup keeps the cache in step with its mark. -/
theorem FatLookup.run_cacheHolds (hsize : info.fatCacheSize ≤ 2 ^ 32 - 512)
    (hc : c.attempt.Honest disk) (h : CacheHolds disk info s) :
    CacheHolds disk info (c.run info s).1 := by
  rcases c.run_cases info s with ⟨-, hrun⟩ | ⟨-, -, hrun⟩ | ⟨-, hok, s', rfl, hrun⟩
  · rw [hrun]
    exact h
  · rw [hrun]
    exact h
  · rw [hrun]
    right
    intro i hi
    have hdata := Attempt.read_data hc (by omega) hok i hi
    rwa [Nat.zero_add, Nat.add_zero] at hdata

theorem afterLookups_cacheHolds (hsize : info.fatCacheSize ≤ 2 ^ 32 - 512) (cs : List FatLookup)
    (hcs : ∀ c ∈ cs, c.attempt.Honest disk) (h : CacheHolds disk info s) :
    CacheHolds disk info (afterLookups info s cs) := by
  induction cs generalizing s with
  | nil => exact h
  | cons c cs ih =>
    have hc := c.run_cacheHolds hsize (hcs c List.mem_cons_self) h
    exact ih (fun c' hc' => hcs c' (List.mem_cons_of_mem _ hc')) hc

theorem cachedEntry_congr {s' : FatState} (h : ∀ i < info.fatCacheSize, s'.cache i = s.cache i)
    (k : BitVec 32) : cachedEntry info s' k = cachedEntry info s k := by
  rw [cachedEntry_eq, cachedEntry_eq]
  split_ifs with hin
  · unfold InCache at hin
    congr 1
    apply sectorEntry_congr
    intro i hi
    exact h _ (by omega)
  · rfl

/-- A lookup that finds its sector in the cache answers what it would answer after reading it. -/
theorem FatLookup.run_hit (hsize : info.fatCacheSize ≤ 2 ^ 32 - 512)
    (hmark : SectorBelowMark info c.entry) (h : CacheHolds disk info s)
    (hhit : blFatEntryToSector info c.entry = s.cacheSector) (hc : c.attempt.Honest disk)
    (hok : (c.reading info s).2 = .success) :
    (c.run info s).1 = s ∧
      (∀ i < info.fatCacheSize, (c.reading info s).1 i = s.cache i) ∧
      (c.run info { s with cacheSector := -1 }).2 = (c.run info s).2 := by
  have hne := blFatEntryToSector_ne_mark hmark
  have hholds : ∀ i < info.fatCacheSize, s.cache i = disk (512 * s.cacheSector.toNat + i) :=
    h.resolve_left (hhit ▸ hne)
  have hbytes : ∀ i < info.fatCacheSize, (c.reading info s).1 i = s.cache i := by
    intro i hi
    have hdata := Attempt.read_data hc (by omega) hok i hi
    rw [Nat.zero_add, Nat.add_zero, hhit, ← hholds i hi, ← hhit] at hdata
    exact hdata
  rcases c.run_cases info s with ⟨-, hrun⟩ | ⟨hmiss, -, -⟩ | ⟨hmiss, -, -⟩
  · refine ⟨by rw [hrun], hbytes, ?_⟩
    rcases c.run_cases info { s with cacheSector := -1 } with
      ⟨heq, -⟩ | ⟨-, hfail, -⟩ | ⟨-, -, s', rfl, hfresh⟩
    · exact absurd heq hne
    · exact absurd hok hfail
    · rw [hrun, hfresh]
      exact cachedEntry_congr hbytes c.entry
  · exact absurd hhit hmiss
  · exact absurd hhit hmiss

/-- **The cache stays in step with its mark.** After any lookups, whatever fails among them, one
more lookup leaves no sector marked or the bytes of the marked one; with a failed read it answers
0 and leaves cache and mark; with its sector marked it uses the bytes that a read would give. -/
theorem lookups_keep_cache {vbr : Mem} {partitionLba : BitVec 64}
    (hmount : blFatCheckFat vbr partitionLba = .ok info) (bytes : Mem) (reads : Nat)
    (cs : List FatLookup) (hcs : ∀ c ∈ cs, c.attempt.Honest disk) (c : FatLookup)
    (hc : c.attempt.Honest disk) (hmark : SectorBelowMark info c.entry) :
    let s := afterLookups info (.mounted bytes reads) cs
    let out := c.run info s
    (out.1.cacheSector = -1 ∨ ∀ i < info.fatCacheSize,
      out.1.cache i = disk (512 * out.1.cacheSector.toNat + i)) ∧
    (blFatEntryToSector info c.entry ≠ s.cacheSector → (c.reading info s).2 ≠ .success →
      out.2 = some 0 ∧ out.1.cache = s.cache ∧ out.1.cacheSector = s.cacheSector) ∧
    (blFatEntryToSector info c.entry = s.cacheSector → out.1 = s ∧
      ((c.reading info s).2 = .success →
        (∀ i < info.fatCacheSize, (c.reading info s).1 i = s.cache i) ∧
        (c.run info { s with cacheSector := -1 }).2 = out.2)) := by
  intro s out
  have hsize := blFatCheckFat_cacheSize hmount
  have hholds : CacheHolds disk info s :=
    afterLookups_cacheHolds hsize cs hcs (.inl rfl)
  refine ⟨c.run_cacheHolds hsize hc hholds, ?_, ?_⟩
  · intro hmiss hfail
    rcases c.run_cases info s with ⟨hhit, -⟩ | ⟨-, -, hrun⟩ | ⟨-, hok, -⟩
    · exact absurd hhit hmiss
    · simp [out, hrun]
    · exact absurd hok hfail
  · intro hhit
    refine ⟨?_, fun hok => (c.run_hit hsize hmark hholds hhit hc hok).2⟩
    rcases c.run_cases info s with ⟨-, hrun⟩ | ⟨hmiss, -, -⟩ | ⟨hmiss, -, -⟩
    · simp only [out, hrun]
    · exact absurd hhit hmiss
    · exact absurd hhit hmiss

/-- Reads of the floppy disk that succeed, and one without memory. -/
def floppyArrives : Attempt :=
  ⟨true, fun lba _ => (fun i => floppyEnv.disk (512 * lba + i), .success)⟩
def floppyFails : Attempt := ⟨false, fun _ _ => (fun _ => 0, .failure)⟩

theorem lookups_keep_cache_floppy :
    let s := afterLookups floppy (.mounted (fun _ => 0) 0) [⟨2, floppyFails⟩, ⟨2, floppyArrives⟩]
    (FatLookup.run floppy s ⟨2, floppyArrives⟩).1 = s := by
  intro s
  have harrives : floppyArrives.Honest floppyEnv.disk := fun _ _ _ _ _ => rfl
  have hfails : floppyFails.Honest floppyEnv.disk :=
    fun _ _ hok => BlStatus.noConfusion hok
  have hkept := lookups_keep_cache (show blFatCheckFat floppyVbr 0 = .ok floppy by rfl)
    (fun _ => 0) 0 [⟨2, floppyFails⟩, ⟨2, floppyArrives⟩] (by simp [harrives, hfails])
    ⟨2, floppyArrives⟩ harrives (by decide)
  exact (hkept.2.2 (by decide)).1

end BootLoader.Fat

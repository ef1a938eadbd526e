import BootLoader.Fat.Code

/-!
# Entries of the table

`bl_fat_get_next_entry` against what the format says. The sector is found for every cluster
number, but the place inside the sector is that of the whole cluster number.
-/

open ByteMemory

namespace BootLoader.Fat

open Driver Heap Utils

/-! ## What the format says -/

/-- A mounted volume of 512-byte sectors. -/
structure Volume (info : BlFatInfo) : Prop where
  sectorSize : info.sectorSize = 512
  eof : info.eof = info.fatType.eof
  cacheSize : info.fatCacheSize = if info.fatType = .fat12 then 513 else 512

/-- The bits of entry `k`, in the table that starts at `fatLba`. -/
def rawEntry (disk : Mem) (info : BlFatInfo) (k : Nat) : Nat :=
  let fat := 512 * info.fatLba.toNat
  match info.fatType with
  | .fat12 => read16 disk (fat + 12 * k / 8) / 2 ^ (12 * k % 8) % 2 ^ 12
  | .fat16 => read16 disk (fat + 2 * k)
  | .fat32 => read32 disk (fat + 4 * k)

/-- The upper four bits of a FAT32 entry are reserved. -/
def entryValue (fatType : FatType) (raw : Nat) : BitVec 32 :=
  match fatType with
  | .fat12 => BitVec.ofNat 32 raw
  | .fat16 => BitVec.ofNat 32 raw
  | .fat32 => BitVec.ofNat 32 (raw % 2 ^ 28)

/-- The states that lookups of clusters of the volume lead to. -/
inductive Reached (env : Env) (info : BlFatInfo) : FatState → Prop
  | mounted (bytes : Mem) (reads : Nat) : Reached env info (.mounted bytes reads)
  | lookup {s : FatState} {k : BitVec 32} (hk : k.toNat < info.totalClusters.toNat + 2)
    (h : Reached env info s) : Reached env info (blFatGetNextEntry env info s k).1

/-- After any earlier lookups, entry `k` is read inside the cache and as the format says. -/
def LookupRight (env : Env) (info : BlFatInfo) (k : BitVec 32) : Prop :=
  ∀ s, Reached env info s → (blFatGetNextEntry env info s k).2 =
    some (entryValue info.fatType (rawEntry env.disk info k.toNat))

/-- Entry `k`, with the bits `raw`, is one that the code finds: in the first sector of a table
that is not too far out, at the start of it for FAT12, and without reserved bits. -/
def FirstSector (info : BlFatInfo) (k : BitVec 32) (raw : Nat) : Prop :=
  info.fatLba.toNat < 2 ^ 32 - 1 ∧
    match info.fatType with
    | .fat12 => k.toNat = 0
    | .fat16 => k.toNat < 256
    | .fat32 => k.toNat < 128 ∧ raw < 2 ^ 28

theorem blFatCheckFat_volume {vbr : Mem} {partitionLba : BitVec 64} {info : BlFatInfo}
    (h : blFatCheckFat vbr partitionLba = .ok info) (hsector : info.sectorSize = 512) :
    Volume info := by
  unfold blFatCheckFat at h
  split at h
  · cases h
  · cases h
    refine ⟨hsector, rfl, ?_⟩
    simp only [volumeInfo] at hsector ⊢
    rw [hsector]
    split_ifs <;> rfl

/-! ## What the code takes from a sector -/

/-- The bytes of an element of the cache. -/
def FatType.width : FatType → Nat
  | fat12 => 2
  | fat16 => 2
  | fat32 => 4

/-- Entry `k` as the code reads it, the sector being at `base`. -/
def sectorEntry (fatType : FatType) (m : Mem) (base k : Nat) : BitVec 32 :=
  let element := BitVec.ofNat 32 (readLE m (base + fatType.width * k) fatType.width)
  match fatType with
  | .fat12 => element &&& 0xfff
  | .fat16 => element
  | .fat32 => element

def InCache (info : BlFatInfo) (k : Nat) : Prop :=
  info.fatType.width * k + info.fatType.width ≤ info.fatCacheSize

instance (info : BlFatInfo) (k : Nat) : Decidable (InCache info k) := by
  unfold InCache
  infer_instance

/-- The cache holds the sector that it says it does, unless that is the mark of no sector. -/
def CacheHolds (disk : Mem) (info : BlFatInfo) (s : FatState) : Prop :=
  s.cacheSector = -1 ∨
    ∀ i < info.fatCacheSize, s.cache i = disk (512 * s.cacheSector.toNat + i)

variable {env : Env} {info : BlFatInfo} {s : FatState} {k : BitVec 32}

theorem cachedEntry_eq (info : BlFatInfo) (s : FatState) (k : BitVec 32) :
    cachedEntry info s k = if InCache info k.toNat then
      some (sectorEntry info.fatType s.cache 0 k.toNat) else none := by
  obtain ⟨fatType, _⟩ := info
  cases fatType <;>
    simp only [cachedEntry, cacheElement, InCache, sectorEntry, FatType.width, Nat.zero_add]
  split_ifs <;> rfl

/-- A lookup reads the cache it leaves. That cache holds the sector of the entry: from now on, or
by its own account from before. -/
theorem blFatGetNextEntry_eq (hreads : ∀ n, env.reads n = .success) (info : BlFatInfo)
    (s : FatState) (k : BitVec 32) :
    ∃ s', blFatGetNextEntry env info s k = (s', cachedEntry info s' k) ∧
      s'.cacheSector = blFatEntryToSector info k ∧
      (s' = s ∨ ∀ i < info.fatCacheSize,
        s'.cache i = env.disk (512 * (blFatEntryToSector info k).toNat + i)) := by
  by_cases hsector : blFatEntryToSector info k = s.cacheSector
  · exact ⟨s, by simp [blFatGetNextEntry, hsector], hsector.symm, Or.inl rfl⟩
  · refine ⟨⟨(env.deviceRead s.reads s.cache 0 (blFatEntryToSector info k).toNat
      info.fatCacheSize 0).1, blFatEntryToSector info k, s.reads + 1⟩, ?_, rfl, Or.inr ?_⟩
    · simp [blFatGetNextEntry, hsector, Env.deviceRead, hreads]
    · intro i hi
      simp [Env.deviceRead, hreads, hi]

/-! ## Every state that is reached -/

theorem Reached.cacheHolds (hreads : ∀ n, env.reads n = .success) (h : Reached env info s) :
    CacheHolds env.disk info s := by
  induction h with
  | mounted bytes reads => exact Or.inl rfl
  | @lookup s k hk h ih =>
    obtain ⟨s', hrun, hsector, hcache⟩ := blFatGetNextEntry_eq hreads info s k
    rw [hrun]
    rcases hcache with rfl | hcache
    · exact ih
    · right
      rw [hsector]
      exact hcache

theorem sectorEntry_congr {m m' : Mem} {base base' k k' : Nat} {fatType : FatType}
    (h : ∀ i < fatType.width,
      m' (base' + fatType.width * k' + i) = m (base + fatType.width * k + i)) :
    sectorEntry fatType m' base' k' = sectorEntry fatType m base k := by
  unfold sectorEntry
  rw [readLE_congr_at h]

/-- Once mounted, a lookup delivers what the sector of the entry holds at the place of the whole
cluster number. -/
theorem Reached.lookup_eq (hreads : ∀ n, env.reads n = .success) (h : Reached env info s)
    (hmark : blFatEntryToSector info k ≠ -1) :
    (blFatGetNextEntry env info s k).2 = if InCache info k.toNat then
      some (sectorEntry info.fatType env.disk (512 * (blFatEntryToSector info k).toNat) k.toNat)
      else none := by
  obtain ⟨s', hrun, hsector, hcache⟩ := blFatGetNextEntry_eq hreads info s k
  have hholds : ∀ i < info.fatCacheSize,
      s'.cache i = env.disk (512 * (blFatEntryToSector info k).toNat + i) := by
    rcases hcache with rfl | hcache
    · rcases h.cacheHolds hreads with hnone | hholds
      · exact absurd (hsector.symm.trans hnone) hmark
      · rw [← hsector]
        exact hholds
    · exact hcache
  rw [hrun, cachedEntry_eq]
  by_cases hin : InCache info k.toNat
  · have hentry : sectorEntry info.fatType s'.cache 0 k.toNat =
        sectorEntry info.fatType env.disk (512 * (blFatEntryToSector info k).toNat) k.toNat := by
      apply sectorEntry_congr
      intro i hi
      unfold InCache at hin
      rw [Nat.zero_add, hholds _ (by omega), Nat.add_assoc]
    simp only [hin, if_true, hentry]
  · simp only [hin, if_false]

/-! ## The first sector -/

theorem inCache_iff (h : Volume info) : InCache info k.toNat ↔ match info.fatType with
    | .fat12 => k.toNat < 256
    | .fat16 => k.toNat < 256
    | .fat32 => k.toNat < 128 := by
  have hsize := h.cacheSize
  unfold InCache
  cases htype : info.fatType <;> simp [htype, FatType.width] at hsize ⊢ <;> omega

theorem blFatEntryToSector_first (h : Volume info) (hin : InCache info k.toNat) :
    blFatEntryToSector info k = BitVec.ofNat 32 info.fatLba.toNat := by
  have hsize := h.cacheSize
  rw [inCache_iff h] at hin
  unfold blFatEntryToSector
  have hfirst : k.toNat / ((info.fatCacheSize <<< 3) / info.fatType.bits) = 0 := by
    apply Nat.div_eq_of_lt
    cases htype : info.fatType <;> simp [htype, FatType.bits] at hsize hin ⊢ <;> rw [hsize] <;>
      simp <;> omega
  rw [hfirst, Nat.add_zero]

theorem ofNat_and_0xfff (n : Nat) : BitVec.ofNat 32 n &&& 0xfff = BitVec.ofNat 32 (n % 2 ^ 12) := by
  apply BitVec.eq_of_toNat_eq
  rw [BitVec.toNat_and, BitVec.toNat_ofNat, BitVec.toNat_ofNat,
    show (0xfff : BitVec 32).toNat = 2 ^ 12 - 1 from rfl, Nat.and_two_pow_sub_one_eq_mod]
  omega

/-- There the code and the format agree on the entry. -/
theorem sectorEntry_eq {disk : Mem} (hplace : FirstSector info k (rawEntry disk info k.toNat)) :
    sectorEntry info.fatType disk (512 * info.fatLba.toNat) k.toNat =
      entryValue info.fatType (rawEntry disk info k.toNat) := by
  obtain ⟨-, hplace⟩ := hplace
  unfold rawEntry at hplace ⊢
  cases htype : info.fatType <;> simp only [htype] at hplace ⊢
  · simp only [sectorEntry, entryValue, FatType.width, hplace, Nat.mul_zero, Nat.zero_div,
      Nat.zero_mod, Nat.add_zero, pow_zero, Nat.div_one]
    exact ofNat_and_0xfff _
  · rfl
  · unfold sectorEntry entryValue
    rw [Nat.mod_eq_of_lt hplace.2]
    rfl

theorem lookupRight_of_firstSector (h : Volume info) (hreads : ∀ n, env.reads n = .success)
    (hplace : FirstSector info k (rawEntry env.disk info k.toNat)) : LookupRight env info k := by
  intro s hs
  have hin : InCache info k.toNat := by
    have hwhere := hplace.2
    rw [inCache_iff h]
    cases htype : info.fatType <;> simp only [htype] at hwhere ⊢ <;> omega
  have hsector : (blFatEntryToSector info k).toNat = info.fatLba.toNat := by
    have hlba := hplace.1
    rw [blFatEntryToSector_first h hin, BitVec.toNat_ofNat]
    omega
  have hmark : blFatEntryToSector info k ≠ -1 := by
    intro hmark
    have hlba := hplace.1
    rw [hmark] at hsector
    exact absurd hsector (by simp; omega)
  rw [hs.lookup_eq hreads hmark, if_pos hin, hsector, sectorEntry_eq hplace]

/-! ## Everywhere else -/

theorem exists_disk (info : BlFatInfo) (fill : Byte) (k : Nat) {w : Nat}
    (hw : w < 2 ^ info.fatType.bits) :
    ∃ disk : Mem, rawEntry disk info k = w ∧ ∀ x, (x < 512 * info.fatLba.toNat ∨
      512 * info.fatLba.toNat + info.fatType.bits * k / 8 + info.fatType.width ≤ x) →
        disk x = fill := by
  let start := 512 * info.fatLba.toNat + info.fatType.bits * k / 8
  refine ⟨writeLE (fun _ => fill) start info.fatType.width
    (w * 2 ^ (info.fatType.bits * k % 8)), ?_, fun x hx => writeLE_outside _ _ (by omega)⟩
  unfold rawEntry
  cases htype : info.fatType <;>
    simp only [htype, FatType.bits, FatType.width, start] at hw ⊢
  · rw [read16, readLE_writeLE_same]
    have hshift : 12 * k % 8 = 0 ∨ 12 * k % 8 = 4 := by omega
    rcases hshift with hshift | hshift <;> rw [hshift] <;> omega
  · rw [show 16 * k / 8 = 2 * k by omega, show 16 * k % 8 = 0 by omega, read16,
      readLE_writeLE_same]
    omega
  · rw [show 32 * k / 8 = 4 * k by omega, show 32 * k % 8 = 0 by omega, read32,
      readLE_writeLE_same]
    omega

theorem exists_fill (fatType : FatType) (v : BitVec 32) :
    ∃ fill : Byte, ∀ (m : Mem) (base k : Nat),
      (∀ i < fatType.width, m (base + fatType.width * k + i) = fill) →
        sectorEntry fatType m base k ≠ v := by
  have hdiffer : sectorEntry fatType (fun _ => 0) 0 0 ≠
      sectorEntry fatType (fun _ => 0xff) 0 0 := by
    cases fatType <;> decide
  have hfilled : ∀ (fill : Byte) (m : Mem) (base k : Nat),
      (∀ i < fatType.width, m (base + fatType.width * k + i) = fill) →
        sectorEntry fatType m base k = sectorEntry fatType (fun _ => fill) 0 0 :=
    fun fill m base k hm => sectorEntry_congr hm
  by_cases hzero : sectorEntry fatType (fun _ => 0) 0 0 = v
  · refine ⟨0xff, fun m base k hm heq => hdiffer ?_⟩
    rw [hzero, ← heq, hfilled _ m base k hm]
  · refine ⟨0, fun m base k hm heq => hzero ?_⟩
    rw [← heq, hfilled _ m base k hm]

/-- The low byte cannot make up for the bit that the high byte settles. -/
theorem and_0xfff_ne {low w : Nat} {fill : Byte} (hlow : low < 256) (hw : w < 2 ^ 12)
    (hfill : fill = if w < 2048 then 8 else 0) :
    BitVec.ofNat 32 (low + 256 * fill.toNat) &&& 0xfff ≠ BitVec.ofNat 32 w := by
  rw [ofNat_and_0xfff]
  intro heq
  have heq := congrArg BitVec.toNat heq
  rw [BitVec.toNat_ofNat, BitVec.toNat_ofNat] at heq
  split_ifs at hfill with hhigh <;> subst hfill <;> simp at heq <;> omega

section

variable {w : Nat} (hw : w < 2 ^ info.fatType.bits)
  (hright : ∀ env : Env, (∀ n, env.reads n = .success) →
    rawEntry env.disk info k.toNat = w → LookupRight env info k)

include hw hright

theorem inCache_of_right : InCache info k.toNat := by
  obtain ⟨disk, hraw, -⟩ := exists_disk info 0 k.toNat hw
  have hvalue := hright ⟨fun _ => true, fun _ => .success, disk⟩ (fun _ => rfl) hraw _
    (.mounted (fun _ => 0) 0)
  obtain ⟨s', hrun, -⟩ := blFatGetNextEntry_eq
    (show ∀ n, (Env.mk (fun _ => true) (fun _ => .success) disk).reads n = .success from
      fun _ => rfl) info (.mounted (fun _ => 0) 0) k
  rw [hrun, cachedEntry_eq] at hvalue
  by_contra hout
  rw [if_neg hout] at hvalue
  cases hvalue

/-- With the mark of no sector, the code takes the bytes that the allocation left. -/
theorem sector_ne_mark : blFatEntryToSector info k ≠ -1 := by
  intro hmark
  obtain ⟨disk, hraw, -⟩ := exists_disk info 0 k.toNat hw
  obtain ⟨fill, hfill⟩ := exists_fill info.fatType (entryValue info.fatType w)
  have hvalue := hright ⟨fun _ => true, fun _ => .success, disk⟩ (fun _ => rfl) hraw _
    (.mounted (fun _ => fill) 0)
  have hrun : (blFatGetNextEntry ⟨fun _ => true, fun _ => .success, disk⟩ info
      (.mounted (fun _ => fill) 0) k).2 = cachedEntry info (.mounted (fun _ => fill) 0) k := by
    simp [blFatGetNextEntry, hmark, FatState.mounted]
  rw [hrun, cachedEntry_eq, if_pos (inCache_of_right hw hright), hraw, Option.some.injEq] at hvalue
  exact hfill _ _ _ (fun _ _ => rfl) hvalue

/-- What the code reads from the disk, wherever that is, are the bits of the entry. -/
theorem sectorEntry_of_right (h : Volume info) {disk : Mem}
    (hraw : rawEntry disk info k.toNat = w) :
    sectorEntry info.fatType disk (512 * (info.fatLba.toNat % 2 ^ 32)) k.toNat =
      entryValue info.fatType w := by
  have hin := inCache_of_right hw hright
  have hvalue := hright ⟨fun _ => true, fun _ => .success, disk⟩ (fun _ => rfl) hraw _
    (.mounted (fun _ => 0) 0)
  rw [Reached.lookup_eq (fun _ => rfl) (.mounted (fun _ => 0) 0) (sector_ne_mark hw hright),
    if_pos hin, hraw, Option.some.injEq, blFatEntryToSector_first h hin, BitVec.toNat_ofNat]
    at hvalue
  exact hvalue

/-- A table further out than a 32-bit LBA is looked for somewhere else. -/
theorem fatLba_lt_of_right (h : Volume info) : info.fatLba.toNat < 2 ^ 32 - 1 := by
  have hin := inCache_of_right hw hright
  have hmark := sector_ne_mark hw hright
  rw [blFatEntryToSector_first h hin] at hmark
  have hne : info.fatLba.toNat % 2 ^ 32 ≠ 2 ^ 32 - 1 := by
    intro heq
    apply hmark
    apply BitVec.eq_of_toNat_eq
    rw [BitVec.toNat_ofNat, heq]
    rfl
  by_contra hlarge
  obtain ⟨fill, hfill⟩ := exists_fill info.fatType (entryValue info.fatType w)
  obtain ⟨disk, hraw, hother⟩ := exists_disk info fill k.toNat hw
  refine hfill _ _ _ (fun i hi => ?_) (sectorEntry_of_right hw hright h hraw)
  have hsize : info.fatCacheSize ≤ 513 := by
    rw [h.cacheSize]
    split_ifs <;> omega
  unfold InCache at hin
  exact hother _ (Or.inl (by omega))

theorem firstSector_of_right (h : Volume info) : FirstSector info k w := by
  have hlba := fatLba_lt_of_right hw hright h
  have hin := inCache_of_right hw hright
  refine ⟨hlba, ?_⟩
  have hlow : info.fatLba.toNat % 2 ^ 32 = info.fatLba.toNat := by omega
  have hread : ∀ disk : Mem, rawEntry disk info k.toNat = w → _ := fun disk hraw =>
    sectorEntry_of_right hw hright h hraw
  rw [hlow] at hread
  rw [inCache_iff h] at hin
  cases htype : info.fatType with
  | fat12 =>
    by_contra hne
    obtain ⟨disk, hraw, hother⟩ := exists_disk info (if w < 2048 then 8 else 0) k.toNat hw
    have hhigh := hother (512 * info.fatLba.toNat + 2 * k.toNat + 1)
      (Or.inr (by simp only [htype, FatType.bits, FatType.width] at hne ⊢; omega))
    have hvalue := hread disk hraw
    simp only [htype, sectorEntry, entryValue, FatType.width, readLE, hhigh, Nat.mul_zero,
      Nat.add_zero] at hvalue
    rw [htype] at hw
    exact and_0xfff_ne (BitVec.isLt _) hw rfl hvalue
  | fat16 =>
    rw [htype] at hin
    exact hin
  | fat32 =>
    rw [htype] at hin hw
    refine ⟨hin, ?_⟩
    obtain ⟨disk, hraw, -⟩ := exists_disk info 0 k.toNat (htype ▸ hw)
    have hvalue := hread disk hraw
    unfold rawEntry at hraw
    simp only [htype] at hraw
    simp only [htype, sectorEntry, entryValue, FatType.width, hraw] at hvalue
    have hvalue := congrArg BitVec.toNat hvalue
    rw [BitVec.toNat_ofNat, BitVec.toNat_ofNat] at hvalue
    simp only [FatType.bits] at hw
    omega

end

/-- **Entries of the table.** Whatever else the disk holds and whatever was looked up before,
entry `k` with the bits `w` is found just when `FirstSector` says so. -/
theorem blFatGetNextEntry_right_iff (h : Volume info) {w : Nat} (hw : w < 2 ^ info.fatType.bits) :
    (∀ env : Env, (∀ n, env.reads n = .success) → rawEntry env.disk info k.toNat = w →
      LookupRight env info k) ↔ FirstSector info k w := by
  constructor
  · intro hright
    exact firstSector_of_right hw hright h
  · rintro hplace env hreads rfl
    exact lookupRight_of_firstSector h hreads hplace

/-! ## A floppy disk -/

/-- The boot record of a 1.44 MB floppy disk: one reserved sector, two tables of nine, and 224
entries in the root directory. -/
def floppyVbr : Mem := ofPieces
  [(0x0b, bytesLE 2 512 ++ [1] ++ bytesLE 2 1 ++ [2] ++ bytesLE 2 224 ++ bytesLE 2 2880),
    (0x16, bytesLE 2 9), (0x1fe, bytesLE 2 0xaa55)]

def floppy : BlFatInfo := volumeInfo floppyVbr 0

/-- The media byte, and one file from cluster 2 on: 2, 3, 4 and 5. -/
def floppyEnv : Env where
  allocs _ := true
  reads _ := .success
  disk := ofPieces [(512, [0xf0, 0xff, 0xff, 0x03, 0x40, 0x00, 0x05, 0xf0, 0xff])]

theorem floppy_volume : Volume floppy :=
  blFatCheckFat_volume (show blFatCheckFat floppyVbr 0 = .ok floppy by rfl) (by rfl)

theorem blFatGetNextEntry_right_iff_media : LookupRight floppyEnv floppy 0 := by
  have hplace : FirstSector floppy 0 0xff0 := ⟨by decide, by rfl⟩
  exact (blFatGetNextEntry_right_iff floppy_volume (by decide)).mpr hplace floppyEnv
    (fun _ => rfl) (by decide)

/-- The cluster after 2 is 3, and the code goes on with 64. -/
theorem floppy_second_cluster :
    blFatCheckFat floppyVbr 0 = .ok floppy ∧ floppy.fatType = .fat12 ∧
      (2 : BitVec 32).toNat < floppy.totalClusters.toNat + 2 ∧
      rawEntry floppyEnv.disk floppy 2 = 3 ∧
      (blFatGetNextEntry floppyEnv floppy (.mounted (fun _ => 0) 0) 2).2 = some 64 := by
  refine ⟨rfl, ?_, ?_, ?_, ?_⟩ <;> decide

end BootLoader.Fat

import BootLoader.Fat.Lookup
import BootLoader.Fat.Named
import BootLoader.Fat.Root

/-!
# When a scan of a directory ends

The loop has no bound of its own: it goes on until an entry ends it. An offset is a 32-bit number,
so after `2 ^ 27` entries the reads are those of the first ones again.
-/

open ByteMemory

namespace BootLoader.Fat

open Driver

variable {env : Env} {read : GenericRead} {filename : List Byte} {directory : Bool}
  {world : World} {it : BlFatIterator} {fuel : Nat}

/-! ## What ends it -/

/-- How many of the `k` entries from number `n` on have asked for a block for their name. -/
def namesBefore (read : GenericRead) : Nat → Nat → Nat
  | _, 0 => 0
  | n, k + 1 => (if isVolume (read (n * 32)).2 then 0 else 1) + namesBefore read (n + 1) k

/-- Entry `n` ends the scan: it is not read, it is the mark of the end, there is no block for its
name, it is no directory where one is asked for, or it reads as the name. `stale` is what was in
the block that its name is put into, after `allocs` requests. -/
def EndsAt (env : Env) (read : GenericRead) (filename : List Byte) (directory : Bool)
    (n allocs : Nat) (stale : Mem) : Prop :=
  (read (n * 32)).1 ≠ .success ∨ (read (n * 32)).2 0 = blFatAvailableEntryFlag ∨
    isVolume (read (n * 32)).2 = false ∧ env.allocs allocs = false ∨
    refused directory (read (n * 32)).2 = true ∨ readsAs filename (read (n * 32)).2 stale = true

/-- Entry `n + k` ends the scan that is at entry `n`. -/
def EndsAfter (env : Env) (read : GenericRead) (filename : List Byte) (directory : Bool)
    (world : World) (n k : Nat) : Prop :=
  EndsAt env read filename directory (n + k) (world.allocs + namesBefore read n k)
    (world.bytes (world.next + namesBefore read n k))

/-- The entries of a directory as `bl_fat_generic_read` delivers them. -/
def readEntries (env : Env) (info : BlFatInfo) (next : NextEntry) (fdata : BlFatFileData)
    (s : FatState) : GenericRead := fun offset =>
  match blFatGenericRead env info next fdata s (fun _ => 0) 32 (offset % 2 ^ 32) with
  | some (_, entry, status) => (status, entry)
  | none => (.failure, fun _ => 0)

/-- The entries that a directory has room for, where that is fixed. -/
def entriesOf (info : BlFatInfo) (fdata : BlFatFileData) : Option Nat :=
  if fdata.rootdir ≠ 0 ∧ (info.fatType = .fat12 ∨ info.fatType = .fat16) then
    some info.rootdirEntries
  else none

/-- The scan returns, and looks at no entry behind the last. -/
def ScanEnds (env : Env) (info : BlFatInfo) (fdata : BlFatFileData) (read : GenericRead)
    (filename : List Byte) (directory : Bool) (uninit : BitVec 32) (world : World) : Prop :=
  ∃ fuel, (∀ n ∈ entriesOf info fdata, fuel ≤ n) ∧
    (blFatIterateDirectoryCallback env read filename directory uninit fuel world).isSome

/-! ## One entry -/

theorem iterateFrom_ended (hempty : it.empty = false)
    (h : EndsAt env read filename directory (it.entry - 1) world.allocs (world.bytes world.next)) :
    (iterateFrom env read filename directory (fuel + 1) world it).isSome := by
  by_cases hread : (read ((it.entry - 1) * 32)).1 = .success
  · have hentry : read ((it.entry - 1) * 32) = (.success, (read ((it.entry - 1) * 32)).2) :=
      Prod.ext hread rfl
    by_cases hmark : (read ((it.entry - 1) * 32)).2 0 = blFatAvailableEntryFlag
    · rw [iterateFrom, blFatIteratorNext, hentry]
      simp [hmark]
    · by_cases halloc : isVolume (read ((it.entry - 1) * 32)).2 = false →
          env.allocs world.allocs = true
      · obtain ⟨world', it', -, -, -, -, hstep⟩ :=
          iterateFrom_entry filename directory fuel world halloc hentry hmark hempty
        rw [hstep]
        rcases h with h | h | h | h | h
        · exact absurd hread h
        · exact absurd h hmark
        · rw [halloc h.1] at h
          exact absurd h.2 (by decide)
        · simp [h]
        · cases hrefused : refused directory (read ((it.entry - 1) * 32)).2 <;> simp [h]
      · obtain ⟨hvolume, hnone⟩ := Classical.not_imp.mp halloc
        have hattr : attributes (read ((it.entry - 1) * 32)).2 &&& blFatDirEntryAttrVolume = 0 := by
          simpa [isVolume] using hvolume
        rw [iterateFrom, blFatIteratorNext, hentry]
        simp [hmark, hattr, blFatShortNameToRegularName, World.alloc,
          (freeFilename_same world it).2.2, hnone, hempty]
  · rw [iterateFrom, blFatIteratorNext]
    simp [hread, hempty]

theorem iterateFrom_goes_on (fuel : Nat) (hempty : it.empty = false)
    (h : ¬ EndsAt env read filename directory (it.entry - 1) world.allocs
      (world.bytes world.next)) :
    ∃ world' it', it'.empty = false ∧ it'.entry = it.entry + 1 ∧
      NameTaken world world' (read ((it.entry - 1) * 32)).2 ∧
      iterateFrom env read filename directory (fuel + 1) world it =
        iterateFrom env read filename directory fuel world' it' := by
  simp only [EndsAt, not_or, not_not, not_and, Bool.not_eq_true, Bool.not_eq_false] at h
  obtain ⟨hread, hmark, halloc, hrefused, hreads⟩ := h
  obtain ⟨world', it', hempty', hentry', -, hworld, hstep⟩ :=
    iterateFrom_entry filename directory fuel world halloc (Prod.ext hread rfl) hmark hempty
  refine ⟨world', it', hempty', hentry', hworld, ?_⟩
  rw [hstep, hrefused, hreads]
  simp

/-! ## The loop -/

theorem endsAfter_succ {world' : World} {n k : Nat}
    (h : NameTaken world world' (read (n * 32)).2) :
    EndsAfter env read filename directory world n (k + 1) ↔
      EndsAfter env read filename directory world' (n + 1) k := by
  rw [EndsAfter, EndsAfter, namesBefore, h.bytes, h.next, h.allocs, Nat.add_assoc, Nat.add_assoc,
    Nat.add_assoc, Nat.add_comm 1 k]

theorem iterateFrom_isSome_iff (fuel : Nat) (world : World) (it : BlFatIterator)
    (hentry : 1 ≤ it.entry) (hempty : it.empty = false) :
    (iterateFrom env read filename directory fuel world it).isSome ↔
      ∃ k < fuel, EndsAfter env read filename directory world (it.entry - 1) k := by
  induction fuel generalizing world it with
  | zero => simp [iterateFrom]
  | succ fuel ih =>
    by_cases hend : EndsAt env read filename directory (it.entry - 1) world.allocs
        (world.bytes world.next)
    · exact iff_of_true (iterateFrom_ended hempty hend) ⟨0, Nat.succ_pos _, hend⟩
    · obtain ⟨world', it', hempty', hentry', hworld, hstep⟩ :=
        iterateFrom_goes_on fuel hempty hend
      have hnumber : it'.entry - 1 = it.entry - 1 + 1 := by omega
      rw [hstep, ih world' it' (by omega) hempty', hnumber]
      constructor
      · rintro ⟨k, hk, h⟩
        exact ⟨k + 1, by omega, (endsAfter_succ hworld).mpr h⟩
      · rintro ⟨k, hk, h⟩
        cases k with
        | zero => exact absurd h hend
        | succ k => exact ⟨k, by omega, (endsAfter_succ hworld).mp h⟩

theorem blFatIterateDirectoryCallback_isSome_iff (hname : blFatCheckRegularName filename = .success)
    (uninit : BitVec 32) (fuel : Nat) (world : World) :
    (blFatIterateDirectoryCallback env read filename directory uninit fuel world).isSome ↔
      ∃ k < fuel, EndsAfter env read filename directory world 0 k := by
  rw [blFatIterateDirectoryCallback]
  simp only [hname, ne_eq, not_true_eq_false, if_false, Option.isSome_map]
  exact iterateFrom_isSome_iff fuel world (blFatIteratorInit uninit) (Nat.le_refl 1) rfl

/-- **The end of a scan.** A scan returns, within the entries of the directory, exactly when the
name is refused or one of these entries ends it. -/
theorem scan_ends_iff (env : Env) (info : BlFatInfo) (fdata : BlFatFileData) (read : GenericRead)
    (filename : List Byte) (directory : Bool) (uninit : BitVec 32) (world : World) :
    ScanEnds env info fdata read filename directory uninit world ↔
      blFatCheckRegularName filename ≠ .success ∨
        ∃ k, (∀ n ∈ entriesOf info fdata, k < n) ∧
          EndsAfter env read filename directory world 0 k := by
  by_cases hname : blFatCheckRegularName filename = .success
  · constructor
    · rintro ⟨fuel, hfuel, hret⟩
      obtain ⟨k, hk, hend⟩ :=
        (blFatIterateDirectoryCallback_isSome_iff hname uninit fuel world).mp hret
      exact .inr ⟨k, fun n hn => hk.trans_le (hfuel n hn), hend⟩
    · intro h
      obtain ⟨k, hk, hend⟩ := h.resolve_left (not_not.mpr hname)
      exact ⟨k + 1, hk, (blFatIterateDirectoryCallback_isSome_iff hname uninit (k + 1) world).mpr
        ⟨k, Nat.lt_succ_self k, hend⟩⟩
  · refine iff_of_true ⟨0, fun _ _ => Nat.zero_le _, ?_⟩ (.inl hname)
    simp [blFatIterateDirectoryCallback, hname]

/-! ## A full root directory -/

/-- Behind its boot record the floppy disk holds nothing but volume labels. -/
def labelsEnv : Env where
  allocs _ := true
  reads _ := .success
  disk x := if x < 512 then floppyVbr x else 8

theorem labels_entry (next : NextEntry) (s : FatState) (n : Nat) :
    (readEntries labelsEnv floppy next (blFatOpenRoot 0) s (n * 32)).1 = .success ∧
      ∀ j < 32, (readEntries labelsEnv floppy next (blFatOpenRoot 0) s (n * 32)).2 j = 8 := by
  have hroot (buf : Mem) (offset : Nat) :
      blFatGenericRead labelsEnv floppy next (blFatOpenRoot 0) s buf 32 offset =
        some (blFatReadRootdir labelsEnv floppy s buf 32 offset) := rfl
  simp only [readEntries, hroot]
  refine ⟨rfl, fun j hj => ?_⟩
  rw [blFatReadRootdir_data floppy s _ (fun _ => rfl) _ hj]
  refine if_neg ?_
  have hlba : floppy.rootdirLba = 19 := by decide
  have hshift : Utils.shiftCount (Utils.blLog2 floppy.sectorSize) = 9 := by decide
  rw [rootdirPosition, hlba, hshift, BitVec.toNat_add, BitVec.toNat_ofNat,
    Nat.shiftRight_eq_div_pow, show (19 : BitVec 64).toNat = 19 by rfl]
  omega

/-- No entry ends the scan, the 224 of the root directory or any other. -/
theorem labels_endless :
    ¬ ∀ env info next fdata s filename directory uninit world,
      (∀ n, env.reads n = .success) → (∀ n, env.allocs n = true) →
      ScanEnds env info fdata (readEntries env info next fdata s) filename directory uninit
        world := by
  intro h
  obtain ⟨fuel, -, hret⟩ := h labelsEnv floppy (fun s _ => (s, none)) (blFatOpenRoot 0)
    (.mounted (fun _ => 0) 0) bootFilename false 0 zeroWorld (fun _ => rfl) fun _ => rfl
  obtain ⟨k, -, hend⟩ := (blFatIterateDirectoryCallback_isSome_iff (by decide) _ _ _).mp hret
  obtain ⟨hread, hentry⟩ :=
    labels_entry (fun s _ => (s, none)) (.mounted (fun _ => 0) 0) (0 + k)
  have hlabel : isVolume (readEntries labelsEnv floppy (fun s _ => (s, none)) (blFatOpenRoot 0)
      (.mounted (fun _ => 0) 0) ((0 + k) * 32)).2 = true := by
    rw [isVolume, attributes, hentry 0x0b (by decide)]
    decide
  rcases hend with h | h | h | h | h
  · exact h hread
  · rw [hentry 0 (by decide)] at h
    exact absurd h (by decide)
  · rw [hlabel] at h
    exact absurd h.1 (by decide)
  · exact absurd ((refused_iff _ _).mp h).1 (by decide)
  · rw [(readsAs_type h).1] at hlabel
    exact absurd hlabel (by decide)

end BootLoader.Fat

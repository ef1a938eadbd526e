import BootLoader.Loader.RoundTrip
import BootLoader.Heap.Proofs

/-!
# The heap starts behind the modules

`bl_heap_init` and `bl_loader_init` each walk the module list for themselves.
-/

open ByteMemory RoundUp

namespace BootLoader.Loader

open Heap

variable {σ : Type*} {mods : List (List Byte)} {m : Mem} {mod start : Nat} {s : Machine σ}

/-! ## What the loader reads -/

/-- The address and the size of each object that `loadModules` presents. -/
def blobsRead (load : ElfLoad σ) : Nat → Nat → Machine σ → List (Nat × Nat)
  | 0, _, _ => []
  | left + 1, mod, s =>
    if read64 s.mem mod ≠ blModuleHeaderMagic then []
    else
      let blob := ((mod + 12) % 2 ^ 32, read32 s.mem (mod + 8))
      let (s', status) := blLoaderLoadModule load blob.1 blob.2 s
      blob :: if status ≠ .success then [] else blobsRead load left (nextModule s'.mem mod) s'

def blobsReadByInit (load : ElfLoad σ) (blModList : Nat) (s : Machine σ) : List (Nat × Nat) :=
  if blModList = 0 ∨ read64 s.mem blModList ≠ blModuleListHeaderMagic then []
  else blobsRead load (read32 s.mem (blModList + 8)) ((blModList + 16) % 2 ^ 32) s

/-- Where the files of a list lie, whose first module is at `mod`. -/
def blobsOf : Nat → List (List Byte) → List (Nat × Nat)
  | _, [] => []
  | mod, buf :: mods => (mod + 12, buf.length) :: blobsOf (mod + 12 + buf.length) mods

theorem blobsOf_stop {blob : Nat × Nat} (h : blob ∈ blobsOf mod mods) :
    blob.1 + blob.2 ≤ mod + (mods.flatMap encodeModule).length := by
  induction mods generalizing mod with
  | nil => simp [blobsOf] at h
  | cons buf mods ih =>
    rw [List.flatMap_cons, List.length_append, length_encodeModule]
    rcases List.mem_cons.mp h with rfl | h
    · simp only
      omega
    · have hstop := ih h
      omega

/-- Every file lies at its place. -/
theorem objectAt_blobsOf (h : HasBytes m mod (mods.flatMap encodeModule))
    (hfits : mod + (mods.flatMap encodeModule).length < 2 ^ 32) :
    (blobsOf mod mods).map (fun blob => objectAt m blob.1 blob.2) = mods := by
  induction mods generalizing mod with
  | nil => rfl
  | cons buf mods ih =>
    rw [List.flatMap_cons] at h hfits
    rw [List.length_append, length_encodeModule] at hfits
    obtain ⟨hhead, hmods⟩ := hasBytes_append.mp h
    rw [length_encodeModule, ← Nat.add_assoc] at hmods
    obtain ⟨-, -, hbuf⟩ := encodeModule_head hhead (by omega)
    have hobject := objectAt_eq hbuf (by omega)
    rw [Nat.mod_eq_of_lt (by omega)] at hobject
    rw [blobsOf, List.map_cons, hobject, ih hmods (by omega)]

/-- The loader reads the files of the list in order, as far as they load. -/
theorem blobsRead_encoded (load : ElfLoad σ) (h : HasBytes s.mem mod (mods.flatMap encodeModule))
    (hfits : mod + (mods.flatMap encodeModule).length < 2 ^ 32) :
    ∃ k, blobsRead load mods.length mod s = (blobsOf mod mods).take k ∧
      (loadFiles load mods s.rest).1 = mods.take k := by
  induction mods generalizing mod s with
  | nil => exact ⟨0, rfl, rfl⟩
  | cons buf mods ih =>
    rw [List.flatMap_cons] at h hfits
    rw [List.length_append, length_encodeModule] at hfits
    obtain ⟨hhead, hmods⟩ := hasBytes_append.mp h
    rw [length_encodeModule, ← Nat.add_assoc] at hmods
    obtain ⟨hmagic, hsize, hbuf⟩ := encodeModule_head hhead (by omega)
    obtain ⟨s₁, hload, hrest, -, houtside⟩ := blLoaderLoadModule_spec load hbuf (by omega)
    rw [Nat.mod_eq_of_lt (by omega)] at hload
    rw [List.length_cons, blobsRead, if_neg (not_not.mpr hmagic), hsize,
      Nat.mod_eq_of_lt (by omega), loadFiles]
    simp only [hload]
    by_cases hok : (load buf s.rest).2.2 = .success
    · have hsize₁ : read32 s₁.mem (mod + 8) = buf.length :=
        (readLE_congr fun x _ hx => houtside x (.inl (by omega))).trans hsize
      have hmods₁ : HasBytes s₁.mem (mod + 12 + buf.length) (mods.flatMap encodeModule) :=
        hmods.congr fun x hx _ => houtside x (.inr hx)
      obtain ⟨k, hread, hfiles⟩ := ih hmods₁ (by omega)
      refine ⟨k + 1, ?_, ?_⟩
      · rw [if_neg (not_not.mpr hok), nextModule_encoded hsize₁, Nat.mod_eq_of_lt (by omega),
          hread, blobsOf, List.take_succ_cons]
      · rw [if_neg (not_not.mpr hok), ← hrest, hfiles, List.take_succ_cons]
    · refine ⟨1, ?_, ?_⟩
      · rw [if_pos hok, blobsOf, List.take_succ_cons, List.take_zero]
      · rw [if_pos hok, List.take_succ_cons, List.take_zero]

/-! ## What the heap steps over -/

theorem skipModules_encoded (more : Nat) (h : HasBytes m mod (mods.flatMap encodeModule))
    (hfits : mod + (mods.flatMap encodeModule).length < 2 ^ 32) :
    skipModules m (mods.length + more) mod =
      skipModules m more (mod + (mods.flatMap encodeModule).length) := by
  induction mods generalizing mod with
  | nil => simp
  | cons buf mods ih =>
    rw [List.flatMap_cons] at h hfits
    rw [List.length_append, length_encodeModule] at hfits
    obtain ⟨hhead, hmods⟩ := hasBytes_append.mp h
    rw [length_encodeModule, ← Nat.add_assoc] at hmods
    obtain ⟨hmagic, hsize, -⟩ := encodeModule_head hhead (by omega)
    rw [List.length_cons, Nat.add_right_comm, skipModules, if_neg (not_not.mpr hmagic),
      nextModule_encoded hsize, Nat.mod_eq_of_lt (by omega), ih hmods (by omega),
      List.flatMap_cons, List.length_append, length_encodeModule]
    congr 1
    omega

theorem blHeapInit_list {count totalSize : Nat}
    (h : HasBytes m start (encodeList count totalSize mods)) (hcount : count < 2 ^ 32)
    (hmods : mods.length ≤ count) (hend : listEnd start mods < 2 ^ 32) :
    blHeapInit start (unset m) =
      match skipModules m (count - mods.length) (listEnd start mods) with
      | none => unset m
      | some mod => { unset m with heap := blMemoryAlignUp mod blHeapMemAlign } := by
  obtain ⟨hmagic, hread, hbytes⟩ := encodeList_head h hcount
  obtain ⟨more, rfl⟩ := Nat.exists_eq_add_of_le hmods
  unfold listEnd at hend
  rw [blHeapInit, if_neg (by simp [unset]), unset, hread, if_pos hmagic, listEnd,
    Nat.mod_eq_of_lt (by omega), skipModules_encoded more hbytes hend]
  have hrest : mods.length + more - mods.length = more := Nat.add_sub_cancel_left ..
  exact hrest.symm ▸ rfl

theorem length_le_encoded (mods : List (List Byte)) :
    mods.length ≤ (mods.flatMap encodeModule).length := by
  induction mods with
  | nil => simp
  | cons buf mods ih =>
    rw [List.flatMap_cons, List.length_append, length_encodeModule, List.length_cons]
    omega

theorem blHeapInit_complete {totalSize : Nat}
    (h : HasBytes m start (encodeList mods.length totalSize mods))
    (hend : listEnd start mods < 2 ^ 32 - 16) :
    (blHeapInit start (unset m)).heap = roundUp (listEnd start mods) 16 := by
  have hlt : roundUp (listEnd start mods) (2 ^ 4) < 2 ^ 32 := by
    have hup := roundUp_lt_add (x := listEnd start mods) (a := 2 ^ 4) (by decide)
    omega
  have hcount : mods.length < 2 ^ 32 := by
    have hlen := length_le_encoded mods
    unfold listEnd at hend
    omega
  have hup := blMemoryAlignUp_eq_roundUp (by decide) hlt
  rw [blHeapInit_list h hcount le_rfl (by omega), Nat.sub_self]
  exact hup

/-- With no base, nothing is handed out. -/
theorem blHeapAllocAlign_unset (m : Mem) (sz align : Nat) :
    blHeapAllocAlign (unset m) sz align = some (unset m, 0) :=
  if_pos rfl

/-! ## Both walks -/

/-- **The heap starts after the modules.** Up to its base the memory may be what it was when the
heap was started, or have changed beyond: the loader reads the files of the list, below the base.
Where a magic is wrong there is no base, and nothing is handed out. -/
theorem heap_starts_after_modules (load : ElfLoad σ) {count totalSize : Nat}
    (h : HasBytes m start (encodeList count totalSize mods)) (hcount : count < 2 ^ 32)
    (hend : listEnd start mods < 2 ^ 32 - 16) :
    (mods.length = count →
      16 ∣ (blHeapInit start (unset m)).heap ∧
      ∀ s : Machine σ, (∀ x < (blHeapInit start (unset m)).heap, s.mem x = m x) →
        (blLoaderInit load start s).1.presented = s.presented ++
          (blobsReadByInit load start s).map (fun blob => objectAt m blob.1 blob.2) ∧
        ∀ blob ∈ blobsReadByInit load start s,
          blob.1 + blob.2 ≤ (blHeapInit start (unset m)).heap) ∧
    (mods.length < count → read64 m (listEnd start mods) ≠ blModuleHeaderMagic →
      ∀ sz align, blHeapAllocAlign (blHeapInit start (unset m)) sz align =
        some (unset m, 0)) := by
  refine ⟨?_, ?_⟩
  · rintro rfl
    rw [blHeapInit_complete h hend]
    refine ⟨dvd_roundUp _ _, ?_⟩
    intro s hsame
    have hbase : start + 16 + (mods.flatMap encodeModule).length ≤
        roundUp (listEnd start mods) 16 := le_roundUp (by decide)
    have hlen : (encodeList mods.length totalSize mods).length =
        16 + (mods.flatMap encodeModule).length := by
      simp only [encodeList, List.length_append, length_bytesLE]
      omega
    have hs : HasBytes s.mem start (encodeList mods.length totalSize mods) :=
      h.congr fun x _ hx => hsame x (by omega)
    obtain ⟨hmagic, hread, hbytes⟩ := encodeList_head hs hcount
    obtain ⟨-, -, hbytes₀⟩ := encodeList_head h hcount
    rw [listEnd] at hend
    rw [blobsReadByInit]
    by_cases hnull : start = 0
    · rw [if_pos (.inl hnull), blLoaderInit, if_pos (.inl hnull)]
      simp
    · obtain ⟨k, hblobs, hfiles⟩ := blobsRead_encoded load hbytes (by omega)
      have hpresented := (blLoaderInit_encoded load hnull hs hcount le_rfl
        (by rw [listEnd]; omega) fun hlt => absurd hlt (Nat.lt_irrefl _)).1
      rw [hmagic, hread, Nat.mod_eq_of_lt (by omega), hblobs, hpresented, hfiles]
      rw [if_neg (by simp [hnull]), List.map_take, objectAt_blobsOf hbytes₀ (by omega)]
      refine ⟨rfl, fun blob hblob => ?_⟩
      have hstop := blobsOf_stop (List.mem_of_mem_take hblob)
      omega
  · intro hlt hwrong sz align
    obtain ⟨more, rfl⟩ := Nat.exists_eq_add_of_lt hlt
    rw [blHeapInit_list h hcount hlt.le (by omega), Nat.add_assoc, Nat.add_sub_cancel_left,
      skipModules, if_pos hwrong]
    exact blHeapAllocAlign_unset m sz align

theorem twoFiles_bytes : HasBytes twoFiles 16 (encodeList 2 3 [[1], [2, 3]]) := by
  have himage : modulesList [[1], [2, 3]] = some (encodeList 2 3 [[1], [2, 3]]) :=
    modulesList_eq (by decide) (by decide)
  refine hasBytes_iff.mpr fun k hk => ?_
  rw [twoFiles, himage, Nat.add_sub_cancel_left, ofBytes, Option.getD_some,
    List.getD_eq_getElem _ _ hk]

theorem twoFiles_heap_after_modules :
    16 ∣ (blHeapInit 16 (unset twoFiles)).heap ∧
      ∀ blob ∈ blobsReadByInit loadAny 16 ⟨twoFiles, (), []⟩,
        blob.1 + blob.2 ≤ (blHeapInit 16 (unset twoFiles)).heap := by
  obtain ⟨haligned, hread⟩ :=
    (heap_starts_after_modules loadAny twoFiles_bytes (by decide) (by decide)).1 rfl
  exact ⟨haligned, (hread ⟨twoFiles, (), []⟩ fun _ _ => rfl).2⟩

end BootLoader.Loader

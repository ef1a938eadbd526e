import BootLoader.Loader.Code
import Mathlib.Algebra.Order.BigOperators.Group.List

/-!
# What was written is what is loaded
-/

open ByteMemory

namespace BootLoader.Loader

open Heap

variable {σ : Type*} {load : ElfLoad σ} {mods : List (List Byte)} {image : List Byte} {m : Mem}
  {mod a : Nat} {s : Machine σ}

/-! ## The bytes -/

def encodeModule (buf : List Byte) : List Byte :=
  bytesLE 8 blModuleHeaderMagic ++ (bytesLE 4 buf.length ++ buf)

def encodeList (count totalSize : Nat) (mods : List (List Byte)) : List Byte :=
  bytesLE 8 blModuleListHeaderMagic ++ (bytesLE 4 count ++
    (bytesLE 4 totalSize ++ mods.flatMap encodeModule))

theorem length_encodeModule (buf : List Byte) : (encodeModule buf).length = 12 + buf.length := by
  simp [encodeModule]
  omega

theorem packModules_eq {l : List Byte} {totalSize : Nat} (h : ∀ buf ∈ mods, buf.length < 2 ^ 32) :
    packModules mods l totalSize =
      some (l ++ mods.flatMap encodeModule, totalSize + (mods.map List.length).sum) := by
  induction mods generalizing l totalSize with
  | nil => simp [packModules]
  | cons buf mods ih =>
    have hbuf : buf.length < 256 ^ 4 := h buf List.mem_cons_self
    have hmagic : blModuleHeaderMagic < 256 ^ 8 := by decide
    rw [packModules, structPack, structPack, if_pos hmagic, if_pos hbuf]
    simp only [Option.bind_eq_bind, Option.bind_some]
    rw [ih fun buf hbuf => h buf (List.mem_cons_of_mem _ hbuf)]
    simp [encodeModule, Nat.add_assoc]

theorem modulesList_eq (hcount : mods.length < 2 ^ 31)
    (htotal : (mods.map List.length).sum < 2 ^ 31) :
    modulesList mods = some (encodeList mods.length (mods.map List.length).sum mods) := by
  have hsizes : ∀ buf ∈ mods, buf.length < 2 ^ 32 := fun buf hbuf =>
    (List.le_sum_of_mem (List.mem_map_of_mem hbuf)).trans_lt
      (htotal.trans (by decide))
  have hcount' : mods.length < 256 ^ 4 := hcount.trans (by decide)
  have htotal' : (mods.map List.length).sum < 256 ^ 4 := htotal.trans (by decide)
  have hmagic : blModuleListHeaderMagic < 256 ^ 8 := by decide
  rw [modulesList, packModules_eq hsizes]
  simp only [Option.bind_eq_bind, Option.bind_some, Nat.zero_add, List.nil_append]
  rw [structPack, structPack, structPack, if_pos hmagic, if_pos hcount', if_pos htotal']
  simp [encodeList]

/-! ## One object -/

theorem objectAt_eq {ptr : Nat} {buf : List Byte} (h : HasBytes m ptr buf)
    (hfits : ptr + buf.length ≤ 2 ^ 32) : objectAt m (ptr % 2 ^ 32) buf.length = buf := by
  refine List.ext_getElem (by simp [objectAt]) fun k hk hk' => ?_
  have haddress : (ptr % 2 ^ 32 + k) % 2 ^ 32 = ptr + k := by omega
  simp only [objectAt, List.getElem_map, List.getElem_range, haddress]
  exact hasBytes_iff.mp h k hk'

theorem putObject_outside {ptr size x : Nat} (object : Nat → Byte) (hfits : ptr + size ≤ 2 ^ 32)
    (hx : x < ptr ∨ ptr + size ≤ x) : putObject m (ptr % 2 ^ 32) size object x = m x := by
  have hnot : ¬(x < 2 ^ 32 ∧ (x + (2 ^ 32 - ptr % 2 ^ 32)) % 2 ^ 32 < size) := by omega
  exact if_neg hnot

/-! ## The walk -/

/-- What loading files one after another comes to: the files that were tried, and how it ended. -/
def loadFiles (load : ElfLoad σ) : List (List Byte) → σ → List (List Byte) × σ × BlStatus
  | [], rest => ([], rest, .success)
  | buf :: mods, rest =>
    let (_, rest, status) := load buf rest
    if status ≠ .success then ([buf], rest, status)
    else
      let (presented, rest, status) := loadFiles load mods rest
      (buf :: presented, rest, status)

/-- How a walk goes on behind some files that stand in memory: it stops at the first that fails. -/
structure Walked (load : ElfLoad σ) (mods : List (List Byte)) (more mod : Nat) (s s' : Machine σ)
    (out : Machine σ × BlStatus) : Prop where
  out : out = if (loadFiles load mods s.rest).2.2 = .success
    then loadModules load more ((mod + (mods.flatMap encodeModule).length) % 2 ^ 32) s'
    else (s', (loadFiles load mods s.rest).2.2)
  rest : s'.rest = (loadFiles load mods s.rest).2.1
  presented : s'.presented = s.presented ++ (loadFiles load mods s.rest).1
  outside : ∀ x, x < mod ∨ mod + (mods.flatMap encodeModule).length ≤ x → s'.mem x = s.mem x

theorem encodeModule_head {buf : List Byte} (h : HasBytes m mod (encodeModule buf))
    (hsize : buf.length < 2 ^ 32) :
    read64 m mod = blModuleHeaderMagic ∧ read32 m (mod + 8) = buf.length ∧
      HasBytes m (mod + 12) buf := by
  obtain ⟨hmagic, hrest⟩ := hasBytes_append.mp h
  obtain ⟨hlen, hbuf⟩ := hasBytes_append.mp hrest
  simp only [length_bytesLE] at hlen hbuf
  refine ⟨?_, ?_, hbuf⟩
  · rw [read64, readLE_of_hasBytes hmagic]
    decide
  · rw [read32, readLE_of_hasBytes hlen]
    exact Nat.mod_eq_of_lt hsize

/-- One module is presented, and the memory outside of it stays. -/
theorem blLoaderLoadModule_spec {buf : List Byte} (load : ElfLoad σ) {ptr : Nat}
    (hbuf : HasBytes s.mem ptr buf) (hfits : ptr + buf.length ≤ 2 ^ 32) :
    ∃ s₁, blLoaderLoadModule load (ptr % 2 ^ 32) buf.length s = (s₁, (load buf s.rest).2.2) ∧
      s₁.rest = (load buf s.rest).2.1 ∧ s₁.presented = s.presented ++ [buf] ∧
      ∀ x, x < ptr ∨ ptr + buf.length ≤ x → s₁.mem x = s.mem x := by
  rw [blLoaderLoadModule, objectAt_eq hbuf hfits]
  exact ⟨_, rfl, rfl, rfl, fun x hx => putObject_outside _ hfits hx⟩

/-- The size is read again behind the load; the head of the module is not in its object. -/
theorem nextModule_encoded {buf : List Byte} (hsize : read32 m (mod + 8) = buf.length) :
    nextModule m mod = (mod + 12 + buf.length) % 2 ^ 32 := by
  rw [nextModule, hsize]
  omega

theorem loadModules_encoded (load : ElfLoad σ) (mods : List (List Byte)) (more mod : Nat)
    (s : Machine σ) (h : HasBytes s.mem mod (mods.flatMap encodeModule))
    (hfits : mod + (mods.flatMap encodeModule).length ≤ 2 ^ 32) :
    ∃ s', Walked load mods more mod s s' (loadModules load (mods.length + more)
      (mod % 2 ^ 32) s) := by
  induction mods generalizing mod s with
  | nil => exact ⟨s, by simp [loadFiles], rfl, by simp [loadFiles], fun _ _ => rfl⟩
  | cons buf mods ih =>
    have hlen : ((buf :: mods).flatMap encodeModule).length =
        12 + buf.length + (mods.flatMap encodeModule).length := by
      rw [List.flatMap_cons, List.length_append, length_encodeModule]
    rw [hlen] at hfits
    have hmod : mod % 2 ^ 32 = mod := Nat.mod_eq_of_lt (by omega)
    obtain ⟨hhead, hmods⟩ := hasBytes_append.mp (by rwa [List.flatMap_cons] at h)
    rw [length_encodeModule, ← Nat.add_assoc] at hmods
    obtain ⟨hmagic, hsize, hbuf⟩ := encodeModule_head hhead (by omega)
    obtain ⟨s₁, hload, hrest, hpresented, houtside⟩ :=
      blLoaderLoadModule_spec load hbuf (by omega)
    rw [show (buf :: mods).length + more = mods.length + more + 1 by simp; omega, hmod,
      loadModules, if_neg (not_not.mpr hmagic), hsize]
    simp only [hload]
    by_cases hok : (load buf s.rest).2.2 = .success
    · have hsize₁ : read32 s₁.mem (mod + 8) = buf.length :=
        (readLE_congr fun x _ hx => houtside x (.inl (by omega))).trans hsize
      have hmods₁ : HasBytes s₁.mem (mod + 12 + buf.length) (mods.flatMap encodeModule) :=
        hmods.congr fun x hx _ => houtside x (.inr hx)
      have hfiles : loadFiles load (buf :: mods) s.rest =
          (buf :: (loadFiles load mods s₁.rest).1, (loadFiles load mods s₁.rest).2) := by
        rw [loadFiles, hrest]
        simp [hok]
      obtain ⟨s', hwalked⟩ := ih (mod + 12 + buf.length) s₁ hmods₁ (by omega)
      rw [if_neg (not_not.mpr hok), nextModule_encoded hsize₁]
      refine ⟨s', ?_, ?_, ?_, fun x hx => ?_⟩
      · rw [hfiles, hlen, hwalked.out, Nat.add_assoc, Nat.add_assoc, Nat.add_assoc]
      · rw [hfiles, hwalked.rest]
      · rw [hfiles, hwalked.presented, hpresented, List.append_assoc]
        rfl
      · rw [hlen] at hx
        rw [hwalked.outside x (by omega), houtside x (by omega)]
    · have hfiles : loadFiles load (buf :: mods) s.rest = ([buf], (load buf s.rest).2) := by
        rw [loadFiles]
        simp [hok]
      rw [if_pos hok]
      refine ⟨s₁, ?_, ?_, ?_, fun x hx => ?_⟩
      · rw [hfiles, if_neg hok]
      · rw [hfiles, hrest]
      · rw [hfiles, hpresented]
      · rw [hlen] at hx
        exact houtside x (by omega)

/-! ## The whole list -/

theorem encodeList_head {count totalSize : Nat} (h : HasBytes m a (encodeList count totalSize mods))
    (hcount : count < 2 ^ 32) :
    read64 m a = blModuleListHeaderMagic ∧ read32 m (a + 8) = count ∧
      HasBytes m (a + 16) (mods.flatMap encodeModule) := by
  obtain ⟨hmagic, hrest⟩ := hasBytes_append.mp h
  obtain ⟨hcount', hrest⟩ := hasBytes_append.mp hrest
  obtain ⟨-, hmods⟩ := hasBytes_append.mp hrest
  simp only [length_bytesLE] at hcount' hmods
  refine ⟨?_, ?_, hmods⟩
  · rw [read64, readLE_of_hasBytes hmagic]
    decide
  · rw [read32, readLE_of_hasBytes hcount']
    exact Nat.mod_eq_of_lt hcount

/-- One past the modules of the list at `a`. -/
def listEnd (a : Nat) (mods : List (List Byte)) : Nat :=
  a + 16 + (mods.flatMap encodeModule).length

/-- Behind the files that are there, either the count is reached or a module has a wrong magic. -/
theorem blLoaderInit_encoded (load : ElfLoad σ) {count totalSize : Nat} (ha : a ≠ 0)
    (h : HasBytes s.mem a (encodeList count totalSize mods)) (hcount : count < 2 ^ 32)
    (hmods : mods.length ≤ count) (hfits : listEnd a mods ≤ 2 ^ 32)
    (hwrong : mods.length < count →
      listEnd a mods < 2 ^ 32 ∧ read64 s.mem (listEnd a mods) ≠ blModuleHeaderMagic) :
    (blLoaderInit load a s).1.presented = s.presented ++ (loadFiles load mods s.rest).1 ∧
      (blLoaderInit load a s).1.rest = (loadFiles load mods s.rest).2.1 ∧
      (blLoaderInit load a s).2 =
        if (loadFiles load mods s.rest).2.2 = .success then
          if mods.length = count then .success else .invalidModule
        else (loadFiles load mods s.rest).2.2 := by
  obtain ⟨hmagic, hread, hbytes⟩ := encodeList_head h hcount
  obtain ⟨more, rfl⟩ := Nat.exists_eq_add_of_le hmods
  obtain ⟨s', hwalked⟩ := loadModules_encoded load mods more (a + 16) s hbytes hfits
  have hinit : blLoaderInit load a s =
      loadModules load (mods.length + more) ((a + 16) % 2 ^ 32) s := by
    rw [blLoaderInit, hread, hmagic]
    simp [ha]
  rw [hinit, hwalked.out]
  by_cases hok : (loadFiles load mods s.rest).2.2 = .success
  · rw [if_pos hok, if_pos hok]
    obtain _ | more := more
    · exact ⟨hwalked.presented, hwalked.rest, by simp [loadModules]⟩
    · obtain ⟨hlt, hread'⟩ := hwrong (by omega)
      have hwrong' : read64 s'.mem (listEnd a mods) ≠ blModuleHeaderMagic := by
        have hsame : read64 s'.mem (listEnd a mods) = read64 s.mem (listEnd a mods) :=
          readLE_congr fun y hy _ => hwalked.outside y (.inr hy)
        rwa [hsame]
      rw [← listEnd, Nat.mod_eq_of_lt hlt, loadModules, if_pos hwrong']
      exact ⟨hwalked.presented, hwalked.rest, by simp⟩
  · rw [if_neg hok, if_neg hok]
    exact ⟨hwalked.presented, hwalked.rest, rfl⟩

/-- **What was written is what is loaded**, and a wrong magic ends the walk with an error. -/
theorem blLoaderInit_round_trip (load : ElfLoad σ) (ha : a ≠ 0) :
    (∀ mods : List (List Byte), mods.length < 2 ^ 31 → (mods.map List.length).sum < 2 ^ 31 →
      ∃ image, modulesList mods = some image ∧
        ∀ s : Machine σ, HasBytes s.mem a image → a + image.length ≤ 2 ^ 32 →
          (blLoaderInit load a s).1.presented = s.presented ++ (loadFiles load mods s.rest).1 ∧
          (blLoaderInit load a s).1.rest = (loadFiles load mods s.rest).2.1 ∧
          (blLoaderInit load a s).2 = (loadFiles load mods s.rest).2.2) ∧
    (∀ s : Machine σ, read64 s.mem a ≠ blModuleListHeaderMagic →
      blLoaderInit load a s = (s, .invalidModuleList)) ∧
    (∀ (s : Machine σ) (mods : List (List Byte)) (count totalSize : Nat),
      HasBytes s.mem a (encodeList count totalSize mods) → count < 2 ^ 32 →
      mods.length < count → listEnd a mods < 2 ^ 32 →
      read64 s.mem (listEnd a mods) ≠ blModuleHeaderMagic →
        (blLoaderInit load a s).1.presented = s.presented ++ (loadFiles load mods s.rest).1 ∧
        (blLoaderInit load a s).2 ≠ .success) := by
  refine ⟨fun mods hcount htotal => ?_, fun s hwrong => ?_, ?_⟩
  · refine ⟨_, modulesList_eq hcount htotal, fun s h hfits => ?_⟩
    have hend : listEnd a mods ≤ 2 ^ 32 := by
      simp only [encodeList, List.length_append, length_bytesLE] at hfits
      unfold listEnd
      omega
    obtain ⟨hpresented, hrest, hstatus⟩ := blLoaderInit_encoded load ha h
      (hcount.trans (by decide)) le_rfl hend fun hlt => absurd hlt (Nat.lt_irrefl _)
    refine ⟨hpresented, hrest, hstatus.trans ?_⟩
    by_cases hok : (loadFiles load mods s.rest).2.2 = .success
    · rw [if_pos hok, if_pos rfl, hok]
    · rw [if_neg hok]
  · rw [blLoaderInit, if_pos (.inr hwrong)]
  · intro s mods count totalSize h hcount hlt hend hwrong
    obtain ⟨hpresented, -, hstatus⟩ := blLoaderInit_encoded load ha h hcount hlt.le hend.le
      fun _ => ⟨hend, hwrong⟩
    refine ⟨hpresented, fun hok => ?_⟩
    rw [hstatus, if_neg hlt.ne] at hok
    split_ifs at hok with hfiles
    exact hfiles hok

def loadAny : ElfLoad Unit := fun buf rest => (ofBytes buf, rest, .success)

def twoFiles : Mem := fun x => ofBytes ((modulesList [[1], [2, 3]]).getD []) (x - 16)

theorem twoFiles_round_trip :
    (blLoaderInit loadAny 16 ⟨twoFiles, (), []⟩).1.presented = [[1], [2, 3]] ∧
      (blLoaderInit loadAny 16 ⟨twoFiles, (), []⟩).2 = .success := by
  obtain ⟨image, himage, h⟩ := (blLoaderInit_round_trip loadAny (a := 16) (by decide)).1
    [[1], [2, 3]] (by decide) (by decide)
  have hlen : image.length = 43 := by
    rw [← Option.some.inj himage]
    rfl
  have hbytes : HasBytes twoFiles 16 image := hasBytes_iff.mpr fun k hk => by
    rw [twoFiles, himage, Nat.add_sub_cancel_left, ofBytes, Option.getD_some,
      List.getD_eq_getElem _ _ hk]
  obtain ⟨hpresented, -, hstatus⟩ := h ⟨twoFiles, (), []⟩ hbytes (by rw [hlen]; decide)
  exact ⟨hpresented, hstatus⟩

end BootLoader.Loader

import BootLoader.Loader.RoundTrip
import BootLoader.Uefi.HeapRuns
import BootLoader.Uefi.Main

/-!
# From the packed list to the loaded modules

Whatever of the firmware's services fails, either nothing is loaded and the application returns an
error, or the modules that were packed are loaded in their order, up to the first that fails.
-/

open ByteMemory RoundUp

namespace BootLoader.Uefi

open Heap

variable {σ : Type} {S : BootServices σ} {F : FileServices σ} {regions : σ → Set Region}
  {holds : σ → Nat → Option (List Byte)} {list : List Byte} {m m' m'' : Machine σ}
  {imageHandle : Nat}

/-! ## The firmware's files -/

/-- Nothing was handed out or taken back, and what is handed out is as it was. -/
def Quiet (regions : σ → Set Region) (m m' : Machine σ) : Prop :=
  regions m'.fw = regions m.fw ∧ Kept regions m m'

/-- The documented behaviour of the files, `holds` being what is in an open file that nothing has
been read from. The file that is asked for has the list. -/
structure LawfulFiles (S : BootServices σ) (F : FileServices σ) (regions : σ → Set Region)
    (holds : σ → Nat → Option (List Byte)) (list : List Byte) : Prop where
  openProtocol : ∀ m handle protocol attributes,
    Quiet regions m (F.openProtocol m handle protocol attributes).1
  openVolume : ∀ m fs, Quiet regions m (F.openVolume m fs).1
  openFile : ∀ m root m' status file,
    F.openFile m root efiModulesFilePath efiFileModeRead efiFileReadOnly = (m', status, file) →
      Quiet regions m m' ∧ (status = efiSuccess → holds m'.fw file = some list)
  getInfo : ∀ m file m' status size, F.getInfo m file sizeofFileInfo = (m', status, size) →
    Quiet regions m m' ∧ (status = efiSuccess → ∀ content, holds m.fw file = some content →
      size.toNat = content.length ∧ holds m'.fw file = some content)
  allocatePages : ∀ m n file, holds (S.allocatePages m n).1.fw file = holds m.fw file
  /-- A file is read as far as the buffer goes, and only the buffer is written. -/
  read : ∀ m file size ptr m' status n, F.read m file size ptr = (m', status, n) →
    regions m'.fw = regions m.fw ∧
    (∀ r ∈ regions m.fw, (∀ x, r.Has x → x < ptr ∨ ptr + size ≤ x) →
      ∀ x, r.Has x → m'.mem x = m.mem x) ∧
    (status = efiSuccess → ∀ content, holds m.fw file = some content → content.length ≤ size →
      HasBytes m'.mem ptr content)

theorem Quiet.trans (h : Quiet regions m m') (h' : Quiet regions m' m'') : Quiet regions m m'' :=
  ⟨h'.1.trans h.1, h.2.trans h'.2 h'.1.subset⟩

/-- One service after another, as long as none fails. -/
theorem quiet_ite {r : Machine σ × BitVec 32 × Nat}
    {f : Machine σ → Nat → Machine σ × BitVec 32 × Nat} (h : Quiet regions m r.1)
    (hf : ∀ s x, Quiet regions s (f s x).1) :
    Quiet regions m (if r.2.1 ≠ efiSuccess then (r.1, r.2.1, 0) else f r.1 r.2.2).1 := by
  split_ifs
  · exact h
  · exact h.trans (hf _ _)

theorem LawfulFiles.blEfiGetBootFs_quiet (h : LawfulFiles S F regions holds list)
    (imageHandle : Nat) (m : Machine σ) :
    Quiet regions m (blEfiGetBootFs F imageHandle m).1 :=
  quiet_ite (h.openProtocol _ _ _ _) fun _ _ =>
    quiet_ite (h.openProtocol _ _ _ _) fun _ _ => h.openVolume _ _

theorem LawfulFiles.blEfiGetFile_spec (h : LawfulFiles S F regions holds list)
    (imageHandle : Nat) (m : Machine σ) :
    Quiet regions m (blEfiGetFile F imageHandle efiModulesFilePath m).1 ∧
      ((blEfiGetFile F imageHandle efiModulesFilePath m).2.1 = efiSuccess →
        holds (blEfiGetFile F imageHandle efiModulesFilePath m).1.fw
          (blEfiGetFile F imageHandle efiModulesFilePath m).2.2 = some list) := by
  have hboot := h.blEfiGetBootFs_quiet imageHandle m
  unfold blEfiGetFile
  dsimp only
  split_ifs with hfail
  · exact ⟨hboot, fun hok => absurd hok hfail⟩
  · obtain ⟨hopen, hholds⟩ := h.openFile (blEfiGetBootFs F imageHandle m).1
      (blEfiGetBootFs F imageHandle m).2.2 _ _ _ rfl
    exact ⟨hboot.trans hopen, hholds⟩

theorem LawfulFiles.holds_alloc (h : LawfulFiles S F regions holds list) (hS : Lawful S regions)
    (m : Machine σ) (sz file : Nat) :
    holds (blHeapAllocAlign S m sz 0x1000).1.fw file = holds m.fw file := by
  have hpages := h.allocatePages m (blMemoryAlignUp sz 0x1000 / 0x1000) file
  unfold blHeapAllocAlign
  simp only [show (if 0x1000 = 0 then 1 else 0x1000) = 0x1000 from rfl]
  rw [if_neg (by decide), if_neg (by decide)]
  split_ifs
  · exact hpages
  · rw [(hS.setMem _ _ _ _).1]
    exact hpages

/-- The pages that a file of this length is read to. -/
def pagesAt (ptr : Nat) (list : List Byte) : Region := ⟨.pages, ptr, roundUp list.length 0x1000⟩

/-- Nothing was taken back, and what is handed out is as it was. -/
def Holding (regions : σ → Set Region) (m m' : Machine σ) : Prop :=
  regions m.fw ⊆ regions m'.fw ∧ Kept regions m m'

/-- The list stands in pages of its own. -/
structure ListAt (regions : σ → Set Region) (list : List Byte) (m m' : Machine σ) (ptr : Nat) :
    Prop where
  new : pagesAt ptr list ∉ regions m.fw
  books : regions m'.fw = insert (pagesAt ptr list) (regions m.fw)
  bytes : HasBytes m'.mem ptr list
  inSpace : ptr + list.length ≤ 2 ^ 32

theorem Quiet.holding (h : Quiet regions m m') (h' : Holding regions m' m'') :
    Holding regions m m'' :=
  ⟨h.1.superset.trans h'.1, fun r hr hr'' x hx =>
    (h'.2 r (h.1.superset hr) hr'' x hx).trans (h.2 r hr (h.1.superset hr) x hx)⟩

/-- The list is read to pages that have just been handed out. -/
theorem LawfulFiles.read_spec (h : LawfulFiles S F regions holds list) (hS : Lawful S regions)
    {file ptr n : Nat} {status : BitVec 32} (hserved : Served regions m m' (pagesAt ptr list))
    (hfile : holds m'.fw file = some list)
    (hread : F.read m' file list.length ptr = (m'', status, n)) :
    Holding regions m m'' ∧ (status = efiSuccess → ListAt regions list m m'' ptr) := by
  obtain ⟨hbooks, hothers, hcontent⟩ := h.read _ _ _ _ _ _ _ hread
  have hin : pagesAt ptr list ∈ regions m'.fw := hserved.books ▸ Set.mem_insert _ _
  have hsub : regions m.fw ⊆ regions m'.fw := hserved.books ▸ Set.subset_insert _ _
  have hlong : list.length ≤ roundUp list.length 0x1000 := le_roundUp (by decide)
  refine ⟨⟨hsub.trans hbooks.superset, fun r hr _ x hx => ?_⟩, fun hok => ?_⟩
  · have hne : r ≠ pagesAt ptr list := fun heq => hserved.new (heq ▸ hr)
    have hapart := hS.apart _ r (hsub hr) _ hin hne
    refine (hothers r (hsub hr) (fun y hy => ?_) x hx).trans (hserved.kept r hr (hsub hr) x hx)
    have hnot := hapart.not_has hy
    simp only [pagesAt, Region.Has] at hnot
    omega
  · refine ⟨hserved.new, hbooks.trans hserved.books, hcontent hok list hfile le_rfl, ?_⟩
    have hspace := (hS.inSpace _ _ hin).2
    simp only [pagesAt, Region.stop] at hspace
    omega

theorem LawfulFiles.blEfiReadFile_spec (h : LawfulFiles S F regions holds list)
    (hS : Lawful S regions) {file : Nat} (hfile : holds m.fw file = some list)
    (hpos : 0 < list.length) (hsize : list.length ≤ 2 ^ 32 - 0x1000) :
    Holding regions m (blEfiReadFile S F file 0 m).1 ∧
      ((blEfiReadFile S F file 0 m).2.1 = efiSuccess → (blEfiReadFile S F file 0 m).2.2 ≠ 0 →
        ListAt regions list m (blEfiReadFile S F file 0 m).1 (blEfiReadFile S F file 0 m).2.2) := by
  obtain ⟨hquiet, hinfo⟩ := h.getInfo m file _ _ _ rfl
  unfold blEfiReadFile
  dsimp only
  by_cases hok : (F.getInfo m file sizeofFileInfo).2.1 = efiSuccess
  swap
  · rw [if_pos hok]
    exact ⟨⟨hquiet.1.superset, hquiet.2⟩, fun hok' => absurd hok' hok⟩
  rw [if_neg (not_not.mpr hok)]
  obtain ⟨hlength, hfile₁⟩ := hinfo hok list hfile
  have hcount : Countable list.length 0x1000 := .inr ⟨hpos, hsize⟩
  rw [hlength, Nat.mod_eq_of_lt (by omega)]
  have hfile₂ := (h.holds_alloc hS _ list.length file).trans hfile₁
  rcases blHeapAllocAlign_spec hS (F.getInfo m file sizeofFileInfo).1 hcount with
    ⟨hnull, hbooks, hkept⟩ | ⟨-, hserved⟩
  · rw [if_pos hnull]
    exact ⟨hquiet.holding ⟨hbooks.superset, hkept⟩, fun _ hne => absurd rfl hne⟩
  have hne : (blHeapAllocAlign S (F.getInfo m file sizeofFileInfo).1 list.length 0x1000).2 ≠ 0 :=
    Nat.pos_iff_ne_zero.mp (hS.inSpace _ _ (hserved.books.symm.subset (Set.mem_insert _ _))).1
  rw [if_neg hne]
  obtain ⟨hholding, hread⟩ := h.read_spec hS hserved hfile₂ rfl
  split_ifs with hfail
  · exact ⟨hquiet.holding hholding, fun hok' => absurd hok' hfail⟩
  · have hlist := hread (not_not.mp hfail)
    exact ⟨hquiet.holding hholding, fun _ _ =>
      ⟨hquiet.1 ▸ hlist.new, hquiet.1 ▸ hlist.books, hlist.bytes, hlist.inSpace⟩⟩

/-! ## The whole start -/

/-- The file that the list was to be read from, once it is open. -/
def opened (F : FileServices σ) (imageHandle : Nat) (m : Machine σ) : Machine σ × BitVec 32 × Nat :=
  blEfiGetFile F imageHandle efiModulesFilePath m

def listRead (S : BootServices σ) (F : FileServices σ) (imageHandle : Nat) (m : Machine σ) :
    Machine σ × BitVec 32 × Nat :=
  blEfiReadFile S F (opened F imageHandle m).2.2 0 (opened F imageHandle m).1

/-- A service failed before the list was there, or there was no room for it. -/
def Refused (S : BootServices σ) (F : FileServices σ) (imageHandle : Nat) (m : Machine σ) : Prop :=
  (opened F imageHandle m).2.1 ≠ efiSuccess ∨ (listRead S F imageHandle m).2.1 ≠ efiSuccess ∨
    (listRead S F imageHandle m).2.2 = 0

/-- The modules were loaded one after another from `m'` on, and if all were, the setup followed. -/
structure Started (load : Loader.ElfLoad (Machine σ)) (setup : Machine σ → Machine σ × BlStatus)
    (mods : List (List Byte)) (m' : Machine σ) (out : Loader.Machine (Machine σ) × BitVec 32) :
    Prop where
  presented : out.1.presented = (Loader.loadFiles load mods m').1
  rest : out.1.rest = if (Loader.loadFiles load mods m').2.2 = .success
    then (setup (Loader.loadFiles load mods m').2.1).1 else (Loader.loadFiles load mods m').2.1
  status : out.2 = if (Loader.loadFiles load mods m').2.2 = .success ∧
      (setup (Loader.loadFiles load mods m').2.1).2 = .success
    then efiSuccess else efiLoadError

variable {load : Loader.ElfLoad (Machine σ)} {setup : Machine σ → Machine σ × BlStatus}
  {mods : List (List Byte)} {ptr : Nat}

theorem blInit_null (s : Loader.Machine (Machine σ)) :
    blInit load setup 0 s = (s, .invalidModuleList) := by
  rw [blInit, Loader.blLoaderInit, if_pos (.inl rfl)]
  rfl

theorem blInit_started (hlist : Loader.modulesList mods = some list) (hcount : mods.length < 2 ^ 31)
    (htotal : (mods.map List.length).sum < 2 ^ 31) (hptr : ptr ≠ 0)
    (hbytes : HasBytes m'.mem ptr list) (hfits : ptr + list.length ≤ 2 ^ 32) :
    Started load setup mods m' ((blInit load setup ptr ⟨m'.mem, m', []⟩).1,
      if (blInit load setup ptr ⟨m'.mem, m', []⟩).2 ≠ .success then efiLoadError
      else efiSuccess) := by
  obtain ⟨image, himage, hload⟩ := (Loader.blLoaderInit_round_trip load hptr).1 mods hcount htotal
  obtain rfl := Option.some.inj (hlist.symm.trans himage)
  obtain ⟨hpresented, hrest, hstatus⟩ := hload ⟨m'.mem, m', []⟩ hbytes hfits
  dsimp only at hpresented hrest hstatus
  by_cases hok : (Loader.loadFiles load mods m').2.2 = .success
  · have hinit : blInit load setup ptr ⟨m'.mem, m', []⟩ =
        ({ (Loader.blLoaderInit load ptr ⟨m'.mem, m', []⟩).1 with
            rest := (setup (Loader.loadFiles load mods m').2.1).1 },
          (setup (Loader.loadFiles load mods m').2.1).2) := by
      rw [← hrest]
      exact if_neg (not_not.mpr (hstatus.trans hok))
    rw [hinit]
    refine ⟨hpresented, (if_pos hok).symm, ?_⟩
    simp only [hok, true_and, ne_eq, ite_not]
  · have hinit : blInit load setup ptr ⟨m'.mem, m', []⟩ =
        Loader.blLoaderInit load ptr ⟨m'.mem, m', []⟩ := by
      refine (if_pos fun hsuccess => hok (hstatus.symm.trans hsuccess)).trans ?_
      rfl
    rw [hinit]
    refine ⟨hpresented, hrest.trans (if_neg hok).symm, ?_⟩
    simp only [hstatus, hok, false_and, ne_eq, not_false_eq_true, if_true, if_false]

theorem packed_pos (hlist : Loader.modulesList mods = some list) (hcount : mods.length < 2 ^ 31)
    (htotal : (mods.map List.length).sum < 2 ^ 31) : 0 < list.length := by
  obtain rfl := Option.some.inj (hlist.symm.trans (Loader.modulesList_eq hcount htotal))
  simp only [Loader.encodeList, List.length_append, length_bytesLE]
  omega

/-- A volume whose one file is this. -/
def oneFile (list : List Byte) : FileServices Bump where
  openProtocol m handle _ _ := (m, efiSuccess, handle)
  openVolume m fs := (m, efiSuccess, fs)
  openFile m root _ _ _ := (m, efiSuccess, root)
  getInfo m _ _ := (m, efiSuccess, BitVec.ofNat 64 list.length)
  read m _ size ptr :=
    ({ m with mem := fun x =>
        if ptr ≤ x ∧ x < ptr + size ∧ x < ptr + list.length then list.getD (x - ptr) 0
        else m.mem x },
      efiSuccess, min size list.length)

theorem oneFile_lawful (hlist : list.length < 2 ^ 64) :
    LawfulFiles bumpServices (oneFile list) Bump.books (fun _ _ => some list) list where
  openProtocol _ _ _ _ := ⟨rfl, fun _ _ _ _ _ => rfl⟩
  openVolume _ _ := ⟨rfl, fun _ _ _ _ _ => rfl⟩
  openFile m root m' status file hrun := by
    cases hrun
    exact ⟨⟨rfl, fun _ _ _ _ _ => rfl⟩, fun _ => rfl⟩
  getInfo m file m' status size hrun := by
    cases hrun
    refine ⟨⟨rfl, fun _ _ _ _ _ => rfl⟩, fun _ content hcontent => ?_⟩
    obtain rfl := Option.some.inj hcontent
    exact ⟨by rw [BitVec.toNat_ofNat, Nat.mod_eq_of_lt hlist], rfl⟩
  allocatePages _ _ _ := rfl
  read m file size ptr m' status n hrun := by
    cases hrun
    refine ⟨rfl, fun r _ hout x hx => if_neg ?_, fun _ content hcontent hlong => ?_⟩
    · have hx' := hout x hx
      omega
    · obtain rfl := Option.some.inj hcontent
      refine hasBytes_iff.mpr fun k hk => ?_
      dsimp only
      rw [if_pos (by omega), Nat.add_sub_cancel_left, List.getD_eq_getElem _ _ hk]

def loadNothing : Loader.ElfLoad (Machine Bump) := fun buf rest => (ofBytes buf, rest, .success)

def setupNothing : Machine Bump → Machine Bump × BlStatus := fun rest => (rest, .success)

/-- Two modules. -/
def packed : List Byte := (Loader.modulesList [[1], [2, 3]]).getD []

end BootLoader.Uefi

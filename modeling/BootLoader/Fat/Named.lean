import BootLoader.Fat.Directory
import BootLoader.Utils.Compare

/-!
# Which entry a lookup decides on

The first one that has the name, the format says; the code also stops at others.
-/

open ByteMemory

namespace BootLoader.Fat

open Driver

variable {env : Env} {read : GenericRead} {filename : List Byte} {directory : Bool}
  {world : World} {it : BlFatIterator} {es : List BlFatDirEntry} {fatType : FatType} {fuel n : Nat}

/-! ## What the format says -/

/-- A volume label, or a part of a long name. -/
def isVolume (entry : BlFatDirEntry) : Bool := attributes entry &&& blFatDirEntryAttrVolume ≠ 0

def isDirectory (entry : BlFatDirEntry) : Bool := attributes entry &&& blFatDirEntryAttrDir ≠ 0

/-- The mark of a deleted entry. -/
def isDeleted (entry : BlFatDirEntry) : Bool := entry 0 = 0xe5

/-- The entry has the name, upper and lower case being the same. -/
def Named (filename : List Byte) (entry : BlFatDirEntry) : Bool :=
  !isVolume entry ∧ !isDeleted entry ∧ (shortName entry).map blTolower = filename.map blTolower

/-- All of the start cluster; FAT32 has its upper half apart. -/
def startCluster (fatType : FatType) (entry : BlFatDirEntry) : BitVec 32 :=
  if fatType = .fat32 then startHigh entry ++ start entry else (start entry).setWidth 32

/-- What a lookup should come to. -/
def Decided (fatType : FatType) (es : List BlFatDirEntry) (filename : List Byte)
    (directory : Bool) (status : BlStatus) (fdata : Option BlFatFileData) : Prop :=
  match es.find? (Named filename) with
  | none => status ≠ .success ∧ fdata = none
  | some entry =>
    if isDirectory entry ∨ directory = false then
      status = .success ∧ ∃ data, fdata = some data ∧ data.cluster = startCluster fatType entry
    else status = .invalidFileType

/-! ## What the code stops at -/

/-- The entries, each with what was before in the block that its name is put into. -/
def withStale (bytes : Nat → Mem) : Nat → List BlFatDirEntry → List (BlFatDirEntry × Mem)
  | _, [] => []
  | next, entry :: es =>
    (entry, bytes next) :: withStale bytes (if isVolume entry then next else next + 1) es

def entryType (entry : BlFatDirEntry) : BlFileType :=
  if isVolume entry then .unknown else if isDirectory entry then .directory else .regular

/-- The entry is refused before its name is looked at. -/
def refused (directory : Bool) (entry : BlFatDirEntry) : Bool :=
  directory ∧ entryType entry ≠ .directory

/-- The bytes of the name, and those behind them up to a zero, are the name looked for. -/
def readsAs (filename : List Byte) (entry : BlFatDirEntry) (stale : Mem) : Bool :=
  !isVolume entry ∧ blStrcasecmp (fun k => (shortName entry).getD k (stale k)) filename = 0

def stopsAt (filename : List Byte) (directory : Bool) (p : BlFatDirEntry × Mem) : Bool :=
  refused directory p.1 || readsAs filename p.1 p.2

/-- What comes of the entry that the loop stops at. -/
def stopped (directory : Bool) : Option (BlFatDirEntry × Mem) → BlStatus × Option BlFatFileData
  | none => (.success, none)
  | some p =>
    if refused directory p.1 then (.invalidFileType, none)
    else (.success, some ⟨0, (start p.1).setWidth 32⟩)

/-- The directory has these entries from the number `n` on, and then the mark of its end. -/
def Delivers (read : GenericRead) : Nat → List BlFatDirEntry → Prop
  | n, [] => ∃ entry, read (n * 32) = (.success, entry) ∧ entry 0 = blFatAvailableEntryFlag
  | n, entry :: es => read (n * 32) = (.success, entry) ∧ entry 0 ≠ blFatAvailableEntryFlag ∧
      Delivers read (n + 1) es

/-! ## The comparison -/

theorem toInt_blTolower (c : Byte) : (blTolower c).toInt = Utils.Compare.blTolower c.toInt := by
  revert c
  decide

theorem blTolower_eq_iff (c d : Byte) : blTolower c = blTolower d ↔
    Utils.Compare.blTolower c.toInt = Utils.Compare.blTolower d.toInt := by
  rw [← toInt_blTolower, ← toInt_blTolower, BitVec.toInt_inj]

theorem strcasecmpFrom_listed (m : Mem) (p : Nat) :
    Utils.Compare.Listed Utils.Compare.blTolower m p
      (strcasecmpFrom fun k => m ((p + k) % 2 ^ 32)) where
  nil _ := rfl
  cons c s i := by simp only [strcasecmpFrom, blTolower_eq_iff]

/-- The call returns what the comparison of the two pointers does. -/
theorem blStrcasecmp_compared {m : Mem} {p : Nat} (hp : p ≠ 0) (hlt : p < 2 ^ 32)
    (a : Utils.Compare.CString m) :
    (Utils.Compare.blStrcasecmp m p a.ptr).map Utils.Compare.Compared.result =
      some (blStrcasecmp (fun k => m ((p + k) % 2 ^ 32)) a.text) :=
  (strcasecmpFrom_listed m p).compareStrings_eq hp hlt a

/-! ## The loop -/

theorem freeFilename_same (world : World) (it : BlFatIterator) :
    (freeFilename world it).next = world.next ∧ (freeFilename world it).bytes = world.bytes ∧
      (freeFilename world it).allocs = world.allocs := by
  unfold freeFilename
  cases it.filename with
  | none => exact ⟨rfl, rfl, rfl⟩
  | some filename => exact ⟨rfl, rfl, rfl⟩

/-- The world behind an entry: a name has taken a block, a volume entry has none. -/
structure NameTaken (world world' : World) (entry : BlFatDirEntry) : Prop where
  bytes : world'.bytes = world.bytes
  next : world'.next = world.next + if isVolume entry then 0 else 1
  allocs : world'.allocs = world.allocs + if isVolume entry then 0 else 1

theorem blFatIteratorNext_entry (filename : List Byte) (world : World) {entry : BlFatDirEntry}
    (halloc : isVolume entry = false → env.allocs world.allocs = true)
    (hread : read ((it.entry - 1) * 32) = (.success, entry))
    (hentry : entry 0 ≠ blFatAvailableEntryFlag) (hempty : it.empty = false) :
    ∃ world' it', blFatIteratorNext env read world it = (world', it', .success) ∧
      it'.type = entryType entry ∧ it'.empty = false ∧ it'.entry = it.entry + 1 ∧
      it'.cluster = (start entry).setWidth 32 ∧ NameTaken world world' entry ∧
      (isVolume entry = false → namesFile it' filename = readsAs filename entry
        (world.bytes world.next)) := by
  obtain ⟨hnext, hbytes, hallocs⟩ := freeFilename_same world it
  unfold blFatIteratorNext
  rw [hread]
  simp only [ne_eq, not_true_eq_false, if_false, hentry]
  cases hvolume : isVolume entry with
  | true =>
    have hattr : ¬attributes entry &&& blFatDirEntryAttrVolume = 0 := by
      simpa [isVolume] using hvolume
    rw [if_neg hattr]
    exact ⟨_, _, rfl, by simp [entryType, hvolume], hempty, rfl, rfl,
      ⟨rfl, by simp [hvolume], by simp [hvolume]⟩, by simp⟩
  | false =>
    have hattr : attributes entry &&& blFatDirEntryAttrVolume = 0 := by
      simpa [isVolume] using hvolume
    have hserved : env.allocs (freeFilename world it).allocs = true := by
      rw [hallocs]
      exact halloc hvolume
    have hblock : (freeFilename world it).alloc env =
        (((freeFilename world it).alloc env).1, some world.next) := by
      rw [World.alloc, if_pos hserved, hnext]
    have hworld : NameTaken world ((freeFilename world it).alloc env).1 entry := by
      rw [World.alloc, if_pos hserved]
      exact ⟨hbytes, by simp [hvolume, hnext], by simp [hvolume, hallocs]⟩
    rw [if_pos hattr, blFatShortNameToRegularName, hblock]
    dsimp only
    refine ⟨_, _, rfl, ?_, hempty, rfl, rfl, hworld, fun _ => ?_⟩
    · simp [entryType, hvolume, isDirectory]
    · rw [namesFile, readsAs, hvolume, hworld.bytes]
      simp

theorem newNode_served (hallocs : ∀ k, env.allocs k = true) (cluster : BitVec 32)
    (world : World) : ∃ world' node, newNode env cluster world = (world', .success, some node) ∧
      node.fdata = ⟨0, cluster⟩ := by
  unfold newNode World.alloc
  rw [if_pos (hallocs _)]
  dsimp only
  rw [if_pos (hallocs _)]
  exact ⟨_, _, rfl, rfl⟩

theorem readsAs_type {entry : BlFatDirEntry} {stale : Mem}
    (h : readsAs filename entry stale = true) :
    isVolume entry = false ∧ entryType entry ≠ .unknown := by
  have hvolume : isVolume entry = false := by
    simp only [readsAs, decide_eq_true_eq] at h
    simpa using h.1
  refine ⟨hvolume, ?_⟩
  rw [entryType, hvolume]
  cases isDirectory entry <;> simp

theorem refused_iff (directory : Bool) (entry : BlFatDirEntry) :
    refused directory entry = true ↔ directory = true ∧ entryType entry ≠ .directory := by
  simp [refused]

/-- The loop at one entry: it is left, with the entry or without, or goes on with the next. -/
theorem iterateFrom_entry (filename : List Byte) (directory : Bool) (fuel : Nat) (world : World)
    {entry : BlFatDirEntry} (halloc : isVolume entry = false → env.allocs world.allocs = true)
    (hread : read ((it.entry - 1) * 32) = (.success, entry))
    (hentry : entry 0 ≠ blFatAvailableEntryFlag) (hempty : it.empty = false) :
    ∃ world' it', it'.empty = false ∧ it'.entry = it.entry + 1 ∧
      it'.cluster = (start entry).setWidth 32 ∧ NameTaken world world' entry ∧
      iterateFrom env read filename directory (fuel + 1) world it =
        if refused directory entry then some (world', it', .invalidFileType, none)
        else if readsAs filename entry (world.bytes world.next) then
          some ((newNode env it'.cluster world').1, it', (newNode env it'.cluster world').2)
        else iterateFrom env read filename directory fuel world' it' := by
  obtain ⟨world', it', hnext, htype, hempty', hentry', hcluster, hworld, hname⟩ :=
    blFatIteratorNext_entry filename world halloc hread hentry hempty
  refine ⟨world', it', hempty', hentry', hcluster, hworld, ?_⟩
  rw [iterateFrom, hnext]
  simp only [hempty', Bool.false_eq_true, if_false, ne_eq, not_true_eq_false, htype]
  by_cases hrefused : refused directory entry = true
  · rw [if_pos ((refused_iff directory entry).mp hrefused), if_pos hrefused]
  · rw [if_neg (mt (refused_iff directory entry).mpr hrefused), if_neg hrefused]
    cases hreads : readsAs filename entry (world.bytes world.next) with
    | true =>
      obtain ⟨hvolume, hknown⟩ := readsAs_type hreads
      rw [if_pos ⟨hknown, (hname hvolume).trans hreads⟩]
      rfl
    | false =>
      have hgo : ¬(¬entryType entry = .unknown ∧ namesFile it' filename = true) := by
        rintro ⟨hknown, hnames⟩
        cases hvolume : isVolume entry with
        | true => exact hknown (by simp [entryType, hvolume])
        | false =>
          rw [hname hvolume, hreads] at hnames
          contradiction
      rw [if_neg hgo]
      rfl

theorem iterateFrom_eq (filename : List Byte) (directory : Bool) (world : World)
    (it : BlFatIterator) (hallocs : ∀ k, env.allocs k = true)
    (hread : Delivers read (it.entry - 1) es) (hentry : 1 ≤ it.entry) (hempty : it.empty = false)
    (hfuel : es.length < fuel) :
    ∃ out, iterateFrom env read filename directory fuel world it = some out ∧
      (out.2.2.1, out.2.2.2.map Node.fdata) =
        stopped directory ((withStale world.bytes world.next es).find?
          (stopsAt filename directory)) := by
  induction es generalizing fuel world it with
  | nil =>
    obtain ⟨fuel, rfl⟩ : ∃ fuel', fuel = fuel' + 1 := ⟨fuel - 1, by omega⟩
    obtain ⟨entry, hend, hmark⟩ := hread
    have hnext : blFatIteratorNext env read world it =
        (world, { it with empty := true }, .success) := by
      simp [blFatIteratorNext, hend, hmark]
    refine ⟨(world, { it with empty := true }, .success, none), ?_, rfl⟩
    rw [iterateFrom, hnext]
    rfl
  | cons entry es ih =>
    obtain ⟨fuel, rfl⟩ : ∃ fuel', fuel = fuel' + 1 := ⟨fuel - 1, by omega⟩
    obtain ⟨hhead, hne, hrest⟩ := hread
    obtain ⟨world', it', hempty', hentry', hcluster, hworld, hstep⟩ :=
      iterateFrom_entry filename directory fuel world (fun _ => hallocs _) hhead hne hempty
    rw [hstep, withStale, List.find?_cons]
    by_cases hrefused : refused directory entry = true
    · have hstops : stopsAt filename directory (entry, world.bytes world.next) = true := by
        simp [stopsAt, hrefused]
      rw [if_pos hrefused, hstops]
      exact ⟨_, rfl, by simp [stopped, hrefused]⟩
    · rw [if_neg hrefused]
      cases hreads : readsAs filename entry (world.bytes world.next) with
      | true =>
        have hstops : stopsAt filename directory (entry, world.bytes world.next) = true := by
          simp [stopsAt, hreads]
        obtain ⟨world'', node, hnode, hfdata⟩ := newNode_served hallocs it'.cluster world'
        rw [if_pos rfl, hstops, hnode]
        exact ⟨_, rfl, by simp [stopped, hrefused, hfdata, hcluster]⟩
      | false =>
        have hstops : stopsAt filename directory (entry, world.bytes world.next) = false := by
          simp [stopsAt, hrefused, hreads]
        have hnext : (if isVolume entry then world.next else world.next + 1) = world'.next := by
          rw [hworld.next]
          split <;> rfl
        rw [if_neg (by simp), hstops, ← hworld.bytes, hnext]
        refine ih world' it' ?_ (by omega) hempty' (Nat.lt_of_succ_lt_succ hfuel)
        rwa [hentry', Nat.add_sub_cancel, show it.entry = it.entry - 1 + 1 by omega]

/-! ## The lookup -/

/-- The entry that the code stops at decides as the one that has the name. -/
def Agrees (fatType : FatType) (es : List BlFatDirEntry) (filename : List Byte)
    (directory : Bool) (stop : Option (BlFatDirEntry × Mem)) : Prop :=
  match es.find? (Named filename), stop with
  | none, some p => refused directory p.1 = true
  | some entry, some p =>
    if isDirectory entry ∨ directory = false then
      refused directory p.1 = false ∧
        (start p.1).setWidth 32 = startCluster fatType entry
    else refused directory p.1 = true
  | _, none => False

theorem decided_iff (stop : Option (BlFatDirEntry × Mem)) :
    Decided fatType es filename directory (stopped directory stop).1 (stopped directory stop).2 ↔
      Agrees fatType es filename directory stop := by
  unfold Decided Agrees
  cases hnamed : es.find? (Named filename) with
  | none =>
    cases stop with
    | none => simp [stopped]
    | some p => cases hrefused : refused directory p.1 <;> simp [stopped, hrefused]
  | some entry =>
    dsimp only
    cases stop with
    | none =>
      by_cases hdir : isDirectory entry = true ∨ directory = false
      · simp only [if_pos hdir, stopped]
        simp
      · simp only [if_neg hdir, stopped]
        simp
    | some p =>
      by_cases hdir : isDirectory entry = true ∨ directory = false
      · simp only [if_pos hdir]
        cases hrefused : refused directory p.1 <;> simp [stopped, hrefused]
      · simp only [if_neg hdir]
        cases hrefused : refused directory p.1 <;> simp [stopped, hrefused]

/-- **When a lookup decides on the right entry**: the first one that the code stops at, because it
reads as the name or, where a directory is asked for, because it is none. -/
theorem blFatIterateDirectoryCallback_decides_iff (fatType : FatType) (uninit : BitVec 32)
    (world : World) (hname : blFatCheckRegularName filename = .success)
    (hallocs : ∀ k, env.allocs k = true) (hread : Delivers read 0 es) (hfuel : es.length < fuel) :
    ∃ world' status node, blFatIterateDirectoryCallback env read filename directory uninit fuel
        world = some (world', status, node) ∧
      (Decided fatType es filename directory status (node.map Node.fdata) ↔
        Agrees fatType es filename directory ((withStale world.bytes world.next es).find?
          (stopsAt filename directory))) := by
  obtain ⟨⟨world', it', status, node⟩, hrun, hout⟩ :=
    iterateFrom_eq filename directory world (blFatIteratorInit uninit) hallocs hread le_rfl rfl
      hfuel
  refine ⟨freeFilename world' it', status, node, ?_, ?_⟩
  · rw [blFatIterateDirectoryCallback, hname]
    simp [hrun]
  · rw [← decided_iff, ← hout]

/-! ## A small directory -/

/-- An entry with a name of eleven bytes, its attributes, and its start cluster. -/
def entryOf (name : List Byte) (attr : Byte) (cluster : Nat) : BlFatDirEntry :=
  ofPieces [(0, name), (0x0b, [attr]), (0x1a, bytesLE 2 cluster)]

def bootName : List Byte := [0x42, 0x4f, 0x4f, 0x54] ++ List.replicate 7 0x20

def bootFilename : List Byte := [0x62, 0x6f, 0x6f, 0x74]

def readOf (es : List BlFatDirEntry) : GenericRead := fun off =>
  (.success, es.getD (off / 32) fun _ => 0)

def bootDirectory : List BlFatDirEntry := [entryOf bootName 0x10 5]

theorem bootDirectory_delivers : Delivers (readOf bootDirectory) 0 bootDirectory :=
  ⟨rfl, by decide, fun _ => 0, rfl, rfl⟩

def zeroWorld : World := ⟨0, fun _ _ => 0, fun _ => false, 0, 0, []⟩

def servedEnv : Env := ⟨fun _ => true, fun _ => .success, fun _ => 0⟩

theorem bootDirectory_decides :
    ∃ world' status node, blFatIterateDirectoryCallback servedEnv (readOf bootDirectory)
        bootFilename true 0 2 zeroWorld = some (world', status, node) ∧
      (Decided .fat12 bootDirectory bootFilename true status (node.map Node.fdata) ↔
        Agrees .fat12 bootDirectory bootFilename true
          ((withStale zeroWorld.bytes zeroWorld.next bootDirectory).find?
            (stopsAt bootFilename true))) :=
  blFatIterateDirectoryCallback_decides_iff .fat12 0 zeroWorld (by decide) (fun _ => rfl)
    bootDirectory_delivers (by decide)

/-- The volume label comes before the directory. -/
def labelledDirectory : List BlFatDirEntry :=
  [entryOf (List.replicate 11 0x41) 0x08 0, entryOf bootName 0x10 5]

theorem labelledDirectory_delivers : Delivers (readOf labelledDirectory) 0 labelledDirectory :=
  ⟨rfl, by decide, rfl, by decide, fun _ => 0, rfl, rfl⟩

theorem labelledDirectory_not_decided :
    ¬ ∀ env read es filename directory fatType uninit fuel world,
    blFatCheckRegularName filename = .success → (∀ k, env.allocs k = true) →
    Delivers read 0 es → es.length < fuel →
    ∃ world' status node, blFatIterateDirectoryCallback env read filename directory uninit fuel
        world = some (world', status, node) ∧
      Decided fatType es filename directory status (node.map Node.fdata) := by
  intro h
  obtain ⟨world', status, node, hrun, hdecided⟩ := h servedEnv (readOf labelledDirectory)
    labelledDirectory bootFilename true .fat12 0 3 zeroWorld (by decide) (fun _ => rfl)
    labelledDirectory_delivers (by decide)
  have hstatus : (blFatIterateDirectoryCallback servedEnv (readOf labelledDirectory) bootFilename
      true 0 3 zeroWorld).map (·.2.1) = some .invalidFileType := by decide +kernel
  rw [hrun] at hstatus
  obtain rfl : status = .invalidFileType := Option.some.inj hstatus
  have hfound : (labelledDirectory.find? (Named bootFilename)).map isDirectory = some true := by
    decide +kernel
  obtain ⟨entry, hentry, hdir⟩ := Option.map_eq_some_iff.mp hfound
  rw [Decided, hentry] at hdecided
  simp [hdir] at hdecided

end BootLoader.Fat

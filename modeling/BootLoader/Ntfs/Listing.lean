import BootLoader.Ntfs.Blocks
import BootLoader.Ntfs.Open
import BootLoader.Ntfs.Times

/-!
# Listing a directory (`bl_ntfs_ls` of `modules/fs/ntfs/ntfs.c`)

The walk goes down to the first child that it meets and ends there: what comes behind the child is
not listed, and the child's record is not freed.
-/

open ByteMemory SearchTree

namespace BootLoader.Ntfs

open Driver Utils Video

/-! ## The text of an entry -/

/-- A character 0 ends its string, and nothing is printed of it. -/
def blNtfsPrintFilename (m : Mem) (filename : Nat) : List Byte :=
  (List.range (m (filename + 64)).toNat).flatMap fun i =>
    if filenameChar m filename i = 0 then [] else [filenameChar m filename i]

/-- `filename->flags` has one of the flags. -/
def hasFlag (m : Mem) (filename : Nat) (flag : BitVec 32) : Bool :=
  BitVec.ofNat 32 (read32 m (filename + 56)) &&& flag ≠ 0

def blNtfsDumpFileType (m : Mem) (filename : Nat) : List Byte :=
  (if hasFlag m filename 0x00000004 then textOf " SYSTEM " else []) ++
  (if hasFlag m filename 0x00000020 then textOf " ARCHIVE " else []) ++
  (if hasFlag m filename 0x00000800 then textOf " COMPRESSED " else []) ++
  (if hasFlag m filename 0x00004000 then textOf " ENCRYPTED " else []) ++
  (if hasFlag m filename 0x10000000 then textOf " DIRECTORY " else [])

def blNtfsDumpFileInfo (m : Mem) (filename : Nat) : Option (List Byte) :=
  (blNtfsDumpFileTime (BitVec.ofNat 64 (read64 m (filename + 8)))).map fun time =>
    textOf "[-] " ++ blNtfsPrintFilename m filename ++ blNtfsDumpFileType m filename ++
      textOf "C: " ++ time ++ textOf "\n"

/-- A call of `bl_ntfs_dump_file_info`: the record that the name is in, and its place there. -/
structure Dumped where
  record : Mem
  filename : Nat

/-- What the calls print, one after the other. -/
def dumpedText : List Dumped → Option (List Byte)
  | [] => some []
  | d :: rest =>
    (blNtfsDumpFileInfo d.record d.filename).bind fun text =>
      (dumpedText rest).map (text ++ ·)

/-! ## The walk -/

/-- `bl_ntfs_b_tree_recursion`. In a call `index` is set once, before the call returns, so that
`temp` is always null. -/
def blNtfsBTreeRecursion (env : Env) (info : BlNtfsInfo) (mftDir : Nat) : Nat → World → Ptr →
    Option (World × List Dumped)
  | 0, _, _ => none
  | fuel + 1, w, entry =>
    let m := w.bytes entry.block
    if entryParent m entry.off then
      match blNtfsReadChildNode env info fuel w entry mftDir with
      | none => none
      | some (w, none) => some (w, [])
      | some (w, some index) =>
        blNtfsBTreeRecursion env info mftDir fuel w
          ⟨index, blNtfsIallocGetFirstEntry (w.bytes index) 0⟩
    else if entryLast m entry.off then some (w, [])
    else
      (blNtfsBTreeRecursion env info mftDir fuel w
        ⟨entry.block, blNtfsGetNextEntry m entry.off⟩).map fun (w, dumped) =>
          (w, ⟨m, entryFilename entry.off⟩ :: dumped)

/-- What `bl_ntfs_ls` does: the calls that print, and their text. -/
structure Listing where
  world : World
  status : BlStatus
  dumped : List Dumped
  text : List Byte

/-- A null pointer is not read through. -/
def blNtfsLs (env : Env) (fuel : Nat) (w : World) : Option BlNtfsFileData → Option Listing
  | none => some ⟨w, .invalidParameters, [], []⟩
  | some fdata =>
    let calls : Option (World × List Dumped) :=
      if fdata.dir then
        fdata.iroot.bind fun iroot =>
          blNtfsBTreeRecursion env fdata.info fdata.mftRecord fuel w
            ⟨iroot.block, blNtfsIrootGetFirstEntry (w.bytes iroot.block) iroot.off⟩
      else
        (blNtfsGetMftRecordAttribute env fdata.info fuel w fdata.mftRecord blNtfsAttrFileName
          none).bind fun (w, filename) =>
            filename.map fun filename => (w, [⟨w.bytes filename.block, filename.off⟩])
    calls.bind fun (w, dumped) =>
      (dumpedText dumped).map fun text => ⟨w, .success, dumped, text⟩

/-! ## A well-formed directory -/

/-- `tree` is in the index root and, from there on, in the records of `$INDEX_ALLOCATION`, which are
where the run list says. -/
structure DirectoryTree {κ : Type*} [LinearOrder κ] (env : Env) (w : World)
    (fdata : BlNtfsFileData) (iroot : Ptr) (key : List Nat → κ) (skipped attr : Nat)
    (runs : List DataRun) (tree : IndexNode) : Prop where
  dir : fdata.dir = true
  iroot_eq : fdata.iroot = some iroot
  handedOut : fdata.mftRecord < w.next ∧ fdata.info.iroot.block < w.next
  recordSize : 28 ≤ indexRecordSize w fdata.info
  root : Denotes (indexRecordSize w fdata.info) (allocationRecord env fdata.info runs) tree
    (w.bytes iroot.block) fdata.info.mftRecordSize
    (blNtfsIrootGetFirstEntry (w.bytes iroot.block) iroot.off)
  allocation : ∀ vcn ∈ tree.labels, ChildReadable env w fdata skipped attr runs vcn
  ordered : tree.Ordered fun e => key e.name

def Dumped.entry (d : Dumped) : DirEntry := entryAt d.record (d.filename - 16)

/-- Every entry is dumped once, in the order of the tree, and no index record is left behind. -/
def ListedRight (env : Env) (fuel : Nat) (w : World) (fdata : BlNtfsFileData) (tree : IndexNode) :
    Prop :=
  ∃ listing, blNtfsLs env fuel w (some fdata) = some listing ∧ listing.status = .success ∧
    listing.dumped.map Dumped.entry = tree.entries ∧
    dumpedText listing.dumped = some listing.text ∧ AllFreed w listing.world

/-! ## The walk of a tree -/

variable {κ : Type*} [LinearOrder κ] {env : Env} {fdata : BlNtfsFileData} {w₀ w w' : World}
  {held : List Nat} {skipped attr size fuel : Nat} {runs : List DataRun} {key : List Nat → κ}
  {tree : IndexNode} {entry iroot : Ptr}

/-- What a walk leaves: all entries of a node without children, and the records of children. -/
structure Walked (w₀ w' : World) (held : List Nat) (tree : IndexNode) (dumped : List Dumped)
    (left : List Nat) : Prop where
  ledger : Ledger w₀ w' (left ++ held)
  listed : tree.labels = [] → dumped.map Dumped.entry = tree.entries
  left_iff : left = [] ↔ tree.labels = []

/-- The record of the child that the walk ends in is left too. -/
theorem Walked.of_child {child : IndexNode} {dumped : List Dumped} {left : List Nat} {b : Nat}
    (h : Walked w₀ w' (b :: held) child dumped left) (hlabels : tree.labels ≠ []) :
    Walked w₀ w' held tree dumped (left ++ [b]) where
  ledger := by
    rw [List.append_assoc, List.singleton_append]
    exact h.ledger
  listed hnone := absurd hnone hlabels
  left_iff := iff_of_false (by simp) hlabels

/-- The walk from `entry` on comes to an end, and leaves what a walk of `tree` leaves. -/
def WalkEnds (env : Env) (fdata : BlNtfsFileData) (w₀ : World) (held : List Nat)
    (tree : IndexNode) (fuel : Nat) (w : World) (entry : Ptr) : Prop :=
  ∃ w' dumped left, blNtfsBTreeRecursion env fdata.info fdata.mftRecord fuel w entry =
    some (w', dumped) ∧ Walked w₀ w' held tree dumped left

theorem walk_child {vcn : BitVec 64} {child : IndexNode} (hs : Serving env w₀ fdata)
    (hext : Extends w₀ w) (hledger : Ledger w₀ w held) (hfuel : skipped < fuel)
    (hreadable : ChildReadable env w₀ fdata skipped attr runs vcn)
    (hparent : entryParent (w.bytes entry.block) entry.off = true)
    (hvcn : blNtfsGetChildVcn (w.bytes entry.block) entry.off = vcn)
    (hindx : blNtfsIndx (allocationRecord env fdata.info runs vcn) = true)
    (hchild : Denotes (indexRecordSize w₀ fdata.info) (allocationRecord env fdata.info runs) child
      (allocationRecord env fdata.info runs vcn) (indexRecordSize w₀ fdata.info)
      (blNtfsIallocGetFirstEntry (allocationRecord env fdata.info runs vcn) 0))
    (hlabels : tree.labels ≠ [])
    (hwalk : ∀ {w₁ : World} {entry₁ : Ptr}, Extends w₀ w₁ → Ledger w₀ w₁ (w.next :: held) →
      Denotes (indexRecordSize w₀ fdata.info) (allocationRecord env fdata.info runs) child
        (w₁.bytes entry₁.block) (indexRecordSize w₀ fdata.info) entry₁.off →
      WalkEnds env fdata w₀ (w.next :: held) child fuel w₁ entry₁) :
    WalkEnds env fdata w₀ held tree (fuel + 1) w entry := by
  obtain ⟨w₁, hread, hext₁, hdenotes⟩ :=
    readChildNode_spec hs hext hfuel hreadable hparent hvcn hindx hchild
  have hbelow : WalkEnds env fdata w₀ (w.next :: held) child fuel w₁
      ⟨w.next, blNtfsIallocGetFirstEntry (w₁.bytes w.next) 0⟩ :=
    hwalk hext₁ (blNtfsReadChildNode_ledger hledger hread) hdenotes
  obtain ⟨w', dumped, left, hrun, hwalked⟩ := hbelow
  refine ⟨w', dumped, left ++ [w.next], ?_, hwalked.of_child hlabels⟩
  rw [blNtfsBTreeRecursion, if_pos hparent, hread]
  exact hrun

theorem walk_spec (hs : Serving env w₀ fdata)
    (hreadable : ∀ vcn ∈ tree.labels, ChildReadable env w₀ fdata skipped attr runs vcn)
    (hext : Extends w₀ w) (hledger : Ledger w₀ w held)
    (hdenotes : Denotes (indexRecordSize w₀ fdata.info) (allocationRecord env fdata.info runs) tree
      (w.bytes entry.block) size entry.off)
    (hfuel : tree.steps + skipped < fuel) : WalkEnds env fdata w₀ held tree fuel w entry := by
  induction tree generalizing w entry size fuel held with
  | leafEnd =>
    obtain ⟨fuel, rfl⟩ : ∃ f, fuel = f + 1 := ⟨fuel - 1, by omega⟩
    obtain ⟨-, hparent, hlast⟩ := hdenotes
    refine ⟨w, [], [], ?_, hledger, fun _ => rfl, by simp [Node.labels]⟩
    simp [blNtfsBTreeRecursion, hparent, hlast]
  | leaf e rest ih =>
    obtain ⟨fuel, rfl⟩ : ∃ f, fuel = f + 1 := ⟨fuel - 1, by omega⟩
    obtain ⟨-, hparent, hlast, he, hrest⟩ := hdenotes
    rw [Node.steps] at hfuel
    have hnext : WalkEnds env fdata w₀ held rest fuel w
        ⟨entry.block, blNtfsGetNextEntry (w.bytes entry.block) entry.off⟩ :=
      ih hreadable hext hledger hrest (by omega)
    obtain ⟨w', dumped, left, hrun, hwalked⟩ := hnext
    refine ⟨w', ⟨w.bytes entry.block, entryFilename entry.off⟩ :: dumped, left, ?_,
      hwalked.ledger, fun hlabels => ?_, hwalked.left_iff⟩
    · simp [blNtfsBTreeRecursion, hparent, hlast, hrun]
    · have hentry : Dumped.entry ⟨w.bytes entry.block, entryFilename entry.off⟩ = e := he
      rw [List.map_cons, hentry, hwalked.listed hlabels, Node.entries]
  | parentEnd vcn child ih =>
    obtain ⟨fuel, rfl⟩ : ∃ f, fuel = f + 1 := ⟨fuel - 1, by omega⟩
    obtain ⟨-, hparent, -, hvcn, hindx, hchild⟩ := hdenotes
    rw [Node.steps] at hfuel
    have hbelow : child.steps + skipped < fuel := by omega
    exact walk_child hs hext hledger (by omega) (hreadable vcn List.mem_cons_self) hparent hvcn
      hindx hchild (by simp [Node.labels]) fun hext' hledger' hdenotes' =>
        ih (fun v hv => hreadable v (List.mem_cons_of_mem _ hv)) hext' hledger' hdenotes' hbelow
  | parent vcn child e rest ihChild ihRest =>
    obtain ⟨fuel, rfl⟩ : ∃ f, fuel = f + 1 := ⟨fuel - 1, by omega⟩
    obtain ⟨-, hparent, -, hvcn, hindx, hchild, -, -⟩ := hdenotes
    rw [Node.steps] at hfuel
    have hbelow : child.steps + skipped < fuel := by omega
    -- the walk ends in the child: the entry itself and the rest are not looked at
    exact walk_child hs hext hledger (by omega) (hreadable vcn List.mem_cons_self) hparent hvcn
      hindx hchild (by simp [Node.labels]) fun hext' hledger' hdenotes' =>
        ihChild (fun v hv => hreadable v (by simp [Node.labels, hv])) hext' hledger' hdenotes'
          hbelow

/-! ## The listing -/

theorem blNtfsDumpFileInfo_isSome (m : Mem) (filename : Nat) :
    ∃ text, blNtfsDumpFileInfo m filename = some text := by
  obtain ⟨t, ht⟩ := exists_instant (BitVec.ofNat 64 (read64 m (filename + 8))).toNat
  obtain ⟨_, _, _, _, _, _, _, hcode⟩ := blNtfsDumpFileTime_eq t ht
  unfold blNtfsDumpFileInfo
  rw [hcode]
  exact ⟨_, rfl⟩

theorem dumpedText_isSome (dumped : List Dumped) : ∃ text, dumpedText dumped = some text := by
  induction dumped with
  | nil => exact ⟨[], rfl⟩
  | cons d rest ih =>
    obtain ⟨text, htext⟩ := blNtfsDumpFileInfo_isSome d.record d.filename
    obtain ⟨more, hmore⟩ := ih
    exact ⟨text ++ more, by simp [dumpedText, htext, hmore]⟩

theorem blNtfsLs_walked (hallocs : ∀ n, env.allocs n = true) (hreads : ∀ n, env.reads n = .success)
    (h : DirectoryTree env w fdata iroot key skipped attr runs tree)
    (hfuel : tree.steps + skipped < fuel) :
    ∃ w' dumped text left, blNtfsLs env fuel w (some fdata) = some ⟨w', .success, dumped, text⟩ ∧
      dumpedText dumped = some text ∧ Walked w w' [] tree dumped left := by
  have hs : Serving env w fdata := ⟨hallocs, hreads, h.handedOut.1, h.handedOut.2, h.recordSize⟩
  have hwalk : WalkEnds env fdata w [] tree fuel w
      ⟨iroot.block, blNtfsIrootGetFirstEntry (w.bytes iroot.block) iroot.off⟩ :=
    walk_spec hs h.allocation (Extends.refl w) (Ledger.start w) h.root hfuel
  obtain ⟨w', dumped, left, hrun, hwalked⟩ := hwalk
  obtain ⟨text, htext⟩ := dumpedText_isSome dumped
  refine ⟨w', dumped, text, left, ?_, htext, hwalked⟩
  simp [blNtfsLs, h.dir, h.iroot_eq, hrun, htext]

theorem labels_of_listedRight (hallocs : ∀ n, env.allocs n = true)
    (hreads : ∀ n, env.reads n = .success)
    (h : DirectoryTree env w fdata iroot key skipped attr runs tree)
    (hfuel : tree.steps + skipped < fuel) (hlisted : ListedRight env fuel w fdata tree) :
    tree.labels = [] := by
  obtain ⟨w', dumped, text, left, hcode, -, hwalked⟩ := blNtfsLs_walked hallocs hreads h hfuel
  obtain ⟨listing, hlisting, -, -, -, hfreed⟩ := hlisted
  obtain rfl := Option.some.inj (hcode.symm.trans hlisting)
  have hledger : Ledger w w' left := by simpa using hwalked.ledger
  exact hwalked.left_iff.mp ((Ledger.allFreed_iff hledger).mp hfreed)

/-- A directory is listed in full, with nothing left behind, exactly when its root has no child. -/
theorem directory_listed_iff (hallocs : ∀ n, env.allocs n = true)
    (hreads : ∀ n, env.reads n = .success)
    (h : DirectoryTree env w fdata iroot key skipped attr runs tree) :
    ∃ enough, ∀ fuel, enough ≤ fuel → (ListedRight env fuel w fdata tree ↔ tree.labels = []) := by
  refine ⟨tree.steps + skipped + 1, fun fuel hfuel => ?_⟩
  constructor
  · exact labels_of_listedRight hallocs hreads h (by omega)
  · intro hlabels
    obtain ⟨w', dumped, text, left, hcode, htext, hwalked⟩ :=
      blNtfsLs_walked hallocs hreads h (show tree.steps + skipped < fuel by omega)
    have hledger : Ledger w w' left := by simpa using hwalked.ledger
    exact ⟨_, hcode, rfl, hwalked.listed hlabels, htext,
      (Ledger.allFreed_iff hledger).mpr (hwalked.left_iff.mpr hlabels)⟩

/-! ## A directory with one child -/

theorem smallDirectory_tree :
    DirectoryTree (smallEnv 101) (smallWorld oneRun) smallDirectory ⟨0, 200⟩ nameKey 0 56 oneRun
      smallTree where
  dir := rfl
  iroot_eq := rfl
  handedOut := by decide
  recordSize := by decide
  root := smallDirectory_one.root
  allocation vcn hvcn :=
    ⟨smallDirectory_one.allocation (List.ne_nil_of_mem hvcn), smallDirectory_located vcn hvcn⟩
  ordered := smallDirectory_one.ordered

theorem smallDirectory_listed_iff : ∃ enough, ∀ fuel, enough ≤ fuel →
    (ListedRight (smallEnv 101) fuel (smallWorld oneRun) smallDirectory smallTree ↔
      smallTree.labels = []) :=
  directory_listed_iff (fun _ => rfl) (fun _ => rfl) smallDirectory_tree

/-- The child's record is not freed. -/
theorem smallDirectory_not_listed :
    ¬ ∀ env w fdata iroot skipped attr runs tree, (∀ n, env.allocs n = true) →
      (∀ n, env.reads n = .success) →
      DirectoryTree env w fdata iroot nameKey skipped attr runs tree →
      ∃ enough, ∀ fuel, enough ≤ fuel → ListedRight env fuel w fdata tree := by
  intro h
  obtain ⟨enough, henough⟩ := h _ _ _ _ _ _ _ _ (fun _ => rfl) (fun _ => rfl) smallDirectory_tree
  have hfuel : smallTree.steps + 0 < enough + (smallTree.steps + 1) := by omega
  have hlabels : smallTree.labels = [] :=
    labels_of_listedRight (fun _ => rfl) (fun _ => rfl) smallDirectory_tree hfuel
      (henough _ (Nat.le_add_right _ _))
  exact absurd hlabels (by decide)

end BootLoader.Ntfs

import BootLoader.Lib.SearchTree
import BootLoader.Ntfs.RunList

/-!
# Searching a directory

The index records of a directory stand for a search tree whose labels are the VCNs of the child
records. `Denotes` says so of the bytes; the loop then does what a search of the tree does.
-/

open ByteMemory SearchTree

namespace BootLoader.Ntfs

open Driver Utils

/-! ## What the records hold -/

structure DirEntry where
  reference : BitVec 64
  name : List Nat
  directory : Bool
  deriving DecidableEq, Repr

abbrev IndexNode := Node (BitVec 64) DirEntry

/-- The 16-bit units of a file name. -/
def filenameUnits (m : Mem) (filename : Nat) : List Nat :=
  (List.range (m (filename + 64)).toNat).map fun i => read16 m (filename + 66 + 2 * i)

def entryAt (m : Mem) (entry : Nat) : DirEntry where
  reference := entryReference m entry
  name := filenameUnits m (entryFilename entry)
  directory := blNtfsIsDirectory m (entryFilename entry)

/-- The entry has at least `need` bytes, and ends inside a record of `size` bytes. -/
def EntryInside (m : Mem) (size entry need : Nat) : Prop :=
  need ≤ entryTotalSize m entry ∧ entry + entryTotalSize m entry ≤ size

/-- The bytes of a descriptor and the file name `e`. -/
def DirEntry.need (e : DirEntry) : Nat := 82 + 2 * e.name.length

/-- From `entry` on, the record `m` of `size` bytes holds the node. A child's record has
`recordSize` bytes and is `node` of its VCN. -/
def Denotes (recordSize : Nat) (node : BitVec 64 → Mem) : IndexNode → Mem → Nat → Nat → Prop
  | .leafEnd, m, size, entry =>
    EntryInside m size entry 16 ∧ entryParent m entry = false ∧ entryLast m entry = true
  | .leaf e rest, m, size, entry =>
    EntryInside m size entry e.need ∧ entryParent m entry = false ∧ entryLast m entry = false ∧
      entryAt m entry = e ∧ Denotes recordSize node rest m size (blNtfsGetNextEntry m entry)
  | .parentEnd vcn child, m, size, entry =>
    EntryInside m size entry 24 ∧ entryParent m entry = true ∧ entryLast m entry = true ∧
      blNtfsGetChildVcn m entry = vcn ∧ blNtfsIndx (node vcn) = true ∧
      Denotes recordSize node child (node vcn) recordSize (blNtfsIallocGetFirstEntry (node vcn) 0)
  | .parent vcn child e rest, m, size, entry =>
    EntryInside m size entry (e.need + 8) ∧ entryParent m entry = true ∧
      entryLast m entry = false ∧ blNtfsGetChildVcn m entry = vcn ∧
      blNtfsIndx (node vcn) = true ∧
      Denotes recordSize node child (node vcn) recordSize
        (blNtfsIallocGetFirstEntry (node vcn) 0) ∧
      entryAt m entry = e ∧ Denotes recordSize node rest m size (blNtfsGetNextEntry m entry)

/-- The attribute at `b` is the first of its type from `a` on, after `n` others. -/
inductive AttributeAt (m : Mem) (type : Nat) : Nat → Nat → Nat → Prop
  | here {a : Nat} (hend : blNtfsAttributeEnd m a = false) (htype : attrType m a = type) :
    AttributeAt m type 0 a a
  | next {n a b : Nat} (hend : blNtfsAttributeEnd m a = false) (htype : attrType m a ≠ type)
      (h : AttributeAt m type n (blNtfsAttributeNext m a) b) : AttributeAt m type (n + 1) a b

/-- The attributes from `a` on end inside the record after `n` of them. -/
inductive AttributesEnd (m : Mem) (size : Nat) : Nat → Nat → Prop
  | stop {a : Nat} (hin : a + 8 ≤ size) (hend : blNtfsAttributeEnd m a = true) :
    AttributesEnd m size 0 a
  | next {n a : Nat} (hin : a + 8 ≤ size) (hend : blNtfsAttributeEnd m a = false)
      (h : AttributesEnd m size n (blNtfsAttributeNext m a)) : AttributesEnd m size (n + 1) a

/-- The record of `$INDEX_ALLOCATION` at a VCN: cluster by cluster, where the run list says. -/
def allocationRecord (env : Env) (info : BlNtfsInfo) (runs : List DataRun) (vcn : BitVec 64) :
    Mem := fun i =>
  match lcnOf 0 runs (vcn.toNat + i / info.clusterSize) with
  | none => 0
  | some lcn =>
    env.disk (512 * info.lba.toNat + lcn.toNat * info.clusterSize + i % info.clusterSize)

/-- The MFT record that a reference names. -/
def mftRecordBytes (env : Env) (info : BlNtfsInfo) (reference : BitVec 64) : Mem := fun i =>
  env.disk (512 * (blNtfsMftRecordLba info reference).toNat + i)

/-- `$INDEX_ALLOCATION` of a directory's MFT record, with the run list `runs`. -/
structure AllocationAt (m : Mem) (skipped attr : Nat) (runs : List DataRun) : Prop where
  found : AttributeAt m blNtfsAttrIndexAllocation skipped (blNtfsAttributeFirst m) attr
  nonresident : attrNonresident m attr = true
  named : blNtfsCheckAttributeName m attr blNtfsI30 = .success
  encoded : HasBytes m (dataRuns m attr) (encodeRuns runs)

/-- A well-formed directory: `tree` is in the index root and, from there on, in the records of
`$INDEX_ALLOCATION`. -/
structure Directory {κ : Type*} [LinearOrder κ] (env : Env) (w : World) (fdata : BlNtfsFileData)
    (iroot : Ptr) (key : List Nat → κ) (skipped attr : Nat) (runs : List DataRun)
    (tree : IndexNode) : Prop where
  dir : fdata.dir = true
  iroot_eq : fdata.iroot = some iroot
  handedOut : fdata.mftRecord < w.next ∧ fdata.info.iroot.block < w.next
  recordSize : 28 ≤ indexRecordSize w fdata.info ∧ 28 ≤ fdata.info.mftRecordSize
  root : Denotes (indexRecordSize w fdata.info) (allocationRecord env fdata.info runs) tree
    (w.bytes iroot.block) fdata.info.mftRecordSize
    (blNtfsIrootGetFirstEntry (w.bytes iroot.block) iroot.off)
  allocation : tree.labels ≠ [] → AllocationAt (w.bytes fdata.mftRecord) skipped attr runs
  ordered : tree.Ordered fun e => key e.name
  records : ∀ e ∈ tree.entries, e.directory = true → ∃ n,
    AttributesEnd (mftRecordBytes env fdata.info e.reference) fdata.info.mftRecordSize n
      (blNtfsAttributeFirst (mftRecordBytes env fdata.info e.reference))

/-- Every child record stands on the disk where `bl_ntfs_vcn_to_lcn` and `bl_ntfs_lcn_to_lba` put
it. -/
def ChildrenLocated (env : Env) (w : World) (fdata : BlNtfsFileData) (attr : Nat)
    (runs : List DataRun) (tree : IndexNode) : Prop :=
  ∀ vcn ∈ tree.labels, ∃ lcn, blNtfsVcnToLcn (w.bytes fdata.mftRecord) attr vcn = some lcn ∧
    ∀ i < indexRecordSize w fdata.info,
      env.disk (512 * (blNtfsLcnToLba fdata.info lcn).toNat + i) =
        allocationRecord env fdata.info runs vcn i

/-- `strcmp` is the collation order of `key`, `target` being the key of the name looked for. -/
def Collates {κ : Type*} [LinearOrder κ] (strcmp : Mem → Nat → Int) (key : List Nat → κ)
    (target : κ) : Prop :=
  ∀ m filename, (strcmp m filename < 0 ↔ target < key (filenameUnits m filename)) ∧
    (strcmp m filename = 0 ↔ target = key (filenameUnits m filename))

/-- One record whose run list entry is translated right, and whose clusters follow one another,
is located right on a volume of 512-byte sectors. -/
theorem allocationRecord_located {env : Env} {info : BlNtfsInfo} {m : Mem} {attr k size : Nat}
    {runs : List DataRun} {vcn : BitVec 64} {first : Nat} (hsector : info.sectorSize = 512)
    (hcluster : info.clusterSize = 512 * 2 ^ k) (hk : k < 32)
    (htranslated : Translated m attr runs vcn)
    (hclusters : ∀ i < size, lcnOf 0 runs (vcn.toNat + i / info.clusterSize) =
      some ((first + i / info.clusterSize : Nat) : Int))
    (hsize : 0 < size) (hspace : info.lba.toNat + first * 2 ^ k < 2 ^ 64) :
    ∃ lcn, blNtfsVcnToLcn m attr vcn = some lcn ∧ ∀ i < size,
      env.disk (512 * (blNtfsLcnToLba info lcn).toNat + i) =
        allocationRecord env info runs vcn i := by
  have hpow := Nat.two_pow_pos k
  have hzero := hclusters 0 hsize
  simp only [Nat.zero_div, Nat.add_zero] at hzero
  refine ⟨_, htranslated, fun i hi => ?_⟩
  have hfirst : first < 2 ^ 64 := by
    have := Nat.le_mul_of_pos_right first hpow
    omega
  have hlba : (blNtfsLcnToLba info (lcnWord (some (first : Int)))).toNat =
      info.lba.toNat + first * 2 ^ k := by
    have hshift : shiftCount (blLog2 (info.clusterSize / info.sectorSize)) = k := by
      rw [hcluster, hsector, Nat.mul_div_cancel_left _ (by omega), blLog2_two_pow hk,
        shiftCount_of_lt (by omega)]
    rw [blNtfsLcnToLba, hshift, lcnWord, BitVec.ofInt_natCast, BitVec.toNat_add,
      BitVec.toNat_shiftLeft, BitVec.toNat_ofNat, Nat.mod_eq_of_lt hfirst, Nat.shiftLeft_eq,
      Nat.add_mod_mod, Nat.mod_eq_of_lt hspace]
  rw [hzero, hlba, allocationRecord, hclusters i hi]
  simp only [Int.toNat_natCast, hcluster]
  congr 1
  have hdiv := Nat.div_add_mod i (512 * 2 ^ k)
  calc 512 * (info.lba.toNat + first * 2 ^ k) + i
      = 512 * info.lba.toNat + first * (512 * 2 ^ k) + i := by ring
    _ = 512 * info.lba.toNat + first * (512 * 2 ^ k) +
        (512 * 2 ^ k * (i / (512 * 2 ^ k)) + i % (512 * 2 ^ k)) := by rw [hdiv]
    _ = _ := by ring

/-! ## Bytes beyond the record do not matter -/

section
variable {m m' : Mem} {size entry need : Nat} (hm : ∀ i < size, m' i = m i)

include hm

theorem readLE_inside {a n : Nat} (h : a + n ≤ size) : readLE m' a n = readLE m a n :=
  readLE_congr fun x _ hlt => hm x (by omega)

theorem entryInside_congr (hneed : 16 ≤ need) (h : EntryInside m size entry need) :
    EntryInside m' size entry need ∧ entryTotalSize m' entry = entryTotalSize m entry ∧
      entryParent m' entry = entryParent m entry ∧ entryLast m' entry = entryLast m entry := by
  obtain ⟨hle, hin⟩ := h
  have htotal : entryTotalSize m' entry = entryTotalSize m entry :=
    readLE_inside hm (by omega)
  refine ⟨⟨by omega, by omega⟩, htotal, ?_, ?_⟩
  · rw [entryParent, entryParent, hm _ (by omega)]
  · rw [entryLast, entryLast, hm _ (by omega)]

theorem blNtfsGetChildVcn_congr (hneed : 24 ≤ need) (h : EntryInside m size entry need) :
    blNtfsGetChildVcn m' entry = blNtfsGetChildVcn m entry := by
  have htotal := (entryInside_congr hm (by omega) h).2.1
  obtain ⟨hle, hin⟩ := h
  rw [blNtfsGetChildVcn, blNtfsGetChildVcn, htotal, read64, readLE_inside hm (by omega)]

theorem entryAt_congr {e : DirEntry} (hneed : e.need ≤ need) (h : EntryInside m size entry need)
    (he : entryAt m entry = e) : entryAt m' entry = e := by
  subst he
  obtain ⟨hle, hin⟩ := h
  have hlen : (entryAt m entry).name.length = (m (entryFilename entry + 64)).toNat := by
    simp [entryAt, filenameUnits]
  rw [DirEntry.need, hlen] at hneed
  unfold entryFilename at hneed
  rw [entryAt, entryAt, DirEntry.mk.injEq]
  refine ⟨?_, ?_, ?_⟩
  · rw [entryReference, entryReference, read64, readLE_inside hm (by omega)]
  · rw [filenameUnits, filenameUnits, entryFilename, hm _ (by omega)]
    apply List.map_congr_left
    intro i hi
    have hi := List.mem_range.mp hi
    exact readLE_inside hm (by omega)
  · rw [blNtfsIsDirectory, blNtfsIsDirectory, entryFilename, read32, readLE_inside hm (by omega)]

end

theorem denotes_congr {recordSize size entry : Nat} {node : BitVec 64 → Mem} {t : IndexNode}
    {m m' : Mem} (hm : ∀ i < size, m' i = m i) (h : Denotes recordSize node t m size entry) :
    Denotes recordSize node t m' size entry := by
  induction t generalizing entry with
  | leafEnd =>
    obtain ⟨hin, hparent, hlast⟩ := h
    obtain ⟨hin', -, hparent', hlast'⟩ := entryInside_congr hm le_rfl hin
    exact ⟨hin', hparent'.trans hparent, hlast'.trans hlast⟩
  | leaf e rest ih =>
    obtain ⟨hin, hparent, hlast, he, hrest⟩ := h
    obtain ⟨hin', htotal, hparent', hlast'⟩ :=
      entryInside_congr hm (by unfold DirEntry.need; omega) hin
    refine ⟨hin', hparent'.trans hparent, hlast'.trans hlast, entryAt_congr hm le_rfl hin he, ?_⟩
    rw [blNtfsGetNextEntry, htotal]
    exact ih hrest
  | parentEnd vcn child ih =>
    obtain ⟨hin, hparent, hlast, hvcn, hchild⟩ := h
    obtain ⟨hin', -, hparent', hlast'⟩ := entryInside_congr hm (by omega) hin
    exact ⟨hin', hparent'.trans hparent, hlast'.trans hlast,
      (blNtfsGetChildVcn_congr hm le_rfl hin).trans hvcn, hchild⟩
  | parent vcn child e rest ihChild ihRest =>
    obtain ⟨hin, hparent, hlast, hvcn, hindx, hchild, he, hrest⟩ := h
    obtain ⟨hin', htotal, hparent', hlast'⟩ :=
      entryInside_congr hm (by unfold DirEntry.need; omega) hin
    refine ⟨hin', hparent'.trans hparent, hlast'.trans hlast,
      (blNtfsGetChildVcn_congr hm (by unfold DirEntry.need; omega) hin).trans hvcn, hindx, hchild,
      entryAt_congr hm (by omega) hin he, ?_⟩
    rw [blNtfsGetNextEntry, htotal]
    exact ihRest hrest

/-! ## Attributes -/

theorem mftRecordAttributeFrom_allocation {env : Env} {info : BlNtfsInfo} {w : World}
    {record n a b : Nat} {vcn : BitVec 64}
    (h : AttributeAt (w.bytes record) blNtfsAttrIndexAllocation n a b) {fuel : Nat}
    (hfuel : n < fuel) (hnonresident : attrNonresident (w.bytes record) b = true) :
    mftRecordAttributeFrom env info w record blNtfsAttrIndexAllocation (some vcn) fuel a =
      (blNtfsGetIndexAllocation env info w (w.bytes record) b (some vcn)).map fun (w, index) =>
        (w, index.map (Ptr.mk · 0)) := by
  induction h generalizing fuel with
  | here hend htype =>
    obtain ⟨fuel, rfl⟩ : ∃ f, fuel = f + 1 := ⟨fuel - 1, by omega⟩
    simp [mftRecordAttributeFrom, hend, htype, hnonresident]
  | next hend htype h ih =>
    obtain ⟨fuel, rfl⟩ : ∃ f, fuel = f + 1 := ⟨fuel - 1, by omega⟩
    simp only [mftRecordAttributeFrom, hend, htype, ne_eq, not_false_eq_true, if_true]
    exact ih (by omega) hnonresident

/-- Looking for the index root changes nothing, and ends where the attributes end. -/
theorem mftRecordAttributeFrom_root {env : Env} {info : BlNtfsInfo} {w : World} {m : Mem}
    {record size n a : Nat} (h : AttributesEnd m size n a)
    (hm : ∀ i < size, w.bytes record i = m i) {fuel : Nat} (hfuel : n < fuel) :
    ∃ iroot, mftRecordAttributeFrom env info w record blNtfsAttrIndexRoot none fuel a =
      some (w, iroot) := by
  induction h generalizing fuel with
  | @stop a hin hend =>
    obtain ⟨fuel, rfl⟩ : ∃ f, fuel = f + 1 := ⟨fuel - 1, by omega⟩
    have hend' : blNtfsAttributeEnd (w.bytes record) a = true := by
      rw [← hend, blNtfsAttributeEnd, blNtfsAttributeEnd, attrType, attrType, read32, read32,
        readLE_inside hm (by omega)]
    exact ⟨none, by simp [mftRecordAttributeFrom, hend']⟩
  | @next n a hin hend h ih =>
    obtain ⟨fuel, rfl⟩ : ∃ f, fuel = f + 1 := ⟨fuel - 1, by omega⟩
    have hnext : blNtfsAttributeNext (w.bytes record) a = blNtfsAttributeNext m a := by
      rw [blNtfsAttributeNext, blNtfsAttributeNext, attrTotalSize, attrTotalSize, read32, read32,
        readLE_inside hm (by omega)]
    obtain ⟨iroot, hrest⟩ : ∃ iroot, mftRecordAttributeFrom env info w record blNtfsAttrIndexRoot
        none fuel (blNtfsAttributeNext m a) = some (w, iroot) := ih (by omega)
    simp only [mftRecordAttributeFrom, hnext, hrest,
      show ¬ blNtfsAttrIndexRoot = blNtfsAttrIndexAllocation by decide, if_false]
    split_ifs <;> exact ⟨_, rfl⟩

/-! ## One child -/

/-- What the search relies on all along: every request is served, and the blocks that the
directory is read from were there at the start. -/
structure Serving (env : Env) (w₀ : World) (fdata : BlNtfsFileData) : Prop where
  allocs : ∀ n, env.allocs n = true
  reads : ∀ n, env.reads n = .success
  mftRecord : fdata.mftRecord < w₀.next
  iroot : fdata.info.iroot.block < w₀.next
  recordSize : 28 ≤ indexRecordSize w₀ fdata.info

/-- The record at `vcn` is found through `$INDEX_ALLOCATION`, in its place. -/
def ChildReadable (env : Env) (w₀ : World) (fdata : BlNtfsFileData) (skipped attr : Nat)
    (runs : List DataRun) (vcn : BitVec 64) : Prop :=
  AllocationAt (w₀.bytes fdata.mftRecord) skipped attr runs ∧
    ∃ lcn, blNtfsVcnToLcn (w₀.bytes fdata.mftRecord) attr vcn = some lcn ∧
      ∀ i < indexRecordSize w₀ fdata.info,
        env.disk (512 * (blNtfsLcnToLba fdata.info lcn).toNat + i) =
          allocationRecord env fdata.info runs vcn i

variable {κ : Type*} [LinearOrder κ] {env : Env} {fdata : BlNtfsFileData} {w₀ w : World}
  {skipped attr : Nat} {runs : List DataRun} {strcmp : Mem → Nat → Int} {key : List Nat → κ}
  {target : κ}

/-- The child's record is read into a new block, and holds the child there. -/
theorem readChildNode_spec {entry : Ptr} {fuel : Nat} {vcn : BitVec 64} {child : IndexNode}
    (hs : Serving env w₀ fdata) (hext : Extends w₀ w) (hfuel : skipped < fuel)
    (hreadable : ChildReadable env w₀ fdata skipped attr runs vcn)
    (hparent : entryParent (w.bytes entry.block) entry.off = true)
    (hvcn : blNtfsGetChildVcn (w.bytes entry.block) entry.off = vcn)
    (hindx : blNtfsIndx (allocationRecord env fdata.info runs vcn) = true)
    (hchild : Denotes (indexRecordSize w₀ fdata.info) (allocationRecord env fdata.info runs) child
      (allocationRecord env fdata.info runs vcn) (indexRecordSize w₀ fdata.info)
      (blNtfsIallocGetFirstEntry (allocationRecord env fdata.info runs vcn) 0)) :
    ∃ w₁, blNtfsReadChildNode env fdata.info fuel w entry fdata.mftRecord =
        some (w₁, some w.next) ∧ Extends w₀ w₁ ∧
      Denotes (indexRecordSize w₀ fdata.info) (allocationRecord env fdata.info runs) child
        (w₁.bytes w.next) (indexRecordSize w₀ fdata.info)
        (blNtfsIallocGetFirstEntry (w₁.bytes w.next) 0) := by
  obtain ⟨halloc, lcn, hlcn, hlocated⟩ := hreadable
  have hnext := hext.next_le
  have hsize := hs.recordSize
  obtain ⟨w₁, halloc₁, hnext₁, hbytes₁⟩ := alloc_served (hs.allocs w.allocs)
  obtain ⟨w₂, hread, hnext₂, hother, hdata⟩ := read_served (w := w₁) w.next
    (blNtfsLcnToLba fdata.info lcn).toNat (indexRecordSize w₀ fdata.info) (hs.reads w₁.reads)
  have hrecordSize : indexRecordSize w₁ fdata.info = indexRecordSize w₀ fdata.info := by
    rw [indexRecordSize, indexRecordSize, hbytes₁, hext.bytes_eq _ hs.iroot]
  have hbytes : ∀ i < indexRecordSize w₀ fdata.info,
      w₂.bytes w.next i = allocationRecord env fdata.info runs vcn i := fun i hi =>
    (hdata i hi).trans (hlocated i hi)
  have hindx₂ : blNtfsIndx (w₂.bytes w.next) = true := by
    rw [← hindx, blNtfsIndx, blNtfsIndx, hbytes 0 (by omega), hbytes 1 (by omega),
      hbytes 2 (by omega), hbytes 3 (by omega)]
  refine ⟨w₂, ?_, ⟨by omega, fun b hb => ?_⟩, ?_⟩
  · rw [← hext.bytes_eq _ hs.mftRecord] at halloc hlcn
    rw [blNtfsReadChildNode, if_neg (by simp [hparent]), hvcn, blNtfsGetMftRecordAttribute,
      mftRecordAttributeFrom_allocation halloc.found hfuel halloc.nonresident,
      blNtfsGetIndexAllocation, if_neg (by simp [halloc.named])]
    simp [hlcn, halloc₁, hrecordSize, hread, hindx₂]
  · rw [hother b (by omega), hbytes₁, hext.bytes_eq b hb]
  · have hfirst : blNtfsIallocGetFirstEntry (w₂.bytes w.next) 0 =
        blNtfsIallocGetFirstEntry (allocationRecord env fdata.info runs vcn) 0 := by
      rw [blNtfsIallocGetFirstEntry, blNtfsIallocGetFirstEntry, read32, read32,
        readLE_inside hbytes (by omega)]
    rw [hfirst]
    exact denotes_congr hbytes hchild

/-! ## The loop -/

/-- From `entry` on the loop ends, and as a search of `tree` does: at the entry found, or at
none. -/
def SearchedAs (env : Env) (fdata : BlNtfsFileData) (strcmp : Mem → Nat → Int)
    (key : List Nat → κ) (target : κ) (w₀ : World) (tree : IndexNode) (fuel : Nat) (w : World)
    (index : Option Nat) (entry : Ptr) : Prop :=
  ∃ r, searchEntries env fdata.info fdata.mftRecord strcmp fuel w index entry = some r ∧
    Extends w₀ r.world ∧ r.entry.map (fun p => entryAt (r.world.bytes p.block) p.off) =
      tree.search (fun e => key e.name) target

theorem Collates.entry (h : Collates strcmp key target) {m : Mem} {entry : Nat} {e : DirEntry}
    (he : entryAt m entry = e) :
    (strcmp m (entryFilename entry) < 0 ↔ target < key e.name) ∧
      (strcmp m (entryFilename entry) = 0 ↔ target = key e.name) := by
  subst he
  exact h m (entryFilename entry)

/-- The way down to a child: its record is read, and the search goes on there. -/
theorem searchedAs_child {entry : Ptr} {index : Option Nat} {fuel : Nat} {vcn : BitVec 64}
    {child : IndexNode} (hs : Serving env w₀ fdata) (hext : Extends w₀ w)
    (hfuel : child.steps + skipped < fuel)
    (hreadable : ChildReadable env w₀ fdata skipped attr runs vcn)
    (hparent : entryParent (w.bytes entry.block) entry.off = true)
    (hvcn : blNtfsGetChildVcn (w.bytes entry.block) entry.off = vcn)
    (hindx : blNtfsIndx (allocationRecord env fdata.info runs vcn) = true)
    (hchild : Denotes (indexRecordSize w₀ fdata.info) (allocationRecord env fdata.info runs) child
      (allocationRecord env fdata.info runs vcn) (indexRecordSize w₀ fdata.info)
      (blNtfsIallocGetFirstEntry (allocationRecord env fdata.info runs vcn) 0))
    (hsearch : ∀ {w' : World} {index : Option Nat} {entry : Ptr}, Extends w₀ w' →
      Denotes (indexRecordSize w₀ fdata.info) (allocationRecord env fdata.info runs) child
        (w'.bytes entry.block) (indexRecordSize w₀ fdata.info) entry.off →
      SearchedAs env fdata strcmp key target w₀ child fuel w' index entry) :
    ∃ w₁, blNtfsReadChildNode env fdata.info fuel w entry fdata.mftRecord =
        some (w₁, some w.next) ∧
      SearchedAs env fdata strcmp key target w₀ child fuel (w₁.freeAll [index]) (some w.next)
        ⟨w.next, blNtfsIallocGetFirstEntry (w₁.bytes w.next) 0⟩ := by
  obtain ⟨w₁, hread, hext₁, hdenotes₁⟩ := readChildNode_spec hs hext
    (show skipped < fuel by omega) hreadable hparent hvcn hindx hchild
  refine ⟨w₁, hread, hsearch (hext₁.trans (extends_freeAll w₁ [index])) ?_⟩
  rw [freeAll_bytes]
  exact hdenotes₁

theorem searchEntries_spec {tree : IndexNode} {index : Option Nat} {entry : Ptr}
    {size fuel : Nat} (hs : Serving env w₀ fdata) (hcollates : Collates strcmp key target)
    (hreadable : ∀ vcn ∈ tree.labels, ChildReadable env w₀ fdata skipped attr runs vcn)
    (hext : Extends w₀ w)
    (hdenotes : Denotes (indexRecordSize w₀ fdata.info) (allocationRecord env fdata.info runs) tree
      (w.bytes entry.block) size entry.off)
    (hfuel : tree.steps + skipped < fuel) :
    SearchedAs env fdata strcmp key target w₀ tree fuel w index entry := by
  induction tree generalizing w index entry size fuel with
  | leafEnd =>
    obtain ⟨fuel, rfl⟩ : ∃ f, fuel = f + 1 := ⟨fuel - 1, by omega⟩
    obtain ⟨-, hparent, hlast⟩ := hdenotes
    refine ⟨⟨w, index, none⟩, ?_, hext, rfl⟩
    simp [searchEntries, hparent, hlast]
  | leaf e rest ih =>
    obtain ⟨fuel, rfl⟩ : ∃ f, fuel = f + 1 := ⟨fuel - 1, by omega⟩
    obtain ⟨-, hparent, hlast, he, hrest⟩ := hdenotes
    rw [Node.steps] at hfuel
    unfold SearchedAs
    rw [Node.search]
    by_cases heq : target = key e.name
    · refine ⟨⟨w, index, some entry⟩, ?_, hext, ?_⟩
      · simp [searchEntries, hparent, hlast, (hcollates.entry he).2.mpr heq]
      · simp [heq, he]
    · have hne := mt (hcollates.entry he).2.mp heq
      have hnext : SearchedAs env fdata strcmp key target w₀ rest fuel w index
          ⟨entry.block, blNtfsGetNextEntry (w.bytes entry.block) entry.off⟩ :=
        ih hreadable hext hrest (by omega)
      obtain ⟨r, hrun, hfound⟩ := hnext
      refine ⟨r, ?_, by rwa [if_neg heq]⟩
      simp [searchEntries, hparent, hlast, hne, hrun]
  | parentEnd vcn child ih =>
    obtain ⟨fuel, rfl⟩ : ∃ f, fuel = f + 1 := ⟨fuel - 1, by omega⟩
    obtain ⟨-, hparent, hlast, hvcn, hindx, hchild⟩ := hdenotes
    rw [Node.steps] at hfuel
    have hbelow : child.steps + skipped < fuel := by omega
    obtain ⟨w₁, hread, r, hrun, hfound⟩ := searchedAs_child hs hext hbelow
      (hreadable vcn List.mem_cons_self) hparent hvcn hindx hchild fun hext' hdenotes' =>
        ih (fun v hv => hreadable v (List.mem_cons_of_mem _ hv)) hext' hdenotes' hbelow
    refine ⟨r, ?_, hfound⟩
    simpa [searchEntries, hparent, hlast, hread] using hrun
  | parent vcn child e rest ihChild ihRest =>
    obtain ⟨fuel, rfl⟩ : ∃ f, fuel = f + 1 := ⟨fuel - 1, by omega⟩
    obtain ⟨-, hparent, hlast, hvcn, hindx, hchild, he, hrest⟩ := hdenotes
    rw [Node.steps] at hfuel
    obtain ⟨hless, hequal⟩ := hcollates.entry he
    unfold SearchedAs
    rw [Node.search]
    by_cases hlt : target < key e.name
    · have hbelow : child.steps + skipped < fuel := by omega
      obtain ⟨w₁, hread, r, hrun, hfound⟩ := searchedAs_child hs hext hbelow
        (hreadable vcn List.mem_cons_self) hparent hvcn hindx hchild fun hext' hdenotes' =>
          ihChild (fun v hv => hreadable v (by simp [Node.labels, hv])) hext' hdenotes' hbelow
      refine ⟨r, ?_, by rwa [if_pos hlt]⟩
      simpa [searchEntries, hparent, hlast, hread, hless.mpr hlt] using hrun
    · by_cases heq : target = key e.name
      · refine ⟨⟨w, index, some entry⟩, ?_, hext, ?_⟩
        · simp [searchEntries, hparent, hlast, hequal.mpr heq]
        · simp [heq, he]
      · have hnext : SearchedAs env fdata strcmp key target w₀ rest fuel w index
            ⟨entry.block, blNtfsGetNextEntry (w.bytes entry.block) entry.off⟩ :=
          ihRest (fun v hv => hreadable v (by simp [Node.labels, hv])) hext hrest (by omega)
        obtain ⟨r, hrun, hfound⟩ := hnext
        have hnotLess := mt hless.mp hlt
        refine ⟨r, ?_, by rwa [if_neg hlt, if_neg heq]⟩
        simp [searchEntries, hparent, hlast, hnotLess, mt hequal.mp heq, hrun]

/-! ## The whole callback -/

/-- The node returned is a new one for `e`: its record is the MFT record that `e` refers to. -/
structure NodeFor (env : Env) (fdata : BlNtfsFileData) (w : World) (e : DirEntry)
    (node : BlFileTreeNode) : Prop where
  dir : node.fdata.dir = e.directory
  record : ∀ i < fdata.info.mftRecordSize,
    w.bytes node.fdata.mftRecord i = mftRecordBytes env fdata.info e.reference i

theorem matchEntry_spec {entry : Ptr} {e : DirEntry} {n fuel : Nat}
    (hallocs : ∀ n, env.allocs n = true) (hreads : ∀ n, env.reads n = .success)
    (hsize : 28 ≤ fdata.info.mftRecordSize) (he : entryAt (w.bytes entry.block) entry.off = e)
    (hend : e.directory = true →
      AttributesEnd (mftRecordBytes env fdata.info e.reference) fdata.info.mftRecordSize n
        (blNtfsAttributeFirst (mftRecordBytes env fdata.info e.reference)))
    (hfuel : n < fuel) :
    ∃ w' node blocks, matchEntry env fdata.info fuel false w entry =
        some (w', .success, some node, blocks) ∧ NodeFor env fdata w' e node := by
  subst he
  obtain ⟨w₁, halloc₁, -, hbytes₁⟩ := alloc_served (hallocs w.allocs)
  obtain ⟨w₂, halloc₂, -, hbytes₂⟩ := alloc_served (hallocs w₁.allocs)
  obtain ⟨w₃, halloc₃, -, hbytes₃⟩ := alloc_served (hallocs w₂.allocs)
  obtain ⟨w₄, hread, -, -, hdata⟩ := read_served (w := w₃) w₂.next
    (blNtfsMftRecordLba fdata.info (entryReference (w.bytes entry.block) entry.off)).toNat
    fdata.info.mftRecordSize (hreads w₃.reads)
  have hrecord : ∀ i < fdata.info.mftRecordSize, w₄.bytes w₂.next i =
      mftRecordBytes env fdata.info (entryAt (w.bytes entry.block) entry.off).reference i := hdata
  by_cases hdir : blNtfsIsDirectory (w.bytes entry.block) (entryFilename entry.off) = true
  · have hfirst : blNtfsAttributeFirst (w₄.bytes w₂.next) = blNtfsAttributeFirst
        (mftRecordBytes env fdata.info (entryAt (w.bytes entry.block) entry.off).reference) := by
      rw [blNtfsAttributeFirst, blNtfsAttributeFirst, read16, read16,
        readLE_inside hrecord (by omega)]
    obtain ⟨iroot, hroot⟩ : ∃ iroot, mftRecordAttributeFrom env fdata.info w₄ w₂.next
        blNtfsAttrIndexRoot none fuel _ = some (w₄, iroot) :=
      mftRecordAttributeFrom_root (hend hdir) hrecord hfuel
    rw [← hfirst] at hroot
    refine ⟨w₄, ⟨w.next, w₁.next, ⟨true, iroot, false, w₂.next, fdata.info⟩⟩, [some w₂.next], ?_,
      hdir.symm, hrecord⟩
    simp [matchEntry, halloc₁, halloc₂, halloc₃, blNtfsReadMft, hread, hdir,
      blNtfsGetMftRecordAttribute, hroot]
  · refine ⟨w₄, ⟨w.next, w₁.next, ⟨false, none, false, w₂.next, fdata.info⟩⟩, [some w₂.next], ?_,
      ?_, hrecord⟩
    · simp [matchEntry, halloc₁, halloc₂, halloc₃, blNtfsReadMft, hread, hdir]
    · simpa [entryAt] using hdir

/-- Names as numbers, one unit after another. -/
def nameKey (units : List Nat) : Nat := units.foldl (fun k u => k * 65536 + u + 1) 0

/-- Compares with the name whose key is `target`. -/
def compareWith (target : Nat) (m : Mem) (filename : Nat) : Int :=
  (target : Int) - nameKey (filenameUnits m filename)

theorem compareWith_collates (target : Nat) : Collates (compareWith target) nameKey target := by
  intro m filename
  unfold compareWith
  omega

/-- `$INDEX_ALLOCATION` at 56, and at 200 an index root whose only entry has a child at VCN 1. -/
def smallRecord (runs : List DataRun) : Mem := ofPieces
  [(20, bytesLE 2 56), (56, bytesLE 4 0xa0 ++ bytesLE 4 80 ++ [1, 4]), (88, bytesLE 2 72),
    (120, [0x24, 0, 0x49, 0, 0x33, 0, 0x30, 0] ++ encodeRuns runs), (136, bytesLE 4 0xffffffff),
    (208, bytesLE 4 512), (216, bytesLE 4 16), (240, bytesLE 2 24 ++ [0, 0, 3]),
    (248, bytesLE 8 1)]

/-- A child with the one name "A". -/
def smallDisk (lba : Nat) : Mem := ofPieces
  [(512 * lba, [0x49, 0x4e, 0x44, 0x58]), (512 * lba + 24, bytesLE 4 16),
    (512 * lba + 40, bytesLE 8 7 ++ bytesLE 2 88), (512 * lba + 120, [1, 0, 65, 0]),
    (512 * lba + 136, bytesLE 2 16 ++ [0, 0, 2])]

def smallEnv (lba : Nat) : Env := ⟨fun _ => true, fun _ => .success, smallDisk lba⟩

def smallWorld (runs : List DataRun) : World :=
  ⟨1, fun _ => smallRecord runs, fun b => b = 0, 0, 0, []⟩

def smallDirectory : BlNtfsFileData :=
  ⟨true, some ⟨0, 200⟩, true, 0, ⟨0, 512, 512, 1000, 1024, ⟨0, 200⟩⟩⟩

def smallTree : IndexNode := .parentEnd 1 (.leaf ⟨7, [65], false⟩ .leafEnd)

def oneRun : List DataRun :=
  [⟨2, 1, 100, 1, Nat.two_pos, by decide, oneByte_range, oneByte_range, hundred_range⟩]

theorem smallRecord_oneRun : HasBytes (smallRecord oneRun) (dataRuns (smallRecord oneRun) 56)
    (encodeRuns oneRun) := by
  have hplace : dataRuns (smallRecord oneRun) 56 = 128 := by decide
  rw [hplace]
  exact ⟨rfl, rfl, rfl, rfl, trivial⟩

theorem smallRecord_twoRuns : HasBytes (smallRecord twoRuns) (dataRuns (smallRecord twoRuns) 56)
    (encodeRuns twoRuns) := by
  have hplace : dataRuns (smallRecord twoRuns) 56 = 128 := by decide
  rw [hplace]
  exact ⟨rfl, rfl, rfl, rfl, rfl, rfl, rfl, trivial⟩

theorem smallDirectory_one :
    Directory (smallEnv 101) (smallWorld oneRun) smallDirectory ⟨0, 200⟩ nameKey 0 56 oneRun
      smallTree where
  dir := rfl
  iroot_eq := rfl
  handedOut := by decide
  recordSize := by decide
  root := ⟨⟨by decide, by decide⟩, rfl, rfl, rfl, rfl, ⟨by decide, by decide⟩, rfl, rfl, rfl,
    ⟨by decide, by decide⟩, rfl, rfl⟩
  allocation _ := ⟨.here (by decide) (by decide), rfl, rfl, smallRecord_oneRun⟩
  ordered := by simp [smallTree, Node.Ordered, Node.entries]
  records := by simp [smallTree, Node.entries]

theorem smallDirectory_located :
    ChildrenLocated (smallEnv 101) (smallWorld oneRun) smallDirectory 56 oneRun smallTree := by
  intro vcn hvcn
  obtain rfl : vcn = 1 := by simpa [smallTree, Node.labels] using hvcn
  have htranslated : Translated (smallRecord oneRun) 56 oneRun 1 := by
    unfold Translated
    decide
  have hcluster : smallDirectory.info.clusterSize = 512 * 2 ^ 0 := rfl
  have hclusters : ∀ i < indexRecordSize (smallWorld oneRun) smallDirectory.info,
      lcnOf 0 oneRun ((1 : BitVec 64).toNat + i / smallDirectory.info.clusterSize) =
        some ((101 + i / smallDirectory.info.clusterSize : Nat) : Int) := by
    intro i hi
    have hfirst : i / smallDirectory.info.clusterSize = 0 := Nat.div_eq_of_lt hi
    rw [hfirst]
    rfl
  have hspace : smallDirectory.info.lba.toNat + 101 * 2 ^ 0 < 2 ^ 64 := by decide
  exact allocationRecord_located rfl hcluster (by decide) htranslated hclusters (by decide) hspace

theorem smallDirectory_two :
    Directory (smallEnv 200) (smallWorld twoRuns) smallDirectory ⟨0, 200⟩ nameKey 0 56 twoRuns
      smallTree where
  dir := rfl
  iroot_eq := rfl
  handedOut := by decide
  recordSize := by decide
  root := ⟨⟨by decide, by decide⟩, rfl, rfl, rfl, rfl, ⟨by decide, by decide⟩, rfl, rfl, rfl,
    ⟨by decide, by decide⟩, rfl, rfl⟩
  allocation _ := ⟨.here (by decide) (by decide), rfl, rfl, smallRecord_twoRuns⟩
  ordered := by simp [smallTree, Node.Ordered, Node.entries]
  records := by simp [smallTree, Node.entries]

end BootLoader.Ntfs

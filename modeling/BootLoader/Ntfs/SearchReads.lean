import BootLoader.Ntfs.Blocks
import BootLoader.Ntfs.Names
import BootLoader.Ntfs.RecordReads

/-!
# What a search reads of its records

The loop of `bl_ntfs_iterate_directory_callback` follows lengths, places and VCNs as they are in the
records. `SearchInside` says when it ends with all of its reads inside them. The fields at fixed
places of a record (its magic number, where its entries start) are left out.
-/

open ByteMemory Filter

namespace BootLoader.Ntfs

open Driver

/-! ## The reads -/

/-- The number of characters that `bl_ntfs_strcmp` compares at most. -/
def strcmpCount (m : Mem) (filename : Nat) : Nat :=
  if (m (filename + 64)).toNat = 0 then 256 else (m (filename + 64)).toNat

/-- `bl_ntfs_strcmp`, in the file name. -/
def filenameReads (name m : Mem) (size filename : Nat) : List Read :=
  [⟨size, filename + 64, 1⟩,
    ⟨size, filename + 66, 2 * (strcmpStop name m filename (strcmpCount m filename) 0 + 1)⟩]

/-- Where the VCN of an entry's child is. -/
def childVcnPlace (m : Mem) (entry : Nat) : Nat :=
  (entry + entryTotalSize m entry + (2 ^ 32 - 8)) % 2 ^ 32

/-- `bl_ntfs_read_child_node`: of the entry, and of the directory's MFT record. -/
def childReads (info : BlNtfsInfo) (mftDir fuel size : Nat) (w : World) (entry : Ptr) :
    List Read :=
  let m := w.bytes entry.block
  let record := w.bytes mftDir
  ⟨size, entry.off + 8, 2⟩ :: ⟨size, childVcnPlace m entry.off, 8⟩ ::
    attributeReads record info.mftRecordSize blNtfsAttrIndexAllocation
      (some (blNtfsGetChildVcn m entry.off)) fuel (blNtfsAttributeFirst record)

instance (strcmp : Mem → Nat → Int) (w : World) (entry : Ptr) :
    Decidable (Descends strcmp w entry) :=
  inferInstanceAs (Decidable (_ ∧ _))

/-- The loop from `entry` on, in a record of `size` bytes. A child's has `index_record_size`. -/
def searchReads (env : Env) (info : BlNtfsInfo) (mftDir : Nat) (name : Mem) :
    Nat → Nat → World → Option Nat → Ptr → List Read
  | 0, _, _, _, _ => []
  | fuel + 1, size, w, index, entry =>
    let m := w.bytes entry.block
    ⟨size, entry.off + 12, 1⟩ ::
      ((if entryLast m entry.off then []
        else filenameReads name m size (entryFilename entry.off)) ++
        if Descends (blNtfsStrcmp name) w entry then
          childReads info mftDir fuel size w entry ++
            match blNtfsReadChildNode env info fuel w entry mftDir with
            | some (w', some child) =>
              searchReads env info mftDir name fuel (indexRecordSize w info) (w'.freeAll [index])
                (some child) (firstEntry (w'.freeAll [index]) child)
            | _ => []
        else if entryLast m entry.off ∨ blNtfsStrcmp name m (entryFilename entry.off) = 0 then []
        else
          ⟨size, entry.off + 8, 2⟩ ::
            searchReads env info mftDir name fuel size w index (nextEntry w entry))

/-- The loop ends, and reads nothing outside the records. -/
def SearchSurvives (env : Env) (info : BlNtfsInfo) (mftDir : Nat) (name : Mem) (w : World)
    (iroot : Ptr) : Prop :=
  ∃ fuel found, searchEntries env info mftDir (blNtfsStrcmp name) fuel w none (rootEntry w iroot) =
      some found ∧
    AllInside (searchReads env info mftDir name fuel info.mftRecordSize w none (rootEntry w iroot))

/-! ## Searches inside the records -/

/-- The file name is inside, as far as it is compared. -/
def FilenameInside (name m : Mem) (size filename : Nat) : Prop :=
  filename + 66 + 2 * (strcmpStop name m filename (strcmpCount m filename) 0 + 1) ≤ size

/-- What is read at an entry with a child is inside, and so is the way to its record. -/
structure DescentInside (info : BlNtfsInfo) (mftDir : Nat) (name : Mem) (size : Nat) (w : World)
    (entry : Ptr) : Prop where
  flags : entry.off + 13 ≤ size
  filename : entryLast (w.bytes entry.block) entry.off = false →
    FilenameInside name (w.bytes entry.block) size (entryFilename entry.off)
  vcn : childVcnPlace (w.bytes entry.block) entry.off + 8 ≤ size
  record : WalksInside (w.bytes mftDir) info.mftRecordSize blNtfsAttrIndexAllocation
    (some (blNtfsGetChildVcn (w.bytes entry.block) entry.off))
    (blNtfsAttributeFirst (w.bytes mftDir))

/-- From `entry` on the search meets entries inside their records only, finitely many of them. -/
inductive SearchInside (env : Env) (info : BlNtfsInfo) (mftDir : Nat) (name : Mem) :
    Nat → World → Option Nat → Ptr → Prop
  | ends {size : Nat} {w : World} {index : Option Nat} {entry : Ptr}
    (h : Ends (blNtfsStrcmp name) w entry) (hin : entry.off + 13 ≤ size) :
    SearchInside env info mftDir name size w index entry
  | found {size : Nat} {w : World} {index : Option Nat} {entry : Ptr}
    (h : Matches (blNtfsStrcmp name) w entry) (hin : entry.off + 13 ≤ size)
    (hname : FilenameInside name (w.bytes entry.block) size (entryFilename entry.off)) :
    SearchInside env info mftDir name size w index entry
  | next {size : Nat} {w : World} {index : Option Nat} {entry : Ptr}
    (h : GoesOn (blNtfsStrcmp name) w entry) (hin : entry.off + 13 ≤ size)
    (hname : FilenameInside name (w.bytes entry.block) size (entryFilename entry.off))
    (hrest : SearchInside env info mftDir name size w index (nextEntry w entry)) :
    SearchInside env info mftDir name size w index entry
  | fails {size : Nat} {w w' : World} {index : Option Nat} {entry : Ptr}
    (h : Descends (blNtfsStrcmp name) w entry) (hin : DescentInside info mftDir name size w entry)
    (hread : ChildRead env info mftDir w entry (w', none)) :
    SearchInside env info mftDir name size w index entry
  | child {size : Nat} {w w' : World} {index : Option Nat} {entry : Ptr} {child : Nat}
    (h : Descends (blNtfsStrcmp name) w entry) (hin : DescentInside info mftDir name size w entry)
    (hread : ChildRead env info mftDir w entry (w', some child))
    (hrest : SearchInside env info mftDir name (indexRecordSize w info) (w'.freeAll [index])
      (some child) (firstEntry (w'.freeAll [index]) child)) :
    SearchInside env info mftDir name size w index entry

variable {env : Env} {info : BlNtfsInfo} {mftDir size fuel : Nat} {name m : Mem} {w w' : World}
  {index : Option Nat} {entry iroot : Ptr}

/-! ## One round -/

theorem filenameReads_inside_iff {filename : Nat} :
    AllInside (filenameReads name m size filename) ↔ FilenameInside name m size filename := by
  unfold filenameReads FilenameInside
  rw [allInside_cons, allInside_cons, inside_mk, inside_mk, and_iff_left allInside_nil]
  omega

theorem searchReads_ends (h : Ends (blNtfsStrcmp name) w entry) :
    AllInside (searchReads env info mftDir name (fuel + 1) size w index entry) ↔
      entry.off + 13 ≤ size := by
  obtain ⟨hnot, hlast⟩ := h
  rw [searchReads, if_neg hnot, if_pos (Or.inl hlast), if_pos hlast, allInside_cons, inside_mk]
  exact and_iff_left allInside_nil

theorem searchReads_matches (h : Matches (blNtfsStrcmp name) w entry) :
    AllInside (searchReads env info mftDir name (fuel + 1) size w index entry) ↔
      entry.off + 13 ≤ size ∧
        FilenameInside name (w.bytes entry.block) size (entryFilename entry.off) := by
  obtain ⟨hnot, hlast, hequal⟩ := h
  rw [searchReads, if_neg hnot, if_pos (Or.inr hequal), if_neg (by simp [hlast]), List.append_nil,
    allInside_cons, inside_mk, filenameReads_inside_iff]

theorem searchReads_goesOn (h : GoesOn (blNtfsStrcmp name) w entry) :
    AllInside (searchReads env info mftDir name (fuel + 1) size w index entry) ↔
      entry.off + 13 ≤ size ∧
        FilenameInside name (w.bytes entry.block) size (entryFilename entry.off) ∧
        AllInside (searchReads env info mftDir name fuel size w index (nextEntry w entry)) := by
  obtain ⟨hnot, hlast, hdiffer⟩ := h
  simp only [searchReads, hnot, hlast, hdiffer, allInside_cons, allInside_append, inside_mk,
    filenameReads_inside_iff, Bool.false_eq_true, if_false, or_self]
  constructor
  · rintro ⟨hin, hname, -, hrest⟩
    exact ⟨hin, hname, hrest⟩
  · rintro ⟨hin, hname, hrest⟩
    exact ⟨hin, hname, by omega, hrest⟩

theorem searchReads_descends (h : Descends (blNtfsStrcmp name) w entry) :
    AllInside (searchReads env info mftDir name (fuel + 1) size w index entry) ↔
      entry.off + 13 ≤ size ∧
        (entryLast (w.bytes entry.block) entry.off = false →
          FilenameInside name (w.bytes entry.block) size (entryFilename entry.off)) ∧
        childVcnPlace (w.bytes entry.block) entry.off + 8 ≤ size ∧
        AllInside (attributeReads (w.bytes mftDir) info.mftRecordSize blNtfsAttrIndexAllocation
          (some (blNtfsGetChildVcn (w.bytes entry.block) entry.off)) fuel
          (blNtfsAttributeFirst (w.bytes mftDir))) ∧
        ∀ w' child, blNtfsReadChildNode env info fuel w entry mftDir = some (w', some child) →
          AllInside (searchReads env info mftDir name fuel (indexRecordSize w info)
            (w'.freeAll [index]) (some child) (firstEntry (w'.freeAll [index]) child)) := by
  have hname : AllInside (if entryLast (w.bytes entry.block) entry.off = true then []
        else filenameReads name (w.bytes entry.block) size (entryFilename entry.off)) ↔
      (entryLast (w.bytes entry.block) entry.off = false →
        FilenameInside name (w.bytes entry.block) size (entryFilename entry.off)) := by
    by_cases hlast : entryLast (w.bytes entry.block) entry.off = true
    · simp [hlast]
    · simp [hlast, filenameReads_inside_iff]
  have hchild : AllInside (match blNtfsReadChildNode env info fuel w entry mftDir with
        | some (w', some child) => searchReads env info mftDir name fuel (indexRecordSize w info)
            (w'.freeAll [index]) (some child) (firstEntry (w'.freeAll [index]) child)
        | _ => []) ↔
      ∀ w' child, blNtfsReadChildNode env info fuel w entry mftDir = some (w', some child) →
        AllInside (searchReads env info mftDir name fuel (indexRecordSize w info)
          (w'.freeAll [index]) (some child) (firstEntry (w'.freeAll [index]) child)) := by
    rcases blNtfsReadChildNode env info fuel w entry mftDir with _ | ⟨w', _ | child⟩ <;> simp
  rw [searchReads, if_pos h, allInside_cons, inside_mk, allInside_append, allInside_append, hname,
    hchild, childReads, allInside_cons, inside_mk, allInside_cons, inside_mk]
  constructor
  · rintro ⟨hin, hfilename, ⟨-, hvcn, hrecord⟩, hrest⟩
    exact ⟨hin, hfilename, hvcn, hrecord, hrest⟩
  · rintro ⟨hin, hfilename, hvcn, hrecord, hrest⟩
    exact ⟨hin, hfilename, ⟨by omega, hvcn, hrecord⟩, hrest⟩

/-! ## The way down -/

/-- Reading a child comes to an end exactly when the walk of the MFT record does. -/
theorem readChildNode_iff (h : entryParent (w.bytes entry.block) entry.off = true) :
    (∃ out, blNtfsReadChildNode env info fuel w entry mftDir = some out) ↔
      ∃ found, mftRecordAttributeFrom env info w mftDir blNtfsAttrIndexAllocation
        (some (blNtfsGetChildVcn (w.bytes entry.block) entry.off)) fuel
        (blNtfsAttributeFirst (w.bytes mftDir)) = some found := by
  simp [blNtfsReadChildNode, h, blNtfsGetMftRecordAttribute]

theorem searchInside_of_reads (hsize : info.mftRecordSize < 2 ^ 16) {found : Found}
    (hrun : searchEntries env info mftDir (blNtfsStrcmp name) fuel w index entry = some found)
    (hreads : AllInside (searchReads env info mftDir name fuel size w index entry)) :
    SearchInside env info mftDir name size w index entry := by
  induction fuel generalizing size w index entry with
  | zero => cases hrun
  | succ fuel ih =>
    rcases where_goes (blNtfsStrcmp name) w entry with hdown | hend | hmatch | hon
    · rw [searchReads_descends hdown] at hreads
      obtain ⟨hflags, hname, hvcn, hrecord, hrest⟩ := hreads
      rw [searchEntries_descends hdown] at hrun
      cases hread : blNtfsReadChildNode env info fuel w entry mftDir with
      | none => simp [hread] at hrun
      | some out =>
        obtain ⟨found', hwalk⟩ := (readChildNode_iff hdown.1).mp ⟨out, hread⟩
        have hin : DescentInside info mftDir name size w entry :=
          ⟨hflags, hname, hvcn, walksInside_of_reads hsize rfl hwalk hrecord⟩
        obtain ⟨w', _ | child⟩ := out
        · exact .fails hdown hin ⟨fuel, hread⟩
        · rw [hread] at hrun
          exact .child hdown hin ⟨fuel, hread⟩ (ih hrun (hrest w' child hread))
    · exact .ends hend ((searchReads_ends hend).mp hreads)
    · obtain ⟨hin, hname⟩ := (searchReads_matches hmatch).mp hreads
      exact .found hmatch hin hname
    · obtain ⟨hin, hname, hrest⟩ := (searchReads_goesOn hon).mp hreads
      rw [searchEntries_goesOn hon] at hrun
      exact .next hon hin hname (ih hrun hrest)

/-- With enough fuel the child is read as it is with any other. -/
theorem DescentInside.reads (hsize : info.mftRecordSize < 2 ^ 16)
    (h : Descends (blNtfsStrcmp name) w entry) (hin : DescentInside info mftDir name size w entry)
    {out : World × Option Nat} (hread : ChildRead env info mftDir w entry out) :
    ∀ᶠ fuel in atTop, blNtfsReadChildNode env info fuel w entry mftDir = some out ∧
      AllInside (attributeReads (w.bytes mftDir) info.mftRecordSize blNtfsAttrIndexAllocation
        (some (blNtfsGetChildVcn (w.bytes entry.block) entry.off)) fuel
        (blNtfsAttributeFirst (w.bytes mftDir))) := by
  have hm : w.bytes mftDir = w.bytes mftDir := rfl
  filter_upwards [hin.record.reads hsize hm env info] with fuel hrecord
  obtain ⟨hwalk, hreads⟩ := hrecord
  obtain ⟨out', hout'⟩ := (readChildNode_iff h.1).mpr hwalk
  have hsame : out' = out := ChildRead.unique ⟨fuel, hout'⟩ hread
  exact ⟨hsame ▸ hout', hreads⟩

theorem SearchInside.reads (hsize : info.mftRecordSize < 2 ^ 16)
    (h : SearchInside env info mftDir name size w index entry) :
    ∀ᶠ fuel in atTop,
      (∃ found, searchEntries env info mftDir (blNtfsStrcmp name) fuel w index entry = some found) ∧
        AllInside (searchReads env info mftDir name fuel size w index entry) := by
  induction h with
  | ends h hin =>
    refine Fuel.eventually_of_succ fun fuel => ?_
    exact ⟨⟨_, searchEntries_ends h⟩, (searchReads_ends h).mpr hin⟩
  | found h hin hname =>
    refine Fuel.eventually_of_succ fun fuel => ?_
    exact ⟨⟨_, searchEntries_matches h⟩, (searchReads_matches h).mpr ⟨hin, hname⟩⟩
  | next h hin hname hrest ih =>
    refine Fuel.eventually_round ih fun fuel hrest => ?_
    obtain ⟨⟨out, hrun⟩, hreads⟩ := hrest
    exact ⟨⟨out, (searchEntries_goesOn h).trans hrun⟩,
      (searchReads_goesOn h).mpr ⟨hin, hname, hreads⟩⟩
  | fails h hin hread =>
    refine Fuel.eventually_round (hin.reads hsize h hread) fun fuel hchildRead => ?_
    obtain ⟨hout, hreads⟩ := hchildRead
    rw [searchEntries_descends h, searchReads_descends h, hout]
    refine ⟨⟨_, rfl⟩, hin.flags, hin.filename, hin.vcn, hreads, fun w' child hchild => ?_⟩
    simp at hchild
  | child h hin hread hrest ih =>
    refine Fuel.eventually_round ((hin.reads hsize h hread).and ih) fun fuel hboth => ?_
    obtain ⟨⟨hout, hreads⟩, hrun, hbelow⟩ := hboth
    rw [searchEntries_descends h, searchReads_descends h, hout]
    refine ⟨hrun, hin.flags, hin.filename, hin.vcn, hreads, fun w' child hchild => ?_⟩
    obtain ⟨rfl, rfl⟩ := Prod.mk.inj (Option.some.inj hchild) |>.imp id Option.some.inj
    exact hbelow

/-- A lookup and a search survive their records exactly when they go through attributes and entries
inside them, and come to one that ends them. -/
theorem metadata_survived_iff (env : Env) (info : BlNtfsInfo)
    (hsize : info.mftRecordSize < 2 ^ 16) (w : World) :
    (∀ record type data, LookupSurvives env info w record type data ↔
      WalksInside (w.bytes record) info.mftRecordSize type data
        (blNtfsAttributeFirst (w.bytes record))) ∧
      ∀ mftDir name iroot, SearchSurvives env info mftDir name w iroot ↔
        SearchInside env info mftDir name info.mftRecordSize w none (rootEntry w iroot) := by
  refine ⟨fun record type data => lookupSurvives_iff hsize, fun mftDir name iroot => ?_⟩
  constructor
  · rintro ⟨fuel, found, hrun, hreads⟩
    exact searchInside_of_reads hsize hrun hreads
  · intro h
    obtain ⟨fuel, ⟨found, hrun⟩, hreads⟩ := (h.reads hsize).exists
    exact ⟨fuel, found, hrun, hreads⟩

/-! ## An attribute without a length -/

/-- At 56 an attribute of another type whose `total_size` is 0. -/
def endlessRecord : Mem := ofPieces [(20, bytesLE 2 56), (56, bytesLE 4 0x10)]

theorem endlessRecord_walk (env : Env) (fuel : Nat) :
    mftRecordAttributeFrom env sectorClusters (recordWorld endlessRecord) 0 blNtfsAttrIndexRoot none
      fuel 56 = none := by
  have hend : blNtfsAttributeEnd endlessRecord 56 = false := by decide
  have htype : attrType endlessRecord 56 ≠ blNtfsAttrIndexRoot := by decide
  have hnext : blNtfsAttributeNext endlessRecord 56 = 56 := by decide
  induction fuel with
  | zero => rfl
  | succ fuel ih =>
    simp only [mftRecordAttributeFrom, recordWorld_bytes] at ih ⊢
    simpa [hend, htype, hnext] using ih

theorem smallRecord_survived_iff :
    (LookupSurvives (smallEnv 101) smallDirectory.info (smallWorld oneRun) 0 blNtfsAttrIndexRoot
        none ↔
      WalksInside (smallRecord oneRun) 1024 blNtfsAttrIndexRoot none 56) ∧
      (SearchSurvives (smallEnv 101) smallDirectory.info 0 stringAb (smallWorld oneRun) ⟨0, 200⟩ ↔
        SearchInside (smallEnv 101) smallDirectory.info 0 stringAb 1024 (smallWorld oneRun) none
          ⟨0, 232⟩) := by
  obtain ⟨hlookup, hsearch⟩ :=
    metadata_survived_iff (smallEnv 101) smallDirectory.info (by decide) (smallWorld oneRun)
  exact ⟨hlookup 0 blNtfsAttrIndexRoot none, hsearch 0 stringAb ⟨0, 200⟩⟩

/-- The walk stays at an attribute whose length is 0. -/
theorem endlessRecord_not_survived :
    ¬ ∀ env info w record type data, info.mftRecordSize < 2 ^ 16 →
      LookupSurvives env info w record type data := by
  intro h
  obtain ⟨fuel, found, hrun, -⟩ := h (onlyAt 0) sectorClusters (recordWorld endlessRecord) 0
    blNtfsAttrIndexRoot none (by decide)
  have hnone := endlessRecord_walk (onlyAt 0) fuel
  exact absurd (hrun.symm.trans hnone) (by simp)

end BootLoader.Ntfs

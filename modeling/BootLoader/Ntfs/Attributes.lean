import BootLoader.Ntfs.Code

/-!
# Looking an attribute up

The walk of `bl_ntfs_get_mft_record_attribute` against the attributes of a well-formed record. The
first attribute of the type decides, and its name is looked for behind the header.
-/

open ByteMemory

namespace BootLoader.Ntfs

open Driver

variable {m : Mem} {attrs : List Nat} {size type attr a b fuel record : Nat} {env : Env}
  {info : BlNtfsInfo} {w : World} {nonresident : Bool} {data : Option (BitVec 64)}
  {vcn : BitVec 64}

/-! ## Well-formed records -/

/-- The header with what the union holds. -/
def attrHeaderSize (m : Mem) (attr : Nat) : Nat := if attrNonresident m attr then 64 else 24

def attrNameOffset (m : Mem) (attr : Nat) : Nat := read16 m (attr + 10)

/-- `attr->resident.attribute_offset`. -/
def attrContentOffset (m : Mem) (attr : Nat) : Nat := read16 m (attr + 20)

/-- Behind its header the attribute has its name, and its content or its run list. -/
structure AttributeFits (m : Mem) (attr : Nat) : Prop where
  header : attrHeaderSize m attr ≤ attrTotalSize m attr
  name : attrNameLength m attr ≠ 0 → attrHeaderSize m attr ≤ attrNameOffset m attr ∧
    attrNameOffset m attr + 2 * attrNameLength m attr ≤ attrTotalSize m attr
  content : attrNonresident m attr = false → 24 ≤ attrContentOffset m attr ∧
    attrContentOffset m attr + read32 m (attr + 16) ≤ attrTotalSize m attr
  runs : attrNonresident m attr = true → 64 ≤ read16 m (attr + 32) ∧
    read16 m (attr + 32) < attrTotalSize m attr

/-- The attributes from `a` on, one right behind the other, and the end marker behind the last. -/
inductive Attributes (m : Mem) (size : Nat) : Nat → List Nat → Prop
  | last {a : Nat} (hin : a + 4 ≤ size) (hend : blNtfsAttributeEnd m a = true) :
    Attributes m size a []
  | next {a : Nat} {rest : List Nat} (hend : blNtfsAttributeEnd m a = false)
    (hfits : AttributeFits m a) (hin : a + attrTotalSize m a ≤ size)
    (h : Attributes m size (a + attrTotalSize m a) rest) : Attributes m size a (a :: rest)

/-- A record of `mft_record_size` bytes, which is a 16-bit number. -/
structure MftRecord (m : Mem) (size : Nat) (attrs : List Nat) : Prop where
  size_lt : size < 2 ^ 16
  attributes : Attributes m size (blNtfsAttributeFirst m) attrs

/-! ## The lookup -/

/-- The name of an attribute, which is at `name_offset`. -/
def attributeName (m : Mem) (attr : Nat) : List Nat :=
  (List.range (attrNameLength m attr)).map fun i => read16 m (attr + attrNameOffset m attr + 2 * i)

/-- An attribute of the type and the form, named exactly `$I30`. -/
def isIndex (m : Mem) (type : Nat) (nonresident : Bool) (attr : Nat) : Bool :=
  attrType m attr = type ∧ attrNonresident m attr = nonresident ∧
    attributeName m attr = blNtfsI30.dropLast

/-- Reads the index record at a cluster of the volume. -/
def readIndexRecord (env : Env) (info : BlNtfsInfo) (w : World) (lcn : BitVec 64) :
    World × Option Nat :=
  match w.alloc env with
  | (w, none) => (w, none)
  | (w, some index) =>
    let (w, status) := w.read env index (blNtfsLcnToLba info lcn).toNat (indexRecordSize w info)
    if status ≠ .success ∨ blNtfsIndx (w.bytes index) = false then (w.free index, none)
    else (w, some index)

/-- The index record that the run list of an attribute has at a VCN. -/
def readThrough (env : Env) (info : BlNtfsInfo) (w : World) (m : Mem) (attr : Nat)
    (vcn : BitVec 64) : Option (World × Option Nat) :=
  (blNtfsVcnToLcn m attr vcn).map (readIndexRecord env info w)

/-- What the lookup gives for a run list, with its index record at the start of its block. -/
def foundThrough (env : Env) (info : BlNtfsInfo) (w : World) (m : Mem) (attr : Nat)
    (vcn : BitVec 64) : Option (World × Option Ptr) :=
  (readThrough env info w m attr vcn).map fun (w, index) => (w, index.map (Ptr.mk · 0))

/-- Wherever the record is: the content of the index root named `$I30` is found, and index records
are read through the run list of the index allocation of that name. -/
structure LookupRight (m : Mem) (attrs : List Nat) : Prop where
  root : ∀ env info fuel w record data, w.bytes record = m → attrs.length < fuel →
    blNtfsGetMftRecordAttribute env info fuel w record blNtfsAttrIndexRoot data =
      some (w, (attrs.find? (isIndex m blNtfsAttrIndexRoot false)).map fun attr =>
        ⟨record, attr + attrContentOffset m attr⟩)
  allocation : ∀ env info fuel w record vcn, w.bytes record = m → attrs.length < fuel →
    blNtfsGetMftRecordAttribute env info fuel w record blNtfsAttrIndexAllocation (some vcn) =
      match attrs.find? (isIndex m blNtfsAttrIndexAllocation true) with
      | none => some (w, none)
      | some attr => foundThrough env info w m attr vcn

def firstOf (m : Mem) (attrs : List Nat) (type : Nat) : Option Nat :=
  attrs.find? fun attr => attrType m attr = type

/-- It has the form, and behind its header a name that the test takes for `$I30`. -/
def Passes (m : Mem) (nonresident : Bool) (attr : Nat) : Prop :=
  attrNonresident m attr = nonresident ∧ blNtfsCheckAttributeName m attr blNtfsI30 = .success

instance : Decidable (Passes m nonresident attr) := inferInstanceAs (Decidable (_ ∧ _))

/-- The first attribute of the type is the one looked for and passes, or it does not pass and there
is none. -/
def FirstDecides (m : Mem) (attrs : List Nat) (type : Nat) (nonresident : Bool) : Prop :=
  ∀ a, firstOf m attrs type = some a →
    (Passes m nonresident a ∧ isIndex m type nonresident a = true) ∨
      (¬Passes m nonresident a ∧ ∀ b ∈ attrs, isIndex m type nonresident b = false)

/-- The first index allocation passes, and its run list leads where the one of `$I30` does. -/
def SharesRuns (m : Mem) (attrs : List Nat) : Prop :=
  ∃ a b, firstOf m attrs blNtfsAttrIndexAllocation = some a ∧ Passes m true a ∧
    attrs.find? (isIndex m blNtfsAttrIndexAllocation true) = some b ∧
    ∀ vcn, blNtfsVcnToLcn m a vcn = blNtfsVcnToLcn m b vcn

/-! ## The walk -/

theorem Attributes.fits (h : Attributes m size a attrs) (hb : b ∈ attrs) :
    a ≤ b ∧ b + attrTotalSize m b ≤ size ∧ AttributeFits m b ∧
      blNtfsAttributeEnd m b = false := by
  induction h with
  | last => cases hb
  | next hend hfits hin h ih =>
    rcases List.mem_cons.mp hb with rfl | hb
    · exact ⟨le_rfl, hin, hfits, hend⟩
    · obtain ⟨hle, hrest⟩ := ih hb
      exact ⟨(Nat.le_add_right _ _).trans hle, hrest⟩

theorem mftRecordAttributeFrom_eq (h : Attributes m size a attrs) (hsize : size < 2 ^ 16)
    (hm : w.bytes record = m) (hfuel : attrs.length < fuel) :
    mftRecordAttributeFrom env info w record type data fuel a =
      match firstOf m attrs type with
      | none => some (w, none)
      | some b => mftRecordAttributeFrom env info w record type data 1 b := by
  induction h generalizing fuel with
  | last hin hend =>
    obtain ⟨fuel, rfl⟩ := Nat.exists_eq_add_of_lt hfuel
    simp [mftRecordAttributeFrom, firstOf, hm, hend]
  | @next a rest hend hfits hin h ih =>
    obtain ⟨fuel, rfl⟩ : ∃ f, fuel = f + 1 := ⟨fuel - 1, by omega⟩
    have hnext : blNtfsAttributeNext m a = a + attrTotalSize m a := Nat.mod_eq_of_lt (by omega)
    by_cases htype : attrType m a = type
    · have hfirst : firstOf m (a :: rest) type = some a := by simp [firstOf, htype]
      rw [hfirst]
      simp [mftRecordAttributeFrom, hm, hend, htype]
    · have hfirst : firstOf m (a :: rest) type = firstOf m rest type := by simp [firstOf, htype]
      rw [hfirst, ← ih (by simpa using hfuel), mftRecordAttributeFrom]
      simp only [hm, hend, htype, hnext, Bool.false_eq_true, if_false, ne_eq, not_false_eq_true,
        if_true]

theorem root_here (hm : w.bytes record = m) (hend : blNtfsAttributeEnd m a = false)
    (htype : attrType m a = blNtfsAttrIndexRoot) :
    mftRecordAttributeFrom env info w record blNtfsAttrIndexRoot data 1 a =
      some (w, if Passes m false a then some ⟨record, blNtfsGetResidentAttribute m a⟩
        else none) := by
  have hnotAllocation : ¬ blNtfsAttrIndexRoot = blNtfsAttrIndexAllocation := by decide
  have hnotFileName : ¬ blNtfsAttrIndexRoot = blNtfsAttrFileName := by decide
  unfold Passes
  by_cases hform : attrNonresident m a = true
  · simp [mftRecordAttributeFrom, hm, hend, htype, hform, hnotAllocation]
  · by_cases hname : blNtfsCheckAttributeName m a blNtfsI30 = .success
    · simp [mftRecordAttributeFrom, hm, hend, htype, hform, hname, hnotFileName]
    · simp [mftRecordAttributeFrom, hm, hend, htype, hform, hname, hnotFileName]

theorem blNtfsGetIndexAllocation_eq (env : Env) (info : BlNtfsInfo) (w : World) (m : Mem)
    (a : Nat) (vcn : BitVec 64) :
    blNtfsGetIndexAllocation env info w m a (some vcn) =
      if blNtfsCheckAttributeName m a blNtfsI30 = .success then readThrough env info w m a vcn
      else some (w, none) := by
  by_cases hname : blNtfsCheckAttributeName m a blNtfsI30 = .success
  · rw [blNtfsGetIndexAllocation, if_neg (not_not.mpr hname), if_pos hname]
    cases hlcn : blNtfsVcnToLcn m a vcn with
    | none => simp only [readThrough, hlcn, Option.map_none]
    | some lcn =>
      rcases halloc : w.alloc env with ⟨w', _ | index⟩
      · simp only [readThrough, readIndexRecord, hlcn, halloc, Option.map_some]
      · simp only [readThrough, readIndexRecord, hlcn, halloc, Option.map_some]
        split_ifs <;> rfl
  · rw [blNtfsGetIndexAllocation, if_pos hname, if_neg hname]

theorem allocation_here (hm : w.bytes record = m) (hend : blNtfsAttributeEnd m a = false)
    (htype : attrType m a = blNtfsAttrIndexAllocation) :
    mftRecordAttributeFrom env info w record blNtfsAttrIndexAllocation (some vcn) 1 a =
      if Passes m true a then foundThrough env info w m a vcn else some (w, none) := by
  have hnotFileName : ¬ blNtfsAttrIndexAllocation = blNtfsAttrFileName := by decide
  have hnotRoot : ¬ blNtfsAttrIndexAllocation = blNtfsAttrIndexRoot := by decide
  unfold Passes
  by_cases hform : attrNonresident m a = true
  · by_cases hname : blNtfsCheckAttributeName m a blNtfsI30 = .success
    · simp [mftRecordAttributeFrom, hm, hend, htype, hform, hname,
        blNtfsGetIndexAllocation_eq, foundThrough]
    · simp [mftRecordAttributeFrom, hm, hend, htype, hform, hname, blNtfsGetIndexAllocation_eq]
  · simp [mftRecordAttributeFrom, hm, hend, htype, hform, hnotFileName, hnotRoot]

/-! ## Which attribute it was -/

theorem isIndex_type (h : isIndex m type nonresident a = true) :
    attrType m a = type ∧ attrNonresident m a = nonresident := by
  obtain ⟨htype, hform, -⟩ := of_decide_eq_true h
  exact ⟨htype, hform⟩

theorem firstOf_type (h : firstOf m attrs type = some a) : a ∈ attrs ∧ attrType m a = type :=
  ⟨List.mem_of_find?_eq_some h, by simpa using List.find?_some h⟩

theorem find?_isIndex_none (h : firstOf m attrs type = none) :
    attrs.find? (isIndex m type nonresident) = none := by
  rw [List.find?_eq_none]
  intro b hb hindex
  exact List.find?_eq_none.mp h b hb (decide_eq_true (isIndex_type hindex).1)

/-- The first of its type is the first of its name. -/
theorem find?_isIndex_first (h : firstOf m attrs type = some a)
    (hindex : isIndex m type nonresident a = true) :
    attrs.find? (isIndex m type nonresident) = some a := by
  obtain ⟨-, before, after, hsplit, hbefore⟩ := List.find?_eq_some_iff_append.mp h
  refine List.find?_eq_some_iff_append.mpr ⟨hindex, before, after, hsplit, fun b hb => ?_⟩
  have hother : attrType m b ≠ type := by simpa using hbefore b hb
  rw [Bool.not_eq_true', Bool.eq_false_iff]
  exact fun hb => hother (isIndex_type hb).1

theorem find?_isIndex_of_none (h : ∀ b ∈ attrs, isIndex m type nonresident b = false) :
    attrs.find? (isIndex m type nonresident) = none :=
  List.find?_eq_none.mpr fun b hb hindex => by simp [h b hb] at hindex

theorem isIndex_false_of_none (h : attrs.find? (isIndex m type nonresident) = none) :
    ∀ b ∈ attrs, isIndex m type nonresident b = false := fun b hb =>
  Bool.eq_false_iff.mpr (List.find?_eq_none.mp h b hb)

/-- Contents of attributes that are different start at different places. -/
theorem Attributes.content_inj {c : Nat} (h : Attributes m size c attrs) (ha : a ∈ attrs)
    (hb : b ∈ attrs) (hforma : attrNonresident m a = false) (hformb : attrNonresident m b = false)
    (heq : a + attrContentOffset m a = b + attrContentOffset m b) : a = b := by
  induction h with
  | last => cases ha
  | @next c rest hend hfits hin h ih =>
    have hbehind : ∀ x y, x ∈ rest → attrNonresident m x = false → attrNonresident m y = false →
        y = c → y + attrContentOffset m y < x + attrContentOffset m x := by
      intro x y hx hformx hformy hy
      obtain ⟨hle, -, hfitsx, -⟩ := h.fits hx
      have hcontentx := (hfitsx.content hformx).1
      have hcontenty := (hfits.content (hy ▸ hformy)).2
      subst hy
      omega
    rcases List.mem_cons.mp ha with hac | ha
    · rcases List.mem_cons.mp hb with hbc | hb
      · exact hac.trans hbc.symm
      · exact absurd heq (hbehind b a hb hformb hforma hac).ne
    · rcases List.mem_cons.mp hb with hbc | hb
      · exact absurd heq (hbehind a b ha hforma hformb hbc).ne'
      · exact ih ha hb

theorem MftRecord.content_eq (h : MftRecord m size attrs) (ha : a ∈ attrs)
    (hform : attrNonresident m a = false) :
    blNtfsGetResidentAttribute m a = a + attrContentOffset m a := by
  obtain ⟨-, hin, hfits, -⟩ := h.attributes.fits ha
  have hcontent := (hfits.content hform).2
  have hsize := h.size_lt
  exact Nat.mod_eq_of_lt (by rw [attrContentOffset] at hcontent; omega)

/-! ## Worlds that tell run lists apart -/

/-- A disk whose only index record is at cluster `lcn`, of one sector. -/
def onlyAt (lcn : Nat) : Env where
  allocs _ := true
  reads _ := .success
  disk i := if i / 512 = lcn then [0x49, 0x4e, 0x44, 0x58].getD (i % 512) 0 else 0

def sectorClusters : BlNtfsInfo := ⟨0, 512, 512, 0, 1024, ⟨1, 0⟩⟩

/-- The record in block 0, and an index root in block 1. -/
def recordWorld (m : Mem) : World where
  next := 2
  bytes b := if b = 0 then m else fun i => if b = 1 ∧ i = 8 then 4 else 0
  used b := b < 2
  allocs := 0
  reads := 0
  freed := []

theorem recordWorld_bytes (m : Mem) : (recordWorld m).bytes 0 = m := rfl

theorem onlyAt_indx (lcn lba : Nat) (old : Mem) :
    blNtfsIndx ((onlyAt lcn).delivered old lba 4) = decide (lba = lcn) := by
  by_cases heq : lba = lcn
  · simp [blNtfsIndx, Env.delivered, onlyAt, heq]
    omega
  · simp [blNtfsIndx, Env.delivered, onlyAt, heq]

theorem readIndexRecord_onlyAt (m : Mem) (lcn lcn' : BitVec 64) :
    (readIndexRecord (onlyAt lcn.toNat) sectorClusters (recordWorld m) lcn').2 =
      if lcn' = lcn then some 2 else none := by
  have hlba : (blNtfsLcnToLba sectorClusters lcn').toNat = lcn'.toNat := by
    have hshift : Utils.shiftCount (Utils.blLog2 (512 / 512)) = 0 := by decide
    simp [blNtfsLcnToLba, sectorClusters, hshift]
  have hserved : (onlyAt lcn.toNat).allocs (recordWorld m).allocs = true := rfl
  obtain ⟨w', halloc, hnext, hbytes⟩ := alloc_served hserved
  have hsize : indexRecordSize w' sectorClusters = 4 := by
    rw [indexRecordSize, hbytes]
    rfl
  have hread : (w'.read (onlyAt lcn.toNat) 2 lcn'.toNat 4).1.bytes 2 = _ :=
    read_bytes_eq rfl 2 lcn'.toNat 4
  have hstatus := read_status (onlyAt lcn.toNat) w' 2 lcn'.toNat 4
  have hsame : lcn'.toNat = lcn.toNat ↔ lcn' = lcn := BitVec.toNat_inj
  simp only [readIndexRecord, halloc, hlba, hsize]
  change (if (w'.read _ 2 _ 4).2 ≠ _ ∨ blNtfsIndx ((w'.read _ 2 _ 4).1.bytes 2) = false then _
    else (_, some 2)).2 = _
  rw [hread, hstatus, onlyAt_indx]
  by_cases heq : lcn' = lcn
  · simp [heq, onlyAt]
  · simp [heq, hsame]

theorem foundThrough_onlyAt (lcn : BitVec 64) {lcn' : BitVec 64}
    (h : blNtfsVcnToLcn m a vcn = some lcn') :
    ∃ w', foundThrough (onlyAt lcn.toNat) sectorClusters (recordWorld m) m a vcn =
      some (w', if lcn' = lcn then some ⟨2, 0⟩ else none) := by
  have hrecord := readIndexRecord_onlyAt m lcn lcn'
  rw [foundThrough, readThrough, h]
  refine ⟨_, congrArg some (Prod.ext rfl ?_)⟩
  change ((readIndexRecord _ _ _ lcn').2).map _ = _
  rw [hrecord]
  split_ifs <;> rfl

theorem foundThrough_ne (m : Mem) (a : Nat) (vcn : BitVec 64) :
    ∃ env info, foundThrough env info (recordWorld m) m a vcn ≠ some (recordWorld m, none) := by
  cases hlcn : blNtfsVcnToLcn m a vcn with
  | none => exact ⟨onlyAt 0, sectorClusters, by simp [foundThrough, readThrough, hlcn]⟩
  | some lcn =>
    refine ⟨onlyAt lcn.toNat, sectorClusters, ?_⟩
    obtain ⟨w', hfound⟩ := foundThrough_onlyAt lcn hlcn
    rw [hfound, if_pos rfl]
    simp

/-- Run lists through which the same is found, whatever the disk holds, lead to the same places. -/
theorem vcnToLcn_eq_of_foundThrough
    (h : ∀ env info, foundThrough env info (recordWorld m) m a vcn =
      foundThrough env info (recordWorld m) m b vcn) :
    blNtfsVcnToLcn m a vcn = blNtfsVcnToLcn m b vcn := by
  cases ha : blNtfsVcnToLcn m a vcn with
  | none =>
    have hnone := h (onlyAt 0) sectorClusters
    cases hb : blNtfsVcnToLcn m b vcn with
    | none => rfl
    | some lcn => simp [foundThrough, readThrough, ha, hb] at hnone
  | some lcn =>
    have hsome := h (onlyAt lcn.toNat) sectorClusters
    obtain ⟨w', hfound⟩ := foundThrough_onlyAt lcn ha
    rw [hfound, if_pos rfl] at hsome
    cases hb : blNtfsVcnToLcn m b vcn with
    | none => simp [foundThrough, readThrough, hb] at hsome
    | some lcn' =>
      obtain ⟨w'', hfound'⟩ := foundThrough_onlyAt lcn hb
      rw [hfound'] at hsome
      by_cases heq : lcn' = lcn
      · rw [heq]
      · simp [heq] at hsome

/-! ## The first of its type decides -/

theorem root_found (h : MftRecord m size attrs) (hm : w.bytes record = m)
    (hfuel : attrs.length < fuel) :
    blNtfsGetMftRecordAttribute env info fuel w record blNtfsAttrIndexRoot data =
      some (w, match firstOf m attrs blNtfsAttrIndexRoot with
        | none => none
        | some a =>
          if Passes m false a then some ⟨record, a + attrContentOffset m a⟩ else none) := by
  rw [blNtfsGetMftRecordAttribute, hm,
    mftRecordAttributeFrom_eq h.attributes h.size_lt hm hfuel]
  cases hfirst : firstOf m attrs blNtfsAttrIndexRoot with
  | none => rfl
  | some a =>
    obtain ⟨hmem, htype⟩ := firstOf_type hfirst
    obtain ⟨-, -, -, hend⟩ := h.attributes.fits hmem
    simp only [root_here hm hend htype]
    by_cases hpasses : Passes m false a
    · rw [if_pos hpasses, if_pos hpasses, h.content_eq hmem hpasses.1]
    · rw [if_neg hpasses, if_neg hpasses]

theorem allocation_found (h : MftRecord m size attrs) (hm : w.bytes record = m)
    (hfuel : attrs.length < fuel) :
    blNtfsGetMftRecordAttribute env info fuel w record blNtfsAttrIndexAllocation (some vcn) =
      match firstOf m attrs blNtfsAttrIndexAllocation with
      | none => some (w, none)
      | some a => if Passes m true a then foundThrough env info w m a vcn else some (w, none) := by
  rw [blNtfsGetMftRecordAttribute, hm,
    mftRecordAttributeFrom_eq h.attributes h.size_lt hm hfuel]
  cases hfirst : firstOf m attrs blNtfsAttrIndexAllocation with
  | none => rfl
  | some a =>
    obtain ⟨hmem, htype⟩ := firstOf_type hfirst
    obtain ⟨-, -, -, hend⟩ := h.attributes.fits hmem
    simp only [allocation_here hm hend htype]

theorem rootLookup_iff (h : MftRecord m size attrs) :
    (∀ env info fuel w record data, w.bytes record = m → attrs.length < fuel →
      blNtfsGetMftRecordAttribute env info fuel w record blNtfsAttrIndexRoot data =
        some (w, (attrs.find? (isIndex m blNtfsAttrIndexRoot false)).map fun attr =>
          ⟨record, attr + attrContentOffset m attr⟩)) ↔
      FirstDecides m attrs blNtfsAttrIndexRoot false := by
  constructor
  · intro hlookup a hfirst
    have hfound := hlookup (onlyAt 0) sectorClusters _ (recordWorld m) 0 none rfl
      (Nat.lt_succ_self _)
    rw [root_found h rfl (Nat.lt_succ_self _), hfirst, Option.some.injEq, Prod.mk.injEq] at hfound
    obtain ⟨-, hfound⟩ := hfound
    cases hnamed : attrs.find? (isIndex m blNtfsAttrIndexRoot false) with
    | none =>
      refine Or.inr ⟨fun hpasses => ?_, isIndex_false_of_none hnamed⟩
      simp [hnamed, hpasses] at hfound
    | some b =>
      by_cases hpasses : Passes m false a
      · have hb := List.find?_some hnamed
        have hplace : a + attrContentOffset m a = b + attrContentOffset m b := by
          simpa [hnamed, hpasses] using hfound
        have hab : a = b := h.attributes.content_inj (firstOf_type hfirst).1
          (List.mem_of_find?_eq_some hnamed) hpasses.1 (isIndex_type hb).2 hplace
        exact Or.inl ⟨hpasses, hab ▸ hb⟩
      · simp [hnamed, hpasses] at hfound
  · intro hdecides env info fuel w record data hm hfuel
    rw [root_found h hm hfuel]
    cases hfirst : firstOf m attrs blNtfsAttrIndexRoot with
    | none => rw [find?_isIndex_none hfirst]; rfl
    | some a =>
      rcases hdecides a hfirst with ⟨hpasses, hindex⟩ | ⟨hpasses, hnone⟩
      · rw [find?_isIndex_first hfirst hindex]
        simp [hpasses]
      · rw [find?_isIndex_of_none hnone]
        simp [hpasses]

theorem allocationLookup_iff (h : MftRecord m size attrs) :
    (∀ env info fuel w record vcn, w.bytes record = m → attrs.length < fuel →
      blNtfsGetMftRecordAttribute env info fuel w record blNtfsAttrIndexAllocation (some vcn) =
        match attrs.find? (isIndex m blNtfsAttrIndexAllocation true) with
        | none => some (w, none)
        | some attr => foundThrough env info w m attr vcn) ↔
      FirstDecides m attrs blNtfsAttrIndexAllocation true ∨ SharesRuns m attrs := by
  constructor
  · intro hlookup
    cases hfirst : firstOf m attrs blNtfsAttrIndexAllocation with
    | none => exact Or.inl fun a ha => by simp [hfirst] at ha
    | some a =>
      have hfound : ∀ env info vcn,
          (if Passes m true a then foundThrough env info (recordWorld m) m a vcn
            else some (recordWorld m, none)) =
          match attrs.find? (isIndex m blNtfsAttrIndexAllocation true) with
          | none => some (recordWorld m, none)
          | some attr => foundThrough env info (recordWorld m) m attr vcn := by
        intro env info vcn
        rw [← hlookup env info _ (recordWorld m) 0 vcn rfl (Nat.lt_succ_self _),
          allocation_found h rfl (Nat.lt_succ_self _), hfirst]
      cases hnamed : attrs.find? (isIndex m blNtfsAttrIndexAllocation true) with
      | none =>
        refine Or.inl fun a' ha' => Or.inr ⟨fun hpasses => ?_, isIndex_false_of_none hnamed⟩
        obtain rfl : a = a' := Option.some.inj (hfirst.symm.trans ha')
        obtain ⟨env, info, hne⟩ := foundThrough_ne m a 0
        exact hne (by simpa [hnamed, hpasses] using hfound env info 0)
      | some b =>
        by_cases hpasses : Passes m true a
        · refine Or.inr ⟨a, b, hfirst, hpasses, hnamed, fun vcn => ?_⟩
          refine vcnToLcn_eq_of_foundThrough fun env info => ?_
          simpa [hnamed, hpasses] using hfound env info vcn
        · obtain ⟨env, info, hne⟩ := foundThrough_ne m b 0
          exact absurd (by simpa [hnamed, hpasses] using (hfound env info 0).symm) hne
  · intro hdecides env info fuel w record vcn hm hfuel
    rw [allocation_found h hm hfuel]
    rcases hdecides with hdecides | ⟨a, b, hfirst, hpasses, hnamed, hruns⟩
    · cases hfirst : firstOf m attrs blNtfsAttrIndexAllocation with
      | none => rw [find?_isIndex_none hfirst]
      | some a =>
        rcases hdecides a hfirst with ⟨hpasses, hindex⟩ | ⟨hpasses, hnone⟩
        · rw [find?_isIndex_first hfirst hindex]
          simp [hpasses]
        · rw [find?_isIndex_of_none hnone]
          simp [hpasses]
    · simp only [hfirst, hnamed, if_pos hpasses, foundThrough, readThrough, hruns vcn]

/-- Attributes are looked up by their name exactly when the first of each type decides. -/
theorem attribute_lookup_iff (h : MftRecord m size attrs) :
    LookupRight m attrs ↔ FirstDecides m attrs blNtfsAttrIndexRoot false ∧
      (FirstDecides m attrs blNtfsAttrIndexAllocation true ∨ SharesRuns m attrs) := by
  rw [← rootLookup_iff h, ← allocationLookup_iff h]
  exact ⟨fun hright => ⟨hright.root, hright.allocation⟩, fun hright => ⟨hright.1, hright.2⟩⟩

/-! ## A name that the index's begins with -/

/-- An index root at 56, named `$I3`, and one at 96, named `$I30`. -/
def twoRoots : Mem := ofPieces
  [(20, bytesLE 2 56), (56, bytesLE 4 0x90 ++ bytesLE 4 40 ++ [0, 3] ++ bytesLE 2 24),
    (72, bytesLE 4 8 ++ bytesLE 2 32), (80, [0x24, 0, 0x49, 0, 0x33, 0]),
    (96, bytesLE 4 0x90 ++ bytesLE 4 40 ++ [0, 4] ++ bytesLE 2 24),
    (112, bytesLE 4 8 ++ bytesLE 2 32), (120, [0x24, 0, 0x49, 0, 0x33, 0, 0x30, 0]),
    (136, bytesLE 4 0xffffffff)]

theorem twoRoots_record : MftRecord twoRoots 1024 [56, 96] where
  size_lt := by decide
  attributes := by
    have hfirst : AttributeFits twoRoots 56 :=
      ⟨by decide, by decide, by decide, by decide⟩
    have hsecond : AttributeFits twoRoots 96 :=
      ⟨by decide, by decide, by decide, by decide⟩
    exact .next (by decide) hfirst (by decide)
      (.next (by decide) hsecond (by decide) (.last (by decide) (by decide)))

theorem twoRoots_lookup_iff :
    LookupRight twoRoots [56, 96] ↔ FirstDecides twoRoots [56, 96] blNtfsAttrIndexRoot false ∧
      (FirstDecides twoRoots [56, 96] blNtfsAttrIndexAllocation true ∨
        SharesRuns twoRoots [56, 96]) :=
  attribute_lookup_iff twoRoots_record

/-- The content of `$I3`, at 88, is taken for the one of `$I30`, at 128. -/
theorem twoRoots_not_looked_up :
    ¬ ∀ m size attrs, MftRecord m size attrs → LookupRight m attrs := by
  intro h
  have hroot := (h _ _ _ twoRoots_record).root (onlyAt 0) sectorClusters 3 (recordWorld twoRoots) 0
    none rfl (by decide)
  have hplace : (some ⟨0, 88⟩ : Option Ptr) = some ⟨0, 128⟩ :=
    congrArg (fun r => r.bind Prod.snd) hroot
  exact absurd hplace (by decide)

end BootLoader.Ntfs

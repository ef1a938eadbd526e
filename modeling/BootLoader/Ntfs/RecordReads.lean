import BootLoader.Lib.Fuel
import BootLoader.Ntfs.Attributes

/-!
# What a lookup reads of an MFT record

Each read of `bl_ntfs_get_mft_record_attribute` in the record is kept: of the headers, of a name
that is compared, and of a run list. `WalksInside` says when the walk ends with all of them inside.
-/

open ByteMemory Filter

namespace BootLoader.Ntfs

open Driver

/-! ## The reads -/

/-- `len` bytes from `place` on, in a buffer of `size` bytes. -/
structure Read where
  size : Nat
  place : Nat
  len : Nat

def Read.Inside (r : Read) : Prop := r.place + r.len ≤ r.size

def AllInside (reads : List Read) : Prop := ∀ r ∈ reads, r.Inside

/-- `bl_wcsncmp`, in the name. -/
def wcsncmpReads (m : Mem) (size : Nat) : List Nat → Nat → Nat → List Read
  | [], _, _ => []
  | c :: rest, s2, n =>
    ⟨size, s2, 2⟩ ::
      if c = read16 m s2 ∧ c ≠ 0 ∧ n - 1 ≠ 0 then wcsncmpReads m size rest (s2 + 2) (n - 1) else []

def headerName (m : Mem) (attr : Nat) : Nat :=
  if attrNonresident m attr then attr + 64 else attr + 24

/-- `bl_ntfs_check_attribute_name`. -/
def checkNameReads (m : Mem) (size attr : Nat) : List Read :=
  ⟨size, attr + 9, 1⟩ ::
    if attrNameLength m attr = 0 then []
    else wcsncmpReads m size blNtfsI30 (headerName m attr) (attrNameLength m attr)

/-- `bl_ntfs_read_bytes`: eight bytes, whatever the length, and none for the length 0. -/
def readBytesReads (size ptr length : Nat) : List Read :=
  if length = 0 then [] else [⟨size, ptr, 8⟩]

/-- The loop of `bl_ntfs_vcn_to_lcn`. -/
def runReads (m : Mem) (size : Nat) (vcn : BitVec 64) : Nat → Nat → BitVec 64 → List Read
  | 0, _, _ => []
  | fuel + 1, run, cluster =>
    let head := (m run).toNat
    ⟨size, run, 1⟩ ::
      if head = 0 then []
      else
        let runLength := head &&& 7
        let runOffset := (head >>> 4) &&& 7
        let cluster := cluster + blNtfsReadBytes m (1 + run) runLength
        readBytesReads size (1 + run) runLength ++
          readBytesReads size (1 + run + runLength) runOffset ++
          if vcn ≤ cluster then []
          else runReads m size vcn fuel ((run + (1 + runLength + runOffset)) % 2 ^ 32) cluster

/-- `bl_ntfs_get_index_allocation`, in the record. -/
def indexAllocationReads (m : Mem) (size attr : Nat) (data : Option (BitVec 64)) : List Read :=
  checkNameReads m size attr ++
    if blNtfsCheckAttributeName m attr blNtfsI30 ≠ .success then []
    else
      match data with
      | none => []
      | some vcn =>
        ⟨size, attr + 32, 2⟩ :: runReads m size (mftRecord vcn) runFuel (dataRuns m attr) 0

/-- What is done with the first attribute of the type. -/
def foundReads (m : Mem) (size type : Nat) (data : Option (BitVec 64)) (attr : Nat) : List Read :=
  ⟨size, attr + 8, 1⟩ ::
    if attrNonresident m attr then
      if type = blNtfsAttrIndexAllocation then indexAllocationReads m size attr data else []
    else if type = blNtfsAttrFileName then [⟨size, attr + 20, 2⟩]
    else if type = blNtfsAttrIndexRoot then
      checkNameReads m size attr ++
        if blNtfsCheckAttributeName m attr blNtfsI30 ≠ .success then []
        else [⟨size, attr + 20, 2⟩]
    else []

/-- The walk of `bl_ntfs_get_mft_record_attribute`. -/
def attributeReads (m : Mem) (size type : Nat) (data : Option (BitVec 64)) : Nat → Nat → List Read
  | 0, _ => []
  | fuel + 1, attr =>
    ⟨size, attr, 4⟩ ::
      if blNtfsAttributeEnd m attr then []
      else if attrType m attr ≠ type then
        ⟨size, attr + 4, 4⟩ ::
          attributeReads m size type data fuel (blNtfsAttributeNext m attr)
      else foundReads m size type data attr

/-- The lookup ends, and reads nothing outside the record. -/
def LookupSurvives (env : Env) (info : BlNtfsInfo) (w : World) (record type : Nat)
    (data : Option (BitVec 64)) : Prop :=
  ∃ fuel found, blNtfsGetMftRecordAttribute env info fuel w record type data = some found ∧
    AllInside (attributeReads (w.bytes record) info.mftRecordSize type data fuel
      (blNtfsAttributeFirst (w.bytes record)))

/-! ## Records that are walked inside -/

/-- The runs from `run` on are inside the record, up to the one with the VCN or to the end of the
list. -/
inductive RunsInside (m : Mem) (size : Nat) (vcn : BitVec 64) : Nat → BitVec 64 → Prop
  | last {run : Nat} {cluster : BitVec 64} (hhead : run + 1 ≤ size) (hend : (m run).toNat = 0) :
    RunsInside m size vcn run cluster
  | here {run : Nat} {cluster : BitVec 64} (hhead : run + 1 ≤ size) (hend : (m run).toNat ≠ 0)
    (hlength : (m run).toNat &&& 7 ≠ 0 → run + 9 ≤ size)
    (hoffset : (m run).toNat >>> 4 &&& 7 ≠ 0 → run + ((m run).toNat &&& 7) + 9 ≤ size)
    (hvcn : vcn ≤ cluster + blNtfsReadBytes m (1 + run) ((m run).toNat &&& 7)) :
    RunsInside m size vcn run cluster
  | next {run : Nat} {cluster : BitVec 64} (hhead : run + 1 ≤ size) (hend : (m run).toNat ≠ 0)
    (hlength : (m run).toNat &&& 7 ≠ 0 → run + 9 ≤ size)
    (hoffset : (m run).toNat >>> 4 &&& 7 ≠ 0 → run + ((m run).toNat &&& 7) + 9 ≤ size)
    (hvcn : ¬ vcn ≤ cluster + blNtfsReadBytes m (1 + run) ((m run).toNat &&& 7))
    (h : RunsInside m size vcn
      (run + (1 + ((m run).toNat &&& 7) + ((m run).toNat >>> 4 &&& 7)))
      (cluster + blNtfsReadBytes m (1 + run) ((m run).toNat &&& 7))) :
    RunsInside m size vcn run cluster

/-- The name behind the header is inside, as far as it is the one looked for. -/
def NameInside (m : Mem) (size attr : Nat) : Prop :=
  attr + 10 ≤ size ∧ ∀ k < min (attrNameLength m attr) blNtfsI30.length,
    (∀ j < k, read16 m (headerName m attr + 2 * j) = blNtfsI30.getD j 0) →
      headerName m attr + 2 * k + 2 ≤ size

/-- The attribute that decides is inside, with what is used of it. -/
structure FoundInside (m : Mem) (size type : Nat) (data : Option (BitVec 64)) (attr : Nat) :
    Prop where
  form : attr + 9 ≤ size
  allocation : attrNonresident m attr = true → type = blNtfsAttrIndexAllocation →
    NameInside m size attr ∧ (blNtfsCheckAttributeName m attr blNtfsI30 = .success →
      ∀ vcn, data = some vcn →
        attr + 34 ≤ size ∧ RunsInside m size (mftRecord vcn) (dataRuns m attr) 0)
  root : attrNonresident m attr = false → type = blNtfsAttrIndexRoot →
    NameInside m size attr ∧
      (blNtfsCheckAttributeName m attr blNtfsI30 = .success → attr + 22 ≤ size)
  filename : attrNonresident m attr = false → type = blNtfsAttrFileName → attr + 22 ≤ size

/-- From `attr` on the attributes are inside, and lead to the end marker or to the type. -/
inductive WalksInside (m : Mem) (size type : Nat) (data : Option (BitVec 64)) : Nat → Prop
  | stop {attr : Nat} (hin : attr + 4 ≤ size) (hend : blNtfsAttributeEnd m attr = true) :
    WalksInside m size type data attr
  | found {attr : Nat} (hin : attr + 4 ≤ size) (hend : blNtfsAttributeEnd m attr = false)
    (htype : attrType m attr = type) (hfound : FoundInside m size type data attr) :
    WalksInside m size type data attr
  | next {attr : Nat} (hin : attr + 8 ≤ size) (hend : blNtfsAttributeEnd m attr = false)
    (htype : attrType m attr ≠ type)
    (h : WalksInside m size type data (blNtfsAttributeNext m attr)) :
    WalksInside m size type data attr

variable {m : Mem} {size attr type record fuel : Nat} {env : Env} {info : BlNtfsInfo} {w : World}
  {data : Option (BitVec 64)} {vcn : BitVec 64}

/-! ## Names -/

@[simp] theorem allInside_nil : AllInside [] := fun _ h => absurd h List.not_mem_nil

@[simp] theorem allInside_cons {r : Read} {reads : List Read} :
    AllInside (r :: reads) ↔ r.Inside ∧ AllInside reads :=
  List.forall_mem_cons

@[simp] theorem allInside_append {reads reads' : List Read} :
    AllInside (reads ++ reads') ↔ AllInside reads ∧ AllInside reads' :=
  List.forall_mem_append

@[simp] theorem inside_mk {size place len : Nat} :
    Read.Inside ⟨size, place, len⟩ ↔ place + len ≤ size := Iff.rfl

theorem wcsncmpReads_inside_iff {s1 : List Nat} {s2 n : Nat} :
    AllInside (wcsncmpReads m size s1 s2 (n + 1)) ↔ ∀ k < min (n + 1) s1.length,
      (∀ j < k, read16 m (s2 + 2 * j) = s1.getD j 0 ∧ s1.getD j 0 ≠ 0) → s2 + 2 * k + 2 ≤ size := by
  induction s1 generalizing s2 n with
  | nil => simp [wcsncmpReads]
  | cons c rest ih =>
    have hshift : ∀ j, s2 + 2 * (j + 1) = s2 + 2 + 2 * j := by omega
    rw [wcsncmpReads, allInside_cons, inside_mk, Nat.add_sub_cancel]
    constructor
    · rintro ⟨hhead, hrest⟩ k hk hbefore
      rw [List.length_cons] at hk
      cases k with
      | zero => exact hhead
      | succ k =>
        obtain ⟨n, rfl⟩ : ∃ n', n = n' + 1 := ⟨n - 1, by omega⟩
        obtain ⟨hsame, hne⟩ := hbefore 0 (by omega)
        rw [if_pos ⟨hsame.symm, hne, Nat.succ_ne_zero n⟩, ih] at hrest
        rw [hshift]
        refine hrest k (by omega) fun j hj => ?_
        rw [← hshift]
        exact hbefore (j + 1) (by omega)
    · intro h
      refine ⟨h 0 (by simp) fun j hj => absurd hj (by omega), ?_⟩
      split_ifs with hgoes
      · obtain ⟨hsame, hne, hmore⟩ := hgoes
        obtain ⟨n, rfl⟩ : ∃ n', n = n' + 1 := ⟨n - 1, by omega⟩
        rw [ih]
        intro k hk hbefore
        rw [← hshift]
        refine h (k + 1) (by rw [List.length_cons]; omega) fun j hj => ?_
        cases j with
        | zero => exact ⟨hsame.symm, hne⟩
        | succ j =>
          rw [hshift]
          exact hbefore j (by omega)
      · exact allInside_nil

theorem checkNameReads_inside_iff :
    AllInside (checkNameReads m size attr) ↔ NameInside m size attr := by
  have hnonzero : ∀ k < blNtfsI30.length, ∀ j < k, blNtfsI30.getD j 0 ≠ 0 := by decide
  rw [checkNameReads, allInside_cons, inside_mk, NameInside]
  refine and_congr_right fun _ => ?_
  cases hlength : attrNameLength m attr with
  | zero => simp
  | succ n =>
    rw [if_neg (Nat.succ_ne_zero n), wcsncmpReads_inside_iff]
    refine forall₂_congr fun k hk => ?_
    have hbound : k < blNtfsI30.length := hk.trans_le (min_le_right _ _)
    constructor
    · exact fun h hbefore => h fun j hj => ⟨hbefore j hj, hnonzero k hbound j hj⟩
    · exact fun h hbefore => h fun j hj => (hbefore j hj).1

/-! ## Run lists -/

theorem readBytesReads_inside_iff {ptr length : Nat} :
    AllInside (readBytesReads size ptr length) ↔ (length ≠ 0 → ptr + 8 ≤ size) := by
  unfold readBytesReads
  by_cases hzero : length = 0
  · simp [hzero]
  · simp [hzero]

theorem runReads_succ_inside_iff {run : Nat} {cluster : BitVec 64} :
    AllInside (runReads m size vcn (fuel + 1) run cluster) ↔ run + 1 ≤ size ∧
      ((m run).toNat ≠ 0 → ((m run).toNat &&& 7 ≠ 0 → run + 9 ≤ size) ∧
        ((m run).toNat >>> 4 &&& 7 ≠ 0 → run + ((m run).toNat &&& 7) + 9 ≤ size) ∧
        (¬ vcn ≤ cluster + blNtfsReadBytes m (1 + run) ((m run).toNat &&& 7) →
          AllInside (runReads m size vcn fuel
            ((run + (1 + ((m run).toNat &&& 7) + ((m run).toNat >>> 4 &&& 7))) % 2 ^ 32)
            (cluster + blNtfsReadBytes m (1 + run) ((m run).toNat &&& 7))))) := by
  have hlength : 1 + run + 8 = run + 9 := by omega
  have hoffset : 1 + run + ((m run).toNat &&& 7) + 8 = run + ((m run).toNat &&& 7) + 9 := by omega
  rw [runReads, allInside_cons, inside_mk]
  refine and_congr_right fun _ => ?_
  by_cases hend : (m run).toNat = 0
  · simp [hend]
  · simp only [hend, if_false, allInside_append, readBytesReads_inside_iff, hlength, hoffset,
      and_assoc, not_false_eq_true, true_imp_iff, ne_eq]
    refine and_congr_right fun _ => and_congr_right fun _ => ?_
    split_ifs with hvcn
    · exact iff_of_true allInside_nil fun hnot => absurd hvcn hnot
    · exact (true_imp_iff.symm.trans (imp_congr_left (iff_of_true trivial hvcn)))

theorem runsInside_of_reads (hsize : size < 2 ^ 16) {run : Nat} {cluster offset lcn : BitVec 64}
    (hrun : vcnToLcnFrom m vcn fuel run cluster offset = some lcn)
    (hreads : AllInside (runReads m size vcn fuel run cluster)) :
    RunsInside m size vcn run cluster := by
  induction fuel generalizing run cluster offset with
  | zero => cases hrun
  | succ fuel ih =>
    rw [runReads_succ_inside_iff] at hreads
    obtain ⟨hhead, hrest⟩ := hreads
    by_cases hend : (m run).toNat = 0
    · exact .last hhead hend
    · obtain ⟨hlength, hoffset, hmore⟩ := hrest hend
      rw [vcnToLcnFrom] at hrun
      dsimp only at hrun
      rw [if_neg hend] at hrun
      split_ifs at hrun with hvcn
      · exact .here hhead hend hlength hoffset hvcn
      · have hbits := Nat.and_le_right (n := (m run).toNat) (m := 7)
        have hbits' := Nat.and_le_right (n := (m run).toNat >>> 4) (m := 7)
        have hnext := ih hrun (hmore hvcn)
        rw [Nat.mod_eq_of_lt (by omega)] at hnext
        exact .next hhead hend hlength hoffset hvcn hnext

/-- Runs inside the record come to an end, each being behind the one before it. -/
theorem RunsInside.reads (hsize : size < 2 ^ 16) {run : Nat} {cluster : BitVec 64}
    (h : RunsInside m size vcn run cluster) (offset : BitVec 64) (hfuel : size < fuel + run) :
    (∃ lcn, vcnToLcnFrom m vcn fuel run cluster offset = some lcn) ∧
      AllInside (runReads m size vcn fuel run cluster) := by
  induction h generalizing offset fuel with
  | last hhead hend =>
    obtain ⟨fuel, rfl⟩ : ∃ f, fuel = f + 1 := ⟨fuel - 1, by omega⟩
    rw [runReads_succ_inside_iff]
    exact ⟨⟨_, by rw [vcnToLcnFrom, if_pos hend]⟩, hhead, fun hne => absurd hend hne⟩
  | here hhead hend hlength hoffset hvcn =>
    obtain ⟨fuel, rfl⟩ : ∃ f, fuel = f + 1 := ⟨fuel - 1, by omega⟩
    rw [runReads_succ_inside_iff, vcnToLcnFrom]
    dsimp only
    rw [if_neg hend, if_pos hvcn]
    exact ⟨⟨_, rfl⟩, hhead, fun _ => ⟨hlength, hoffset, fun hnot => absurd hvcn hnot⟩⟩
  | @next run cluster hhead hend hlength hoffset hvcn h ih =>
    obtain ⟨fuel, rfl⟩ : ∃ f, fuel = f + 1 := ⟨fuel - 1, by omega⟩
    have hbits := Nat.and_le_right (n := (m run).toNat) (m := 7)
    have hbits' := Nat.and_le_right (n := (m run).toNat >>> 4) (m := 7)
    rw [runReads_succ_inside_iff, vcnToLcnFrom]
    dsimp only
    rw [if_neg hend, if_neg hvcn, Nat.mod_eq_of_lt (by omega)]
    obtain ⟨hfound, hreads⟩ := ih
      (offset + blNtfsReadBytes m (1 + run + ((m run).toNat &&& 7)) ((m run).toNat >>> 4 &&& 7))
      (show size < fuel + (run + (1 + ((m run).toNat &&& 7) + ((m run).toNat >>> 4 &&& 7))) by
        omega)
    exact ⟨hfound, hhead, fun _ => ⟨hlength, hoffset, fun _ => hreads⟩⟩

/-! ## The attribute that decides -/

theorem vcnToLcn_inside_iff (hsize : size < 2 ^ 16) :
    (∃ lcn, blNtfsVcnToLcn m attr vcn = some lcn) ∧
        AllInside (runReads m size (mftRecord vcn) runFuel (dataRuns m attr) 0) ↔
      RunsInside m size (mftRecord vcn) (dataRuns m attr) 0 := by
  constructor
  · rintro ⟨⟨lcn, hlcn⟩, hreads⟩
    exact runsInside_of_reads hsize hlcn hreads
  · intro h
    have henough : size < runFuel + dataRuns m attr := by
      unfold runFuel
      omega
    exact h.reads hsize 0 henough

theorem indexAllocation_inside_iff (env : Env) (info : BlNtfsInfo) (w : World)
    (data : Option (BitVec 64)) (hsize : size < 2 ^ 16) :
    (∃ out, blNtfsGetIndexAllocation env info w m attr data = some out) ∧
        AllInside (indexAllocationReads m size attr data) ↔
      NameInside m size attr ∧ (blNtfsCheckAttributeName m attr blNtfsI30 = .success →
        ∀ vcn, data = some vcn →
          attr + 34 ≤ size ∧ RunsInside m size (mftRecord vcn) (dataRuns m attr) 0) := by
  unfold indexAllocationReads
  rw [allInside_append, checkNameReads_inside_iff]
  by_cases hname : blNtfsCheckAttributeName m attr blNtfsI30 = .success
  · rw [if_neg (not_not.mpr hname)]
    cases data with
    | none =>
      have hout : ∃ out, blNtfsGetIndexAllocation env info w m attr none = some out :=
        ⟨(w, none), by simp [blNtfsGetIndexAllocation, hname]⟩
      simp [hout]
    | some vcn =>
      have hout : (∃ out, blNtfsGetIndexAllocation env info w m attr (some vcn) = some out) ↔
          ∃ lcn, blNtfsVcnToLcn m attr vcn = some lcn := by
        rw [blNtfsGetIndexAllocation_eq, if_pos hname, readThrough]
        cases blNtfsVcnToLcn m attr vcn <;> simp
      rw [hout, allInside_cons, inside_mk]
      simp only [hname, Option.some.injEq, forall_eq', true_imp_iff]
      rw [← vcnToLcn_inside_iff hsize]
      tauto
  · have hout : ∃ out, blNtfsGetIndexAllocation env info w m attr data = some out :=
      ⟨(w, none), by simp [blNtfsGetIndexAllocation, hname]⟩
    simp [hout, hname]

theorem rootReads_inside_iff :
    AllInside (checkNameReads m size attr ++
        if blNtfsCheckAttributeName m attr blNtfsI30 ≠ .success then []
        else [⟨size, attr + 20, 2⟩]) ↔
      NameInside m size attr ∧
        (blNtfsCheckAttributeName m attr blNtfsI30 = .success → attr + 22 ≤ size) := by
  rw [allInside_append, checkNameReads_inside_iff]
  by_cases hname : blNtfsCheckAttributeName m attr blNtfsI30 = .success
  · simp [hname]
  · simp [hname]

theorem found_inside_iff (hsize : size < 2 ^ 16) (hm : w.bytes record = m)
    (hend : blNtfsAttributeEnd m attr = false) (htype : attrType m attr = type) :
    (∃ found, mftRecordAttributeFrom env info w record type data (fuel + 1) attr = some found) ∧
        AllInside (foundReads m size type data attr) ↔ FoundInside m size type data attr := by
  have hallocation : ¬ blNtfsAttrIndexAllocation = blNtfsAttrFileName ∧
      ¬ blNtfsAttrIndexAllocation = blNtfsAttrIndexRoot := by decide
  have hrootNot : ¬ blNtfsAttrIndexRoot = blNtfsAttrFileName := by decide
  rw [foundReads, allInside_cons, inside_mk, and_left_comm]
  by_cases hform : attrNonresident m attr = true
  · have hnot : ¬ attrNonresident m attr = false := by simp [hform]
    by_cases hindex : type = blNtfsAttrIndexAllocation
    · have hcode : (∃ found, mftRecordAttributeFrom env info w record type data (fuel + 1) attr =
          some found) ↔ ∃ out, blNtfsGetIndexAllocation env info w m attr data = some out := by
        simp [mftRecordAttributeFrom, hm, hend, htype, hform, hindex]
      rw [if_pos hform, if_pos hindex, hcode, indexAllocation_inside_iff env info w data hsize]
      constructor
      · rintro ⟨hflag, hinside⟩
        exact ⟨hflag, fun _ _ => hinside, fun h => absurd h hnot, fun h => absurd h hnot⟩
      · exact fun h => ⟨h.form, h.allocation hform hindex⟩
    · have hcode : ∃ found, mftRecordAttributeFrom env info w record type data (fuel + 1) attr =
          some found :=
        ⟨(w, none), by simp [mftRecordAttributeFrom, hm, hend, htype, hform, hindex]⟩
      rw [if_pos hform, if_neg hindex]
      constructor
      · rintro ⟨hflag, -⟩
        exact ⟨hflag, fun _ h => absurd h hindex, fun h => absurd h hnot, fun h => absurd h hnot⟩
      · exact fun h => ⟨h.form, hcode, allInside_nil⟩
  · have hcode : ∃ found, mftRecordAttributeFrom env info w record type data (fuel + 1) attr =
        some found := by
      simp only [mftRecordAttributeFrom, hm, hend, htype, hform, Bool.false_eq_true, if_false,
        ne_eq, not_true]
      split_ifs <;> exact ⟨_, rfl⟩
    rw [if_neg hform, and_iff_right hcode]
    by_cases hfilename : type = blNtfsAttrFileName
    · have hnotRoot : ¬ type = blNtfsAttrIndexRoot := by
        rw [hfilename]
        decide
      rw [if_pos hfilename, allInside_cons, inside_mk, and_iff_left allInside_nil]
      constructor
      · rintro ⟨hflag, hcontent⟩
        exact ⟨hflag, fun h => absurd h hform, fun _ h => absurd h hnotRoot, fun _ _ => hcontent⟩
      · exact fun h => ⟨h.form, h.filename (Bool.not_eq_true _ ▸ hform) hfilename⟩
    · rw [if_neg hfilename]
      by_cases hroot : type = blNtfsAttrIndexRoot
      · rw [if_pos hroot, rootReads_inside_iff]
        constructor
        · rintro ⟨hflag, hinside⟩
          exact ⟨hflag, fun h => absurd h hform, fun _ _ => hinside, fun _ h => absurd h hfilename⟩
        · exact fun h => ⟨h.form, h.root (Bool.not_eq_true _ ▸ hform) hroot⟩
      · rw [if_neg hroot]
        constructor
        · rintro ⟨hflag, -⟩
          exact ⟨hflag, fun h => absurd h hform, fun _ h => absurd h hroot,
            fun _ h => absurd h hfilename⟩
        · exact fun h => ⟨h.form, allInside_nil⟩

/-! ## The walk -/

theorem walksInside_of_reads (hsize : size < 2 ^ 16) (hm : w.bytes record = m)
    {found : World × Option Ptr}
    (hrun : mftRecordAttributeFrom env info w record type data fuel attr = some found)
    (hreads : AllInside (attributeReads m size type data fuel attr)) :
    WalksInside m size type data attr := by
  induction fuel generalizing attr with
  | zero => cases hrun
  | succ fuel ih =>
    rw [attributeReads, allInside_cons, inside_mk] at hreads
    obtain ⟨hin, hreads⟩ := hreads
    by_cases hend : blNtfsAttributeEnd m attr = true
    · exact .stop hin hend
    · have hend' : blNtfsAttributeEnd m attr = false := Bool.not_eq_true _ ▸ hend
      rw [if_neg hend] at hreads
      by_cases htype : attrType m attr = type
      · rw [if_neg (not_not.mpr htype)] at hreads
        exact .found hin hend' htype
          ((found_inside_iff hsize hm hend' htype).mp ⟨⟨found, hrun⟩, hreads⟩)
      · rw [if_pos htype, allInside_cons, inside_mk] at hreads
        refine .next hreads.1 hend' htype (ih ?_ hreads.2)
        simpa [mftRecordAttributeFrom, hm, hend', htype] using hrun

theorem WalksInside.reads (hsize : size < 2 ^ 16) (hm : w.bytes record = m)
    (h : WalksInside m size type data attr) (env : Env) (info : BlNtfsInfo) :
    ∀ᶠ fuel in atTop,
      (∃ found, mftRecordAttributeFrom env info w record type data fuel attr = some found) ∧
        AllInside (attributeReads m size type data fuel attr) := by
  induction h with
  | stop hin hend =>
    refine Fuel.eventually_of_succ fun fuel => ?_
    exact ⟨⟨(w, none), by simp [mftRecordAttributeFrom, hm, hend]⟩,
      by simp [attributeReads, hend, hin]⟩
  | found hin hend htype hfound =>
    refine Fuel.eventually_of_succ fun fuel => ?_
    obtain ⟨hrun, hreads⟩ := (found_inside_iff hsize hm hend htype).mpr hfound
    exact ⟨hrun, by simp [attributeReads, hend, htype, hin, hreads]⟩
  | next hin hend htype h ih =>
    refine Fuel.eventually_round ih fun fuel hrest => ?_
    obtain ⟨⟨out, hrun⟩, hreads⟩ := hrest
    refine ⟨⟨out, ?_⟩, ?_⟩
    · simpa [mftRecordAttributeFrom, hm, hend, htype] using hrun
    · rw [attributeReads, allInside_cons, inside_mk, if_neg (by simp [hend]), if_pos htype,
        allInside_cons, inside_mk]
      exact ⟨by omega, hin, hreads⟩

theorem lookupSurvives_iff (hsize : info.mftRecordSize < 2 ^ 16) :
    LookupSurvives env info w record type data ↔
      WalksInside (w.bytes record) info.mftRecordSize type data
        (blNtfsAttributeFirst (w.bytes record)) := by
  constructor
  · rintro ⟨fuel, found, hrun, hreads⟩
    exact walksInside_of_reads hsize rfl hrun hreads
  · intro h
    obtain ⟨fuel, ⟨found, hrun⟩, hreads⟩ := (h.reads hsize rfl env info).exists
    exact ⟨fuel, found, hrun, hreads⟩

end BootLoader.Ntfs

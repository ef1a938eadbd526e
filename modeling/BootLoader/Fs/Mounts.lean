import BootLoader.Driver.Ledger
import BootLoader.Fs.Code

/-!
# What a mount leaves behind

A mount keeps its blocks when it fails after the first of them, and so does the caller with the
handle. Only a request for the first block that is refused leaves no trace.
-/

open ByteMemory

namespace BootLoader.Fs

open Driver

variable {env : Env} {p : Mounting} {w₀ w w' : World} {held lost : List Nat}

/-! ## When a volume is mounted -/

/-- The walk over the attributes from `attr` on finds the index root, at `iroot`. -/
inductive HasIndexRoot (m : Mem) : Nat → Nat → Prop
  | here (attr : Nat) (hmore : Ntfs.blNtfsAttributeEnd m attr = false)
      (htype : Ntfs.attrType m attr = Ntfs.blNtfsAttrIndexRoot)
      (hresident : Ntfs.attrNonresident m attr = false)
      (hname : Ntfs.blNtfsCheckAttributeName m attr Ntfs.blNtfsI30 = .success) :
    HasIndexRoot m attr (Ntfs.blNtfsGetResidentAttribute m attr)
  | next (attr iroot : Nat) (hmore : Ntfs.blNtfsAttributeEnd m attr = false)
      (htype : Ntfs.attrType m attr ≠ Ntfs.blNtfsAttrIndexRoot)
      (h : HasIndexRoot m (Ntfs.blNtfsAttributeNext m attr) iroot) : HasIndexRoot m attr iroot

def Mounting.ntfsVbr (p : Mounting) (env : Env) : Mem :=
  env.delivered p.stack p.lba.toNat Ntfs.sizeofVbr

def Mounting.ntfsInfo (p : Mounting) (env : Env) : Ntfs.BlNtfsInfo :=
  Ntfs.volumeInfo (p.ntfsVbr env) p.lba p.uninit

/-- The record of the root directory in its block, the second one that the mount asks for. -/
def Mounting.rootRecord (p : Mounting) (env : Env) (w : World) : Mem :=
  env.delivered (w.bytes (w.next + 1))
    (Ntfs.blNtfsMftRecordLba (p.ntfsInfo env) Ntfs.blNtfsFileRoot).toNat
    (p.ntfsInfo env).mftRecordSize

/-- Both blocks and both reads are served, the boot record is that of an NTFS volume and the
record of the root directory has an index root of file names. -/
structure NtfsMounts (env : Env) (p : Mounting) (w : World) : Prop where
  block : env.allocs w.allocs = true
  vbrRead : env.reads w.reads = .success
  vbr : Ntfs.vbrInvalid (p.ntfsVbr env) = false
  record : env.allocs (w.allocs + 1) = true
  recordRead : env.reads (w.reads + 1) = .success
  indexRoot : ∃ iroot, HasIndexRoot (p.rootRecord env w)
      (Ntfs.blNtfsAttributeFirst (p.rootRecord env w)) iroot ∧
    Ntfs.irootAttributeType (p.rootRecord env w) iroot = Ntfs.blNtfsAttrFileName

def Mounting.fatVbr (p : Mounting) (env : Env) : Mem :=
  env.delivered p.stack p.lba.toNat Fat.sizeofVbr

/-- Both blocks and the read are served, and the boot record is that of a FAT volume. -/
structure FatMounts (env : Env) (p : Mounting) (w : World) : Prop where
  block : env.allocs w.allocs = true
  vbrRead : env.reads w.reads = .success
  vbr : ∃ info, Fat.blFatCheckFat (p.fatVbr env) p.lba = .ok info
  cache : env.allocs (w.allocs + 1) = true

def Mounting.superBlock (p : Mounting) (env : Env) : Mem :=
  env.delivered p.stack
    (p.lba + BitVec.ofNat 64 (Ext.blExtSuperBlockOffset / Ext.blStorageSectorSize)).toNat
    Ext.sizeofSuperBlock

/-- Both blocks and both reads are served, and the super block is that of an EXT volume. -/
structure ExtMounts (env : Env) (p : Mounting) (w : World) : Prop where
  block : env.allocs w.allocs = true
  superRead : env.reads w.reads = .success
  superBlock : ∃ type, Ext.checkSuperBlock (p.superBlock env) = .ok type
  groups : env.allocs (w.allocs + 1) = true
  groupsRead : env.reads (w.reads + 1) = .success

/-- On this disk, with these allocations and reads, the file system mounts the partition. -/
def FileSystem.Mounts (env : Env) (p : Mounting) (w : World) : FileSystem → Prop
  | ntfs => NtfsMounts env p w
  | fat => FatMounts env p w
  | ext => ExtMounts env p w

theorem FileSystem.Mounts.served {fs : FileSystem} (h : fs.Mounts env p w) :
    env.allocs w.allocs = true := by
  cases fs with
  | ntfs => exact NtfsMounts.block h
  | fat => exact FatMounts.block h
  | ext => exact ExtMounts.block h

/-! ## How a mount ends -/

def FsInfo.blocks : FsInfo → List Nat
  | ntfs volume => [volume.mftRoot, volume.block]
  | fat volume => [volume.fatCache, volume.block]
  | ext volume => [volume.info.groups, volume.block]

/-- The three ways: no first block, a failure behind it, a volume. -/
inductive Outcome (env : Env) (w₀ w : World) (held : List Nat) (mounts : Prop) :
    World × BlStatus × Option FsInfo → Prop
  | refused (w' : World) (hrefused : env.allocs w.allocs = false)
      (halloc : w.alloc env = (w', none)) (hledger : Ledger w₀ w' held) :
    Outcome env w₀ w held mounts (w', .memoryAllocationFailed, none)
  | failed (w' : World) (status : BlStatus) (lost : List Nat)
      (hserved : env.allocs w.allocs = true) (hno : ¬ mounts) (hstatus : status ≠ .success)
      (hledger : Ledger w₀ w' (lost ++ held)) (hlost : lost ≠ []) :
    Outcome env w₀ w held mounts (w', status, none)
  | mounted (w' : World) (info : FsInfo) (hmounts : mounts)
      (hledger : Ledger w₀ w' (info.blocks ++ held)) :
    Outcome env w₀ w held mounts (w', .success, some info)

theorem blFatCheckFat_error {vbr : Mem} {lba : BitVec 64} {status : BlStatus}
    (h : Fat.blFatCheckFat vbr lba = .error status) : status ≠ .success := by
  unfold Fat.blFatCheckFat at h
  split_ifs at h
  obtain rfl := Except.error.inj h
  decide

theorem checkSuperBlock_error {sblock : Mem} {status : BlStatus}
    (h : Ext.checkSuperBlock sblock = .error status) : status ≠ .success := by
  unfold Ext.checkSuperBlock at h
  split_ifs at h <;>
    obtain rfl := Except.error.inj h <;> decide

theorem fat_outcome (h : Ledger w₀ w held) {out : World × BlStatus × Option FsInfo}
    (hout : FileSystem.mount env p w .fat = some out) :
    Outcome env w₀ w held (FileSystem.Mounts env p w .fat) out := by
  simp only [FileSystem.mount, Fat.blFatMount] at hout
  rcases h.alloc env with ⟨hrefused, w₁, hw₁, h₁⟩ | ⟨hserved, w₁, hw₁, -, hallocs, hreads, -, h₁⟩
  · rw [hw₁] at hout
    obtain rfl := Option.some.inj hout
    exact .refused w₁ hrefused hw₁ h₁
  · have h₂ : Ledger w₀ { w₁ with reads := w.reads + 1 } ([w.next] ++ held) := h₁.congr rfl rfl rfl
    simp only [hw₁, Fat.checkFat, readVar_eq, hreads] at hout
    by_cases hread : env.reads w.reads = .success
    · rw [hread] at hout
      simp only [ne_eq, not_true_eq_false, if_false, if_true] at hout
      rw [← Mounting.fatVbr] at hout
      cases hvbr : Fat.blFatCheckFat (p.fatVbr env) p.lba with
      | error status =>
        have hstatus := blFatCheckFat_error hvbr
        simp only [hvbr, hstatus, not_false_eq_true, if_true] at hout
        obtain rfl := Option.some.inj hout
        refine .failed _ _ _ hserved (fun hm => ?_) hstatus h₂ (by simp)
        obtain ⟨info, hinfo⟩ := FatMounts.vbr hm
        rw [hvbr] at hinfo
        cases hinfo
      | ok info =>
        rcases h₂.alloc env with ⟨hnone, w₃, hw₃, h₃⟩ | ⟨hcache, w₃, hw₃, -, -, -, -, h₃⟩
        · simp only [hvbr, hw₃, reduceCtorEq, not_false_eq_true, if_true] at hout
          obtain rfl := Option.some.inj hout
          refine .failed _ _ _ hserved (fun hm => ?_) (by decide) h₃ (by simp)
          have hcache := FatMounts.cache hm
          rw [← hallocs] at hcache
          exact absurd (hnone.symm.trans hcache) (by decide)
        · simp only [hvbr, hw₃, not_true_eq_false, if_false] at hout
          obtain rfl := Option.some.inj hout
          exact .mounted w₃ _ ⟨hserved, hread, ⟨info, hvbr⟩, hallocs ▸ hcache⟩ h₃
    · simp only [hread, ne_eq, not_false_eq_true, if_true] at hout
      obtain rfl := Option.some.inj hout
      exact .failed _ _ _ hserved (fun hm => hread (FatMounts.vbrRead hm)) hread h₂ (by simp)

theorem ext_outcome (h : Ledger w₀ w held) {out : World × BlStatus × Option FsInfo}
    (hout : FileSystem.mount env p w .ext = some out) :
    Outcome env w₀ w held (FileSystem.Mounts env p w .ext) out := by
  simp only [FileSystem.mount, Ext.blExtMount] at hout
  rcases h.alloc env with ⟨hrefused, w₁, hw₁, h₁⟩ | ⟨hserved, w₁, hw₁, -, hallocs, hreads, -, h₁⟩
  · rw [hw₁] at hout
    obtain rfl := Option.some.inj hout
    exact .refused w₁ hrefused hw₁ h₁
  · have h₂ : Ledger w₀ { w₁ with reads := w.reads + 1 } ([w.next] ++ held) := h₁.congr rfl rfl rfl
    simp only [hw₁, Ext.blExtCheckExt, readVar_eq, hreads] at hout
    by_cases hread : env.reads w.reads = .success
    · rw [hread] at hout
      simp only [ne_eq, not_true_eq_false, if_false, if_true] at hout
      rw [← Mounting.superBlock] at hout
      cases hsuper : Ext.checkSuperBlock (p.superBlock env) with
      | error status =>
        have hstatus := checkSuperBlock_error hsuper
        simp only [hsuper, Option.map_some, hstatus, not_false_eq_true, if_true] at hout
        obtain rfl := Option.some.inj hout
        refine .failed _ _ _ hserved (fun hm => ?_) hstatus h₂ (by simp)
        obtain ⟨type, htype⟩ := ExtMounts.superBlock hm
        rw [hsuper] at htype
        cases htype
      | ok type =>
        by_cases hfault : Ext.sblockBlocksPerGroup (p.superBlock env) = 0
        · simp [hsuper, hfault] at hout
        rcases h₂.alloc env with ⟨hnone, w₃, hw₃, h₃⟩ | ⟨hgroups, w₃, hw₃, -, -, hreads₃, -, h₃⟩
        · simp only [hsuper, hfault, hw₃, if_false, Option.map_some, reduceCtorEq,
            not_false_eq_true, if_true] at hout
          obtain rfl := Option.some.inj hout
          refine .failed _ _ _ hserved (fun hm => ?_) (by decide) h₃ (by simp)
          have hgroups := ExtMounts.groups hm
          rw [← hallocs] at hgroups
          exact absurd (hnone.symm.trans hgroups) (by decide)
        · simp only [hsuper, hfault, hw₃, if_false, read_status, hreads₃] at hout
          by_cases hread₂ : env.reads (w.reads + 1) = .success
          · simp only [hread₂, not_true_eq_false, if_false, Option.map_some] at hout
            obtain rfl := Option.some.inj hout
            exact .mounted _ _ ⟨hserved, hread, ⟨type, hsuper⟩, hallocs ▸ hgroups, hread₂⟩
              (h₃.read env _ _ _)
          · simp only [hread₂, not_false_eq_true, if_true, Option.map_some] at hout
            obtain rfl := Option.some.inj hout
            exact .failed _ _ _ hserved (fun hm => hread₂ (ExtMounts.groupsRead hm)) hread₂
              (h₃.read env _ _ _) (List.cons_ne_nil w₁.next [w.next])
    · simp only [hread, ne_eq, not_false_eq_true, if_true, Option.map_some] at hout
      obtain rfl := Option.some.inj hout
      exact .failed _ _ _ hserved (fun hm => hread (ExtMounts.superRead hm)) hread h₂ (by simp)

theorem hasIndexRoot_iff {m : Mem} {attr iroot : Nat} :
    HasIndexRoot m attr iroot ↔ Ntfs.blNtfsAttributeEnd m attr = false ∧
      if Ntfs.attrType m attr = Ntfs.blNtfsAttrIndexRoot then
        Ntfs.attrNonresident m attr = false ∧
          Ntfs.blNtfsCheckAttributeName m attr Ntfs.blNtfsI30 = .success ∧
            Ntfs.blNtfsGetResidentAttribute m attr = iroot
      else HasIndexRoot m (Ntfs.blNtfsAttributeNext m attr) iroot := by
  constructor
  · rintro (⟨_, hmore, htype, hresident, hname⟩ | ⟨_, _, hmore, htype, h⟩)
    · rw [if_pos htype]
      exact ⟨hmore, hresident, hname, rfl⟩
    · rw [if_neg htype]
      exact ⟨hmore, h⟩
  · rintro ⟨hmore, h⟩
    split_ifs at h with htype
    · obtain ⟨hresident, hname, rfl⟩ := h
      exact .here attr hmore htype hresident hname
    · exact .next attr iroot hmore htype h

/-- The walk for the index root changes nothing, and finds it where it is. -/
theorem mftRecordAttributeFrom_indexRoot {info : Ntfs.BlNtfsInfo} {record fuel attr : Nat}
    {found : Option Ptr}
    (h : Ntfs.mftRecordAttributeFrom env info w record Ntfs.blNtfsAttrIndexRoot none fuel attr =
      some (w', found)) :
    w' = w ∧ ∃ off : Option Nat, found = off.map (Ptr.mk record) ∧
      ∀ iroot, HasIndexRoot (w.bytes record) attr iroot ↔ off = some iroot := by
  induction fuel generalizing attr with
  | zero => cases h
  | succ fuel ih =>
    rw [Ntfs.mftRecordAttributeFrom] at h
    split_ifs at h with hend htype hnonresident halloc hfile hindex hname
    · obtain ⟨rfl, rfl⟩ := Prod.mk.inj (Option.some.inj h)
      refine ⟨rfl, none, rfl, fun iroot => ?_⟩
      rw [hasIndexRoot_iff, hend]
      simp
    · obtain ⟨hw, off, hoff, hiff⟩ := ih h
      refine ⟨hw, off, hoff, fun iroot => ?_⟩
      rw [hasIndexRoot_iff, if_neg htype, hiff]
      simp [hend]
    · exact absurd halloc (by decide)
    · obtain ⟨rfl, rfl⟩ := Prod.mk.inj (Option.some.inj h)
      refine ⟨rfl, none, rfl, fun iroot => ?_⟩
      rw [hasIndexRoot_iff, if_pos (not_not.mp htype), hnonresident]
      simp
    · exact absurd hfile (by decide)
    · obtain ⟨rfl, rfl⟩ := Prod.mk.inj (Option.some.inj h)
      refine ⟨rfl, none, rfl, fun iroot => ?_⟩
      rw [hasIndexRoot_iff, if_pos (not_not.mp htype)]
      simp [hname]
    · obtain ⟨rfl, rfl⟩ := Prod.mk.inj (Option.some.inj h)
      refine ⟨rfl, some _, rfl, fun iroot => ?_⟩
      rw [hasIndexRoot_iff, if_pos (not_not.mp htype)]
      simp_all
    · exact absurd rfl hindex

/-- In the record of the root directory there is an index root of file names. -/
def IndexesNames (record : Mem) (iroot : Nat) : Prop :=
  HasIndexRoot record (Ntfs.blNtfsAttributeFirst record) iroot ∧
    Ntfs.irootAttributeType record iroot = Ntfs.blNtfsAttrFileName

/-- The record of the root directory is read into the block `b`. -/
structure RecordRead (env : Env) (p : Mounting) (w w' : World) (b : Nat) : Prop where
  read : env.reads w.reads = .success
  vbr : Ntfs.vbrInvalid (p.ntfsVbr env) = false
  record : ∃ w₁, World.alloc env { w with reads := w.reads + 1 } = (w₁, some b) ∧
    env.reads w₁.reads = .success ∧
      w' = (Ntfs.blNtfsReadMft env (p.ntfsInfo env) w₁ b Ntfs.blNtfsFileRoot).1

/-- How the check of a volume ends, by what it gets to. -/
inductive NtfsChecked (env : Env) (p : Mounting) (w : World) :
    World × BlStatus × Option (Nat × Ntfs.BlNtfsInfo) → Prop
  | unread (hread : env.reads w.reads ≠ .success) :
    NtfsChecked env p w ({ w with reads := w.reads + 1 }, env.reads w.reads, none)
  | invalid (hvbr : Ntfs.vbrInvalid (p.ntfsVbr env) = true) :
    NtfsChecked env p w ({ w with reads := w.reads + 1 }, .invalidFileSystem, none)
  | noRecord {w' : World} (halloc : World.alloc env { w with reads := w.reads + 1 } = (w', none)) :
    NtfsChecked env p w (w', .memoryAllocationFailed, none)
  | recordUnread {w₁ : World} {b lba size : Nat}
      (halloc : World.alloc env { w with reads := w.reads + 1 } = (w₁, some b))
      (hread : env.reads w₁.reads ≠ .success) :
    NtfsChecked env p w ((w₁.read env b lba size).1, env.reads w₁.reads, none)
  | noIndex {w' : World} {b : Nat} (hrecord : RecordRead env p w w' b)
      (hno : ¬∃ iroot, IndexesNames (w'.bytes b) iroot) :
    NtfsChecked env p w (w', .unsupported, none)
  | checked {w' : World} {b iroot : Nat} (hrecord : RecordRead env p w w' b)
      (hindex : IndexesNames (w'.bytes b) iroot) :
    NtfsChecked env p w (w', .success, some (b, { p.ntfsInfo env with iroot := ⟨b, iroot⟩ }))

theorem blNtfsCheckNtfs_checked {fuel : Nat}
    {out : World × BlStatus × Option (Nat × Ntfs.BlNtfsInfo)}
    (hrun : Ntfs.blNtfsCheckNtfs env fuel p.lba p.stack p.uninit w = some out) :
    NtfsChecked env p w out := by
  simp only [Ntfs.blNtfsCheckNtfs, readVar_eq] at hrun
  by_cases hread : env.reads w.reads = .success
  swap
  · simp only [hread, ne_eq, not_false_eq_true, if_true] at hrun
    obtain rfl := Option.some.inj hrun
    exact .unread hread
  simp only [hread, ne_eq, not_true_eq_false, if_false, if_true] at hrun
  rw [← Mounting.ntfsVbr, ← Mounting.ntfsInfo] at hrun
  cases hvbr : Ntfs.vbrInvalid (p.ntfsVbr env) with
  | true =>
    simp only [hvbr, if_true] at hrun
    obtain rfl := Option.some.inj hrun
    exact .invalid hvbr
  | false =>
    simp only [hvbr, Bool.false_eq_true, if_false] at hrun
    cases halloc : World.alloc env { w with reads := w.reads + 1 } with
    | mk w₁ block =>
      rw [halloc] at hrun
      cases block with
      | none =>
        obtain rfl := Option.some.inj hrun
        exact .noRecord halloc
      | some b =>
        dsimp only at hrun
        by_cases hread₁ : env.reads w₁.reads = .success
        · simp only [Ntfs.blNtfsReadMft, read_status, hread₁, not_true_eq_false, if_false] at hrun
          obtain ⟨⟨w₂, found⟩, hwalk, rfl⟩ := Option.map_eq_some_iff.mp hrun
          obtain ⟨rfl, off, rfl, hroot⟩ := mftRecordAttributeFrom_indexRoot hwalk
          have hrecord : RecordRead env p w _ b := ⟨hread, hvbr, w₁, halloc, hread₁, rfl⟩
          cases off with
          | none =>
            refine .noIndex hrecord ?_
            rintro ⟨iroot, hiroot, -⟩
            cases (hroot iroot).mp hiroot
          | some iroot =>
            dsimp only [Option.map_some]
            split_ifs with htype
            · exact .checked hrecord ⟨(hroot iroot).mpr rfl, htype⟩
            · refine .noIndex hrecord ?_
              rintro ⟨iroot', hiroot, htype'⟩
              obtain rfl := Option.some.inj ((hroot iroot').mp hiroot)
              exact htype htype'
        · simp only [Ntfs.blNtfsReadMft, read_status, hread₁, not_false_eq_true, if_true] at hrun
          obtain rfl := Option.some.inj hrun
          exact .recordUnread halloc hread₁

theorem ntfs_outcome (h : Ledger w₀ w held) {out : World × BlStatus × Option FsInfo}
    (hout : FileSystem.mount env p w .ntfs = some out) :
    Outcome env w₀ w held (FileSystem.Mounts env p w .ntfs) out := by
  simp only [FileSystem.mount, Ntfs.blNtfsMount] at hout
  rcases h.alloc env with ⟨hrefused, w₁, hw₁, h₁⟩ |
    ⟨hserved, w₁, hw₁, hbytes, hallocs, hreads, hnext, h₁⟩
  · rw [hw₁] at hout
    obtain rfl := Option.some.inj hout
    exact .refused w₁ hrefused hw₁ h₁
  · simp only [hw₁, Option.map_map] at hout
    obtain ⟨checked, hcheck, rfl⟩ := Option.map_eq_some_iff.mp hout
    have h₂ : Ledger w₀ { w₁ with reads := w₁.reads + 1 } ([w.next] ++ held) := h₁.congr rfl rfl rfl
    -- The block of the record, with what it holds then.
    have hrecordRead : ∀ {w₃ b}, RecordRead env p w₁ w₃ b → env.allocs (w.allocs + 1) = true ∧
        env.reads (w.reads + 1) = .success ∧ w₃.bytes b = p.rootRecord env w ∧
          Ledger w₀ w₃ ([b, w.next] ++ held) := by
      rintro w₃ b ⟨-, -, w₂, halloc, hread₂, rfl⟩
      rcases h₂.alloc env with ⟨-, w₄, hw₄, -⟩ | ⟨hyes, w₄, hw₄, hbytes₄, -, hreads₄, -, h₄⟩
      · cases hw₄.symm.trans halloc
      · obtain ⟨rfl, rfl⟩ := by simpa using hw₄.symm.trans halloc
        refine ⟨hallocs ▸ hyes, by rw [← hread₂, hreads₄, hreads], ?_, h₄.read env _ _ _⟩
        rw [Ntfs.blNtfsReadMft, read_bytes_eq hread₂, hbytes₄, hbytes, hnext]
        rfl
    cases blNtfsCheckNtfs_checked hcheck with
    | unread hread =>
      simp only [Function.comp, hread, ne_eq, not_false_eq_true, if_true]
      refine .failed _ _ _ hserved (fun hm => hread ?_) hread h₂ (by simp)
      rw [hreads]
      exact NtfsMounts.vbrRead hm
    | invalid hvbr =>
      refine .failed _ .invalidFileSystem _ hserved (fun hm => ?_) (by decide) h₂ (by simp)
      exact absurd (hvbr.symm.trans (NtfsMounts.vbr hm)) (by decide)
    | noRecord halloc =>
      rcases h₂.alloc env with ⟨hnone, w₃, hw₃, h₃⟩ | ⟨-, w₃, hw₃, -⟩
      · obtain ⟨rfl, -⟩ := Prod.mk.inj (hw₃.symm.trans halloc)
        refine .failed _ .memoryAllocationFailed _ hserved (fun hm => ?_) (by decide) h₃ (by simp)
        have hrecord := NtfsMounts.record hm
        rw [← hallocs] at hrecord
        exact absurd (hnone.symm.trans hrecord) (by decide)
      · cases hw₃.symm.trans halloc
    | recordUnread halloc hread =>
      rcases h₂.alloc env with ⟨-, w₃, hw₃, -⟩ | ⟨-, w₃, hw₃, -, -, hreads₃, -, h₃⟩
      · cases hw₃.symm.trans halloc
      · obtain ⟨rfl, hb⟩ := Prod.mk.inj (hw₃.symm.trans halloc)
        simp only [Function.comp, hread, ne_eq, not_false_eq_true, if_true]
        refine .failed _ _ _ hserved (fun hm => hread ?_) hread (h₃.read env _ _ _)
          (List.cons_ne_nil w₁.next [w.next])
        rw [hreads₃, ← NtfsMounts.recordRead hm, hreads]
    | noIndex hrecord hno =>
      obtain ⟨-, -, hbytes₃, hledger⟩ := hrecordRead hrecord
      rw [hbytes₃] at hno
      exact .failed _ .unsupported _ hserved (fun hm => hno (NtfsMounts.indexRoot hm)) (by decide)
        hledger (by simp)
    | @checked w₃ b iroot hrecord hindex =>
      obtain ⟨hyes, hread₁, hbytes₃, hledger⟩ := hrecordRead hrecord
      rw [hbytes₃] at hindex
      exact .mounted _ (.ntfs ⟨w.next, b, _⟩) ⟨hserved, hreads ▸ hrecord.read, hrecord.vbr, hyes,
        hread₁, iroot, hindex⟩ hledger

theorem mount_outcome (h : Ledger w₀ w held) {fs : FileSystem}
    {out : World × BlStatus × Option FsInfo} (hout : fs.mount env p w = some out) :
    Outcome env w₀ w held (fs.Mounts env p w) out := by
  cases fs with
  | ntfs => exact ntfs_outcome h hout
  | fat => exact fat_outcome h hout
  | ext => exact ext_outcome h hout

/-! ## Trying the file systems in turn -/

/-- Every file system was tried, each in the world that the one before it left, and failed. -/
def AllFail (env : Env) (p : Mounting) : List (Option FileSystem) → World → World → Prop
  | [], w, w' => w' = w
  | none :: fss, w, w' => AllFail env p fss w w'
  | some fs :: fss, w, w' => ∃ w₁ status, fs.mount env p w = some (w₁, status, none) ∧
      status ≠ .success ∧ AllFail env p fss w₁ w'

/-- Some file system mounts the partition, and those before it were refused their first block. -/
def CleanlyMounted (env : Env) (p : Mounting) : List (Option FileSystem) → World → Prop
  | [], _ => False
  | none :: fss, w => CleanlyMounted env p fss w
  | some fs :: fss, w =>
    fs.Mounts env p w ∨ env.allocs w.allocs = false ∧ CleanlyMounted env p fss (w.alloc env).1

/-- What a return should leave in use: nothing, or the handle and what the mount keeps. -/
def remaining (ret : Option BlFsHandle) : List Nat :=
  ret.elim [] fun handle => handle.info.blocks ++ [handle.block]

theorem tryMounts_ledger {fss : List (Option FileSystem)} {handle : Nat} {ret : Option BlFsHandle}
    (h : Ledger w₀ w (handle :: (lost ++ held)))
    (hrun : tryMounts env p handle fss w = some (w', ret)) :
    (ret = none → AllFail env p fss w w') ∧
      ∃ lost', Ledger w₀ w' (remaining ret ++ (lost' ++ held)) ∧
        (lost' = [] ↔ lost = [] ∧ CleanlyMounted env p fss w) := by
  induction fss generalizing w lost with
  | nil =>
    obtain ⟨rfl, rfl⟩ := Prod.mk.inj (Option.some.inj hrun)
    exact ⟨fun _ => rfl, handle :: lost, h, by simp [CleanlyMounted]⟩
  | cons fs fss ih =>
    cases fs with
    | none => exact ih h hrun
    | some fs =>
      rw [tryMounts] at hrun
      cases hmount : fs.mount env p w with
      | none => simp [hmount] at hrun
      | some out =>
        cases mount_outcome h hmount with
        | refused w₁ hrefused halloc hledger =>
          simp only [hmount, reduceCtorEq, if_false] at hrun
          obtain ⟨hall, lost', hledger', hlost'⟩ := ih hledger hrun
          refine ⟨fun hret => ⟨w₁, _, hmount, by decide, hall hret⟩, lost', hledger', ?_⟩
          have hno : ¬ fs.Mounts env p w := fun hm => by
            have := hm.served
            simp_all
          simp [hlost', CleanlyMounted, hno, hrefused, halloc]
        | failed w₁ status more hserved hno hstatus hledger hmore =>
          simp only [hmount, hstatus, if_false] at hrun
          have hperm : (more ++ handle :: (lost ++ held)).Perm
              (handle :: ((more ++ lost) ++ held)) := by
            rw [List.append_assoc]
            exact List.perm_middle
          obtain ⟨hall, lost', hledger', hlost'⟩ := ih (hledger.perm hperm) hrun
          refine ⟨fun hret => ⟨w₁, status, hmount, hstatus, hall hret⟩, lost', hledger', ?_⟩
          simp [hlost', CleanlyMounted, hno, hserved, hmore]
        | mounted w₁ info hmounts hledger =>
          simp only [hmount, if_true, Option.map_some] at hrun
          obtain ⟨rfl, rfl⟩ := Prod.mk.inj (Option.some.inj hrun)
          refine ⟨(fun hret => by cases hret), lost, ?_, by simp [CleanlyMounted, hmounts]⟩
          simpa [remaining] using hledger

/-- A mount is seen in the blocks handed out or in the requests for one. -/
theorem mount_moves {fs : FileSystem} {status : BlStatus} {info : Option FsInfo}
    (hmount : fs.mount env p w = some (w', status, info)) :
    w.next < w'.next ∨ w.next = w'.next ∧ w.allocs < w'.allocs := by
  have hnext : ∀ {held : List Nat}, held ≠ [] → Ledger w w' held → w.next < w'.next := by
    intro held hne h
    obtain ⟨b, hb⟩ := List.exists_mem_of_ne_nil held hne
    exact lt_of_le_of_lt (h.handedOut b hb).1 (h.handedOut b hb).2
  cases mount_outcome (Ledger.start w) hmount with
  | refused _ hrefused halloc _ =>
    rw [World.alloc, hrefused] at halloc
    obtain ⟨rfl, -⟩ := Prod.mk.inj halloc
    exact .inr ⟨rfl, Nat.lt_succ_self _⟩
  | failed _ _ lost _ _ _ hledger hlost =>
    exact .inl (hnext (List.append_ne_nil_of_left_ne_nil hlost _) hledger)
  | mounted _ info _ hledger =>
    refine .inl (hnext (List.append_ne_nil_of_left_ne_nil ?_ _) hledger)
    cases info <;> exact List.cons_ne_nil _ _

theorem allFail_moves {fss : List (Option FileSystem)} (h : AllFail env p fss w w') :
    (w' = w ∧ ∀ fs ∈ fss, fs = none) ∨
      (w.next < w'.next ∨ w.next = w'.next ∧ w.allocs < w'.allocs) := by
  induction fss generalizing w with
  | nil => exact .inl ⟨h, by simp⟩
  | cons fs fss ih =>
    cases fs with
    | none =>
      refine (ih h).imp_left fun ⟨hw, hall⟩ => ⟨hw, ?_⟩
      simpa using hall
    | some fs =>
      obtain ⟨w₁, status, hmount, -, h⟩ := h
      have hmoves := mount_moves hmount
      rcases ih h with ⟨rfl, -⟩ | hrest
      · exact .inr hmoves
      · right
        omega

theorem allFail_self_iff {fss : List (Option FileSystem)} :
    AllFail env p fss w w ↔ ∀ fs ∈ fss, fs = none := by
  constructor
  · intro h
    rcases allFail_moves h with ⟨-, hall⟩ | hmoves
    · exact hall
    · omega
  · intro hall
    induction fss with
    | nil => rfl
    | cons fs fss ih =>
      obtain rfl := hall fs List.mem_cons_self
      exact ih fun fs hfs => hall fs (List.mem_cons_of_mem _ hfs)

/-- A mount that does not succeed leaves a trace unless it was refused its first block. With null,
every file system was tried, and the handle is kept; a file system that fails keeps its blocks. -/
theorem blFsTryMount_trace_iff (h : Ledger w₀ w held) (fss : List (Option FileSystem)) :
    (∀ (fs : FileSystem) w' status info, fs.mount env p w = some (w', status, info) →
      ((status ≠ .success → Ledger w₀ w' held) ↔
        env.allocs w.allocs = false ∨ fs.Mounts env p w)) ∧
    ∀ w' ret, blFsTryMount env p fss w = some (w', ret) →
      (env.allocs w.allocs = true → ret = none → AllFail env p fss (w.alloc env).1 w') ∧
      ((ret = none → AllFail env p fss (w.alloc env).1 w') ∧
          Ledger w₀ w' (remaining ret ++ held) ↔
        if env.allocs w.allocs then CleanlyMounted env p fss (w.alloc env).1
        else ∀ fs ∈ fss, fs = none) := by
  constructor
  · intro fs w' status info hmount
    cases mount_outcome h hmount with
    | refused _ hrefused halloc hledger =>
      exact ⟨fun _ => .inl hrefused, fun _ _ => hledger⟩
    | failed _ _ lost hserved hno hstatus hledger hlost =>
      have hiff := Ledger.append_iff (hledger.perm List.perm_append_comm)
      simp [hstatus, hiff, hlost, hserved, hno]
    | mounted _ info hmounts hledger => simp [hmounts]
  · intro w' ret hrun
    rw [blFsTryMount] at hrun
    rcases h.alloc env with ⟨hrefused, w₁, hw₁, h₁⟩ | ⟨hserved, w₁, hw₁, -, -, -, -, h₁⟩
    · rw [hw₁] at hrun ⊢
      obtain ⟨rfl, rfl⟩ := Prod.mk.inj (Option.some.inj hrun)
      simp [hrefused, allFail_self_iff, remaining, h₁]
    · rw [hw₁] at hrun ⊢
      have h₁ : Ledger w₀ w₁ (w.next :: ([] ++ held)) := h₁
      obtain ⟨hall, lost', hledger, hlost'⟩ := tryMounts_ledger h₁ hrun
      have hperm : (remaining ret ++ (lost' ++ held)).Perm ((remaining ret ++ held) ++ lost') := by
        rw [List.append_assoc]
        exact List.perm_append_comm.append_left _
      refine ⟨fun _ => hall, ?_⟩
      rw [Ledger.append_iff (hledger.perm hperm), hlost', and_iff_right hall]
      simp [hserved]

/-- A disk of zeros, on which everything is served. -/
def blankEnv : Env := ⟨fun _ => true, fun _ => .success, fun _ => 0⟩

def blankMounting : Mounting := ⟨0, fun _ => 0, ⟨0, 0⟩, 1⟩

def emptyWorld : World := ⟨0, fun _ _ => 0, fun _ => false, 0, 0, []⟩

theorem blankDisk_trace :
    ((∀ (fs : FileSystem) w' status info,
      fs.mount blankEnv blankMounting emptyWorld = some (w', status, info) →
      ((status ≠ .success → Ledger emptyWorld w' []) ↔
        blankEnv.allocs emptyWorld.allocs = false ∨ fs.Mounts blankEnv blankMounting emptyWorld)) ∧
    ∀ w' ret, blFsTryMount blankEnv blankMounting [some .ext] emptyWorld = some (w', ret) →
      (blankEnv.allocs emptyWorld.allocs = true → ret = none →
        AllFail blankEnv blankMounting [some .ext] (emptyWorld.alloc blankEnv).1 w') ∧
      ((ret = none → AllFail blankEnv blankMounting [some .ext] (emptyWorld.alloc blankEnv).1 w') ∧
          Ledger emptyWorld w' (remaining ret ++ []) ↔
        if blankEnv.allocs emptyWorld.allocs then
          CleanlyMounted blankEnv blankMounting [some .ext] (emptyWorld.alloc blankEnv).1
        else ∀ fs ∈ [some FileSystem.ext], fs = none)) ∧
    (blFsTryMount blankEnv blankMounting [some .ext] emptyWorld).map (·.2.isNone) = some true :=
  ⟨blFsTryMount_trace_iff (Ledger.start emptyWorld) [some .ext], by decide +kernel⟩

/-- The super block has no magic, and both the handle and the block of the mount stay. -/
theorem blankDisk_leaves_blocks :
    ¬ ∀ env p fss w w', blFsTryMount env p fss w = some (w', none) → Ledger w w' [] := by
  intro h
  have hused : (blFsTryMount blankEnv blankMounting [some .ext] emptyWorld).map
      (fun out => (out.1.used 0, out.1.used 1, out.1.next, out.2.isNone)) =
      some (true, true, 2, true) := by decide +kernel
  obtain ⟨⟨w', ret⟩, hrun, hout⟩ := Option.map_eq_some_iff.mp hused
  simp only [Prod.mk.injEq, Option.isNone_iff_eq_none] at hout
  obtain ⟨hused, -, hnext, rfl⟩ := hout
  have hunused := (h _ _ _ _ _ hrun).unused 0 (Nat.le_refl 0) (by omega) List.not_mem_nil
  rw [hused] at hunused
  exact absurd hunused (by decide)

end BootLoader.Fs

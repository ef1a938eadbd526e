import BootLoader.Driver.Spares
import BootLoader.File.Invariant
import BootLoader.Fs.Mounts
import BootLoader.Ntfs.Blocks
import BootLoader.Ntfs.Open

/-!
# Which blocks files leave behind

A block that is in use before a file is opened is in use after it is closed. That is why the block
of the root directory's data stays too: it is in use when the path is followed, and nothing frees
it.
-/

open ByteMemory

namespace BootLoader.Ntfs

open Driver

variable {env : Env} {info : BlNtfsInfo} {mftDir fuel b : Nat} {strcmp : Mem → Nat → Int}
  {w₀ w w' : World} {index : Option Nat} {entry : Ptr}

/-! ## What a lookup spares -/

theorem blNtfsGetIndexAllocation_spares {m : Mem} {attr : Nat} {data : Option (BitVec 64)}
    {found : Option Nat} (h : Spares w₀ w)
    (hrun : blNtfsGetIndexAllocation env info w m attr data = some (w', found)) :
    Spares w₀ w' ∧ ∀ b, found = some b → w₀.next ≤ b := by
  unfold blNtfsGetIndexAllocation at hrun
  split_ifs at hrun
  · obtain ⟨rfl, rfl⟩ := by simpa using hrun
    exact ⟨h, fun b hb => by cases hb⟩
  · cases data with
    | none =>
      obtain ⟨rfl, rfl⟩ := by simpa using hrun
      exact ⟨h, fun b hb => by cases hb⟩
    | some vcn =>
      dsimp only at hrun
      cases hlcn : blNtfsVcnToLcn m attr vcn with
      | none => simp [hlcn] at hrun
      | some lcn =>
        simp only [hlcn] at hrun
        rcases h.alloc env with ⟨w₁, hw₁, h₁⟩ | ⟨w₁, hw₁, h₁⟩
        · rw [hw₁] at hrun
          obtain ⟨rfl, rfl⟩ := by simpa using hrun
          exact ⟨h₁, fun b hb => by cases hb⟩
        · rw [hw₁] at hrun
          dsimp only at hrun
          have h₂ := h₁.read env w.next (blNtfsLcnToLba info lcn).toNat (indexRecordSize w₁ info)
          split_ifs at hrun
          · obtain ⟨rfl, rfl⟩ := by simpa using hrun
            exact ⟨h₂.free h.next_le, fun b hb => by cases hb⟩
          · obtain ⟨rfl, rfl⟩ := by simpa using hrun
            exact ⟨h₂, fun b hb => Option.some.inj hb ▸ h.next_le⟩

/-- An index record that is found has just been handed out. -/
theorem mftRecordAttributeFrom_spares {record type attr : Nat} {data : Option (BitVec 64)}
    {found : Option Ptr} (h : Spares w₀ w)
    (hrun : mftRecordAttributeFrom env info w record type data fuel attr = some (w', found)) :
    Spares w₀ w' ∧
      (type = blNtfsAttrIndexAllocation → ∀ p, found = some p → w₀.next ≤ p.block) := by
  induction fuel generalizing attr with
  | zero => cases hrun
  | succ fuel ih =>
    rw [mftRecordAttributeFrom] at hrun
    split_ifs at hrun with hend htype hnonresident halloc hfile hindex hname
    · obtain ⟨rfl, rfl⟩ := Prod.mk.inj (Option.some.inj hrun)
      exact ⟨h, fun _ p hp => by cases hp⟩
    · exact ih hrun
    · obtain ⟨⟨w₁, index⟩, hrecord, hout⟩ := Option.map_eq_some_iff.mp hrun
      obtain ⟨rfl, rfl⟩ := Prod.mk.inj hout
      obtain ⟨hspares, hfresh⟩ := blNtfsGetIndexAllocation_spares h hrecord
      refine ⟨hspares, fun _ p hp => ?_⟩
      obtain ⟨b, hb, rfl⟩ := Option.map_eq_some_iff.mp hp
      exact hfresh b hb
    · obtain ⟨rfl, rfl⟩ := Prod.mk.inj (Option.some.inj hrun)
      exact ⟨h, fun _ p hp => by cases hp⟩
    · obtain ⟨rfl, rfl⟩ := Prod.mk.inj (Option.some.inj hrun)
      refine ⟨h, fun htype => ?_⟩
      rw [hfile] at htype
      exact absurd htype (by decide)
    · obtain ⟨rfl, rfl⟩ := Prod.mk.inj (Option.some.inj hrun)
      exact ⟨h, fun _ p hp => by cases hp⟩
    · obtain ⟨rfl, rfl⟩ := Prod.mk.inj (Option.some.inj hrun)
      refine ⟨h, fun htype => ?_⟩
      rw [hindex] at htype
      exact absurd htype (by decide)
    · obtain ⟨rfl, rfl⟩ := Prod.mk.inj (Option.some.inj hrun)
      exact ⟨h, fun _ p hp => by cases hp⟩

theorem blNtfsReadChildNode_spares {child : Option Nat} (h : Spares w₀ w)
    (hrun : blNtfsReadChildNode env info fuel w entry mftDir = some (w', child)) :
    Spares w₀ w' ∧ ∀ b, child = some b → w₀.next ≤ b := by
  unfold blNtfsReadChildNode at hrun
  dsimp only at hrun
  split_ifs at hrun
  · obtain ⟨rfl, rfl⟩ := Prod.mk.inj (Option.some.inj hrun)
    exact ⟨h, fun b hb => by cases hb⟩
  · obtain ⟨⟨w₁, found⟩, hfound, hout⟩ := Option.map_eq_some_iff.mp hrun
    obtain ⟨rfl, rfl⟩ := Prod.mk.inj hout
    obtain ⟨hspares, hfresh⟩ := mftRecordAttributeFrom_spares h hfound
    refine ⟨hspares, fun b hb => ?_⟩
    obtain ⟨p, hp, rfl⟩ := Option.map_eq_some_iff.mp hb
    exact hfresh rfl p hp

theorem searchEntries_spares {r : Found} (h : Spares w₀ w)
    (hindex : ∀ b, index = some b → w₀.next ≤ b)
    (hrun : searchEntries env info mftDir strcmp fuel w index entry = some r) :
    Spares w₀ r.world ∧ ∀ b, r.index = some b → w₀.next ≤ b := by
  induction fuel generalizing w index entry with
  | zero => cases hrun
  | succ fuel ih =>
    rcases where_goes strcmp w entry with hdown | hend | hmatch | hon
    · rw [searchEntries_descends hdown] at hrun
      cases hread : blNtfsReadChildNode env info fuel w entry mftDir with
      | none => simp [hread] at hrun
      | some out =>
        obtain ⟨w', _ | child⟩ := out
        · simp only [hread, Option.some.injEq] at hrun
          subst hrun
          exact ⟨(blNtfsReadChildNode_spares h hread).1, fun b hb => by cases hb⟩
        · simp only [hread] at hrun
          obtain ⟨hspares, hfresh⟩ := blNtfsReadChildNode_spares h hread
          refine ih (hspares.freeAll fun b hb => ?_) hfresh hrun
          exact hindex b (List.mem_singleton.mp hb).symm
    · rw [searchEntries_ends hend, Option.some.injEq] at hrun
      subst hrun
      exact ⟨h, hindex⟩
    · rw [searchEntries_matches hmatch, Option.some.injEq] at hrun
      subst hrun
      exact ⟨h, hindex⟩
    · rw [searchEntries_goesOn hon] at hrun
      exact ih h hindex hrun

/-- All blocks that the label `_exit` releases were handed out for the node. -/
theorem matchEntry_spares {directory : Bool} {status : BlStatus} {node : Option BlFileTreeNode}
    {blocks : List (Option Nat)} (h : Spares w₀ w)
    (hrun : matchEntry env info fuel directory w entry = some (w', status, node, blocks)) :
    Spares w₀ w' ∧ (∀ b, some b ∈ blocks → w₀.next ≤ b) ∧
      ∀ n, node = some n → w₀.next ≤ n.node ∧ w₀.next ≤ n.fdata.mftRecord := by
  unfold Ntfs.matchEntry at hrun
  dsimp only at hrun
  have hnone : ∀ n : BlFileTreeNode, none = some n →
      w₀.next ≤ n.node ∧ w₀.next ≤ n.fdata.mftRecord := fun n hn => by cases hn
  by_cases htype : directory = true ∧
      blNtfsIsDirectory (w.bytes entry.block) (entryFilename entry.off) = false
  · rw [if_pos htype] at hrun
    obtain ⟨rfl, -, rfl, rfl⟩ := by simpa using hrun
    exact ⟨h, by simp, hnone⟩
  rw [if_neg htype] at hrun
  rcases h.alloc env with ⟨w₁, hw₁, h₁⟩ | ⟨w₁, hw₁, h₁⟩
  · rw [hw₁] at hrun
    obtain ⟨rfl, -, rfl, rfl⟩ := by simpa using hrun
    exact ⟨h₁, by simp, hnone⟩
  rw [hw₁] at hrun
  dsimp only at hrun
  rcases h₁.alloc env with ⟨w₂, hw₂, h₂⟩ | ⟨w₂, hw₂, h₂⟩
  · rw [hw₂] at hrun
    obtain ⟨rfl, -, rfl, rfl⟩ := by simpa using hrun
    exact ⟨h₂, by simpa using h.next_le, hnone⟩
  rw [hw₂] at hrun
  dsimp only at hrun
  rcases h₂.alloc env with ⟨w₃, hw₃, h₃⟩ | ⟨w₃, hw₃, h₃⟩
  · rw [hw₃] at hrun
    obtain ⟨rfl, -, rfl, rfl⟩ := by simpa using hrun
    exact ⟨h₃, by simpa using ⟨h₁.next_le, h.next_le⟩, hnone⟩
  rw [hw₃] at hrun
  dsimp only at hrun
  have hread := h₃.read env w₂.next
    (blNtfsMftRecordLba info (entryReference (w.bytes entry.block) entry.off)).toNat
    info.mftRecordSize
  unfold blNtfsReadMft at hrun
  by_cases hok : (w₃.read env w₂.next
    (blNtfsMftRecordLba info (entryReference (w.bytes entry.block) entry.off)).toNat
    info.mftRecordSize).2 = .success
  · rw [if_neg (not_not.mpr hok), Option.map_eq_some_iff] at hrun
    obtain ⟨⟨w₄, iroot⟩, hiroot, hout⟩ := hrun
    obtain ⟨rfl, -, rfl, rfl⟩ := by simpa using hout
    have hspares : Spares w₀ w₄ := by
      split_ifs at hiroot
      · exact (mftRecordAttributeFrom_spares hread hiroot).1
      · obtain ⟨rfl, -⟩ := Prod.mk.inj (Option.some.inj hiroot)
        exact hread
    refine ⟨hspares, by simpa using h₂.next_le, fun n hn => ?_⟩
    obtain rfl := Option.some.inj hn
    exact ⟨h.next_le, h₂.next_le⟩
  · rw [if_pos hok] at hrun
    obtain ⟨rfl, -, rfl, rfl⟩ := by simpa using hrun
    exact ⟨hread, by simpa using ⟨h₁.next_le, h.next_le, h₂.next_le⟩, hnone⟩

theorem blNtfsIterateDirectoryCallback_spares {directory : Bool} {fdata : BlNtfsFileData}
    {status : BlStatus} {node : Option BlFileTreeNode}
    (hrun : blNtfsIterateDirectoryCallback env fuel strcmp directory fdata w =
      some (w', status, node)) :
    Spares w w' ∧ ∀ n, node = some n → w.next ≤ n.node ∧ w.next ≤ n.fdata.mftRecord := by
  have hstart := Spares.refl w
  unfold blNtfsIterateDirectoryCallback at hrun
  split at hrun
  next iroot _ _ =>
    dsimp only at hrun
    split at hrun
    · cases hrun
    · next w₁ index hsearch =>
      obtain ⟨hspares, hindex⟩ := searchEntries_spares hstart (fun b hb => by cases hb) hsearch
      obtain ⟨rfl, -, rfl⟩ := by simpa using hrun
      refine ⟨hspares.freeAll fun b hb => ?_, fun n hn => by cases hn⟩
      exact hindex b (List.mem_singleton.mp hb).symm
    · next w₁ index e hsearch =>
      obtain ⟨hspares, hindex⟩ := searchEntries_spares hstart (fun b hb => by cases hb) hsearch
      obtain ⟨⟨w₂, status₂, node₂, blocks⟩, hmatch, hout⟩ := Option.map_eq_some_iff.mp hrun
      obtain ⟨rfl, -, rfl⟩ := by simpa using hout
      obtain ⟨hspares₂, hblocks, hnode⟩ := matchEntry_spares hspares hmatch
      refine ⟨hspares₂.freeAll fun b hb => ?_, hnode⟩
      rcases List.mem_append.mp hb with hb | hb
      · exact hblocks b hb
      · exact hindex b (List.mem_singleton.mp hb).symm
  · cases hrun
  · obtain ⟨rfl, -, rfl⟩ := by simpa using hrun
    exact ⟨hstart, fun n hn => by cases hn⟩

/-! ## Volumes -/

/-- The blocks of a volume: its information, the record of the root directory, and in it the index
root. -/
def NtfsVolume.blocks (volume : NtfsVolume) : List Nat :=
  [volume.block, volume.mftRoot, volume.info.iroot.block]

/-- The volume's blocks are in use. -/
structure Mounted (w : World) (volume : NtfsVolume) : Prop where
  fresh : Fresh w
  used : ∀ b ∈ volume.blocks, w.used b = true

/-- The record of a volume's root directory is in a block of its own, with the index root. -/
theorem blNtfsCheckNtfs_mounts {lba : BitVec 64} {stack : Mem} {uninit : Ptr} {mftRoot : Nat}
    (hfresh : Fresh w)
    (hrun : blNtfsCheckNtfs env fuel lba stack uninit w =
      some (w', .success, some (mftRoot, info))) :
    Fresh w' ∧ Spares w w' ∧ w'.used mftRoot = true ∧ info.iroot.block = mftRoot := by
  generalize hout : (w', BlStatus.success, some (mftRoot, info)) = out at hrun
  cases Fs.blNtfsCheckNtfs_checked (p := ⟨lba, stack, uninit, fuel⟩) hrun with
  | unread => simp at hout
  | invalid => simp at hout
  | noRecord => simp at hout
  | recordUnread => simp at hout
  | noIndex => simp at hout
  | checked hrecord =>
    obtain ⟨-, -, w₁, halloc, -, rfl⟩ := hrecord
    simp only [Prod.mk.injEq, true_and, Option.some.injEq] at hout
    obtain ⟨rfl, rfl, rfl⟩ := hout
    obtain ⟨-, rfl, hnext, hused⟩ := alloc_handedOut halloc
    have hfresh₁ : Fresh { w with reads := w.reads + 1 } := hfresh
    have hspares₁ : Spares w { w with reads := w.reads + 1 } := (Spares.refl w).congr rfl rfl
    have hread := (Spares.refl w₁).read env w.next
    refine ⟨(hfresh₁.alloc halloc).read env _ _ _,
      (hspares₁.trans (spares_alloc halloc)).read env _ _ _, ?_, rfl⟩
    rw [blNtfsReadMft, (hread _ _).used_eq w.next (hnext ▸ Nat.lt_succ_self _), hused]
    exact if_pos rfl

/-- What is mounted is. -/
theorem blNtfsMount_mounted {lba : BitVec 64} {stack : Mem} {uninit : Ptr} {volume : NtfsVolume}
    (hfresh : Fresh w)
    (hrun : blNtfsMount env fuel lba stack uninit w = some (w', .success, some volume)) :
    Mounted w' volume := by
  unfold blNtfsMount at hrun
  cases halloc : w.alloc env with
  | mk w₁ block =>
    cases block with
    | none => simp [halloc] at hrun
    | some block =>
      obtain ⟨-, rfl, hnext, hused⟩ := alloc_handedOut halloc
      simp only [halloc] at hrun
      obtain ⟨⟨w₂, status, found⟩, hcheck, hout⟩ := Option.map_eq_some_iff.mp hrun
      dsimp only at hout
      split_ifs at hout with hstatus
      · simp at hout
      · obtain rfl := not_not.mp hstatus
        simp only [Prod.mk.injEq, true_and, Option.map_eq_some_iff] at hout
        obtain ⟨rfl, ⟨mftRoot, info⟩, rfl, rfl⟩ := hout
        obtain ⟨hfresh₂, hspares, hroot, hiroot⟩ :=
          blNtfsCheckNtfs_mounts (hfresh.alloc halloc) hcheck
        refine ⟨hfresh₂, ?_⟩
        simp only [NtfsVolume.blocks, List.forall_mem_cons, hiroot]
        refine ⟨?_, hroot, hroot, fun b hb => absurd hb List.not_mem_nil⟩
        rw [hspares.used_eq w.next (by omega), hused]
        exact if_pos rfl

/-! ## What following a path spares -/

/-- The block stays in use: neither the copy nor a node is in it. -/
structure Guards (b : Nat) (p : PathWorld) : Prop where
  lt : b < p.world.next
  used : p.world.used b = true
  copy : p.copy ≠ some b
  nodes : b ∉ p.nodes

/-- Closing the data leaves the block alone. -/
def Apart (b : Nat) (fdata : BlFileData) : Prop :=
  fdata.data.rootdir = false → fdata.data.mftRecord ≠ b

/-- The record of the root directory is not freed. -/
theorem apart_root (b : Nat) (volume : NtfsVolume) (block : Nat) :
    Apart b (rootFileData volume block) := fun hno => by cases hno

theorem Apart.close {fdata : BlFileData} (hapart : Apart b fdata) (h : w.used b = true) :
    (blNtfsClose w fdata).used b = true := by
  unfold blNtfsClose
  dsimp only
  split_ifs with hroot
  · exact h
  · exact used_free (hapart (by simpa using hroot)) h

theorem Guards.free {p : PathWorld} (h : Guards b p) {block : Option Nat} (hne : block ≠ some b) :
    Guards b { p with world := p.world.freeAll [block] } := by
  cases block with
  | none => exact h
  | some c => exact ⟨h.lt, used_free (fun heq => hne (congrArg some heq)) h.used, h.copy, h.nodes⟩

theorem Guards.spares {p : PathWorld} (h : Guards b p) (hspares : Spares p.world w) :
    b < w.next ∧ w.used b = true :=
  ⟨Nat.lt_of_lt_of_le h.lt hspares.next_le, (hspares.used_eq b h.lt).trans h.used⟩

variable {around : Around}

/-- A block in use that is neither a node's nor the copy's is in use until the path is followed. -/
theorem blNtfsFs_keeps (env : Env) (around : Around) (fuel b : Nat) :
    (blNtfsFs env around fuel).Keeps (Guards b) (Apart b) where
  strndup p n p' h hrun := by
    rcases (Spares.refl p.world).alloc env with ⟨w, hw, hspares⟩ | ⟨w, hw, hspares⟩
    · simp [blNtfsFs, hw] at hrun
    · simp only [blNtfsFs, hw, Option.some.injEq] at hrun
      subst hrun
      obtain ⟨hlt, hused⟩ := h.spares hspares
      exact ⟨hlt, hused, fun heq => absurd (Option.some.inj heq) h.lt.ne', h.nodes⟩
  clear p i h := ⟨h.lt, h.used, h.copy, h.nodes⟩
  callback p filename directory fdata h _ := by
    simp only [blNtfsFs, lookup]
    split
    · exact ⟨h.lt, h.used, h.copy, h.nodes⟩
    next hrun =>
      obtain ⟨hlt, hused⟩ := h.spares (blNtfsIterateDirectoryCallback_spares hrun).1
      exact ⟨hlt, hused, h.copy, h.nodes⟩
    next n hrun =>
      obtain ⟨hspares, hnode⟩ := blNtfsIterateDirectoryCallback_spares hrun
      obtain ⟨hlt, hused⟩ := h.spares hspares
      refine ⟨hlt, hused, h.copy, fun hmem => ?_⟩
      rcases List.mem_append.mp hmem with hmem | hmem
      · exact h.nodes hmem
      · have hge := (hnode n rfl).1
        have hlt := h.lt
        rw [← List.mem_singleton.mp hmem] at hge
        omega
  found p filename directory fdata found h _ hfound := by
    simp only [blNtfsFs, lookup] at hfound
    split at hfound
    · cases hfound
    · cases hfound
    next n hrun =>
      obtain rfl := Except.ok.inj hfound
      intro _ heq
      have hge := ((blNtfsIterateDirectoryCallback_spares hrun).2 n rfl).2
      have hlt := h.lt
      rw [show n.fdata.mftRecord = b from heq] at hge
      omega
  close p fdata h hapart := ⟨by
    have hlt := h.lt
    simp only [blNtfsFs, blNtfsClose]
    split_ifs <;> exact hlt, hapart.close h.used, h.copy, h.nodes⟩
  freeNode p id h := h.free fun hmem => h.nodes (List.mem_of_getElem? hmem)
  freeCopy p h := h.free h.copy

/-! ## Opening and closing -/

variable {handle : NtfsVolume} {path : Option File.CString} {file : Option BlFile}

def afterClose (w : World) : Option BlFile → World
  | none => w
  | some file => blFileClose w file

theorem openPath_keeps {path : File.CString} {root fdata : Nat} {status : BlStatus}
    (hlt : b < w.next) (hused : w.used b = true) (hroot : b ≠ root)
    (hrun : openPath env around fuel handle path root fdata w = some (w', status, file)) :
    w'.used b = true ∧ (afterClose w' file).used b = true := by
  unfold openPath at hrun
  split at hrun
  · cases hrun
  next out hout =>
  have hstart : Guards b ⟨w, none, [root], false⟩ :=
    ⟨hlt, hused, (fun hno => by cases hno), fun hmem => hroot (List.mem_singleton.mp hmem)⟩
  obtain ⟨hguards, hapart⟩ := (blNtfsFs_keeps env around fuel b).blFileIteratePath hstart
    (apart_root b handle fdata) hout
  split_ifs at hrun with hstuck hstatus hcopy
  · obtain ⟨rfl, -, rfl⟩ := by simpa using hrun
    exact ⟨hguards.used, hguards.used⟩
  · obtain ⟨rfl, -, rfl⟩ := by simpa using hrun
    rcases (Spares.refl w).alloc env with ⟨w₁, hw₁, hspares⟩ | ⟨w₁, hw₁, hspares⟩
    · rw [hw₁]
      exact ⟨(hstart.spares hspares).2, (hstart.spares hspares).2⟩
    · rw [hw₁]
      exact ⟨(hstart.spares hspares).2, (hstart.spares hspares).2⟩
  · rcases (Spares.refl out.world.world).alloc env with ⟨w₁, hw₁, hspares⟩ | ⟨w₁, hw₁, hspares⟩
    · rw [hw₁] at hrun
      obtain ⟨rfl, -, rfl⟩ := by simpa using hrun
      exact ⟨(hguards.spares hspares).2, (hguards.spares hspares).2⟩
    · rw [hw₁] at hrun
      obtain ⟨rfl, -, rfl⟩ := by simpa using hrun
      have hused' := (hguards.spares hspares).2
      refine ⟨hused', ?_⟩
      cases hfdata : out.fdata with
      | none => exact hused'
      | some found => exact (hapart found hfdata).close hused'

/-- What opening does: nothing without an absolute path, or up to a refused allocation; else the
path is followed, with a root node and its data in blocks of their own. -/
inductive Opens (env : Env) (around : Around) (fuel : Nat) (handle : NtfsVolume) (w : World) :
    Option File.CString → World → Option BlFile → Prop
  | notAbsolute {path : Option File.CString} (hpath : ∀ p, path = some p →
      p.1.head? ≠ some File.blPathDelimiter) : Opens env around fuel handle w path w none
  | noRoot {path : File.CString} (hpath : path.1.head? = some File.blPathDelimiter) {w' : World}
      (halloc : w.alloc env = (w', none)) : Opens env around fuel handle w (some path) w' none
  | noData {path : File.CString} (hpath : path.1.head? = some File.blPathDelimiter) {w₁ w' : World}
      (hroot : w.alloc env = (w₁, some w.next)) (halloc : w₁.alloc env = (w', none)) :
      Opens env around fuel handle w (some path) w' none
  | follows {path : File.CString} (hpath : path.1.head? = some File.blPathDelimiter)
      {w₁ w₂ w' : World} {status : BlStatus} {file file' : Option BlFile}
      (hroot : w.alloc env = (w₁, some w.next)) (hdata : w₁.alloc env = (w₂, some w₁.next))
      (hrun : openPath env around fuel handle path w.next w₁.next w₂ = some (w', status, file))
      (hfile : file' = if status ≠ .success then none else file) :
      Opens env around fuel handle w (some path) w' file'

theorem blFileOpen_opens (hrun : blFileOpen env around fuel handle path w = some (w', file)) :
    Opens env around fuel handle w path w' file := by
  cases path with
  | none =>
    obtain ⟨rfl, rfl⟩ := Prod.mk.inj (Option.some.inj hrun)
    exact .notAbsolute fun p hp => by cases hp
  | some path =>
    unfold blFileOpen at hrun
    dsimp only at hrun
    split_ifs at hrun with hpath
    · obtain ⟨rfl, rfl⟩ := Prod.mk.inj (Option.some.inj hrun)
      exact .notAbsolute fun p hp => Option.some.inj hp ▸ hpath
    · have hpath := not_not.mp hpath
      obtain ⟨⟨w₃, status, file'⟩, hopen, hout⟩ := Option.map_eq_some_iff.mp hrun
      have hw : w₃ = w' ∧ file = if status ≠ .success then none else file' := by
        dsimp only at hout
        split_ifs at hout ⊢ with hstatus
        · exact ⟨(Prod.mk.inj hout).1, (Prod.mk.inj hout).2.symm⟩
        · exact ⟨(Prod.mk.inj hout).1, (Prod.mk.inj hout).2.symm⟩
      obtain ⟨rfl, hfile⟩ := hw
      unfold blNtfsOpen at hopen
      rcases (Spares.refl w).alloc env with ⟨w₁, hw₁, -⟩ | ⟨w₁, hw₁, -⟩
      · simp only [hw₁, Option.some.injEq, Prod.mk.injEq] at hopen
        obtain ⟨rfl, rfl, rfl⟩ := hopen
        rw [if_pos (by decide)] at hfile
        subst hfile
        exact .noRoot hpath hw₁
      · simp only [hw₁] at hopen
        rcases (Spares.refl w₁).alloc env with ⟨w₂, hw₂, -⟩ | ⟨w₂, hw₂, -⟩
        · simp only [hw₂, Option.some.injEq, Prod.mk.injEq] at hopen
          obtain ⟨rfl, rfl, rfl⟩ := hopen
          rw [if_pos (by decide)] at hfile
          subst hfile
          exact .noData hpath hw₁ hw₂
        · simp only [hw₂] at hopen
          exact .follows hpath hw₁ hw₂ hopen hfile

/-- Opening and closing free nothing that was in use before. -/
theorem blFileOpen_keeps (hfresh : Fresh w)
    (hrun : blFileOpen env around fuel handle path w = some (w', file)) (hused : w.used b = true) :
    w'.used b = true ∧ (afterClose w' file).used b = true := by
  have hlt := hfresh.lt hused
  have hstays : ∀ w', Spares w w' → w'.used b = true :=
    fun w' hspares => (hspares.used_eq b hlt).trans hused
  cases blFileOpen_opens hrun with
  | notAbsolute => exact ⟨hused, hused⟩
  | noRoot _ halloc =>
    have hspares := spares_alloc halloc
    exact ⟨hstays _ hspares, hstays _ hspares⟩
  | noData _ hroot halloc =>
    have hspares := (spares_alloc hroot).trans (spares_alloc halloc)
    exact ⟨hstays _ hspares, hstays _ hspares⟩
  | follows _ hroot hdata hpath hfile =>
    have hspares := (spares_alloc hroot).trans (spares_alloc hdata)
    obtain ⟨hopen, hclose⟩ := openPath_keeps (Nat.lt_of_lt_of_le hlt hspares.next_le)
      (hstays _ hspares) hlt.ne hpath
    refine ⟨hopen, ?_⟩
    rw [hfile]
    split_ifs
    · exact hopen
    · exact hclose

/-! ## The balance -/

/-- The same blocks are in use as before, among them those of the volume, which are unchanged. -/
structure Balanced (w w' : World) (volume : NtfsVolume) : Prop where
  same : ∀ b, w'.used b = w.used b
  volumeUsed : ∀ b ∈ volume.blocks, w'.used b = true
  volumeKept : ∀ b ∈ volume.blocks, w'.bytes b = w.bytes b

def Absolute (path : Option File.CString) : Prop :=
  ∃ p, path = some p ∧ p.1.head? = some File.blPathDelimiter

theorem Mounted.balanced (h : Mounted w handle) (hused : w'.used = w.used)
    (hbytes : w'.bytes = w.bytes) : Balanced w w' handle :=
  ⟨fun b => by rw [hused], fun b hb => by rw [hused]; exact h.used b hb, fun b _ => by rw [hbytes]⟩

theorem not_balanced (hfresh : Fresh w) (hle : w.next ≤ b) (hused : w'.used b = true) :
    ¬Balanced w w' handle := by
  intro h
  rw [h.same b, hfresh b hle] at hused
  contradiction

/-- A file that is opened by an absolute path always leaves a block behind: the root node or the
data of the root directory. -/
theorem blFileOpen_balanced_iff (hmounted : Mounted w handle)
    (hrun : blFileOpen env around fuel handle path w = some (w', file)) :
    Balanced w (afterClose w' file) handle ↔ ¬Absolute path ∨ env.allocs w.allocs = false := by
  cases blFileOpen_opens hrun with
  | notAbsolute hpath =>
    refine iff_of_true (hmounted.balanced rfl rfl) (.inl ?_)
    rintro ⟨p, hp, hhead⟩
    exact hpath p hp hhead
  | noRoot _ halloc =>
    obtain ⟨hrefused, hused, hbytes⟩ := alloc_refused halloc
    exact iff_of_true (hmounted.balanced hused hbytes) (.inr hrefused)
  | noData hpath hroot halloc =>
    obtain ⟨hserved, -, -, hused⟩ := alloc_handedOut hroot
    refine iff_of_false (not_balanced hmounted.fresh (Nat.le_refl _) ?_) ?_
    · rw [afterClose, (alloc_refused halloc).2.1, hused]
      exact if_pos rfl
    · rintro (hno | hrefused)
      · exact hno ⟨_, rfl, hpath⟩
      · exact absurd (hserved.symm.trans hrefused) (by decide)
  | @follows _ hpath w₁ w₂ _ _ _ _ hroot hdata hfollow hfile =>
    obtain ⟨hserved, -, hnext, -⟩ := alloc_handedOut hroot
    obtain ⟨-, -, hnext', hused⟩ := alloc_handedOut hdata
    -- The data of the root directory is in use when the path is followed.
    obtain ⟨hopen, hclose⟩ := openPath_keeps (show w₁.next < w₂.next by omega)
      (by rw [hused]; exact if_pos rfl) (by omega) hfollow
    refine iff_of_false (not_balanced hmounted.fresh (show w.next ≤ w₁.next by omega) ?_) ?_
    · rw [hfile]
      split_ifs
      · exact hopen
      · exact hclose
    · rintro (hno | hrefused)
      · exact hno ⟨_, rfl, hpath⟩
      · exact absurd (hserved.symm.trans hrefused) (by decide)

/-! ### The root directory of a small volume -/

def smallVolume : NtfsVolume := ⟨0, 1, ⟨0, 512, 512, 0, 1024, ⟨1, 200⟩⟩⟩

/-- The two blocks of the volume are in use. -/
def mountedWorld : World := ⟨2, fun _ _ => 0, fun b => b = 0 || b = 1, 0, 0, []⟩

/-- Zeros behind the copy. -/
def zeros : Around := ⟨fun _ _ => 0, fun w _ => w.bytes, fun _ _ _ => 0⟩

/-- `"/"`. -/
def rootPath : File.CString := ⟨[0x2f], by decide⟩

theorem mountedWorld_mounted : Mounted mountedWorld smallVolume := by
  refine ⟨fun b hle => ?_, by decide⟩
  have hle : 2 ≤ b := hle
  simp only [mountedWorld, Bool.or_eq_false_iff, decide_eq_false_iff_not]
  omega

theorem rootPath_opens : ∃ w' file,
    blFileOpen (smallEnv 101) zeros 1 smallVolume (some rootPath) mountedWorld = some (w', file) ∧
      (afterClose w' file).used 3 = true := by
  have hout : (blFileOpen (smallEnv 101) zeros 1 smallVolume (some rootPath) mountedWorld).map
      (fun r => (afterClose r.1 r.2).used 3) = some true := by decide +kernel
  obtain ⟨⟨w', file⟩, hrun, hused⟩ := Option.map_eq_some_iff.mp hout
  exact ⟨w', file, hrun, hused⟩

theorem blFileOpen_balanced_iff_root : ∃ w' file,
    blFileOpen (smallEnv 101) zeros 1 smallVolume (some rootPath) mountedWorld = some (w', file) ∧
      (Balanced mountedWorld (afterClose w' file) smallVolume ↔
        ¬Absolute (some rootPath) ∨ (smallEnv 101).allocs mountedWorld.allocs = false) := by
  obtain ⟨w', file, hrun, -⟩ := rootPath_opens
  exact ⟨w', file, hrun, blFileOpen_balanced_iff mountedWorld_mounted hrun⟩

/-- The root directory is opened and closed, and its data stays. -/
theorem rootPath_not_balanced : ¬ ∀ env around fuel handle path w w' file,
    Mounted w handle → blFileOpen env around fuel handle path w = some (w', file) →
      Balanced w (afterClose w' file) handle := by
  intro h
  obtain ⟨w', file, hrun, hused⟩ := rootPath_opens
  have hbalanced := h _ _ _ _ _ _ _ _ mountedWorld_mounted hrun
  rw [hbalanced.same 3] at hused
  exact absurd hused (by decide)

end BootLoader.Ntfs

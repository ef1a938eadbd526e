import BootLoader.Lib.Runs
import BootLoader.Shell.Code

/-!
# The selection stays consistent

The five globals over any sequence of calls.
-/

namespace BootLoader.Shell

open Storage

variable (disks : List BlStorageDevice)

/-- The index names a partition of the disk at this place. -/
def ValidPartition (disk : Nat) (index : Int) : Prop := partitionGet disks disk index ≠ none

/-- The partition that is operated is the one of the indices, and the handle was mounted from it. -/
def SelectionAgrees (s : BlShell) : Prop :=
  ∀ d p, s.operatedPartition = some (d, p) →
    s.operatedDisk = some d ∧ blStorageDeviceGet disks s.diskIndex = some d ∧
      partitionGet disks d s.partitionIndex = some p ∧
      ∃ fs, s.operatedFsHandle = some ⟨fs, d, p⟩

/-- Without one, every partition of the disk that can be mounted can be selected. -/
def CanSelect (s : BlShell) : Prop :=
  s.operatedPartition = none → ∀ d index p env fs, s.operatedDisk = some d →
    partitionGet disks d index = some p → blFsTryMount env d p = some ⟨fs, d, p⟩ →
    (blShellSetPartition disks env index s).operatedPartition = some (d, p)

/-- The call's index does not exist, or its mount fails. -/
def Call.Fails (s : BlShell) : Call → Prop
  | .setDisk index => blStorageDeviceGet disks index = none
  | .setPartition env index =>
    ∀ d, s.operatedDisk = some d → ∀ p, partitionGet disks d index = some p →
      blFsTryMount env d p = none

/-- The selection is left as it was; without a partition the handle is not part of it. -/
structure SameSelection (s s' : BlShell) : Prop where
  disk : s'.operatedDisk = s.operatedDisk ∧ s'.diskIndex = s.diskIndex
  partition : s'.operatedPartition = s.operatedPartition ∧ s'.partitionIndex = s.partitionIndex
  handle : s.operatedPartition ≠ none → s'.operatedFsHandle = s.operatedFsHandle

/-- No other disk is selected that has a partition with the old partition index, and no partition is
given up by a call that fails: its index is the one already selected, or nothing is. -/
def Call.Safe (c : Call) (s : BlShell) : Prop :=
  match c with
  | .setDisk index =>
    ∀ d, index ≠ s.diskIndex → blStorageDeviceGet disks index = some d →
      ¬ValidPartition disks d s.partitionIndex
  | .setPartition _ index =>
    c.Fails disks s → s.operatedPartition ≠ none → index = s.partitionIndex

/-- What holds between the calls. -/
structure Consistent (s : BlShell) : Prop where
  agrees : SelectionAgrees disks s
  disk : ∀ d, s.operatedDisk = some d → blStorageDeviceGet disks s.diskIndex = some d
  /-- The old index is of no use on the disk. -/
  stale : s.operatedPartition = none → ∀ d, s.operatedDisk = some d →
    ¬ValidPartition disks d s.partitionIndex

variable {disks} {s s' : BlShell}

theorem blFsTryMount_eq_some {env : Mounting} {d p : Nat} {handle : BlFsHandle}
    (h : blFsTryMount env d p = some handle) : ∃ fs, handle = ⟨fs, d, p⟩ := by
  unfold blFsTryMount at h
  split_ifs at h
  obtain ⟨fs, -, rfl⟩ := Option.map_eq_some_iff.mp h
  exact ⟨fs, rfl⟩

/-- `bl_shell_set_partition` selects the partition, unless its index is the old one. -/
theorem blShellSetPartition_select {env : Mounting} {index : Int} {d p : Nat} {handle : BlFsHandle}
    (hdisk : s.operatedDisk = some d) (hindex : s.partitionIndex ≠ index)
    (hp : partitionGet disks d index = some p) (hmount : blFsTryMount env d p = some handle) :
    blShellSetPartition disks env index s =
      { s with
        operatedFsHandle := some handle
        partitionIndex := index
        operatedPartition := some (d, p) } := by
  simp only [blShellSetPartition, hdisk, hindex, if_false, hp, hmount]

theorem Consistent.canSelect (h : Consistent disks s) : CanSelect disks s := by
  intro hnone d index p env fs hdisk hp hmount
  have hindex : s.partitionIndex ≠ index := by
    rintro rfl
    exact h.stale hnone d hdisk (by simp [ValidPartition, hp])
  rw [blShellSetPartition_select hdisk hindex hp hmount]

theorem Consistent.setDisk (h : Consistent disks s) {index : Int}
    (hsafe : (Call.setDisk index).Safe disks s) :
    Consistent disks (blShellSetDisk disks index s) := by
  unfold blShellSetDisk
  split_ifs with hindex
  · exact h
  · cases hget : blStorageDeviceGet disks index with
    | none => exact h
    | some d =>
      refine ⟨fun _ _ hp => by simp at hp, ?_, ?_⟩
      · intro d' hd'
        obtain rfl := Option.some.inj hd'
        exact hget
      · intro _ d' hd'
        obtain rfl := Option.some.inj hd'
        exact hsafe d (fun heq => hindex heq.symm) hget

/-- What `bl_shell_set_partition` comes to. -/
inductive SetPartitionOutcome (disks : List BlStorageDevice) (env : Mounting) (index : Int)
    (s : BlShell) : BlShell → Prop
  | noDisk (hdisk : s.operatedDisk = none) :
      SetPartitionOutcome disks env index s { s with operatedPartition := none }
  | sameIndex (hindex : s.partitionIndex = index) : SetPartitionOutcome disks env index s s
  | noPartition {d : Nat} (hdisk : s.operatedDisk = some d) (hindex : s.partitionIndex ≠ index)
      (hget : partitionGet disks d index = none) :
      SetPartitionOutcome disks env index s { s with operatedPartition := none }
  | notMounted {d p : Nat} (hdisk : s.operatedDisk = some d) (hindex : s.partitionIndex ≠ index)
      (hget : partitionGet disks d index = some p) (hmount : blFsTryMount env d p = none) :
      SetPartitionOutcome disks env index s { s with operatedFsHandle := none }
  | selected {d p : Nat} {handle : BlFsHandle} (hdisk : s.operatedDisk = some d)
      (hget : partitionGet disks d index = some p) (hmount : blFsTryMount env d p = some handle) :
      SetPartitionOutcome disks env index s
        { s with
          operatedFsHandle := some handle
          partitionIndex := index
          operatedPartition := some (d, p) }

theorem blShellSetPartition_outcome (disks : List BlStorageDevice) (env : Mounting) (index : Int)
    (s : BlShell) :
    SetPartitionOutcome disks env index s (blShellSetPartition disks env index s) := by
  cases hdisk : s.operatedDisk with
  | none =>
    rw [show blShellSetPartition disks env index s = { s with operatedPartition := none } by
      simp only [blShellSetPartition, hdisk]]
    exact .noDisk hdisk
  | some d =>
    by_cases hindex : s.partitionIndex = index
    · rw [show blShellSetPartition disks env index s = s by
        simp only [blShellSetPartition, hdisk, hindex, if_true]]
      exact .sameIndex hindex
    · cases hget : partitionGet disks d index with
      | none =>
        rw [show blShellSetPartition disks env index s = { s with operatedPartition := none } by
          simp only [blShellSetPartition, hdisk, hindex, if_false, hget]]
        exact .noPartition hdisk hindex hget
      | some p =>
        cases hmount : blFsTryMount env d p with
        | none =>
          rw [show blShellSetPartition disks env index s = { s with operatedFsHandle := none } by
            simp only [blShellSetPartition, hdisk, hindex, if_false, hget, hmount]]
          exact .notMounted hdisk hindex hget hmount
        | some handle =>
          rw [blShellSetPartition_select hdisk hindex hget hmount]
          exact .selected hdisk hget hmount

/-- A safe call that fails with another index finds nothing selected. -/
theorem Call.Safe.not_selected {env : Mounting} {index : Int} {d : Nat}
    (hsafe : (Call.setPartition env index).Safe disks s) (hindex : s.partitionIndex ≠ index)
    (hdisk : s.operatedDisk = some d)
    (hfails : ∀ p, partitionGet disks d index = some p → blFsTryMount env d p = none) :
    s.operatedPartition = none := by
  by_contra hsome
  refine hindex (hsafe (fun d' hd' p hp => ?_) hsome).symm
  obtain rfl := Option.some.inj (hdisk.symm.trans hd')
  exact hfails p hp

/-- Nothing is lost where no partition was selected. -/
theorem Consistent.unselect (h : Consistent disks s) (hnone : s.operatedPartition = none) :
    Consistent disks { s with operatedPartition := none } :=
  ⟨fun _ _ hp => by simp at hp, h.disk, fun _ => h.stale hnone⟩

theorem Consistent.setPartition (h : Consistent disks s) {env : Mounting} {index : Int}
    (hsafe : (Call.setPartition env index).Safe disks s) :
    Consistent disks (blShellSetPartition disks env index s) := by
  have hout := blShellSetPartition_outcome disks env index s
  generalize blShellSetPartition disks env index s = s' at hout
  cases hout with
  | noDisk hdisk =>
    refine h.unselect ?_
    by_contra hsome
    obtain ⟨⟨d, p⟩, hp⟩ := Option.ne_none_iff_exists'.mp hsome
    simp [(h.agrees d p hp).1] at hdisk
  | sameIndex => exact h
  | noPartition hdisk hindex hget =>
    exact h.unselect (hsafe.not_selected hindex hdisk fun p hp => by simp [hget] at hp)
  | notMounted hdisk hindex hget hmount =>
    have hnone : s.operatedPartition = none := by
      refine hsafe.not_selected hindex hdisk fun p' hp => ?_
      obtain rfl := Option.some.inj (hget.symm.trans hp)
      exact hmount
    exact ⟨fun _ _ hp => by simp [hnone] at hp, h.disk, h.stale⟩
  | selected hdisk hget hmount =>
    obtain ⟨fs, rfl⟩ := blFsTryMount_eq_some hmount
    refine ⟨?_, h.disk, fun hnone => by simp at hnone⟩
    intro d' p' hp
    obtain ⟨rfl, rfl⟩ := Prod.mk.inj (Option.some.inj hp)
    exact ⟨hdisk, h.disk _ hdisk, hget, fs, rfl⟩

theorem Consistent.call (c : Call) (s : BlShell) (h : Consistent disks s)
    (hsafe : c.Safe disks s) : ∃ s', c.run disks s = some s' ∧ Consistent disks s' := by
  cases c with
  | setDisk index => exact ⟨_, rfl, h.setDisk hsafe⟩
  | setPartition env index => exact ⟨_, rfl, h.setPartition hsafe⟩

/-- A call that fails leaves the selection as it was. -/
theorem Consistent.fails (h : Consistent disks s) {c : Call} (hsafe : c.Safe disks s)
    (hfails : c.Fails disks s) : ∃ s', c.run disks s = some s' ∧ SameSelection s s' := by
  have hsame : SameSelection s s := ⟨⟨rfl, rfl⟩, ⟨rfl, rfl⟩, fun _ => rfl⟩
  cases c with
  | setDisk index =>
    refine ⟨_, rfl, ?_⟩
    unfold blShellSetDisk
    split_ifs
    · exact hsame
    · rw [show blStorageDeviceGet disks index = none from hfails]
      exact hsame
  | setPartition env index =>
    refine ⟨_, rfl, ?_⟩
    have hlost : ∀ partition handle, s.operatedPartition = none → partition = none →
        SameSelection s { s with operatedPartition := partition, operatedFsHandle := handle } :=
      fun _ _ hnone hpartition =>
        ⟨⟨rfl, rfl⟩, ⟨hpartition.trans hnone.symm, rfl⟩, fun hsome => absurd hnone hsome⟩
    have hout := blShellSetPartition_outcome disks env index s
    generalize blShellSetPartition disks env index s = s' at hout
    cases hout with
    | noDisk hdisk =>
      by_cases hnone : s.operatedPartition = none
      · exact hlost none s.operatedFsHandle hnone rfl
      · obtain ⟨⟨d, p⟩, hp⟩ := Option.ne_none_iff_exists'.mp hnone
        simp [(h.agrees d p hp).1] at hdisk
    | sameIndex => exact hsame
    | noPartition hdisk hindex hget =>
      have hnone := hsafe.not_selected hindex hdisk (hfails _ hdisk)
      exact hlost none s.operatedFsHandle hnone rfl
    | notMounted hdisk hindex =>
      have hnone := hsafe.not_selected hindex hdisk (hfails _ hdisk)
      exact hlost s.operatedPartition none hnone hnone
    | selected hdisk hget hmount =>
      rw [hfails _ hdisk _ hget] at hmount
      cases hmount

theorem start_consistent (disks : List BlStorageDevice) : Consistent disks BlShell.start :=
  ⟨fun _ _ hp => by simp [BlShell.start] at hp, fun _ hd => by simp [BlShell.start] at hd,
    fun _ _ hd => by simp [BlShell.start] at hd⟩

/-- **Sequences of safe calls keep the selection consistent.** -/
theorem run_consistent (disks : List BlStorageDevice) (calls : List Call)
    (hsafe : Runs.Along (Call.run disks) (Call.Safe disks) calls BlShell.start) :
    ∃ s, Runs.run (Call.run disks) calls BlShell.start = some s ∧ SelectionAgrees disks s ∧
      CanSelect disks s ∧
      ∀ c : Call, c.Safe disks s → c.Fails disks s →
        ∃ s', c.run disks s = some s' ∧ SameSelection s s' := by
  obtain ⟨s, hrun, hs⟩ := Runs.run_invariant Consistent.call (start_consistent disks) hsafe
  exact ⟨s, hrun, hs.agrees, hs.canSelect, fun _ => hs.fails⟩

def twoDisks : List BlStorageDevice :=
  [⟨[⟨63, 100⟩, ⟨163, 100⟩]⟩, ⟨[⟨63, 200⟩, ⟨263, 200⟩]⟩]

def mounts : Mounting := ⟨true, [some false, some true]⟩

theorem secondPartition_consistent :
    ∃ s, Runs.run (Call.run twoDisks) [.setDisk 1, .setPartition mounts 1] BlShell.start = some s ∧
      SelectionAgrees twoDisks s ∧ CanSelect twoDisks s ∧
      ∀ c : Call, c.Safe twoDisks s → c.Fails twoDisks s →
        ∃ s', c.run twoDisks s = some s' ∧ SameSelection s s' := by
  refine run_consistent twoDisks _ ⟨?_, fun s hs => ⟨?_, fun _ _ => trivial⟩⟩
  · intro d _ hd
    obtain rfl : 1 = d := Option.some.inj hd
    exact fun hvalid => hvalid rfl
  · obtain rfl := Option.some.inj hs
    intro _ hsome
    exact absurd rfl hsome

/-- The partition of the same index of another disk cannot be selected. -/
theorem sameIndex_not_selected : ¬ ∀ disks calls,
    ∃ s, Runs.run (Call.run disks) calls BlShell.start = some s ∧ SelectionAgrees disks s ∧
      CanSelect disks s := by
  intro h
  obtain ⟨s, hrun, -, hselect⟩ := h twoDisks [.setDisk 0, .setPartition mounts 1, .setDisk 1]
  obtain rfl := Option.some.inj hrun
  have hselected := hselect rfl 1 1 1 mounts 1 rfl rfl rfl
  revert hselected
  decide

end BootLoader.Shell

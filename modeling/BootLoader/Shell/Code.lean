import BootLoader.Storage.Devices

/-! # The selection of the shell (`core/shell/shell.c`, `core/fs/fs.c`) -/

namespace BootLoader.Shell

open Storage

/-- What `bl_fs_try_mount` returns: the file system, and what it was mounted from. -/
structure BlFsHandle where
  fs : Nat
  disk : Nat
  partition : Nat
  deriving DecidableEq

/-- One call of `bl_fs_try_mount`: is there a block for the handle, and does each file system of the
list mount the partition, if it has a `mount` ? -/
structure Mounting where
  alloc : Bool
  mounts : List (Option Bool)

def blFsTryMount (env : Mounting) (disk partition : Nat) : Option BlFsHandle :=
  if env.alloc then
    (env.mounts.findIdx? fun m => m = some true).map fun fs => ⟨fs, disk, partition⟩
  else none

/-- The globals of the shell. The partition is known by the places of its disk and its own. -/
structure BlShell where
  operatedFsHandle : Option BlFsHandle
  diskIndex : Int
  operatedDisk : Option Nat
  partitionIndex : Int
  operatedPartition : Option (Nat × Nat)
  deriving DecidableEq

def BlShell.start : BlShell := ⟨none, -1, none, -1, none⟩

variable (disks : List BlStorageDevice)

def blShellSetDisk (index : Int) (s : BlShell) : BlShell :=
  if s.diskIndex = index then s
  else match blStorageDeviceGet disks index with
    | none => s
    | some disk =>
      { s with diskIndex := index, operatedDisk := some disk, operatedPartition := none }

/-- `bl_storage_partition_get` on the disk at this place. -/
def partitionGet (disk : Nat) (index : Int) : Option Nat :=
  (disks[disk]?).bind fun d => blStoragePartitionGet d index

def blShellSetPartition (env : Mounting) (index : Int) (s : BlShell) : BlShell :=
  match s.operatedDisk with
  | none => { s with operatedPartition := none }
  | some disk =>
    if s.partitionIndex = index then s
    else match partitionGet disks disk index with
      | none => { s with operatedPartition := none }
      | some partition =>
        match blFsTryMount env disk partition with
        | none => { s with operatedFsHandle := none }
        | some handle =>
          { s with
            operatedFsHandle := some handle
            partitionIndex := index
            operatedPartition := some (disk, partition) }

inductive Call where
  | setDisk (index : Int)
  | setPartition (env : Mounting) (index : Int)

def Call.run (c : Call) (s : BlShell) : Option BlShell :=
  match c with
  | .setDisk index => some (blShellSetDisk disks index s)
  | .setPartition env index => some (blShellSetPartition disks env index s)

end BootLoader.Shell

import BootLoader.Ext.Code
import BootLoader.Fat.Mount
import BootLoader.Ntfs.Mount

/-!
# Mounting a partition (`core/fs/fs.c`)

The registered file systems are those of the three drivers; one without a `mount` is stepped over.
-/

open ByteMemory

namespace BootLoader.Fs

open Driver

inductive FileSystem where
  | ntfs
  | fat
  | ext
  deriving DecidableEq, Repr

/-- What `handle->info` points to. -/
inductive FsInfo where
  | ntfs (volume : Ntfs.NtfsVolume)
  | fat (volume : Fat.FatVolume)
  | ext (volume : Ext.ExtVolume)

/-- The partition, and what the variables of a mount hold before they are set. -/
structure Mounting where
  lba : BitVec 64
  stack : Mem
  uninit : Ptr
  fuel : Nat

def FileSystem.mount (env : Env) (p : Mounting) (w : World) :
    FileSystem → Option (World × BlStatus × Option FsInfo)
  | ntfs => (Ntfs.blNtfsMount env p.fuel p.lba p.stack p.uninit w).map fun (w, status, volume) =>
      (w, status, volume.map .ntfs)
  | fat =>
    let (w, status, volume) := Fat.blFatMount env p.lba p.stack w
    some (w, status, volume.map .fat)
  | ext => (Ext.blExtMount env p.lba p.stack w).map fun (w, status, volume) =>
      (w, status, volume.map .ext)

/-- The handle's block, the file system and its volume. -/
structure BlFsHandle where
  block : Nat
  fs : FileSystem
  info : FsInfo

/-- The loop of `bl_fs_try_mount` over the file systems, `none` being one without a `mount`. -/
def tryMounts (env : Env) (p : Mounting) (handle : Nat) :
    List (Option FileSystem) → World → Option (World × Option BlFsHandle)
  | [], w => some (w, none)
  | none :: fss, w => tryMounts env p handle fss w
  | some fs :: fss, w =>
    match fs.mount env p w with
    | none => none
    | some (w, status, info) =>
      if status = .success then some (w, info.map fun info => ⟨handle, fs, info⟩)
      else tryMounts env p handle fss w

def blFsTryMount (env : Env) (p : Mounting) (blFsList : List (Option FileSystem)) (w : World) :
    Option (World × Option BlFsHandle) :=
  match w.alloc env with
  | (w, none) => some (w, none)
  | (w, some handle) => tryMounts env p handle blFsList w

end BootLoader.Fs

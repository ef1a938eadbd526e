import BootLoader.Ntfs.Code

/-! # Mounting NTFS (`bl_ntfs_check_ntfs`, `bl_ntfs_mount` of `modules/fs/ntfs/ntfs.c`) -/

open ByteMemory

namespace BootLoader.Ntfs

open Driver Utils

/-- `"NTFS    "`. -/
def blNtfsOem : List Byte := [0x4e, 0x54, 0x46, 0x53, 0x20, 0x20, 0x20, 0x20]

def blMbrSignature : Nat := 0xaa55

/-- `sizeof(struct bl_ntfs_vbr)`. -/
def sizeofVbr : Nat := 512

def vbrOem (vbr : Mem) : List Byte := (List.range 8).map fun i => vbr (3 + i)
def vbrBytesPerSector (vbr : Mem) : Nat := read16 vbr 11
def vbrSectorsPerCluster (vbr : Mem) : Nat := (vbr 13).toNat
def vbrMftLcn (vbr : Mem) : BitVec 64 := BitVec.ofNat 64 (read64 vbr 48)
def vbrClustersPerMftRecord (vbr : Mem) : Byte := vbr 64
def vbrSignature (vbr : Mem) : Nat := read16 vbr 510

/-- The sanity checks. -/
def vbrInvalid (vbr : Mem) : Bool :=
  vbrOem vbr ≠ blNtfsOem ∨ vbrSignature vbr ≠ blMbrSignature ∨
    blLog2 (vbrBytesPerSector vbr) = -1 ∨ blLog2 (vbrSectorsPerCluster vbr) = -1

/-- The size of an MFT record, in 16 bits. The shift counts modulo 32. -/
def vbrMftRecordSize (vbr : Mem) (clusterSize : Nat) : Nat :=
  let clusters := (vbrClustersPerMftRecord vbr).toInt
  if clusters > 0 then clusters.toNat * clusterSize % 2 ^ 16
  else 2 ^ ((-clusters).toNat % 32) % 2 ^ 16

/-- What `bl_ntfs_check_ntfs` sets before the root directory; `iroot` is still unset. -/
def volumeInfo (vbr : Mem) (partitionLba : BitVec 64) (iroot : Ptr) : BlNtfsInfo :=
  let sectorSize := vbrBytesPerSector vbr
  let clusterSize := vbrSectorsPerCluster vbr * sectorSize
  { iroot, sectorSize, clusterSize
    lba := partitionLba
    mftLba := partitionLba +
      vbrMftLcn vbr <<< shiftCount (blLog2 (clusterSize / sectorSize))
    mftRecordSize := vbrMftRecordSize vbr clusterSize }

/-- `BL_NTFS_FILE_ROOT`. -/
def blNtfsFileRoot : BitVec 64 := 5

def irootAttributeType (m : Mem) (iroot : Nat) : Nat := read32 m iroot

/-- With success, the block of `mft_root` and the volume information. The outer `none`: the walk
over the attributes is not left. Nothing is freed after a failure. -/
def blNtfsCheckNtfs (env : Env) (fuel : Nat) (partitionLba : BitVec 64) (stack : Mem) (uninit : Ptr)
    (w : World) : Option (World × BlStatus × Option (Nat × BlNtfsInfo)) :=
  let (w, vbr, status) := w.readVar env stack partitionLba.toNat sizeofVbr
  if status ≠ .success then some (w, status, none)
  else if vbrInvalid vbr then some (w, .invalidFileSystem, none)
  else
    let info := volumeInfo vbr partitionLba uninit
    match w.alloc env with
    | (w, none) => some (w, .memoryAllocationFailed, none)
    | (w, some mftRoot) =>
      let (w, status) := blNtfsReadMft env info w mftRoot blNtfsFileRoot
      if status ≠ .success then some (w, status, none)
      else
        (blNtfsGetMftRecordAttribute env info fuel w mftRoot blNtfsAttrIndexRoot none).map
          fun (w, iroot) =>
            match iroot with
            | none => (w, .unsupported, none)
            | some iroot =>
              if irootAttributeType (w.bytes iroot.block) iroot.off ≠ blNtfsAttrFileName then
                (w, .unsupported, none)
              else (w, .success, some (mftRoot, { info with iroot }))

/-- A volume that is mounted: the block of its information, that of `mft_root`, the information. -/
structure NtfsVolume where
  block : Nat
  mftRoot : Nat
  info : BlNtfsInfo

def blNtfsMount (env : Env) (fuel : Nat) (partitionLba : BitVec 64) (stack : Mem) (uninit : Ptr)
    (w : World) : Option (World × BlStatus × Option NtfsVolume) :=
  match w.alloc env with
  | (w, none) => some (w, .memoryAllocationFailed, none)
  | (w, some block) =>
    (blNtfsCheckNtfs env fuel partitionLba stack uninit w).map fun (w, status, volume) =>
      if status ≠ .success then (w, status, none)
      else (w, .success, volume.map fun (mftRoot, info) => ⟨block, mftRoot, info⟩)

end BootLoader.Ntfs

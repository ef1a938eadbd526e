import BootLoader.Fat.Code

/-! # Mounting FAT (`bl_fat_check_fat`, `bl_fat_mount` of `modules/fs/fat/fat.c`) -/

open ByteMemory

namespace BootLoader.Fat

open Driver

/-- `sizeof(struct bl_fat_vbr)`. -/
def sizeofVbr : Nat := 512

/-- A volume that is mounted: the blocks of its information and of its cache, the information. -/
structure FatVolume where
  block : Nat
  fatCache : Nat
  info : BlFatInfo

/-- All of `bl_fat_check_fat`: with success, the block of the cache and the information. -/
def checkFat (env : Env) (partitionLba : BitVec 64) (stack : Mem) (w : World) :
    World × BlStatus × Option (Nat × BlFatInfo) :=
  let (w, vbr, status) := w.readVar env stack partitionLba.toNat sizeofVbr
  if status ≠ .success then (w, status, none)
  else
    match blFatCheckFat vbr partitionLba with
    | .error status => (w, status, none)
    | .ok info =>
      match w.alloc env with
      | (w, none) => (w, .memoryAllocationFailed, none)
      | (w, some fatCache) => (w, .success, some (fatCache, info))

def blFatMount (env : Env) (partitionLba : BitVec 64) (stack : Mem) (w : World) :
    World × BlStatus × Option FatVolume :=
  match w.alloc env with
  | (w, none) => (w, .memoryAllocationFailed, none)
  | (w, some block) =>
    let (w, status, volume) := checkFat env partitionLba stack w
    if status ≠ .success then (w, status, none)
    else (w, .success, volume.map fun (fatCache, info) => ⟨block, fatCache, info⟩)

end BootLoader.Fat

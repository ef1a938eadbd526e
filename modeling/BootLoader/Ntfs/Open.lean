import BootLoader.File.Code
import BootLoader.Ntfs.Mount

/-!
# Opening and closing (`bl_ntfs_open`, `bl_ntfs_close` and `bl_ntfs_strcmp` of
`modules/fs/ntfs/ntfs.c`, `bl_file_open` and `bl_file_close` of `core/fs/file.c`)
-/

open ByteMemory

namespace BootLoader.Ntfs

open Driver

/-- What memory holds around the copy of a path and its names, which depends on where the heap put
the copy: the bytes behind it, all bytes after one behind it became zero, and the bytes behind the
terminator of a name. -/
structure Around where
  behind : World → Nat → Byte
  clear : World → Nat → Nat → Mem
  behindName : World → List Byte → Nat → Byte

/-! ## Names -/

/-- `bl_toupper`, of a `char`. -/
def blToupper (c : Byte) : Int :=
  let c := c.toInt
  if 0x61 ≤ c ∧ c ≤ 0x7a then c - 0x20 else c

/-- `(char)filename->filename[i]`. -/
def filenameChar (m : Mem) (filename i : Nat) : Byte := m (filename + 66 + 2 * i)

/-- The loop of `bl_ntfs_strcmp` from `i` on, with `left` characters to go. -/
def strcmpFrom (name m : Mem) (filename : Nat) : Nat → Nat → Int
  | 0, i => blToupper (name i) - blToupper (filenameChar m filename i)
  | left + 1, i =>
    if blToupper (name i) = blToupper (filenameChar m filename i) ∧ left ≠ 0 then
      strcmpFrom name m filename left (i + 1)
    else blToupper (name i) - blToupper (filenameChar m filename i)

/-- A length of 0 counts as 256, since it is decremented before it is tested. -/
def blNtfsStrcmp (name m : Mem) (filename : Nat) : Int :=
  let length := (m (filename + 64)).toNat
  strcmpFrom name m filename (if length = 0 then 256 else length) 0

def nameBytes (around : Around) (w : World) (name : List Byte) : Mem := fun i =>
  if i < name.length then name.getD i 0
  else if i = name.length then 0
  else around.behindName w name (i - (name.length + 1))

/-! ## NTFS as a file system -/

/-- `struct bl_ntfs_file_data`, with the block that it is in. -/
structure BlFileData where
  block : Nat
  data : BlNtfsFileData

/-- `sizeof(struct bl_ntfs_file_data)`. -/
def sizeofFileData : Nat := 20

/-- `bl_ntfs_close`. What it clears is not read any more. -/
def blNtfsClose (w : World) (fdata : BlFileData) : World :=
  let w := if fdata.data.rootdir then w else w.free fdata.data.mftRecord
  { w with bytes := fun b i => if b = fdata.block ∧ i < sizeofFileData then 0 else w.bytes b i }

/-- The world in which a path is followed: the block of the copy, and those of the nodes by their
number. `stuck`: a lookup did not return, and there is nothing behind it. -/
structure PathWorld where
  world : World
  copy : Option Nat
  nodes : List Nat
  stuck : Bool

theorem failure_ne_success : BlStatus.failure ≠ .success := BlStatus.noConfusion

/-- The status of a lookup that comes without a node. -/
def failureOf (status : BlStatus) : File.Failure :=
  if h : status = .success then ⟨.failure, failure_ne_success⟩ else ⟨status, h⟩

def lookup (env : Env) (around : Around) (fuel : Nat) (p : PathWorld) (filename : List Byte)
    (directory : Bool) (fdata : BlFileData) : PathWorld × Except File.Failure BlFileData :=
  match blNtfsIterateDirectoryCallback env fuel
      (blNtfsStrcmp (nameBytes around p.world filename)) directory fdata.data p.world with
  | none => ({ p with stuck := true }, .error (failureOf .failure))
  | some (world, status, none) => ({ p with world }, .error (failureOf status))
  | some (world, _, some n) =>
    ({ p with world, nodes := p.nodes ++ [n.node] }, .ok ⟨n.fdataBlock, n.fdata⟩)

/-- `bl_ntfs_fs`, as `bl_file_iterate_path` uses it. -/
def blNtfsFs (env : Env) (around : Around) (fuel : Nat) : File.FsEnv PathWorld BlFileData where
  strndup p _ :=
    match p.world.alloc env with
    | (_, none) => none
    | (w, some copy) =>
      some { p with world := { w with bytes := around.clear w 0 }, copy := some copy }
  behind p i := around.behind p.world i
  clear p i := { p with world := { p.world with bytes := around.clear p.world i } }
  callback := lookup env around fuel
  close p fdata := { p with world := blNtfsClose p.world fdata }
  freeNode p id := { p with world := p.world.freeAll [p.nodes[id]?] }
  freeCopy p := { p with world := p.world.freeAll [p.copy] }

/-! ## Files -/

/-- `struct bl_file`, with its block. -/
structure BlFile where
  block : Nat
  handle : NtfsVolume
  fdata : BlFileData

def rootFileData (volume : NtfsVolume) (block : Nat) : BlFileData :=
  ⟨block, ⟨true, some volume.info.iroot, true, volume.mftRoot, volume.info⟩⟩

/-- From the call of `bl_file_iterate_path` on, with the root node and its data. -/
def openPath (env : Env) (around : Around) (fuel : Nat) (handle : NtfsVolume) (path : File.CString)
    (root fdata : Nat) (w : World) : Option (World × BlStatus × Option BlFile) :=
  match File.blFileIteratePath (blNtfsFs env around fuel) ⟨w, none, [root], false⟩ path
      (rootFileData handle fdata) with
  | none => none
  | some out =>
    if out.world.stuck then none
    else if out.status ≠ .success then
      -- A copy that was refused is an allocation too.
      let w' := if env.allocs w.allocs then out.world.world else (w.alloc env).1
      some (w', out.status, none)
    else
      match out.world.world.alloc env with
      | (w, none) => some (w, .memoryAllocationFailed, none)
      | (w, some file) => some (w, .success, out.fdata.map (BlFile.mk file handle))

/-- Nothing is freed when one of the allocations fails. The outer `none`: it does not return. -/
def blNtfsOpen (env : Env) (around : Around) (fuel : Nat) (handle : NtfsVolume)
    (path : File.CString) (w : World) : Option (World × BlStatus × Option BlFile) :=
  match w.alloc env with
  | (w, none) => some (w, .memoryAllocationFailed, none)
  | (w, some root) =>
    match w.alloc env with
    | (w, none) => some (w, .memoryAllocationFailed, none)
    | (w, some fdata) => openPath env around fuel handle path root fdata w

/-- On the handle of an NTFS volume. -/
def blFileOpen (env : Env) (around : Around) (fuel : Nat) (handle : NtfsVolume)
    (path : Option File.CString) (w : World) : Option (World × Option BlFile) :=
  match path with
  | none => some (w, none)
  | some path =>
    if path.1.head? ≠ some File.blPathDelimiter then some (w, none)
    else
      (blNtfsOpen env around fuel handle path w).map fun (w, status, file) =>
        if status ≠ .success then (w, none) else (w, file)

def blFileClose (w : World) (file : BlFile) : World := blNtfsClose w file.fdata

end BootLoader.Ntfs

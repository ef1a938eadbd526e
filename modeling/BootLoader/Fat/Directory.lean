import BootLoader.Driver.World
import BootLoader.Fat.Code

/-!
# Directories (`bl_fat_iterate_directory_callback` of `modules/fs/fat/fat.c`)

The iterator over the entries of a directory, and the lookup of a name with it.
-/

open ByteMemory

namespace BootLoader.Fat

open Driver

/-! ## Entries -/

def blFatDirEntryAttrVolume : Byte := 0x08
def blFatDirEntryAttrDir : Byte := 0x10
def blFatNamePadding : Byte := 0x20
def blFatAvailableEntryFlag : Byte := 0

/-- A directory entry is its 32 bytes. -/
abbrev BlFatDirEntry := Mem

def attributes (entry : BlFatDirEntry) : Byte := entry 0x0b
def startHigh (entry : BlFatDirEntry) : BitVec 16 := BitVec.ofNat 16 (read16 entry 0x14)
def start (entry : BlFatDirEntry) : BitVec 16 := BitVec.ofNat 16 (read16 entry 0x1a)

inductive BlFileType where
  | unknown
  | regular
  | directory
  deriving DecidableEq

/-- How many of the `n` bytes from `off` on come before the padding. -/
def unpaddedLength (entry : BlFatDirEntry) (off : Nat) : Nat → Nat
  | 0 => 0
  | n + 1 => if entry (off + n) = blFatNamePadding then unpaddedLength entry off n else n + 1

def bytesAt (entry : BlFatDirEntry) (off n : Nat) : List Byte :=
  (List.range n).map fun i => entry (off + i)

/-- The bytes that `bl_fat_short_name_to_regular_name` puts into its block. -/
def shortName (entry : BlFatDirEntry) : List Byte :=
  let name := bytesAt entry 0 (unpaddedLength entry 0 8)
  let extension := unpaddedLength entry 8 3
  if extension = 0 then name else name ++ 0x2e :: bytesAt entry 8 extension

/-- There is no zero behind them: what was in the block before goes on. -/
def blFatShortNameToRegularName (env : Env) (world : World) (entry : BlFatDirEntry) :
    World × Option (Nat × Mem) :=
  match world.alloc env with
  | (world, none) => (world, none)
  | (world, some block) =>
    (world, some (block, fun k => (shortName entry).getD k (world.bytes block k)))

/-! ## Names -/

/-- The characters of `bl_fat_check_regular_name`. -/
def isForbidden (c : Byte) : Bool :=
  c ∈ [0x22, 0x2a, 0x2f, 0x3a, 0x3c, 0x3e, 0x3f, 0x5c, 0x7c, 127] ∨ 1 ≤ c.toNat ∧ c.toNat ≤ 31

def blFatCheckRegularName (filename : List Byte) : BlStatus :=
  if filename.any isForbidden then .invalidFileName else .success

def blTolower (c : Byte) : Byte := if 0x41 ≤ c.toNat ∧ c.toNat ≤ 0x5a then c + 0x20 else c

/-- The loop of `bl_strcasecmp`; the second string is the list, and ends with it. -/
def strcasecmpFrom (s₁ : Mem) : List Byte → Nat → Int
  | [], i => (s₁ i).toInt
  | c :: s₂, i =>
    if blTolower (s₁ i) = blTolower c ∧ s₁ i ≠ 0 ∧ c ≠ 0 then strcasecmpFrom s₁ s₂ (i + 1)
    else (s₁ i).toInt - c.toInt

def blStrcasecmp (s₁ : Mem) (s₂ : List Byte) : Int := strcasecmpFrom s₁ s₂ 0

/-! ## The iterator -/

/-- The field `filename` is a block and what it points to. -/
structure BlFatIterator where
  type : BlFileType
  filename : Option (Nat × Mem)
  empty : Bool
  entry : Nat
  cluster : BitVec 32

def blFatIteratorInit (cluster : BitVec 32) : BlFatIterator := ⟨.unknown, none, false, 1, cluster⟩

/-- `bl_fat_generic_read` of 32 bytes at an offset of the directory. -/
abbrev GenericRead := Nat → BlStatus × BlFatDirEntry

def freeFilename (world : World) (it : BlFatIterator) : World :=
  it.filename.elim world fun filename => world.free filename.1

def blFatIteratorNext (env : Env) (read : GenericRead) (world : World) (it : BlFatIterator) :
    World × BlFatIterator × BlStatus :=
  let (status, entry) := read ((it.entry - 1) * 32)
  if status ≠ .success then (world, it, status)
  else if entry 0 = blFatAvailableEntryFlag then (world, { it with empty := true }, .success)
  else if attributes entry &&& blFatDirEntryAttrVolume = 0 then
    let type := if attributes entry &&& blFatDirEntryAttrDir ≠ 0 then .directory else .regular
    match blFatShortNameToRegularName env (freeFilename world it) entry with
    | (world, none) => (world, { it with type, filename := none }, .failure)
    | (world, some filename) =>
      (world, ⟨type, some filename, it.empty, it.entry + 1, (start entry).setWidth 32⟩, .success)
  else
    -- The name before this one is not freed.
    (world, ⟨.unknown, none, it.empty, it.entry + 1, (start entry).setWidth 32⟩, .success)

/-! ## The lookup -/

structure BlFatFileData where
  rootdir : Int
  cluster : BitVec 32
  deriving DecidableEq

/-- A node of a path: its block, and its file data with their block. -/
structure Node where
  block : Nat
  fdataBlock : Nat
  fdata : BlFatFileData
  deriving DecidableEq

def newNode (env : Env) (cluster : BitVec 32) (world : World) : World × BlStatus × Option Node :=
  match world.alloc env with
  | (world, none) => (world, .memoryAllocationFailed, none)
  | (world, some block) =>
    match world.alloc env with
    | (world, none) => (world.free block, .memoryAllocationFailed, none)
    | (world, some fdataBlock) => (world, .success, some ⟨block, fdataBlock, ⟨0, cluster⟩⟩)

/-- The name of the iterator's entry is the one looked for. -/
def namesFile (it : BlFatIterator) (filename : List Byte) : Bool :=
  it.filename.elim false fun name => blStrcasecmp name.2 filename = 0

/-- The loop, for at most `fuel` entries. -/
def iterateFrom (env : Env) (read : GenericRead) (filename : List Byte) (directory : Bool) :
    Nat → World → BlFatIterator → Option (World × BlFatIterator × BlStatus × Option Node)
  | 0, _, _ => none
  | fuel + 1, world, it =>
    let (world, it, status) := blFatIteratorNext env read world it
    if it.empty then some (world, it, .success, none)
    else if status ≠ .success then some (world, it, status, none)
    else if directory ∧ it.type ≠ .directory then some (world, it, .invalidFileType, none)
    else if it.type ≠ .unknown ∧ namesFile it filename then
      let (world, status, node) := newNode env it.cluster world
      some (world, it, status, node)
    else iterateFrom env read filename directory fuel world it

/-- `uninit` is what the iterator's field `cluster` holds at first. -/
def blFatIterateDirectoryCallback (env : Env) (read : GenericRead) (filename : List Byte)
    (directory : Bool) (uninit : BitVec 32) (fuel : Nat) (world : World) :
    Option (World × BlStatus × Option Node) :=
  let status := blFatCheckRegularName filename
  if status ≠ .success then some (world, status, none)
  else
    (iterateFrom env read filename directory fuel world (blFatIteratorInit uninit)).map
      fun (world, it, status, node) => (freeFilename world it, status, node)

end BootLoader.Fat

import BootLoader.Lib.ByteMemory
import BootLoader.Status

/-!
# Path resolution (`core/fs/file.c`, `bl_strtok` of `core/utils/string.c`)

The copy of the path is kept apart from the rest of the memory, which belongs to the world: the
heap, and what the lookup callback and `close` of the file system do there.
-/

open ByteMemory

namespace BootLoader.File

/-- A string of C: no byte of it is zero. -/
abbrev CString := {bytes : List Byte // (0 : Byte) ∉ bytes}

abbrev Failure := {status : BlStatus // status ≠ .success}

def blPathDelimiter : Byte := 0x2f
def blCurrentDirectory : List Byte := [0x2e]
def blPreviousDirectory : List Byte := [0x2e, 0x2e]

/-- What `bl_file_iterate_path` calls and what lies around its copy of the path. `σ` is the
world, `φ` the file data (`bl_file_data_t`). -/
structure FsEnv (σ φ : Type) where
  /-- `bl_strndup`, up to the copying: a block of that many bytes is taken, and the byte right
  behind it set to zero. -/
  strndup : σ → Nat → Option σ
  /-- The bytes behind the copy, the first one at 0. -/
  behind : σ → Nat → Byte
  /-- A byte behind the copy becomes zero. -/
  clear : σ → Nat → σ
  /-- The lookup of a name in a directory: its node's data. -/
  callback : σ → List Byte → Bool → φ → σ × Except Failure φ
  close : σ → φ → σ
  /-- `bl_heap_free` of the node with this number. -/
  freeNode : σ → Nat → σ
  freeCopy : σ → σ

variable {σ φ : Type}

/-! ## The tokenizer -/

/-- The copy with its terminator at `len`, and `bl_strtok_str` as an index into it. -/
structure Tokenizer where
  copy : Mem
  len : Nat
  str : Nat

def Tokenizer.start (path : List Byte) : Tokenizer := ⟨fun i => path.getD i 0, path.length, 0⟩

def byteAt (env : FsEnv σ φ) (world : σ) (t : Tokenizer) (i : Nat) : Byte :=
  if i ≤ t.len then t.copy i else env.behind world (i - (t.len + 1))

/-- `bl_isdelim` with the one delimiter of a path. -/
def blIsdelim (c : Byte) : Bool := c = blPathDelimiter

def skipDelims (bytes : Mem) : Nat → Nat → Option Nat
  | 0, _ => none
  | fuel + 1, i => if blIsdelim (bytes i) then skipDelims bytes fuel (i + 1) else some i

def tokenEnd (bytes : Mem) : Nat → Nat → Option Nat
  | 0, _ => none
  | fuel + 1, i =>
    if bytes i ≠ 0 ∧ ¬blIsdelim (bytes i) then tokenEnd bytes fuel (i + 1) else some i

/-- `bl_strtok(NULL, "/")`: where the next token begins, if there is one. The outer `none`: the
scan does not end. -/
def blStrtok (env : FsEnv σ φ) (fuel : Nat) (world : σ) (t : Tokenizer) :
    Option (σ × Tokenizer × Option Nat) :=
  match skipDelims (byteAt env world t) fuel t.str with
  | none => none
  | some start =>
    if byteAt env world t start = 0 then some (world, { t with str := start }, none)
    else
      match tokenEnd (byteAt env world t) fuel start with
      | none => none
      | some stop =>
        if stop ≤ t.len then
          some (world, { t with copy := store t.copy stop 0, str := stop + 1 }, some start)
        else some (env.clear world (stop - (t.len + 1)), { t with str := stop + 1 }, some start)

/-- The string that begins at `i`. -/
def stringAt (bytes : Mem) : Nat → Nat → Option (List Byte)
  | 0, _ => none
  | fuel + 1, i =>
    if bytes i = 0 then some [] else (stringAt bytes fuel (i + 1)).map (bytes i :: ·)

/-! ## The walk -/

/-- `struct bl_file_tree_node`, with a number that tells nodes apart: the root is 0, the nodes
obtained from the callback follow. -/
structure Node (φ : Type) where
  id : Nat
  fdata : φ

/-- What happens to a node. -/
inductive Event where
  | obtained (id : Nat)
  /-- A field is read. -/
  | read (id : Nat)
  /-- Its data is passed to `close`. -/
  | closed (id : Nat)
  | freed (id : Nat)
  deriving DecidableEq, Repr

/-- A call of the lookup callback. -/
structure Call (φ : Type) where
  filename : List Byte
  directory : Bool
  fdata : φ
  deriving DecidableEq, Repr

/-- `below`: the nodes that the `prev` pointers lead to from `top`, the root last. The record of
what was done so far: `calls`, `log`, and the names gone through (`visited`). -/
structure Walk (σ φ : Type) where
  world : σ
  top : Node φ
  below : List (Node φ)
  nodes : Nat
  calls : List (Call φ)
  log : List Event
  visited : List (List Byte)

def Walk.start (world : σ) (root : φ) : Walk σ φ := ⟨world, ⟨0, root⟩, [], 0, [], [], []⟩

/-- `node = top; top = node->prev`, then `node` is closed and freed. The root stays. -/
def popNode (env : FsEnv σ φ) (w : Walk σ φ) : Walk σ φ :=
  match w.below with
  | [] => w
  | prev :: below =>
    { w with
      world := env.freeNode (env.close w.world w.top.fdata) w.top.id, top := prev, below
      log := w.log ++ [.read w.top.id, .closed w.top.id, .freed w.top.id] }

/-- A name is looked up in `top`, and its node put on top. -/
def pushNode (env : FsEnv σ φ) (w : Walk σ φ) (filename : List Byte) (directory : Bool) :
    Walk σ φ × BlStatus :=
  let calls := w.calls ++ [⟨filename, directory, w.top.fdata⟩]
  let log := w.log ++ [.read w.top.id]
  match env.callback w.world filename directory w.top.fdata with
  | (world, .error status) => ({ w with world, calls, log }, status)
  | (world, .ok fdata) =>
    ({ w with
      world, calls, top := ⟨w.nodes + 1, fdata⟩, below := w.top :: w.below, nodes := w.nodes + 1
      log := log ++ [.obtained (w.nodes + 1)] }, .success)

/-- The body of the `while` loop, the look-ahead done. -/
def processComponent (env : FsEnv σ φ) (w : Walk σ φ) (filename : List Byte) (directory : Bool) :
    Walk σ φ × BlStatus :=
  let (w, status) :=
    if filename = blPreviousDirectory then (popNode env w, .success)
    else if filename ≠ blCurrentDirectory then pushNode env w filename directory
    else (w, .success)
  (if status = .success then { w with visited := w.visited ++ [filename] } else w, status)

def endsInDelimiter (path : List Byte) : Bool := path.getLast? = some blPathDelimiter

/-- The `while` loop from the token `filename` on. `none`: it does not end. -/
def iterateLoop (env : FsEnv σ φ) (path : List Byte) (scanFuel : Nat) :
    Nat → Walk σ φ → Tokenizer → Option Nat → Option (Walk σ φ × BlStatus)
  | 0, _, _, _ => none
  | _ + 1, w, _, none => some (w, .success)
  | fuel + 1, w, t, some start =>
    match blStrtok env scanFuel w.world t with
    | none => none
    | some (world, t, next) =>
      match stringAt (byteAt env world t) scanFuel start with
      | none => none
      | some filename =>
        let directory := next.isSome || endsInDelimiter path
        match processComponent env { w with world } filename directory with
        | (w, .success) => iterateLoop env path scanFuel fuel w t next
        | (w, status) => some (w, status)

/-! ## The way out -/

/-- The `for` loop from the node under `top` on: `node->prev` is read after `node` was freed. -/
def releaseBelow (env : FsEnv σ φ) : List (Node φ) → σ → σ × List Event
  | [], world => (world, [])
  | n :: below, world =>
    let (world, log) := releaseBelow env below (env.freeNode (env.close world n.fdata) n.id)
    (world, .read n.id :: .closed n.id :: .freed n.id :: .read n.id :: log)

/-- What a call leaves behind. `fdata` is what was stored in `*fdata`, `none` if nothing was. -/
structure Outcome (σ φ : Type) where
  status : BlStatus
  fdata : Option φ
  world : σ
  /-- The node on top at the end. -/
  top : Nat
  nodes : Nat
  calls : List (Call φ)
  log : List Event
  visited : List (List Byte)

/-- From the end of the loop on, `_exit` included. -/
def leave (env : FsEnv σ φ) (w : Walk σ φ) (status : BlStatus) : Outcome σ φ :=
  let fdata := if status = .success then some w.top.fdata else none
  let (world, log) := releaseBelow env w.below w.world
  { status, fdata, top := w.top.id, nodes := w.nodes, calls := w.calls, visited := w.visited
    world := env.freeCopy (env.freeNode world w.top.id)
    log := w.log ++ (if status = .success then [.read w.top.id] else []) ++
      .read w.top.id :: log ++ [.freed w.top.id] }

/-- More bytes than there are behind any copy, so that a longer scan never ends. -/
@[irreducible] def scanFuel (path : List Byte) : Nat := path.length + 2 ^ 32

/-- `bl_file_iterate_path` from the first call of `bl_strtok` on. -/
def iterateCopy (env : FsEnv σ φ) (world : σ) (path : CString) (root : φ) :
    Option (Outcome σ φ) :=
  (blStrtok env (scanFuel path.1) world (Tokenizer.start path.1)).bind
    fun (world, t, filename) =>
      (iterateLoop env path.1 (scanFuel path.1) (scanFuel path.1) (Walk.start world root) t
        filename).map fun (w, status) => leave env w status

/-- `bl_file_iterate_path` on a root node that has no `prev`. `none`: it never returns. -/
def blFileIteratePath (env : FsEnv σ φ) (world : σ) (path : CString) (root : φ) :
    Option (Outcome σ φ) :=
  match env.strndup world (path.1.length + 1) with
  | none => some ⟨.failure, none, world, 0, 0, [], [], []⟩
  | some world => iterateCopy env world path root

end BootLoader.File

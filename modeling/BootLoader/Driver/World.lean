import BootLoader.Lib.ByteMemory
import BootLoader.Status

/-!
# What a file system driver sees of the core

The heap hands out blocks of its own, and a device read delivers bytes or fails. Which requests
are served is given from outside, by their number, so that every pattern of failures is covered.
-/

open ByteMemory

namespace BootLoader.Driver

/-- `allocs n` says whether the allocation number `n` is served, `reads n` how the device read
number `n` ends. -/
structure Env where
  allocs : Nat → Bool
  reads : Nat → BlStatus
  disk : Nat → Byte

/-- `bl_storage_device_read` into memory, as the read number `reads`. A failure leaves the bytes. -/
def Env.deviceRead (env : Env) (reads : Nat) (m : Mem) (buf lba size offset : Nat) :
    Mem × BlStatus :=
  let status := env.reads reads
  (fun x => if status = .success ∧ buf ≤ x ∧ x < buf + size then
      env.disk (512 * lba + offset + (x - buf)) else m x, status)

/-- Blocks are numbered in the order in which they are handed out; `bytes` of a block that is
handed out is whatever was there before. `freed` are the calls of `bl_heap_free`, in order. -/
structure World where
  next : Nat
  bytes : Nat → Mem
  used : Nat → Bool
  allocs : Nat
  reads : Nat
  freed : List Nat

/-- A place inside a block. -/
structure Ptr where
  block : Nat
  off : Nat
  deriving DecidableEq, Repr

/-- `bl_heap_alloc`. -/
def World.alloc (env : Env) (w : World) : World × Option Nat :=
  if env.allocs w.allocs then
    ({ w with
        next := w.next + 1, allocs := w.allocs + 1
        used := fun b => if b = w.next then true else w.used b }, some w.next)
  else ({ w with allocs := w.allocs + 1 }, none)

/-- `bl_heap_free`. -/
def World.free (w : World) (block : Nat) : World :=
  { w with
      used := fun b => if b = block then false else w.used b
      freed := w.freed ++ [block] }

/-- `bl_heap_free` of each that is not null. -/
def World.freeAll (w : World) (blocks : List (Option Nat)) : World :=
  blocks.foldl (fun w b => b.elim w w.free) w

/-- `bl_storage_device_read` into the first `size` bytes of a block. A failure leaves them. -/
def World.read (env : Env) (w : World) (block lba size : Nat) : World × BlStatus :=
  let status := env.reads w.reads
  let w := { w with reads := w.reads + 1 }
  if status = .success then
    ({ w with
        bytes := fun b i =>
          if b = block ∧ i < size then env.disk (512 * lba + i) else w.bytes b i },
      status)
  else (w, status)

/-- The same, from a byte offset on. -/
def World.readAt (env : Env) (w : World) (block lba size offset : Nat) : World × BlStatus :=
  let (m, status) := env.deviceRead w.reads (w.bytes block) 0 lba size offset
  ({ w with reads := w.reads + 1, bytes := fun b => if b = block then m else w.bytes b }, status)

/-- `bl_storage_device_read` into a variable that is no heap block. -/
def World.readVar (env : Env) (w : World) (var : Mem) (lba size : Nat) : World × Mem × BlStatus :=
  let (var, status) := env.deviceRead w.reads var 0 lba size 0
  ({ w with reads := w.reads + 1 }, var, status)

/-! ## Nothing that was handed out before is touched -/

/-- The blocks handed out in `w` are as they were. -/
structure Extends (w w' : World) : Prop where
  next_le : w.next ≤ w'.next
  bytes_eq : ∀ b < w.next, w'.bytes b = w.bytes b

variable {env : Env} {w w' w'' : World} {b lba size : Nat}

theorem Extends.refl (w : World) : Extends w w := ⟨le_rfl, fun _ _ => rfl⟩

theorem Extends.trans (h : Extends w w') (h' : Extends w' w'') : Extends w w'' where
  next_le := h.next_le.trans h'.next_le
  bytes_eq b hb := (h'.bytes_eq b (lt_of_lt_of_le hb h.next_le)).trans (h.bytes_eq b hb)

theorem freeAll_eq (w : World) (blocks : List (Option Nat)) :
    (w.freeAll blocks).next = w.next ∧ (w.freeAll blocks).bytes = w.bytes := by
  induction blocks generalizing w with
  | nil => exact ⟨rfl, rfl⟩
  | cons b rest ih =>
    cases b with
    | none => exact ih w
    | some b => exact ih (w.free b)

@[simp] theorem freeAll_bytes (w : World) (blocks : List (Option Nat)) :
    (w.freeAll blocks).bytes = w.bytes := (freeAll_eq w blocks).2

theorem extends_freeAll (w : World) (blocks : List (Option Nat)) :
    Extends w (w.freeAll blocks) :=
  ⟨(freeAll_eq w blocks).1.ge, fun _ _ => by rw [freeAll_bytes]⟩

theorem alloc_served (h : env.allocs w.allocs = true) :
    ∃ w', w.alloc env = (w', some w.next) ∧ w'.next = w.next + 1 ∧ w'.bytes = w.bytes :=
  ⟨_, if_pos h, rfl, rfl⟩

/-- A read that succeeds delivers the bytes of the disk, and touches its own block only. -/
theorem read_served (b lba size : Nat) (h : env.reads w.reads = .success) :
    ∃ w', w.read env b lba size = (w', .success) ∧ w'.next = w.next ∧
      (∀ c, c ≠ b → w'.bytes c = w.bytes c) ∧
      ∀ i < size, w'.bytes b i = env.disk (512 * lba + i) := by
  simp only [World.read, h, if_true]
  exact ⟨_, rfl, rfl, fun c hc => by simp [hc], fun i hi => by simp [hi]⟩

@[simp] theorem read_status (env : Env) (w : World) (b lba size : Nat) :
    (w.read env b lba size).2 = env.reads w.reads := by
  unfold World.read
  dsimp only
  split_ifs <;> rfl

/-- What a read of `size` bytes leaves in memory that held `old`. -/
def Env.delivered (env : Env) (old : Mem) (lba size : Nat) : Mem :=
  fun i => if i < size then env.disk (512 * lba + i) else old i

/-- A read into a block that succeeds. -/
theorem read_bytes_eq (h : env.reads w.reads = .success) (b lba size : Nat) :
    (w.read env b lba size).1.bytes b = env.delivered (w.bytes b) lba size := by
  simp only [World.read, h, if_true]
  funext i
  simp [Env.delivered]

/-- A read into a variable, by its status. -/
theorem readVar_eq (env : Env) (w : World) (var : Mem) (lba size : Nat) :
    w.readVar env var lba size = ({ w with reads := w.reads + 1 },
      if env.reads w.reads = .success then env.delivered var lba size else var,
      env.reads w.reads) := by
  refine Prod.ext rfl (Prod.ext ?_ rfl)
  simp only [World.readVar, Env.deviceRead]
  split_ifs with h
  · funext x
    simp [h, Env.delivered]
  · simp [h]

theorem freeAll_not_used {blocks : List (Option Nat)} (hmem : some b ∈ blocks) :
    (w.freeAll blocks).used b = false := by
  have hkept : ∀ (blocks : List (Option Nat)) (w : World), w.used b = false →
      (w.freeAll blocks).used b = false := by
    intro blocks
    induction blocks with
    | nil => exact fun w hb => hb
    | cons c rest ih =>
      intro w hb
      refine ih _ ?_
      cases c with
      | none => exact hb
      | some c =>
        by_cases heq : b = c
        · exact if_pos heq
        · exact (if_neg heq).trans hb
  induction blocks generalizing w with
  | nil => cases hmem
  | cons c rest ih =>
    rcases List.mem_cons.mp hmem with rfl | hmem
    · exact hkept rest _ (if_pos rfl)
    · exact ih hmem

theorem deviceRead_served {reads : Nat} (h : env.reads reads = .success) (m : Mem)
    (buf lba size offset : Nat) :
    ∃ m', env.deviceRead reads m buf lba size offset = (m', .success) ∧
      (∀ i < size, m' (buf + i) = env.disk (512 * lba + offset + i)) ∧
      ∀ x, x < buf ∨ buf + size ≤ x → m' x = m x := by
  refine ⟨_, Prod.ext rfl h, fun i hi => ?_, fun x hx => ?_⟩
  · simp [Env.deviceRead, h, hi]
  · simp only [Env.deviceRead, h, true_and]
    rw [if_neg (by omega)]

theorem readAt_served (w : World) (h : env.reads w.reads = .success) (b lba size offset : Nat) :
    ∃ w', w.readAt env b lba size offset = (w', .success) ∧
      ∀ i < size, w'.bytes b i = env.disk (512 * lba + offset + i) := by
  obtain ⟨m, hm, hdata, -⟩ := deviceRead_served h (w.bytes b) 0 lba size offset
  refine ⟨{ w with reads := w.reads + 1, bytes := fun c => if c = b then m else w.bytes c }, ?_,
    fun i hi => ?_⟩
  · rw [World.readAt, hm]
  · simp only [if_true]
    rw [← hdata i hi, Nat.zero_add]

end BootLoader.Driver

import BootLoader.Heap.Code
import BootLoader.Lib.RoundUp

/-!
# What the heap means

The chain in memory stands for a list of blocks. `HeapInv` says which lists are well placed:
each payload ends before the next head.
-/

open ByteMemory RoundUp

namespace BootLoader.Heap

/-! ## Blocks -/

structure Block where
  head : Nat
  size : Nat
  used : Bool
  deriving DecidableEq, Repr

namespace Block

def payload (b : Block) : Nat := b.head + 16

/-- One past the payload. -/
def stop (b : Block) : Nat := b.head + 16 + b.size

def magic (b : Block) : Nat :=
  if b.used then blHeapBlockHeadUsedMagic else blHeapBlockHeadFreeMagic

def InHead (b : Block) (a : Nat) : Prop := b.head ≤ a ∧ a < b.payload

def InPayload (b : Block) (a : Nat) : Prop := b.payload ≤ a ∧ a < b.stop

end Block

/-- The `next` field of whatever precedes this part of the chain. -/
def firstHead : List Block → Nat
  | [] => 0
  | b :: _ => b.head

structure HeadAt (m : Mem) (b : Block) (next : Nat) : Prop where
  next_eq : headNext m b.head = next
  magic_eq : headMagic m b.head = b.magic
  size_eq : headSize m b.head = b.size

/-- The heads in memory are those of the blocks, each linked to the one after it. -/
def Linked (m : Mem) : List Block → Prop
  | [] => True
  | b :: rest => HeadAt m b (firstHead rest) ∧ Linked m rest

/-- The payload of `b` ends at or before the head of `c`. -/
def Before (b c : Block) : Prop := b.stop ≤ c.head

structure BlockOk (b : Block) : Prop where
  aligned : 16 ∣ b.head
  positive : 0 < b.head
  inSpace : b.payload < 2 ^ 32
  sizeInSpace : b.size < 2 ^ 32

/-- The heap `s` is the chain of the blocks `bs`. -/
structure HeapInv (s : BlHeap) (bs : List Block) : Prop where
  linked : Linked s.mem bs
  start : bs ≠ [] → s.heap = firstHead bs
  blockOk : ∀ b ∈ bs, BlockOk b
  ordered : bs.Pairwise Before
  baseAligned : 16 ∣ s.heap
  baseInSpace : s.heap < 2 ^ 32
  empty_iff : bs = [] ↔ s.occupiedBlocks = 0 ∧ s.freeBlocks = 0

/-! ## Requests -/

/-- The test of the first-fit loop. -/
def Block.Fits (b : Block) (sz align : Nat) : Prop :=
  b.used = false ∧ align ∣ b.payload ∧ sz ≤ b.size

instance (b : Block) (sz align : Nat) : Decidable (b.Fits sz align) := by
  unfold Block.Fits; infer_instance

/-- The free block that the loop takes, if any. The last block is never tried. -/
def firstFit (bs : List Block) (sz align : Nat) : Option Block :=
  bs.dropLast.find? fun b => b.Fits sz align

/-- Where the payload after a block that ends at `stop` goes, in unbounded arithmetic. -/
def nextPayload (stop align : Nat) : Nat := roundUp (roundUp (stop + 16) 16) align

/-- The address that the request is about to hand out stays below `2 ^ 32`. A request that a
free block serves computes no new one. An alignment of 0 counts as 1. -/
def AddressesFit (s : BlHeap) (sz align : Nat) : Prop :=
  if s.occupiedBlocks = 0 ∧ s.freeBlocks = 0 then roundUp s.heap (max align 1) + 16 < 2 ^ 32
  else ∀ q, scanBlocks s.mem sz (max align 1) scanFuel s.heap = some (.last q) →
    nextPayload (q + 16 + headSize s.mem q) (max align 1) < 2 ^ 32

/-! ## Blocks that do not overlap -/

/-- The chain from `bl_heap` is `bs`, its blocks are in increasing order and apart. -/
structure BlocksApart (s : BlHeap) (bs : List Block) : Prop where
  start : bs ≠ [] → s.heap = firstHead bs
  linked : Linked s.mem bs
  increasing : bs.Pairwise fun b c => b.head < c.head
  before : bs.Pairwise fun b c => b.stop ≤ c.head
  payloads : ∀ b ∈ bs, ∀ c ∈ bs, b.used → c.used → b ≠ c → ∀ a, ¬ (b.InPayload a ∧ c.InPayload a)
  heads : ∀ b ∈ bs, ∀ c ∈ bs, b.used → ∀ a, ¬ (b.InPayload a ∧ c.InHead a)

end BootLoader.Heap

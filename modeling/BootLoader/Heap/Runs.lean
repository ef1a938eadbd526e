import BootLoader.Heap.Proofs
import Mathlib.Logic.Relation

/-!
# Whole runs of the heap

From `bl_heap_init` on, callers allocate, free what they were given and write into the bytes
they asked for, in any order. `given` remembers every pointer handed out, with the size asked
for; a freed pointer stays in it, so freeing twice and writing after a free are runs too.
-/

open ByteMemory RoundUp Relation

namespace BootLoader.Heap

structure Client where
  heap : BlHeap
  given : List (Nat × Nat)

/-- The heap after `bl_heap_init`, in either build. -/
inductive Started : BlHeap → Prop
  | bios (m : Mem) : Started (blHeapInitBios (unset m))
  | modules (m : Mem) (modulesStart : Nat) (h : modulesStart < 2 ^ 32) :
    Started (blHeapInit modulesStart (unset m))

inductive Step : Client → Client → Prop
  | alloc (c : Client) (sz align : Nat) (s' : BlHeap) (p : Nat) (hsz : sz < 2 ^ 32)
      (halign : align < 2 ^ 32) (hfit : AddressesFit c.heap sz align)
      (hret : blHeapAllocAlign c.heap sz align = some (s', p)) :
    Step c ⟨s', if p = 0 then c.given else (p, sz) :: c.given⟩
  | free (c : Client) (p sz : Nat) (hgiven : (p, sz) ∈ c.given) :
    Step c ⟨blHeapFree c.heap p, c.given⟩
  | write (c : Client) (p sz a : Nat) (v : Byte) (hgiven : (p, sz) ∈ c.given)
      (hin : p ≤ a ∧ a < p + sz) (hspace : a < 2 ^ 32) :
    Step c ⟨{ c.heap with mem := store c.heap.mem a v }, c.given⟩

/-- Every pointer handed out is the payload of a block with room for what was asked. -/
structure ClientInv (c : Client) (bs : List Block) : Prop where
  inv : HeapInv c.heap bs
  given : ∀ g ∈ c.given, ∃ b ∈ bs, b.payload = g.1 ∧ g.2 ≤ b.size

variable {bs bs' : List Block} {b d : Block} {c c' : Client} {s s' : BlHeap}

/-! ## The start -/

theorem blMemoryAlignUp_sixteen (addr : Nat) :
    16 ∣ blMemoryAlignUp addr blHeapMemAlign ∧ blMemoryAlignUp addr blHeapMemAlign < 2 ^ 32 := by
  refine ⟨?_, BitVec.isLt _⟩
  have := blMemoryAlignUp_eq addr (k := 4) (by omega)
  rw [blHeapMemAlign, show 16 = 2 ^ 4 by rfl, this]
  exact Nat.dvd_mul_left _ _

theorem Started.inv (h : Started s) : HeapInv s [] := by
  cases h with
  | bios m => exact heapInv_base m _ (by omega) (by omega)
  | modules m start hlt =>
    have hnull := heapInv_base m 0 (by omega) (by omega)
    have hup (addr : Nat) := heapInv_base m _ (blMemoryAlignUp_sixteen addr).1
      (blMemoryAlignUp_sixteen addr).2
    rw [blHeapInit, if_neg (by simp [unset])]
    split
    · split
      · exact hnull
      · exact hup _
    · exact hup _

/-! ## One step -/

theorem ClientInv.granted {sz : Nat} (hi : ClientInv c bs)
    (hall : Allocated c.heap s' bs bs' b sz) :
    ClientInv ⟨s', (b.payload, sz) :: c.given⟩ bs' where
  inv := hall.inv
  given g hg := by
    rcases List.mem_cons.mp hg with rfl | hg
    · exact ⟨b, hall.granted.mem_used.1, rfl, hall.room⟩
    · obtain ⟨d, hd, hpay, hroom⟩ := hi.given g hg
      obtain ⟨d', hd', hpay', hsize⟩ := hall.granted.payload_kept hd
      exact ⟨d', hd', hpay'.trans hpay, hsize ▸ hroom⟩

theorem ClientInv.free {p sz : Nat} (hi : ClientInv c bs) (hgiven : (p, sz) ∈ c.given) :
    ∃ pre b post, bs = pre ++ b :: post ∧
      ClientInv ⟨blHeapFree c.heap p, c.given⟩ (pre ++ { b with used := false } :: post) := by
  obtain ⟨b, hb, rfl, -⟩ := hi.given _ hgiven
  obtain ⟨pre, post, rfl⟩ := List.append_of_mem hb
  refine ⟨pre, b, post, rfl, hi.inv.free, fun g hg => ?_⟩
  obtain ⟨d, hd, hpay, hroom⟩ := hi.given g hg
  simp only [List.mem_append, List.mem_cons] at hd
  rcases hd with hd | rfl | hd
  · exact ⟨d, by simp [hd], hpay, hroom⟩
  · exact ⟨{ d with used := false }, by simp, hpay, hroom⟩
  · exact ⟨d, by simp [hd], hpay, hroom⟩

theorem ClientInv.write {p sz a : Nat} (v : Byte) (hi : ClientInv c bs)
    (hgiven : (p, sz) ∈ c.given) (hin : p ≤ a ∧ a < p + sz) :
    ClientInv ⟨{ c.heap with mem := store c.heap.mem a v }, c.given⟩ bs := by
  obtain ⟨b, hb, hpay, hroom⟩ := hi.given _ hgiven
  refine ⟨hi.inv.store v hb ?_, hi.given⟩
  simp only [Block.InPayload, Block.payload, Block.stop] at *
  omega

theorem Step.preserves (h : Step c c') (hi : ClientInv c bs) : ∃ bs', ClientInv c' bs' := by
  cases h with
  | alloc sz align s' p hsz halign hfit hret =>
    rcases blHeapAllocAlign_spec hi.inv hsz halign hfit with hnull | ⟨s₁, bs', b, hsome, hall⟩
    · obtain ⟨rfl, rfl⟩ : c.heap = s' ∧ 0 = p := by simpa [hnull] using hret
      exact ⟨bs, hi⟩
    · obtain ⟨rfl, rfl⟩ : s₁ = s' ∧ b.payload = p := by simpa [hsome] using hret
      refine ⟨bs', ?_⟩
      rw [if_neg (by simp only [Block.payload]; omega)]
      exact hi.granted hall
  | free p sz hgiven =>
    obtain ⟨pre, b, post, -, hfree⟩ := hi.free hgiven
    exact ⟨_, hfree⟩
  | write p sz a v hgiven hin hspace => exact ⟨bs, hi.write v hgiven hin⟩

/-! ## Runs -/

theorem run_inv (hstart : Started s) (hrun : ReflTransGen Step ⟨s, []⟩ c) :
    ∃ bs, ClientInv c bs := by
  induction hrun with
  | refl => exact ⟨[], hstart.inv, by simp⟩
  | tail _ hstep ih =>
    obtain ⟨bs, hi⟩ := ih
    exact hstep.preserves hi

/-- `p` is the payload of a block in use of at least `sz` bytes, which was not in use while the
blocks were `bs`, and `bl_heap_free` does mark it free. -/
structure HandedOut (s' : BlHeap) (bs bs' : List Block) (p sz : Nat) : Prop where
  block : ∃ b ∈ bs', b.used = true ∧ b.payload = p ∧ sz ≤ b.size ∧
    headMagic (blHeapFree s' p).mem b.head = blHeapBlockHeadFreeMagic
  notInUse : ∀ d ∈ bs, d.used = true → d ∈ bs' ∧ d.payload ≠ p
  aligned : 16 ∣ p

theorem Allocated.handedOut {sz : Nat} (h : Allocated s s' bs bs' b sz) :
    HandedOut s' bs bs' b.payload sz where
  block := by
    obtain ⟨hb, hused⟩ := h.granted.mem_used
    refine ⟨b, hb, hused, rfl, h.room, ?_⟩
    rw [blHeapFree_eq h.inv hb, if_pos hused]
    exact read32_write32_same _ _ (magic_lt _)
  notInUse _ hd hused := h.granted.used_kept h.inv.ordered hd hused
  aligned := by
    have := (h.inv.blockOk b h.granted.mem_used.1).aligned
    rw [Block.payload]
    omega

/-- **Whole runs.** After any run the blocks are apart, and the next request, whatever it is,
returns; what it hands out is a block of its own. -/
theorem runs_keep_blocks_apart (hstart : Started s) (hrun : ReflTransGen Step ⟨s, []⟩ c) :
    ∃ bs, BlocksApart c.heap bs ∧
      ∀ sz align, sz < 2 ^ 32 → align < 2 ^ 32 → AddressesFit c.heap sz align →
        ∃ s' p, blHeapAllocAlign c.heap sz align = some (s', p) ∧
          (p ≠ 0 → ∃ bs', BlocksApart s' bs' ∧ HandedOut s' bs bs' p sz) := by
  obtain ⟨bs, hi⟩ := run_inv hstart hrun
  refine ⟨bs, hi.inv.blocksApart, ?_⟩
  intro sz align hsz halign hfit
  rcases blHeapAllocAlign_spec hi.inv hsz halign hfit with hnull | ⟨s', bs', b, hsome, hall⟩
  · exact ⟨_, 0, hnull, fun h => absurd rfl h⟩
  · exact ⟨s', b.payload, hsome, fun _ => ⟨bs', hall.inv.blocksApart, hall.handedOut⟩⟩

theorem runs_keep_blocks_apart_first :
    ∃ c : Client, c.given = [(0x100010, 40)] ∧ ∃ bs, BlocksApart c.heap bs ∧
      ∀ sz align, sz < 2 ^ 32 → align < 2 ^ 32 → AddressesFit c.heap sz align →
        ∃ s' p, blHeapAllocAlign c.heap sz align = some (s', p) ∧
          (p ≠ 0 → ∃ bs', BlocksApart s' bs' ∧ HandedOut s' bs bs' p sz) :=
  ⟨_, rfl, runs_keep_blocks_apart (.bios fun _ => 0)
    (.tail .refl (.alloc _ 40 16 _ 0x100010 (by decide) (by decide)
      (by simp [AddressesFit, blHeapInitBios, unset, roundUp]) rfl))⟩

end BootLoader.Heap

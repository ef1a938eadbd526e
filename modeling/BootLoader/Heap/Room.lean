import BootLoader.Heap.Balanced
import BootLoader.Heap.Edge

/-!
# Room that is known beforehand

How far a request can reach behind the end of the chain, so that a run of requests has room if the
sum of what they reach has.
-/

open ByteMemory RoundUp

namespace BootLoader.Heap

variable {s s' s'' : BlHeap} {bs bs' bs'' : List Block} {b c : Block} {e sz k x : Nat}

def EndsBy (s : BlHeap) (bs : List Block) (e : Nat) : Prop :=
  s.heap ≤ e ∧ ∀ b ∈ bs, b.stop ≤ e

/-- Its head, its bytes, and what rounding up takes. -/
def reach (sz k : Nat) : Nat := sz + 2 ^ k + 48

theorem nextPayload_le (stop k : Nat) : nextPayload stop (2 ^ k) ≤ stop + 2 ^ k + 30 := by
  have hround := roundUp_le_add (stop + 16) 16
  have hrest := roundUp_le_add (roundUp (stop + 16) 16) (2 ^ k)
  have hpos := Nat.two_pow_pos k
  unfold nextPayload
  omega

theorem HeapInv.alloc_ending (h : HeapInv s bs) (hheap : s.heap ≠ 0) (hk : k < 32)
    (hends : EndsBy s bs e) (hroom : e + reach sz k ≤ 2 ^ 32) :
    ∃ s' bs' b, blHeapAllocAlign s sz (2 ^ k) = some (s', b.payload) ∧
      Allocated s s' bs bs' b sz ∧ EndsBy s' bs' (e + reach sz k) := by
  obtain ⟨hbase, hstop⟩ := hends
  have hpos := Nat.two_pow_pos k
  unfold reach at hroom ⊢
  rw [blHeapAllocAlign_two_pow, if_neg hheap]
  suffices ∃ s' bs' b, (if s.occupiedBlocks = 0 ∧ s.freeBlocks = 0 then
        some (allocFirstBlock s sz (2 ^ k)) else blHeapAllocAlignFrom s.heap s sz (2 ^ k)) =
          some (s', b.payload) ∧
      Allocated s s' bs bs' b sz ∧ b.stop ≤ e + (sz + 2 ^ k + 48) by
    obtain ⟨s', bs', b, hret, hall, hb⟩ := this
    refine ⟨s', bs', b, hret, hall, ?_, ?_⟩
    · have hhead := hall.inv.heap_le_head hall.granted.mem_used.1
      simp only [Block.stop] at hb
      omega
    · exact hall.granted.stop_le hb fun d hd => (hstop d hd).trans (Nat.le_add_right _ _)
  rcases List.eq_nil_or_concat' bs with rfl | ⟨pre, b, rfl⟩
  · have hup := roundUp_le_add s.heap (2 ^ k)
    obtain ⟨hpay, hall⟩ := allocFirstBlock_spec h hk (show sz < 2 ^ 32 by omega) hheap
      (by omega)
    rw [if_pos (h.empty_iff.mp rfl)]
    refine ⟨_, _, _, by rw [Block.payload, ← hpay], hall, ?_⟩
    simp only [Block.stop]
    omega
  have hne : pre ++ [b] ≠ [] := List.concat_ne_nil b pre
  rw [if_neg fun hempty => hne (h.empty_iff.mpr hempty)]
  cases hfirst : firstFit (pre ++ [b]) sz (2 ^ k) with
  | some c =>
    have hmem := List.dropLast_subset _ (List.mem_of_find?_eq_some hfirst)
    obtain ⟨s', pre', post', -, -, hret, hall⟩ := blHeapAllocAlignFrom_reuse h hfirst
    refine ⟨s', _, { c with used := true }, hret, hall, ?_⟩
    exact (hstop c hmem).trans (Nat.le_add_right _ _)
  | none =>
    have hlast := hstop b (by simp)
    have hle := le_nextPayload b.stop k
    have hnext := nextPayload_le b.stop k
    obtain ⟨s', hret, hall⟩ := blHeapAllocAlignFrom_append h hk (by omega) hfirst (by omega)
    refine ⟨s', _, _, ?_, hall, ?_⟩
    · rw [hret, Block.payload, Nat.sub_add_cancel (by omega)]
    · change nextPayload b.stop (2 ^ k) - 16 + 16 + sz ≤ _
      omega

/-! ## What the holders of blocks see -/

/-- The blocks in use are as they were. -/
structure InUseKept (s s' : BlHeap) (bs bs' : List Block) : Prop where
  used : ∀ d ∈ bs, d.used = true → d ∈ bs'
  payloads : PayloadsKept s s' bs

theorem InUseKept.trans (h : InUseKept s s' bs bs') (h' : InUseKept s' s'' bs' bs'') :
    InUseKept s s'' bs bs'' where
  used d hd hused := h'.used d (h.used d hd hused) hused
  payloads d hd hused x hx :=
    (h'.payloads d (h.used d hd hused) hused x hx).trans (h.payloads d hd hused x hx)

theorem InUseKept.of_memory {m : Mem} (hm : ∀ d ∈ bs, d.used = true → ∀ x, d.InPayload x →
    m x = s.mem x) : InUseKept s { s with mem := m } bs bs :=
  ⟨fun _ hd _ => hd, hm⟩

theorem Allocated.inUseKept (h : Allocated s s' bs bs' b sz) : InUseKept s s' bs bs' where
  used _ hd hused := (h.granted.used_kept h.inv.ordered hd hused).1
  payloads _ hd hused x hx := h.frame x fun _ hc =>
    payload_not_head h.inv.ordered (h.granted.used_kept h.inv.ordered hd hused).1 hc hx

end BootLoader.Heap

import BootLoader.Heap.Owned
import BootLoader.Heap.Runs
import Mathlib.Data.List.Basic

/-!
# Aligned blocks, below the end of the address space

Three paths of `bl_heap_alloc_align` make the pointer. Whatever the memory holds, a reused block
and an appended one are aligned as asked. The first block is not: its base is aligned, and the
16 bytes of the head come after it.

None of the sums is checked for a carry. A run stays below the end of the address space as long
as each request leaves room for the block that it adds.
-/

open ByteMemory RoundUp Relation

namespace BootLoader.Heap

variable {b d : Block} {bs bs' : List Block} {c c' : Client} {p sz k : Nat} {s s' : BlHeap}

/-! ## Alignment -/

theorem two_pow_dvd_sixteen (k : Nat) : 2 ^ k ∣ 16 ↔ 2 ^ k ≤ 16 := by
  rw [show 16 = 2 ^ 4 by rfl, Nat.pow_dvd_pow_iff_le_right (by omega),
    Nat.pow_le_pow_iff_right (by omega)]

theorem allocFirstBlock_dvd_iff (s : BlHeap) (sz : Nat) (hk : k < 32) :
    2 ^ k ∣ (allocFirstBlock s sz (2 ^ k)).2 ↔ 2 ^ k ≤ 16 := by
  rw [← two_pow_dvd_sixteen]
  exact (dvd_headPayload_iff hk).trans (Nat.dvd_add_right (dvd_moved_up s.heap hk))

/-- **Alignment.** In any state at all, what a request returns is a multiple of its alignment
exactly when the heap has a block already or the alignment is at most that of a head. -/
theorem blHeapAllocAlign_dvd_iff (s : BlHeap) (sz : Nat) (hk : k < 32) :
    (∀ s' p, blHeapAllocAlign s sz (2 ^ k) = some (s', p) → p ≠ 0 → 2 ^ k ∣ p) ↔
      s.heap = 0 ∨ ¬ (s.occupiedBlocks = 0 ∧ s.freeBlocks = 0) ∨ 2 ^ k ≤ 16 := by
  rw [blHeapAllocAlign_two_pow]
  by_cases hnull : s.heap = 0
  · simp [hnull]
  by_cases hempty : s.occupiedBlocks = 0 ∧ s.freeBlocks = 0
  · rw [if_neg hnull, if_pos hempty]
    simp only [hnull, hempty, and_self, not_true_eq_false, false_or]
    rw [← allocFirstBlock_dvd_iff s sz hk]
    constructor
    · intro h
      by_cases hp : (allocFirstBlock s sz (2 ^ k)).2 = 0
      · exact hp ▸ dvd_zero _
      · exact h _ _ rfl hp
    · rintro h s' p hret -
      obtain rfl : (allocFirstBlock s sz (2 ^ k)).2 = p := congrArg Prod.snd (Option.some.inj hret)
      exact h
  · rw [if_neg hnull, if_neg hempty]
    simp only [hempty, not_false_eq_true, true_or, or_true, iff_true]
    intro s' p hret _
    exact blHeapAllocAlignFrom_dvd hk hret

theorem blHeapAllocAlign_dvd_iff_first :
    (∀ s' p, blHeapAllocAlign (blHeapInitBios (unset fun _ => 0)) 64 (2 ^ 4) = some (s', p) →
      p ≠ 0 → 2 ^ 4 ∣ p) ↔
      (blHeapInitBios (unset fun _ => 0)).heap = 0 ∨
        ¬ ((blHeapInitBios (unset fun _ => 0)).occupiedBlocks = 0 ∧
          (blHeapInitBios (unset fun _ => 0)).freeBlocks = 0) ∨ 2 ^ 4 ≤ 16 :=
  blHeapAllocAlign_dvd_iff _ 64 (by decide)

/-- The first descriptor area asked for with 4096: the base is at 0x100000, the payload is not. -/
theorem first_block_misaligned :
    ¬ ∀ (s : BlHeap) (c : Client), Started s → ReflTransGen Step ⟨s, []⟩ c →
      ∀ sz k, sz < 2 ^ 32 → k < 32 →
        ∀ s' p, blHeapAllocAlign c.heap sz (2 ^ k) = some (s', p) → p ≠ 0 → 2 ^ k ∣ p := by
  intro h
  have hdvd := h _ _ (.bios fun _ => 0) .refl 64 12 (by decide) (by decide) _ 0x100010 rfl
    (by decide)
  exact absurd hdvd (by decide)

/-! ## The end of the address space -/

/-- What a request must leave alone: everything below the base, the heads, and the payloads that
are handed out. -/
def InUse (s : BlHeap) (bs : List Block) (x : Nat) : Prop :=
  x < s.heap ∨ ∃ b ∈ bs, b.InHead x ∨ b.used = true ∧ b.InPayload x

/-- The addresses that one request computes, before they wrap. -/
def computedAddresses (s : BlHeap) (bs : List Block) (sz align : Nat) : List Nat :=
  match bs.getLast?, firstFit bs sz align with
  | none, _ => [roundUp s.heap align, roundUp s.heap align + 16]
  | some _, some b => [b.payload]
  | some last, none =>
    [last.stop + 16, roundUp (last.stop + 16) 16, nextPayload last.stop align]

/-- The answer `p` to a request, with the state `s'` behind it. -/
structure Answered (s : BlHeap) (bs : List Block) (sz align : Nat) (s' : BlHeap) (p : Nat) :
    Prop where
  /-- Null: the chain is what it was. -/
  refused : p = 0 → HeapInv s' bs
  below : p ≠ 0 → 16 ≤ p ∧ p + sz ≤ 2 ^ 32
  /-- Block and head lie apart from every block of the chain and its head. -/
  apart : p ≠ 0 → ∀ b ∈ bs, b.payload ≠ p → b.stop ≤ p - 16 ∨ p + sz ≤ b.head
  reused : ∀ b ∈ bs, b.payload = p → b.used = false ∧ sz ≤ b.size
  noWrap : ∀ a ∈ computedAddresses s bs sz align, 2 ^ 32 ≤ a → ¬ InUse s bs (a % 2 ^ 32)

/-- The block that the request would add ends in the address space, and does not start at its
end. A request that a free block serves adds none. -/
def RoomAtEnd (s : BlHeap) (sz align : Nat) : Prop :=
  s.heap = 0 ∨
    if s.occupiedBlocks = 0 ∧ s.freeBlocks = 0 then
      roundUp s.heap align + 16 + max sz 1 ≤ 2 ^ 32
    else ∀ q, scanBlocks s.mem sz align scanFuel s.heap = some (.last q) →
      nextPayload (q + 16 + headSize s.mem q) align + max sz 1 ≤ 2 ^ 32

theorem roomAtEnd_nil (h : HeapInv s []) (hheap : s.heap ≠ 0) :
    RoomAtEnd s sz (2 ^ k) ↔ roundUp s.heap (2 ^ k) + 16 + max sz 1 ≤ 2 ^ 32 := by
  rw [RoomAtEnd, if_pos (h.empty_iff.mp rfl)]
  exact or_iff_right hheap

theorem roomAtEnd_concat {pre : List Block} (h : HeapInv s (pre ++ [b])) (hheap : s.heap ≠ 0) :
    RoomAtEnd s sz (2 ^ k) ↔ firstFit (pre ++ [b]) sz (2 ^ k) = none →
      nextPayload b.stop (2 ^ k) + max sz 1 ≤ 2 ^ 32 := by
  have hne : pre ++ [b] ≠ [] := List.concat_ne_nil b pre
  rw [RoomAtEnd, if_neg fun hempty => hne (h.empty_iff.mpr hempty), or_iff_right hheap, h.scan hne]
  cases hfirst : firstFit (pre ++ [b]) sz (2 ^ k) with
  | some c => simp
  | none =>
    have hstop : b.head + 16 + headSize s.mem b.head = b.stop := by
      rw [h.linked.last.size_eq, Block.stop]
    simp [hstop]

/-! ### Enough room -/

theorem Granted.stop_le {e : Nat} (h : Granted bs bs' b) (hb : b.stop ≤ e)
    (hbs : ∀ d ∈ bs, d.stop ≤ e) : ∀ d ∈ bs', d.stop ≤ e := by
  intro d hd
  cases h with
  | first => exact List.mem_singleton.mp hd ▸ hb
  | reused pre post c =>
    simp only [List.mem_append, List.mem_cons] at hd
    rcases hd with hd | rfl | hd
    · exact hbs d (by simp [hd])
    · exact hb
    · exact hbs d (by simp [hd])
  | appended =>
    rcases List.mem_append.mp hd with hd | hd
    · exact hbs d hd
    · exact List.mem_singleton.mp hd ▸ hb

theorem RoomAtEnd.allocated (h : HeapInv s bs) (hstop : ∀ b ∈ bs, b.stop ≤ 2 ^ 32)
    (hheap : s.heap ≠ 0) (hk : k < 32) (hsz : sz < 2 ^ 32) (hroom : RoomAtEnd s sz (2 ^ k)) :
    ∃ s' bs' b, blHeapAllocAlign s sz (2 ^ k) = some (s', b.payload) ∧
      Allocated s s' bs bs' b sz ∧ b.stop ≤ 2 ^ 32 ∧
      ∀ a ∈ computedAddresses s bs sz (2 ^ k), a < 2 ^ 32 := by
  rw [blHeapAllocAlign_two_pow, if_neg hheap]
  rcases List.eq_nil_or_concat' bs with rfl | ⟨pre, b, rfl⟩
  · rw [roomAtEnd_nil h hheap] at hroom
    obtain ⟨hpay, hall⟩ := allocFirstBlock_spec h hk hsz hheap (by omega)
    rw [if_pos (h.empty_iff.mp rfl)]
    refine ⟨_, _, _, by rw [Block.payload, ← hpay], hall, ?_, ?_⟩
    · simp only [Block.stop]
      omega
    · simp only [computedAddresses, List.getLast?_nil, List.mem_cons, List.not_mem_nil, or_false,
        forall_eq_or_imp, forall_eq]
      omega
  · have hne : pre ++ [b] ≠ [] := List.concat_ne_nil b pre
    rw [roomAtEnd_concat h hheap] at hroom
    rw [if_neg fun hempty => hne (h.empty_iff.mpr hempty)]
    cases hfirst : firstFit (pre ++ [b]) sz (2 ^ k) with
    | some c =>
      have hmem := List.dropLast_subset _ (List.mem_of_find?_eq_some hfirst)
      obtain ⟨s', pre', post', -, -, hret, hall⟩ := blHeapAllocAlignFrom_reuse h hfirst
      refine ⟨s', _, { c with used := true }, hret, hall, hstop c hmem, ?_⟩
      have := (h.blockOk c hmem).inSpace
      simpa [computedAddresses, hfirst] using this
    | none =>
      have hend := hroom hfirst
      have hle := le_nextPayload b.stop k
      have hround : roundUp (b.stop + 16) 16 ≤ nextPayload b.stop (2 ^ k) :=
        le_roundUp (Nat.two_pow_pos k)
      obtain ⟨s', hret, hall⟩ := blHeapAllocAlignFrom_append h hk hsz hfirst (by omega)
      refine ⟨s', _, _, ?_, hall, ?_, ?_⟩
      · rw [hret, Block.payload, Nat.sub_add_cancel (by omega)]
      · simp only [Block.stop] at *
        omega
      · simp only [computedAddresses, List.getLast?_concat, hfirst, List.mem_cons,
          List.not_mem_nil, or_false, forall_eq_or_imp, forall_eq]
        omega

/-- Two blocks of the chain with one payload are one block. -/
theorem HeapInv.eq_of_payload (h : HeapInv s bs) (hb : b ∈ bs) (hd : d ∈ bs)
    (hpay : b.payload = d.payload) : b = d := by
  rcases before_or_eq h.ordered hb hd with hbd | hdb | heq
  · simp only [Before, Block.stop, Block.payload] at hbd hpay
    omega
  · simp only [Before, Block.stop, Block.payload] at hdb hpay
    omega
  · exact heq

theorem Allocated.answered (h : Allocated s s' bs bs' b sz) (hb : b.stop ≤ 2 ^ 32)
    (hspace : ∀ a ∈ computedAddresses s bs sz (2 ^ k), a < 2 ^ 32) :
    Answered s bs sz (2 ^ k) s' b.payload where
  refused hzero := by
    simp only [Block.payload] at hzero
    omega
  below _ := by
    have hroom := h.room
    simp only [Block.payload, Block.stop] at *
    omega
  apart _ d hd hne := by
    obtain ⟨d', hd', hpay, hsize⟩ := h.granted.payload_kept hd
    have hroom := h.room
    rcases before_or_eq h.inv.ordered hd' h.granted.mem_used.1 with hdb | hbd | rfl
    · simp only [Before, Block.stop, Block.payload] at *
      omega
    · simp only [Before, Block.stop, Block.payload] at *
      omega
    · exact absurd hpay.symm hne
  reused d hd hpay := by
    have hunused : d.used ≠ true := fun hused =>
      (h.granted.used_kept h.inv.ordered hd hused).2 hpay
    obtain ⟨d', hd', hpay', hsize⟩ := h.granted.payload_kept hd
    obtain rfl := h.inv.eq_of_payload hd' h.granted.mem_used.1 (hpay'.trans hpay)
    exact ⟨by simpa using hunused, hsize ▸ h.room⟩
  noWrap a ha hwrap := absurd (hspace a ha) (not_lt.mpr hwrap)

/-- Without a heap every request is refused. -/
theorem answered_null (h : HeapInv s bs) (hheap : s.heap = 0) :
    Answered s bs sz (2 ^ k) s 0 := by
  obtain rfl := h.eq_nil_of_null hheap
  refine ⟨fun _ => h, fun hp => absurd rfl hp, fun hp => absurd rfl hp, by simp, ?_⟩
  have hround : roundUp s.heap (2 ^ k) = 0 := by
    rw [hheap, roundUp_of_dvd (Nat.two_pow_pos k) (dvd_zero _)]
  simp [computedAddresses, hround]

/-! ### Not enough room -/

theorem HeapInv.inUse_low {x : Nat} (h : HeapInv s bs) (hne : bs ≠ []) (hheap : s.heap ≠ 0)
    (hx : x ≤ 16) : InUse s bs x := by
  obtain ⟨c, rest, rfl⟩ := List.exists_cons_of_ne_nil hne
  have hstart : s.heap = c.head := h.start hne
  have h16 := h.baseAligned
  by_cases hlow : x < s.heap
  · exact .inl hlow
  · refine .inr ⟨c, List.mem_cons_self, .inl ?_⟩
    simp only [Block.InHead, Block.payload]
    omega

/-- Rounding an address below `2 ^ 32` gives `2 ^ 32` at most. -/
theorem roundUp_le_space {x : Nat} (hk : k < 32) (hx : x ≤ 2 ^ 32) :
    roundUp x (2 ^ k) ≤ 2 ^ 32 :=
  roundUp_le_of_dvd (Nat.two_pow_pos k) (pow_dvd_pow 2 (by omega)) hx

theorem Answered.roomAtEnd (h : HeapInv s bs) (hstop : ∀ b ∈ bs, b.stop ≤ 2 ^ 32) (hk : k < 32)
    (hsz : sz < 2 ^ 32) (hret : blHeapAllocAlign s sz (2 ^ k) = some (s', p))
    (hans : Answered s bs sz (2 ^ k) s' p) : RoomAtEnd s sz (2 ^ k) := by
  by_cases hheap : s.heap = 0
  · exact .inl hheap
  have hwrap := hans.noWrap
  rw [blHeapAllocAlign_two_pow, if_neg hheap] at hret
  rcases List.eq_nil_or_concat' bs with rfl | ⟨pre, b, rfl⟩
  · rw [roomAtEnd_nil h hheap]
    have hle := roundUp_le_space hk h.baseInSpace.le
    have h16 : 16 ∣ roundUp s.heap (2 ^ k) := two_pow_dvd_roundUp (j := 4) k h.baseAligned
    have hzero : InUse s [] 0 := .inl (Nat.pos_of_ne_zero hheap)
    simp only [computedAddresses, List.getLast?_nil, List.mem_cons, List.not_mem_nil, or_false,
      forall_eq_or_imp, forall_eq] at hwrap
    have hbase : roundUp s.heap (2 ^ k) ≠ 2 ^ 32 := fun heq => hwrap.1 heq.ge (by simpa [heq])
    have hpayload : roundUp s.heap (2 ^ k) + 16 ≠ 2 ^ 32 := fun heq =>
      hwrap.2 heq.ge (by simpa [heq])
    rw [if_pos (h.empty_iff.mp rfl)] at hret
    obtain rfl : (allocFirstBlock s sz (2 ^ k)).2 = p := congrArg Prod.snd (Option.some.inj hret)
    rw [(allocFirstBlock_spec h hk hsz hheap (by omega)).1] at hans
    have := hans.below (by omega)
    omega
  · rw [roomAtEnd_concat h hheap]
    intro hfirst
    have hne : pre ++ [b] ≠ [] := List.concat_ne_nil b pre
    have hend := hstop b (by simp)
    simp only [computedAddresses, List.getLast?_concat, hfirst, List.mem_cons, List.not_mem_nil,
      or_false, forall_eq_or_imp, forall_eq] at hwrap
    -- a carry in any of the three sums ends at 16 or below
    have hsum : b.stop + 16 < 2 ^ 32 := by
      by_contra hge
      exact hwrap.1 (not_lt.mp hge) (h.inUse_low hne hheap (by omega))
    have hround : roundUp (b.stop + 16) 16 ≤ 2 ^ 32 := roundUp_le_space (k := 4) (by omega) hsum.le
    have hround' : roundUp (b.stop + 16) 16 < 2 ^ 32 := by
      by_contra hge
      exact hwrap.2.1 (not_lt.mp hge) (h.inUse_low hne hheap (by omega))
    have hnext := roundUp_le_space hk hround'.le
    have hfit : nextPayload b.stop (2 ^ k) < 2 ^ 32 := by
      by_contra hge
      rw [nextPayload] at hge hwrap
      exact hwrap.2.2 (not_lt.mp hge) (h.inUse_low hne hheap (by omega))
    obtain ⟨s₁, hfrom, -⟩ := blHeapAllocAlignFrom_append h hk hsz hfirst hfit
    rw [if_neg fun hempty => hne (h.empty_iff.mpr hempty), hfrom] at hret
    obtain ⟨rfl, rfl⟩ := Prod.mk.inj (Option.some.inj hret)
    have hle := le_nextPayload b.stop k
    have := hans.below (by omega)
    omega

/-! ### Runs -/

/-- A step of a run in which every request leaves room. Requests for an alignment that is no
power of two are refused. -/
inductive RoomyStep : Client → Client → Prop
  | alloc (c : Client) (sz align : Nat) (s' : BlHeap) (p : Nat) (hsz : sz < 2 ^ 32)
      (halign : align < 2 ^ 32)
      (hroom : max align 1 &&& (max align 1 - 1) = 0 → RoomAtEnd c.heap sz (max align 1))
      (hret : blHeapAllocAlign c.heap sz align = some (s', p)) :
    RoomyStep c ⟨s', if p = 0 then c.given else (p, sz) :: c.given⟩
  | free (c : Client) (p sz : Nat) (hgiven : (p, sz) ∈ c.given) :
    RoomyStep c ⟨blHeapFree c.heap p, c.given⟩
  | write (c : Client) (p sz a : Nat) (v : Byte) (hgiven : (p, sz) ∈ c.given)
      (hin : p ≤ a ∧ a < p + sz) :
    RoomyStep c ⟨{ c.heap with mem := store c.heap.mem a v }, c.given⟩

/-- The chain of a run, which ends in the address space. -/
structure RoomyInv (c : Client) (bs : List Block) : Prop where
  client : ClientInv c bs
  stop_le : ∀ b ∈ bs, b.stop ≤ 2 ^ 32

theorem RoomyStep.preserves (h : RoomyStep c c') (hi : RoomyInv c bs) : ∃ bs', RoomyInv c' bs' := by
  cases h with
  | alloc sz align s' p hsz halign hroom hret =>
    have hrefused : blHeapAllocAlign c.heap sz align = some (c.heap, 0) →
        ∃ bs', RoomyInv ⟨s', if p = 0 then c.given else (p, sz) :: c.given⟩ bs' := by
      intro hnull
      obtain ⟨rfl, rfl⟩ := Prod.mk.inj (Option.some.inj (hnull.symm.trans hret))
      exact ⟨bs, hi⟩
    by_cases hheap : c.heap.heap = 0
    · exact hrefused (if_pos hheap)
    by_cases hpow : max align 1 &&& (max align 1 - 1) = 0
    · obtain ⟨k, hk, hmax⟩ := two_pow_of_and_eq_zero (by omega) (by omega) hpow
      rw [hmax] at hroom
      obtain ⟨s₁, bs', b, hsome, hall, hstop, -⟩ := (hroom (hmax ▸ hpow)).allocated hi.client.inv
        hi.stop_le hheap hk hsz
      rw [← hmax, blHeapAllocAlign_max] at hsome
      obtain ⟨rfl, rfl⟩ := Prod.mk.inj (Option.some.inj (hsome.symm.trans hret))
      refine ⟨bs', ?_, hall.granted.stop_le hstop hi.stop_le⟩
      rw [if_neg (by simp only [Block.payload]; omega)]
      exact hi.client.granted hall
    · exact hrefused (blHeapAllocAlign_not_pow hpow)
  | free p sz hgiven =>
    obtain ⟨pre, b, post, rfl, hfree⟩ := hi.client.free hgiven
    refine ⟨_, hfree, fun d hd => ?_⟩
    have hstop := hi.stop_le
    simp only [List.mem_append, List.mem_cons] at hd hstop
    rcases hd with hd | rfl | hd
    · exact hstop d (.inl hd)
    · exact hstop b (.inr (.inl rfl))
    · exact hstop d (.inr (.inr hd))
  | write p sz a v hgiven hin => exact ⟨bs, hi.client.write v hgiven hin, hi.stop_le⟩

theorem roomy_run_inv (hstart : Started s) (hrun : ReflTransGen RoomyStep ⟨s, []⟩ c) :
    ∃ bs, RoomyInv c bs := by
  induction hrun with
  | refl => exact ⟨[], ⟨hstart.inv, by simp⟩, by simp⟩
  | tail _ hstep ih =>
    obtain ⟨bs, hi⟩ := ih
    exact hstep.preserves hi

/-- **The end of the address space.** After a run in which every request left room, the blocks
are apart and end in the address space; and the next request is answered as it should exactly
when it leaves room too. -/
theorem runs_stay_in_space (hstart : Started s) (hrun : ReflTransGen RoomyStep ⟨s, []⟩ c) :
    ∃ bs, HeapInv c.heap bs ∧ (∀ b ∈ bs, b.stop ≤ 2 ^ 32) ∧
      ∀ sz k, sz < 2 ^ 32 → k < 32 →
        ((∃ s' p, blHeapAllocAlign c.heap sz (2 ^ k) = some (s', p) ∧
          Answered c.heap bs sz (2 ^ k) s' p) ↔ RoomAtEnd c.heap sz (2 ^ k)) := by
  obtain ⟨bs, hi⟩ := roomy_run_inv hstart hrun
  refine ⟨bs, hi.client.inv, hi.stop_le, fun sz k hsz hk => ⟨?_, fun hroom => ?_⟩⟩
  · rintro ⟨s', p, hret, hans⟩
    exact hans.roomAtEnd hi.client.inv hi.stop_le hk hsz hret
  · by_cases hheap : c.heap.heap = 0
    · exact ⟨c.heap, 0, if_pos hheap, answered_null hi.client.inv hheap⟩
    · obtain ⟨s', bs', b, hret, hall, hstop, hspace⟩ :=
        hroom.allocated hi.client.inv hi.stop_le hheap hk hsz
      exact ⟨s', b.payload, hret, hall.answered hstop hspace⟩

theorem runs_stay_in_space_first :
    ∃ c : Client, c.given = [(0x100010, 40)] ∧
      ∃ bs, HeapInv c.heap bs ∧ (∀ b ∈ bs, b.stop ≤ 2 ^ 32) ∧
        ∀ sz k, sz < 2 ^ 32 → k < 32 →
          ((∃ s' p, blHeapAllocAlign c.heap sz (2 ^ k) = some (s', p) ∧
            Answered c.heap bs sz (2 ^ k) s' p) ↔ RoomAtEnd c.heap sz (2 ^ k)) :=
  ⟨_, rfl, runs_stay_in_space (.bios fun _ => 0)
    (.tail .refl (.alloc _ 40 16 _ 0x100010 (by decide) (by decide)
      (by simp [RoomAtEnd, blHeapInitBios, unset, roundUp]) rfl))⟩

/-- The first request, for almost all of the address space: its block starts above 1 MB and ends
behind `2 ^ 32`. -/
theorem first_block_leaves_space :
    ¬ ∀ (s : BlHeap) (c : Client), Started s → ReflTransGen RoomyStep ⟨s, []⟩ c →
      ∀ bs, HeapInv c.heap bs → ∀ sz k, sz < 2 ^ 32 → k < 32 →
        ∃ s' p, blHeapAllocAlign c.heap sz (2 ^ k) = some (s', p) ∧
          Answered c.heap bs sz (2 ^ k) s' p := by
  intro h
  obtain ⟨s', p, hret, hans⟩ := h _ _ (.bios fun _ => 0) .refl [] (Started.bios _).inv
    0xfffffff0 0 (by decide) (by decide)
  obtain rfl : 0x100010 = p := congrArg Prod.snd (Option.some.inj hret)
  exact absurd (hans.below (by decide)).2 (by decide)

end BootLoader.Heap

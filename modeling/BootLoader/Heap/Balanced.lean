import BootLoader.Heap.Owned
import BootLoader.Heap.Runs
import Mathlib.Data.List.Basic

/-!
# Requests that are released again

A caller that asks for a block and releases it, any number of times, makes the chain longer by
two blocks at most. The first fit never tries the last block, so the first block that is added is
not found again while it is the last one.
-/

open ByteMemory RoundUp Relation

namespace BootLoader.Heap

variable {b : Block} {bs bs' : List Block} {c : Client} {s s' s₁ : BlHeap} {sz n : Nat}

/-- `bl_heap_free(bl_heap_alloc(sz), sz)`, `n` times. -/
def allocFree (sz : Nat) : Nat → BlHeap → Option BlHeap
  | 0, s => some s
  | n + 1, s => do
    let (s, p) ← blHeapAlloc s sz
    allocFree sz n (blHeapFree s p)

/-- The payloads in use hold what they held. -/
def PayloadsKept (s s' : BlHeap) (bs : List Block) : Prop :=
  ∀ b ∈ bs, b.used = true → ∀ x, b.InPayload x → s'.mem x = s.mem x

/-! ## One request and its release -/

theorem PayloadsKept.trans (h : PayloadsKept s s₁ bs) (h' : PayloadsKept s₁ s' bs) :
    PayloadsKept s s' bs :=
  fun b hb hused x hx => (h' b hb hused x hx).trans (h b hb hused x hx)

theorem PayloadsKept.of_append (h : PayloadsKept s s' (bs ++ bs')) : PayloadsKept s s' bs :=
  fun b hb => h b (List.mem_append_left _ hb)

theorem Allocated.payloadsKept (h : Allocated s s' bs bs' b sz) :
    PayloadsKept s (blHeapFree s' b.payload) bs := by
  intro d hd hused x hx
  have hd' := (h.granted.used_kept h.inv.ordered hd hused).1
  have hheads : ∀ c ∈ bs', ¬ c.InHead x := fun c hc =>
    payload_not_head h.inv.ordered hd' hc hx
  have hb := h.granted.mem_used.1
  rw [blHeapFree_outside h.inv hb (hheads b hb), h.frame x hheads]

theorem blHeapFree_heap (s : BlHeap) (p : Nat) : (blHeapFree s p).heap = s.heap := by
  unfold blHeapFree
  simp only
  split_ifs <;> rfl

theorem blHeapAlloc_eq (s : BlHeap) (sz : Nat) : blHeapAlloc s sz =
    if s.heap = 0 then some (s, 0)
    else if s.occupiedBlocks = 0 ∧ s.freeBlocks = 0 then some (allocFirstBlock s sz 1)
    else blHeapAllocAlignFrom s.heap s sz 1 :=
  blHeapAllocAlign_two_pow s sz 0

/-- The head of the block that is added. -/
def newHead (s : BlHeap) (bs : List Block) : Nat :=
  (bs.getLast?.map fun b => nextPayload b.stop 1 - 16).getD s.heap

/-- A free block serves: the chain is what it was. -/
theorem HeapInv.allocFree_reused (h : HeapInv s bs) (hheap : s.heap ≠ 0)
    (hfirst : firstFit bs sz 1 = some b) :
    ∃ s', (∀ n, allocFree sz (n + 1) s = allocFree sz n s') ∧ HeapInv s' bs ∧ s'.heap ≠ 0 ∧
      PayloadsKept s s' bs := by
  have hne : bs ≠ [] := List.ne_nil_of_mem
    (List.dropLast_subset bs (List.mem_of_find?_eq_some hfirst))
  have hempty : ¬ (s.occupiedBlocks = 0 ∧ s.freeBlocks = 0) := fun he =>
    hne (h.empty_iff.mpr he)
  obtain ⟨s₁, pre, post, rfl, hfree, hret, hall⟩ := blHeapAllocAlignFrom_reuse (k := 0) h hfirst
  have hsame : { b with used := false } = b := by rw [← hfree]
  have hinv := hall.inv.free
  simp only [hsame] at hinv
  refine ⟨blHeapFree s₁ b.payload, fun n => ?_, hinv, ?_, hall.payloadsKept⟩
  · rw [allocFree, blHeapAlloc_eq, if_neg hheap, if_neg hempty, ← pow_zero 2, hret]
    rfl
  · have hbase := hall.base
    rw [blHeapFree_heap]
    omega

/-- None does: a free block is added behind the last. -/
theorem HeapInv.allocFree_added (h : HeapInv s bs) (hheap : s.heap ≠ 0) (hsz : sz < 2 ^ 32)
    (hfirst : firstFit bs sz 1 = none) (hfit : newHead s bs + 16 < 2 ^ 32) :
    ∃ s', (∀ n, allocFree sz (n + 1) s = allocFree sz n s') ∧
      HeapInv s' (bs ++ [⟨newHead s bs, sz, false⟩]) ∧ s'.heap ≠ 0 ∧ PayloadsKept s s' bs := by
  obtain ⟨s₁, hret, hall⟩ : ∃ s₁, blHeapAlloc s sz = some (s₁, newHead s bs + 16) ∧
      Allocated s s₁ bs (bs ++ [⟨newHead s bs, sz, true⟩]) ⟨newHead s bs, sz, true⟩ sz := by
    rw [blHeapAlloc_eq, if_neg hheap]
    rcases List.eq_nil_or_concat' bs with rfl | ⟨pre, b, rfl⟩
    · have hround : roundUp s.heap (2 ^ 0) = s.heap := roundUp_one _
      obtain ⟨hpay, hall⟩ := allocFirstBlock_spec (k := 0) h (by decide) hsz hheap (by
        rw [hround]
        exact hfit)
      rw [hround] at hpay hall
      rw [if_pos (h.empty_iff.mp rfl)]
      exact ⟨_, congrArg some (Prod.ext rfl hpay), hall⟩
    · have hempty : ¬ (s.occupiedBlocks = 0 ∧ s.freeBlocks = 0) := fun he =>
        List.concat_ne_nil b pre (h.empty_iff.mpr he)
      have hhead : newHead s (pre ++ [b]) = nextPayload b.stop (2 ^ 0) - 16 := by
        rw [newHead, List.getLast?_concat]
        rfl
      have hle := le_nextPayload b.stop 0
      rw [hhead] at hfit ⊢
      obtain ⟨s₁, hret, hall⟩ := blHeapAllocAlignFrom_append (k := 0) h (by decide) hsz hfirst
        (by omega)
      rw [if_neg hempty, ← pow_zero 2, hret, Nat.sub_add_cancel (by omega)]
      exact ⟨s₁, rfl, hall⟩
  have hinv := hall.inv.free
  refine ⟨blHeapFree s₁ (newHead s bs + 16), fun n => ?_, hinv, ?_, hall.payloadsKept⟩
  · rw [allocFree, hret]
    rfl
  · have hbase := hall.base
    rw [blHeapFree_heap]
    omega

/-! ## Any number of them -/

/-- A chain in which a free block serves stays as it is. -/
theorem HeapInv.allocFree_stays (h : HeapInv s bs) (hheap : s.heap ≠ 0)
    (hfirst : firstFit bs sz 1 = some b) (n : Nat) :
    ∃ s', allocFree sz n s = some s' ∧ HeapInv s' bs ∧ PayloadsKept s s' bs := by
  induction n generalizing s with
  | zero => exact ⟨s, rfl, h, fun _ _ _ _ _ => rfl⟩
  | succ n ih =>
    obtain ⟨s₁, hstep, hinv, hheap₁, hkept⟩ := h.allocFree_reused hheap hfirst
    obtain ⟨s', hrest, hinv', hkept'⟩ := ih hinv hheap₁
    exact ⟨s', (hstep n).trans hrest, hinv', hkept.trans hkept'⟩

/-- The addresses of the two blocks that may be added stay below `2 ^ 32`. The second one is not
added when the last block is free and has room. -/
def RoomForTwo (s : BlHeap) (sz : Nat) : Prop :=
  s.heap = 0 ∨
    if s.occupiedBlocks = 0 ∧ s.freeBlocks = 0 then nextPayload (s.heap + 16 + sz) 1 < 2 ^ 32
    else ∀ q, scanBlocks s.mem sz 1 scanFuel s.heap = some (.last q) →
      nextPayload (q + 16 + headSize s.mem q) 1 < 2 ^ 32 ∧
        (headMagic s.mem q = blHeapBlockHeadFreeMagic ∧ sz ≤ headSize s.mem q ∨
          nextPayload (nextPayload (q + 16 + headSize s.mem q) 1 + sz) 1 < 2 ^ 32)

theorem firstFit_concat (bs : List Block) (b : Block) (sz align : Nat) :
    firstFit (bs ++ [b]) sz align = bs.find? fun b => b.Fits sz align := by
  rw [firstFit, List.dropLast_concat]

/-- A block that fits is found as soon as another one is behind it. -/
theorem firstFit_of_mem {d : Block} (hd : d ∈ bs) (hused : d.used = false) (hroom : sz ≤ d.size) :
    ∃ b', firstFit (bs ++ [b]) sz 1 = some b' := by
  rw [firstFit_concat, ← Option.isSome_iff_exists, List.find?_isSome]
  exact ⟨d, hd, decide_eq_true ⟨hused, one_dvd _, hroom⟩⟩

theorem newHead_concat (s : BlHeap) (pre : List Block) (b : Block) :
    newHead s (pre ++ [b]) + 16 = nextPayload b.stop 1 := by
  have hle := le_nextPayload b.stop 0
  rw [pow_zero] at hle
  rw [newHead, List.getLast?_concat, Option.map_some, Option.getD_some]
  omega

theorem RoomForTwo.spec (h : HeapInv s bs) (hheap : s.heap ≠ 0) (hroom : RoomForTwo s sz)
    (hfirst : firstFit bs sz 1 = none) :
    newHead s bs + 16 < 2 ^ 32 ∧
      (firstFit (bs ++ [⟨newHead s bs, sz, false⟩]) sz 1 = none →
        ∀ s₁, newHead s₁ (bs ++ [⟨newHead s bs, sz, false⟩]) + 16 < 2 ^ 32) := by
  unfold RoomForTwo at hroom
  have hroom := hroom.resolve_left hheap
  simp only [newHead_concat, Block.stop]
  rcases List.eq_nil_or_concat' bs with rfl | ⟨pre, b, rfl⟩
  · rw [if_pos (h.empty_iff.mp rfl)] at hroom
    have hle := le_nextPayload (s.heap + 16 + sz) 0
    rw [pow_zero] at hle
    have hhead : newHead s [] = s.heap := rfl
    rw [hhead]
    exact ⟨by omega, fun _ _ => hroom⟩
  · have hne : pre ++ [b] ≠ [] := List.concat_ne_nil b pre
    have hlast := h.linked.last
    have hstop : b.head + 16 + headSize s.mem b.head = b.stop := by
      rw [hlast.size_eq, Block.stop]
    rw [if_neg fun he => hne (h.empty_iff.mpr he)] at hroom
    obtain ⟨hfit, hsecond⟩ := hroom b.head (by
      rw [h.scan_last hne hfirst, List.getLast_concat])
    rw [hstop, ← newHead_concat s pre b] at hfit hsecond
    refine ⟨hfit, fun hnone _ => hsecond.resolve_left ?_⟩
    rintro ⟨hmagic, hsize⟩
    rw [hlast.magic_eq, magic_eq_free_iff] at hmagic
    rw [hlast.size_eq] at hsize
    obtain ⟨b', hsome⟩ := firstFit_of_mem (b := ⟨newHead s (pre ++ [b]), sz, false⟩)
      (List.mem_append_right pre (List.mem_singleton_self b)) hmagic hsize
    rw [hnone] at hsome
    cases hsome

theorem HeapInv.allocFree_bounded (h : HeapInv s bs) (hheap : s.heap ≠ 0) (hsz : sz < 2 ^ 32)
    (hroom : RoomForTwo s sz) (n : Nat) :
    ∃ s' added, allocFree sz n s = some s' ∧ added.length ≤ 2 ∧ HeapInv s' (bs ++ added) ∧
      PayloadsKept s s' bs := by
  cases hfirst : firstFit bs sz 1 with
  | some b =>
    obtain ⟨s', hret, hinv, hkept⟩ := h.allocFree_stays hheap hfirst n
    exact ⟨s', [], hret, by simp, by rwa [List.append_nil], hkept⟩
  | none =>
    cases n with
    | zero => exact ⟨s, [], rfl, by simp, by rwa [List.append_nil], fun _ _ _ _ _ => rfl⟩
    | succ n =>
      obtain ⟨s₁, hstep₁, hinv₁, hheap₁, hkept₁⟩ :=
        h.allocFree_added hheap hsz hfirst (hroom.spec h hheap hfirst).1
      rw [hstep₁]
      cases hsecond : firstFit (bs ++ [⟨newHead s bs, sz, false⟩]) sz 1 with
      | some b =>
        obtain ⟨s', hret, hinv, hkept⟩ := hinv₁.allocFree_stays hheap₁ hsecond n
        exact ⟨s', _, hret, by simp, hinv, hkept₁.trans hkept.of_append⟩
      | none =>
        cases n with
        | zero => exact ⟨s₁, _, rfl, by simp, hinv₁, hkept₁⟩
        | succ n =>
          obtain ⟨s₂, hstep₂, hinv₂, hheap₂, hkept₂⟩ := hinv₁.allocFree_added hheap₁ hsz hsecond
            ((hroom.spec h hheap hfirst).2 hsecond s₁)
          have hmem := List.mem_append_right bs
            (List.mem_singleton_self (⟨newHead s bs, sz, false⟩ : Block))
          obtain ⟨b', hthird⟩ := firstFit_of_mem (b := ⟨newHead s₁ (bs ++ [⟨newHead s bs, sz,
            false⟩]), sz, false⟩) hmem rfl le_rfl
          obtain ⟨s', hret, hinv, hkept⟩ := hinv₂.allocFree_stays hheap₂ hthird n
          rw [hstep₂]
          rw [List.append_assoc] at hinv
          exact ⟨s', _, hret, by simp, hinv, hkept₁.trans (hkept₂.trans hkept.of_append).of_append⟩

/-- Without a heap nothing is handed out. -/
theorem allocFree_null (hheap : s.heap = 0) (n : Nat) : ∃ s', allocFree sz n s = some s' := by
  induction n generalizing s with
  | zero => exact ⟨s, rfl⟩
  | succ n ih =>
    obtain ⟨s', hret⟩ := ih ((blHeapFree_heap s 0).trans hheap)
    refine ⟨s', ?_⟩
    rw [allocFree, blHeapAlloc_eq, if_pos hheap]
    exact hret

/-! ## Runs -/

/-- **Balanced use.** After any run, a request that is released again lengthens the chain by two
blocks at most, however often it is made, as long as there is room for two. -/
theorem balanced_use_bounded (hstart : Started s) (hrun : ReflTransGen Step ⟨s, []⟩ c) :
    ∃ bs, BlocksApart c.heap bs ∧
      ∀ sz, sz < 2 ^ 32 → RoomForTwo c.heap sz → ∀ n, ∃ s' added,
        allocFree sz n c.heap = some s' ∧ added.length ≤ 2 ∧ BlocksApart s' (bs ++ added) ∧
          PayloadsKept c.heap s' bs := by
  obtain ⟨bs, hi⟩ := run_inv hstart hrun
  refine ⟨bs, hi.inv.blocksApart, ?_⟩
  intro sz hsz hroom n
  by_cases hheap : c.heap.heap = 0
  · obtain rfl := hi.inv.eq_nil_of_null hheap
    obtain ⟨s', hret⟩ := allocFree_null hheap n
    exact ⟨s', [], hret, by simp, ⟨by simp, trivial, .nil, .nil, by simp, by simp⟩, by
      simp [PayloadsKept]⟩
  · obtain ⟨s', added, hret, hlen, hinv, hkept⟩ := hi.inv.allocFree_bounded hheap hsz hroom n
    exact ⟨s', added, hret, hlen, hinv.blocksApart, hkept⟩

theorem balanced_use_bounded_first :
    ∃ c : Client, c.given = [(0x100010, 40)] ∧ ∃ bs, BlocksApart c.heap bs ∧
      ∀ sz, sz < 2 ^ 32 → RoomForTwo c.heap sz → ∀ n, ∃ s' added,
        allocFree sz n c.heap = some s' ∧ added.length ≤ 2 ∧ BlocksApart s' (bs ++ added) ∧
          PayloadsKept c.heap s' bs :=
  ⟨_, rfl, balanced_use_bounded (.bios fun _ => 0)
    (.tail .refl (.alloc _ 40 16 _ 0x100010 (by decide) (by decide)
      (by simp [AddressesFit, blHeapInitBios, unset, roundUp]) rfl))⟩

/-! ## Without room -/

/-- One block of 64 bytes is in use. -/
def oneBlock : BlHeap := (allocFirstBlock (blHeapInitBios (unset fun _ => 0)) 0x40 1).1

/-- The second block that is added comes to lie at 0x100020, in the payload of the block in
use. -/
theorem balanced_use_overwrites :
    ¬ ∀ (s : BlHeap) (c : Client), Started s → ReflTransGen Step ⟨s, []⟩ c →
      ∀ bs, BlocksApart c.heap bs → ∀ sz, sz < 2 ^ 32 → ∀ n, ∃ s' added,
        allocFree sz n c.heap = some s' ∧ added.length ≤ 2 ∧ BlocksApart s' (bs ++ added) ∧
          PayloadsKept c.heap s' bs := by
  intro h
  have hstart : Started (blHeapInitBios (unset fun _ => 0)) := .bios _
  have hrun : ReflTransGen Step ⟨blHeapInitBios (unset fun _ => 0), []⟩
      ⟨oneBlock, [(0x100010, 0x40)]⟩ :=
    .tail .refl (.alloc _ 0x40 1 _ 0x100010 (by decide) (by decide)
      (by simp [AddressesFit, blHeapInitBios, unset, roundUp]) rfl)
  have hinv : HeapInv oneBlock _ := (allocFirstBlock_spec (k := 0) hstart.inv (by decide)
    (by decide) (by decide) (by decide)).2.inv
  obtain ⟨s', added, hret, -, -, hkept⟩ := h _ _ hstart hrun _ hinv.blocksApart 0xffffffc0
    (by decide) 2
  have hbyte : (allocFree 0xffffffc0 2 oneBlock).map (fun s => s.mem 0x100024) = some 0x46 := by
    decide +kernel
  rw [hret, Option.map_some, Option.some.injEq,
    hkept _ (List.mem_singleton_self _) rfl _ ⟨by decide, by decide⟩] at hbyte
  exact absurd hbyte (by decide)

end BootLoader.Heap

import BootLoader.Heap.Proofs

/-!
# What the heap owns

A caller that asks for a block, uses it and releases it again leaves the memory of everyone else
as it was. Everyone else has what lies below the base or in a payload in use.
-/

open ByteMemory RoundUp

namespace BootLoader.Heap

/-- At or above the base, and in no payload in use: heads, free payloads, and what is not handed
out yet. -/
def OwnedByHeap (s : BlHeap) (bs : List Block) (x : Nat) : Prop :=
  s.heap ≤ x ∧ ∀ b ∈ bs, b.used = true → ¬ b.InPayload x

/-- The request is served inside the address space, if it is served. -/
def RoomFor (s : BlHeap) (sz align : Nat) : Prop :=
  AddressesFit s sz align ∧
    ∀ s' p, blHeapAllocAlign s sz align = some (s', p) → p + sz ≤ 2 ^ 32

variable {b : Block} {bs bs' : List Block} {s s' : BlHeap} {sz x : Nat}

theorem HeapInv.heap_le_head (h : HeapInv s bs) (hb : b ∈ bs) : s.heap ≤ b.head := by
  cases bs with
  | nil => cases hb
  | cons c rest =>
    rw [h.start (List.cons_ne_nil c rest), firstHead]
    rcases List.mem_cons.mp hb with rfl | hb
    · rfl
    · have hbefore := (List.pairwise_cons.mp h.ordered).1 b hb
      simp only [Before, Block.stop] at hbefore
      omega

theorem Allocated.outside (h : Allocated s s' bs bs' b sz) (hx : ¬ OwnedByHeap s bs x) :
    (∀ c ∈ bs', ¬ c.InHead x) ∧ ¬ b.InPayload x := by
  by_cases hlow : x < s.heap
  · have hbelow : ∀ c ∈ bs', x < c.head := fun c hc =>
      lt_of_lt_of_le hlow (h.base.trans (h.inv.heap_le_head hc))
    refine ⟨fun c hc hin => ?_, fun hin => ?_⟩
    · exact absurd hin.1 (not_le.mpr (hbelow c hc))
    · have := hbelow b h.granted.mem_used.1
      simp only [Block.InPayload, Block.payload] at hin
      omega
  · obtain ⟨d, hd, hused, hin⟩ : ∃ d ∈ bs, d.used = true ∧ d.InPayload x := by
      by_contra hnone
      exact hx ⟨by omega, fun d hd hused hin => hnone ⟨d, hd, hused, hin⟩⟩
    obtain ⟨hd', hne⟩ := h.granted.used_kept h.inv.ordered hd hused
    obtain ⟨hb, hbused⟩ := h.granted.mem_used
    refine ⟨fun c hc => payload_not_head h.inv.ordered hd' hc hin, fun hbin => ?_⟩
    exact h.inv.blocksApart.payloads d hd' b hb hused hbused (fun heq => hne (by rw [heq])) x
      ⟨hin, hbin⟩

theorem Allocated.frame_outside (h : Allocated s s' bs bs' b sz) (hx : ¬ OwnedByHeap s bs x) :
    s'.mem x = s.mem x :=
  h.frame x (h.outside hx).1

theorem Granted.released (h : Granted bs bs' b) :
    ∃ pre post, bs' = pre ++ b :: post ∧
      (pre ++ { b with used := false } :: post).filter (·.used) = bs.filter (·.used) := by
  cases h with
  | first b hused => exact ⟨[], [], rfl, by simp⟩
  | reused pre post b hfree => exact ⟨pre, post, rfl, by simp [hfree]⟩
  | appended bs b hne hused => exact ⟨bs, [], rfl, by simp⟩

theorem blHeapFree_outside (h : HeapInv s bs) (hb : b ∈ bs) (hx : ¬ b.InHead x) :
    (blHeapFree s b.payload).mem x = s.mem x := by
  rw [blHeapFree_eq h hb]
  split
  · simp only [Block.InHead, Block.payload] at hx
    exact setHeadMagic_outside _ _ (by omega)
  · rfl

/-- A block that was handed out and is released again, no head having been written meanwhile. -/
theorem Allocated.release {m : Mem} (h : Allocated s s' bs bs' b sz)
    (hm : ∀ c ∈ bs', ∀ x, c.InHead x → m x = s'.mem x) :
    (∃ bs₂, HeapInv (blHeapFree { s' with mem := m } b.payload) bs₂ ∧
        bs₂.filter (·.used) = bs.filter (·.used)) ∧
      ∀ x, ¬ OwnedByHeap s bs x → (blHeapFree { s' with mem := m } b.payload).mem x = m x := by
  have hinv := h.inv.frame hm
  have hb := h.granted.mem_used.1
  refine ⟨?_, fun x hx => blHeapFree_outside hinv hb ((h.outside hx).1 b hb)⟩
  obtain ⟨pre, post, rfl, hfilter⟩ := h.granted.released
  exact ⟨_, hinv.free, hfilter⟩

/-! ## Asking for less -/

theorem firstFit_eq_none_of_le {sz' k : Nat} (hle : sz' ≤ sz) (h : firstFit bs sz' k = none) :
    firstFit bs sz k = none := by
  simp only [firstFit, List.find?_eq_none, decide_eq_true_eq] at h ⊢
  intro b hb hfits
  exact h b hb ⟨hfits.1, hfits.2.1, hle.trans hfits.2.2⟩

theorem HeapInv.stop_lt_of_firstFit {k : Nat} (h : HeapInv s bs)
    (hfirst : firstFit bs sz k = some b) : b.stop < 2 ^ 32 := by
  have hmem := List.mem_of_find?_eq_some hfirst
  have hne : bs ≠ [] := by
    rintro rfl
    cases hmem
  obtain ⟨pre, c, rfl⟩ : ∃ pre c, bs = pre ++ [c] := ⟨_, _, (List.dropLast_concat_getLast hne).symm⟩
  rw [List.dropLast_concat] at hmem
  have hbefore := (List.pairwise_append.mp h.ordered).2.2 b hmem c (List.mem_singleton_self c)
  have hc := (h.blockOk c (by simp)).inSpace
  simp only [Before, Block.payload] at hbefore hc
  omega

theorem HeapInv.scan_fits {n : Nat} {b : Block} (h : HeapInv s bs) (hne : bs ≠ [])
    (hfirst : firstFit bs n 1 = some b) :
    scanBlocks s.mem n 1 scanFuel s.heap = some (.fits b.head) := by
  have hscan : scanBlocks s.mem n (2 ^ 0) scanFuel s.heap = _ := h.scan hne
  rw [pow_zero, hfirst] at hscan
  exact hscan

theorem HeapInv.scan_last {n : Nat} (h : HeapInv s bs) (hne : bs ≠ [])
    (hfirst : firstFit bs n 1 = none) :
    scanBlocks s.mem n 1 scanFuel s.heap = some (.last (bs.getLast hne).head) := by
  have hscan : scanBlocks s.mem n (2 ^ 0) scanFuel s.heap = _ := h.scan hne
  rw [pow_zero, hfirst] at hscan
  exact hscan

theorem RoomFor.of_le {sz' : Nat} (h : HeapInv s bs) (hroom : RoomFor s sz 1) (hle : sz' ≤ sz)
    (hsz : sz < 2 ^ 32) : RoomFor s sz' 1 := by
  obtain ⟨hfit, hspace⟩ := hroom
  unfold AddressesFit at hfit
  unfold RoomFor AddressesFit
  simp only [blHeapAllocAlign, show max 1 1 = 1 by rfl, show (if 1 = 0 then 1 else 1) = 1 by rfl,
    show ¬ 1 &&& (1 - 1) ≠ 0 by decide, if_false] at hfit hspace ⊢
  by_cases hempty : s.occupiedBlocks = 0 ∧ s.freeBlocks = 0
  · simp only [if_pos hempty] at hfit hspace ⊢
    refine ⟨hfit, fun s' p hret => ?_⟩
    split at hret
    · obtain ⟨-, rfl⟩ := Prod.mk.inj (Option.some.inj hret)
      omega
    · rename_i hheap
      have := hspace (allocFirstBlock s sz 1).1 (allocFirstBlock s sz 1).2 (by rw [if_neg hheap])
      obtain ⟨-, rfl⟩ := Prod.mk.inj (Option.some.inj hret)
      simp only [allocFirstBlock] at this ⊢
      omega
  · have hne : bs ≠ [] := fun hbs => hempty (h.empty_iff.mp hbs)
    simp only [if_neg hempty, blHeapAllocAlignFrom] at hfit hspace ⊢
    cases hfirst : firstFit bs sz' 1 with
    | some b =>
      rw [h.scan_fits hne hfirst]
      refine ⟨by simp, fun s' p hret => ?_⟩
      split at hret
      · obtain ⟨-, rfl⟩ := Prod.mk.inj (Option.some.inj hret)
        omega
      · obtain ⟨-, rfl⟩ := Prod.mk.inj (Option.some.inj hret)
        have hstop := h.stop_lt_of_firstFit hfirst
        have hmem := List.dropLast_subset bs (List.mem_of_find?_eq_some hfirst)
        have hfits : b.Fits sz' 1 := by simpa using List.find?_some hfirst
        rw [headPayload_eq (h.blockOk b hmem)]
        have := hfits.2.2
        simp only [Block.stop, Block.payload] at *
        omega
    | none =>
      rw [h.scan_last hne (firstFit_eq_none_of_le hle hfirst)] at hfit
      simp only [h.scan_last hne (firstFit_eq_none_of_le hle hfirst)] at hspace
      rw [h.scan_last hne hfirst]
      refine ⟨hfit, fun s' p hret => ?_⟩
      split at hret
      · obtain ⟨-, rfl⟩ := Prod.mk.inj (Option.some.inj hret)
        omega
      · rename_i hheap
        have := hspace _ _ (if_neg hheap)
        obtain ⟨-, rfl⟩ := Prod.mk.inj (Option.some.inj hret)
        omega

end BootLoader.Heap

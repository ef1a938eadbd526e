import BootLoader.Heap.Spec

/-!
# The heap keeps its blocks apart

One spec lemma for each function of `Code.lean`, over the list of blocks that the chain in
memory stands for.
-/

open ByteMemory RoundUp

namespace BootLoader.Heap

/-! ## Rounding up -/

theorem blMemoryAlignUp_eq (addr : Nat) {k : Nat} (hk : k < 32) :
    blMemoryAlignUp addr (2 ^ k) = (addr + (2 ^ k - 1)) % 2 ^ 32 / 2 ^ k * 2 ^ k := by
  rw [blMemoryAlignUp, toNat_alignUp _ hk, BitVec.toNat_ofNat, Nat.mod_add_mod]

theorem blMemoryAlignUp_wrap (addr align : Nat) :
    blMemoryAlignUp (addr % 2 ^ 32) align = blMemoryAlignUp addr align := by
  have hwrap : BitVec.ofNat 32 (addr % 2 ^ 32) = BitVec.ofNat 32 addr :=
    BitVec.eq_of_toNat_eq (by simp)
  rw [blMemoryAlignUp, blMemoryAlignUp, hwrap]

/-- It is rounding up, wrapped. -/
theorem blMemoryAlignUp_mod (addr : Nat) {k : Nat} (hk : k < 32) :
    blMemoryAlignUp addr (2 ^ k) = roundUp addr (2 ^ k) % 2 ^ 32 := by
  rw [blMemoryAlignUp_eq addr hk, wrapped_roundUp addr hk]

/-- A result below `2 ^ 32` is reached without wrapping on the way. -/
theorem blMemoryAlignUp_eq_roundUp {addr k : Nat} (hk : k < 32)
    (h : roundUp addr (2 ^ k) < 2 ^ 32) :
    blMemoryAlignUp addr (2 ^ k) = roundUp addr (2 ^ k) := by
  rw [blMemoryAlignUp_mod addr hk, Nat.mod_eq_of_lt h]

/-- A 32-bit number that passes the power-of-two test. -/
theorem two_pow_of_and_eq_zero {align : Nat} (hlt : align < 2 ^ 32) (hne : align ≠ 0)
    (h : align &&& (align - 1) = 0) : ∃ k < 32, align = 2 ^ k := by
  obtain ⟨k, rfl⟩ := (Nat.and_sub_one_eq_zero_iff_isPowerOfTwo hne).mp h
  exact ⟨k, (Nat.pow_lt_pow_iff_right (by omega)).mp hlt, rfl⟩

theorem roundUp_stays {addr k : Nat} (hk : k < 32) (h : roundUp addr (2 ^ k) < 2 ^ 32) :
    (if addr &&& (2 ^ k - 1) ≠ 0 then blMemoryAlignUp addr (2 ^ k) else addr) =
      roundUp addr (2 ^ k) := by
  split_ifs with hmis
  · exact blMemoryAlignUp_eq_roundUp hk h
  · rw [roundUp_of_dvd (Nat.two_pow_pos k) (and_low_bits_eq_zero.mp (not_not.mp hmis))]

/-! ## Heads in memory -/

variable {m m' : Mem} {b c d : Block} {bs bs' pre post : List Block} {s s' : BlHeap}

theorem HeadAt.frame {next : Nat} (h : HeadAt m b next) (hm : ∀ x, b.InHead x → m' x = m x) :
    HeadAt m' b next where
  next_eq := (readLE_congr fun x hx hlt => hm x ⟨hx, by simp only [Block.payload]; omega⟩).trans
    h.next_eq
  magic_eq :=
    (readLE_congr fun x hx hlt => hm x ⟨by omega, by simp only [Block.payload]; omega⟩).trans
      h.magic_eq
  size_eq :=
    (readLE_congr fun x hx hlt => hm x ⟨by omega, by simp only [Block.payload]; omega⟩).trans
      h.size_eq

theorem Linked.frame (h : Linked m bs) (hm : ∀ b ∈ bs, ∀ x, b.InHead x → m' x = m x) :
    Linked m' bs := by
  induction bs with
  | nil => trivial
  | cons b rest ih =>
    exact ⟨h.1.frame (hm b List.mem_cons_self), ih h.2 fun c hc => hm c (List.mem_cons_of_mem _ hc)⟩

theorem setHeadMagic_outside (m : Mem) (v : Nat) {q x : Nat} (h : x < q + 4 ∨ q + 8 ≤ x) :
    setHeadMagic m q v x = m x :=
  writeLE_outside m v (by omega)

theorem magic_lt (b : Block) : b.magic < 2 ^ 32 := by
  unfold Block.magic; split <;> decide

theorem magic_eq_free_iff (b : Block) : b.magic = blHeapBlockHeadFreeMagic ↔ b.used = false := by
  cases h : b.used <;> simp [Block.magic, h, blHeapBlockHeadUsedMagic, blHeapBlockHeadFreeMagic]

theorem magic_eq_used_iff (b : Block) : b.magic = blHeapBlockHeadUsedMagic ↔ b.used = true := by
  cases h : b.used <;> simp [Block.magic, h, blHeapBlockHeadUsedMagic, blHeapBlockHeadFreeMagic]

theorem HeadAt.setMagic {next : Nat} (u : Bool) (h : HeadAt m b next) :
    HeadAt (setHeadMagic m b.head { b with used := u }.magic) { b with used := u } next where
  next_eq := (read32_write32_apart _ _ (by simp only; omega)).trans h.next_eq
  magic_eq := read32_write32_same _ _ (magic_lt _)
  size_eq := (read32_write32_apart _ _ (by simp only; omega)).trans h.size_eq

theorem firstHead_append_cons (pre post post' : List Block) (h : b.head = c.head) :
    firstHead (pre ++ b :: post) = firstHead (pre ++ c :: post') := by
  cases pre with
  | nil => exact h
  | cons d pre => rfl

theorem Linked.setMagic (u : Bool) (h : Linked m (pre ++ b :: post))
    (hord : (pre ++ b :: post).Pairwise Before) :
    Linked (setHeadMagic m b.head { b with used := u }.magic)
      (pre ++ { b with used := u } :: post) := by
  induction pre with
  | nil =>
    refine ⟨h.1.setMagic u, h.2.frame fun c hc x hx => setHeadMagic_outside _ _ ?_⟩
    have hbc : b.stop ≤ c.head := (List.pairwise_cons.mp hord).1 c hc
    simp only [Block.InHead, Block.stop] at hx hbc
    omega
  | cons d pre ih =>
    obtain ⟨hd, hrest⟩ := List.pairwise_cons.mp hord
    have hdb : d.stop ≤ b.head := hd b (by simp)
    have hsame := firstHead_append_cons (b := b) (c := { b with used := u }) pre post post rfl
    have hhead : HeadAt m d (firstHead (pre ++ { b with used := u } :: post)) := hsame ▸ h.1
    refine ⟨hhead.frame fun x hx => setHeadMagic_outside _ _ ?_, ih h.2 hrest⟩
    simp only [Block.InHead, Block.stop, Block.payload] at hx hdb
    omega

/-! ## Appending -/

theorem appendBlock_outside (m : Mem) (sz : Nat) {q p x : Nat} (hq : x < q ∨ q + 4 ≤ x)
    (hp : x < p ∨ p + 12 ≤ x) : appendBlock m q p sz x = m x := by
  simp only [appendBlock, setHeadNext, setHeadSize, setHeadMagic, write32]
  rw [writeLE_outside _ _ hq, writeLE_outside _ _ (by omega), writeLE_outside _ _ (by omega),
    writeLE_outside _ _ (by omega)]

theorem HeadAt.appendNew (m : Mem) {q p sz : Nat} (hqp : q + 16 ≤ p) (hsz : sz < 2 ^ 32) :
    HeadAt (appendBlock m q p sz) ⟨p, sz, true⟩ 0 where
  next_eq := by
    simp only [headNext, appendBlock, setHeadNext]
    rw [read32_write32_apart _ _ (by omega), read32_write32_same _ _ (by omega)]
  magic_eq := by
    simp only [headMagic, appendBlock, setHeadNext, setHeadSize, setHeadMagic]
    rw [read32_write32_apart _ _ (by omega), read32_write32_apart _ _ (by omega),
      read32_write32_apart _ _ (by omega), read32_write32_same _ _ (by decide)]
    rfl
  size_eq := by
    simp only [Heap.headSize, appendBlock, setHeadNext, setHeadSize]
    rw [read32_write32_apart _ _ (by omega), read32_write32_apart _ _ (by omega),
      read32_write32_same _ _ hsz]

theorem HeadAt.appendLast {next p sz : Nat} (h : HeadAt m b next) (hp : b.payload ≤ p)
    (hlt : p < 2 ^ 32) : HeadAt (appendBlock m b.head p sz) b p where
  next_eq := read32_write32_same _ _ hlt
  magic_eq := by
    rw [Block.payload] at hp
    refine (readLE_congr fun x hx hx' => appendBlock_outside m sz ?_ ?_).trans h.magic_eq <;> omega
  size_eq := by
    rw [Block.payload] at hp
    refine (readLE_congr fun x hx hx' => appendBlock_outside m sz ?_ ?_).trans h.size_eq <;> omega

theorem Linked.append {p sz : Nat} (h : Linked m (pre ++ [b]))
    (hord : (pre ++ [b]).Pairwise Before) (hp : b.payload ≤ p) (hlt : p < 2 ^ 32)
    (hsz : sz < 2 ^ 32) : Linked (appendBlock m b.head p sz) (pre ++ [b, ⟨p, sz, true⟩]) := by
  induction pre with
  | nil => exact ⟨h.1.appendLast hp hlt, HeadAt.appendNew m hp hsz, trivial⟩
  | cons d pre ih =>
    obtain ⟨hd, hrest⟩ := List.pairwise_cons.mp hord
    have hdb : d.stop ≤ b.head := hd b (by simp)
    have hsame := firstHead_append_cons (b := b) (c := b) pre [] [⟨p, sz, true⟩] rfl
    have hhead : HeadAt m d (firstHead (pre ++ [b, ⟨p, sz, true⟩])) := hsame ▸ h.1
    refine ⟨hhead.frame fun x hx => appendBlock_outside _ _ ?_ ?_, ih h.2 hrest⟩ <;>
    · simp only [Block.InHead, Block.stop, Block.payload] at hx hdb hp
      omega

/-! ## The walk -/

theorem headPayload_eq (hb : BlockOk b) : headPayload b.head = b.payload := by
  have := hb.inSpace
  rw [Block.payload] at this
  rw [headPayload, blHeapBlockHeadSize, Nat.mod_eq_of_lt this, Block.payload]

theorem payloadHead_eq (hb : BlockOk b) : payloadHead b.payload = b.head := by
  have := hb.inSpace
  rw [Block.payload] at *
  simp only [payloadHead, blHeapBlockHeadSize]
  omega

theorem firstFit_cons_cons (b c : Block) (rest : List Block) (sz align : Nat) :
    firstFit (b :: c :: rest) sz align =
      if b.Fits sz align then some b else firstFit (c :: rest) sz align := by
  rw [firstFit, List.dropLast_cons_cons, List.find?_cons, firstFit]
  by_cases h : b.Fits sz align <;> simp [h]

/-- The loop takes the first fitting block but the last, or stops at the last. -/
theorem scanBlocks_eq {sz k fuel : Nat} (hne : bs ≠ []) (h : Linked m bs)
    (hok : ∀ b ∈ bs, BlockOk b) (hfuel : bs.length ≤ fuel) :
    scanBlocks m sz (2 ^ k) fuel (firstHead bs) =
      some (match firstFit bs sz (2 ^ k) with
        | some b => .fits b.head
        | none => .last (bs.getLast hne).head) := by
  induction bs generalizing fuel with
  | nil => exact absurd rfl hne
  | cons b rest ih =>
    obtain ⟨fuel, rfl⟩ : ∃ f, fuel = f + 1 := ⟨fuel - 1, by simp at hfuel; omega⟩
    obtain ⟨hhead, hrest⟩ := h
    have hb := hok b List.mem_cons_self
    cases rest with
    | nil =>
      have hzero : headNext m b.head = 0 := hhead.next_eq
      simp [scanBlocks, firstHead, hzero, firstFit]
    | cons c rest =>
      have hnext : headNext m b.head = c.head := hhead.next_eq
      have hpos : c.head ≠ 0 := by
        have := (hok c (by simp)).positive
        omega
      have hlen : (c :: rest).length ≤ fuel := by simp at hfuel ⊢; omega
      have hstep := ih (List.cons_ne_nil c rest) hrest
        (fun d hd => hok d (List.mem_cons_of_mem _ hd)) hlen
      rw [firstHead] at hstep
      rw [firstFit_cons_cons, List.getLast_cons (List.cons_ne_nil c rest), firstHead]
      simp only [scanBlocks, hnext, hpos, hhead.magic_eq, hhead.size_eq, headPayload_eq hb,
        magic_eq_free_iff, magic_eq_used_iff, and_low_bits_eq_zero, if_false, ne_eq, Block.Fits]
      by_cases hused : b.used = true
      · simpa [hused] using hstep
      · by_cases hfit : 2 ^ k ∣ b.payload ∧ sz ≤ b.size
        · simp [hused, hfit]
        · simpa [hused, hfit] using hstep

theorem length_le_of_ordered (hne : bs ≠ []) (hok : ∀ b ∈ bs, BlockOk b)
    (hord : bs.Pairwise Before) : firstHead bs + 16 * bs.length ≤ 2 ^ 32 := by
  induction bs with
  | nil => exact absurd rfl hne
  | cons b rest ih =>
    have hb := (hok b List.mem_cons_self).inSpace
    rw [Block.payload] at hb
    cases rest with
    | nil => simp only [firstHead, List.length_singleton]; omega
    | cons c rest =>
      obtain ⟨hfirst, hrest⟩ := List.pairwise_cons.mp hord
      have hbc : b.stop ≤ c.head := hfirst c List.mem_cons_self
      have hlen :=
        ih (List.cons_ne_nil c rest) (fun d hd => hok d (List.mem_cons_of_mem _ hd)) hrest
      simp only [firstHead, List.length_cons, Block.stop] at *
      omega

theorem HeapInv.scan {sz k : Nat} (h : HeapInv s bs) (hne : bs ≠ []) :
    scanBlocks s.mem sz (2 ^ k) scanFuel s.heap =
      some (match firstFit bs sz (2 ^ k) with
        | some b => .fits b.head
        | none => .last (bs.getLast hne).head) := by
  rw [h.start hne]
  refine scanBlocks_eq hne h.linked h.blockOk ?_
  have := length_le_of_ordered hne h.blockOk h.ordered
  simp only [scanFuel]
  omega

/-! ## Allocation -/

theorem le_nextPayload (stop k : Nat) : stop + 16 ≤ nextPayload stop (2 ^ k) :=
  (le_roundUp (by omega)).trans (le_roundUp (Nat.two_pow_pos k))

theorem sixteen_dvd_nextPayload (stop k : Nat) : 16 ∣ nextPayload stop (2 ^ k) :=
  two_pow_dvd_roundUp (j := 4) k (dvd_roundUp _ 16)

theorem appendAddress_eq {k : Nat} (hhead : HeadAt m b 0) (hb : BlockOk b) (hk : k < 32)
    (hfit : nextPayload b.stop (2 ^ k) < 2 ^ 32) :
    appendAddress m b.head (2 ^ k) = nextPayload b.stop (2 ^ k) := by
  have hround : roundUp (b.stop + 16) 16 < 2 ^ 32 :=
    lt_of_le_of_lt (le_roundUp (Nat.two_pow_pos k)) hfit
  have hfirst : blMemoryAlignUp (b.payload + b.size + 16) 16 = roundUp (b.stop + 16) 16 :=
    blMemoryAlignUp_eq_roundUp (k := 4) (by omega) hround
  rw [appendAddress, headPayload_eq hb, hhead.size_eq, blHeapBlockHeadSize, blHeapMemAlign, hfirst]
  exact roundUp_stays hk hfit

/-- How an allocation that succeeds turns the blocks `bs` into `bs'` and hands out `b`. -/
inductive Granted : List Block → List Block → Block → Prop
  | first (b : Block) (hused : b.used = true) : Granted [] [b] b
  | reused (pre post : List Block) (b : Block) (hfree : b.used = false) :
      Granted (pre ++ b :: post) (pre ++ { b with used := true } :: post) { b with used := true }
  | appended (bs : List Block) (b : Block) (hne : bs ≠ []) (hused : b.used = true) :
      Granted bs (bs ++ [b]) b

theorem HeapInv.setMagic {u : Bool} {f : Nat} (h : HeapInv s (pre ++ b :: post))
    (hf : s.freeBlocks ≤ f) :
    HeapInv { s with
        mem := setHeadMagic s.mem b.head { b with used := u }.magic, freeBlocks := f }
      (pre ++ { b with used := u } :: post) where
  linked := h.linked.setMagic u h.ordered
  start _ := (h.start (by simp)).trans (firstHead_append_cons pre post post rfl)
  blockOk c hc := by
    simp only [List.mem_append, List.mem_cons] at hc
    rcases hc with hc | rfl | hc
    · exact h.blockOk c (by simp [hc])
    · obtain ⟨h1, h2, h3, h4⟩ := h.blockOk b (by simp)
      exact ⟨h1, h2, h3, h4⟩
    · exact h.blockOk c (by simp [hc])
  ordered := by
    have hord := h.ordered
    simp only [List.pairwise_append, List.pairwise_cons, List.mem_cons, forall_eq_or_imp] at hord ⊢
    exact hord
  baseAligned := h.baseAligned
  baseInSpace := h.baseInSpace
  empty_iff := by
    have hsome := h.empty_iff
    simp only [List.append_eq_nil_iff, reduceCtorEq, and_false, false_iff] at hsome ⊢
    omega

/-- What `bl_heap_alloc_align` gives: null and nothing changed, or a block. -/
structure Allocated (s s' : BlHeap) (bs bs' : List Block) (b : Block) (sz : Nat) : Prop where
  inv : HeapInv s' bs'
  granted : Granted bs bs' b
  room : sz ≤ b.size
  base : s.heap ≤ s'.heap
  /-- Only heads are written. -/
  frame : ∀ x, (∀ c ∈ bs', ¬ c.InHead x) → s'.mem x = s.mem x

theorem allocFirstBlock_spec {sz k : Nat} (h : HeapInv s []) (hk : k < 32) (hsz : sz < 2 ^ 32)
    (hbase : s.heap ≠ 0) (hfit : roundUp s.heap (2 ^ k) + 16 < 2 ^ 32) :
    (allocFirstBlock s sz (2 ^ k)).2 = roundUp s.heap (2 ^ k) + 16 ∧
      Allocated s (allocFirstBlock s sz (2 ^ k)).1 [] [⟨roundUp s.heap (2 ^ k), sz, true⟩]
        ⟨roundUp s.heap (2 ^ k), sz, true⟩ sz := by
  have hle := le_roundUp (x := s.heap) (Nat.two_pow_pos k)
  have hne : roundUp s.heap (2 ^ k) ≠ 0 := by omega
  have h16 : 16 ∣ roundUp s.heap (2 ^ k) := two_pow_dvd_roundUp (j := 4) k h.baseAligned
  constructor <;>
    simp only [allocFirstBlock, roundUp_stays hk (show roundUp s.heap (2 ^ k) < 2 ^ 32 by omega)]
  · rw [headPayload, blHeapBlockHeadSize, Nat.mod_eq_of_lt hfit]
  · rw [if_neg hne]
    generalize roundUp s.heap (2 ^ k) = base at *
    refine ⟨⟨⟨⟨?_, ?_, ?_⟩, trivial⟩, fun _ => rfl, ?_, List.pairwise_singleton _ _, h16,
      by simp only; omega,
      by simp⟩, .first _ rfl, le_rfl, hle, ?_⟩
    · simp only [headNext, firstHead, setHeadNext, setHeadMagic, setHeadSize]
      rw [read32_write32_apart _ _ (by omega), read32_write32_apart _ _ (by omega),
        read32_write32_same _ _ (by omega)]
    · simp only [headMagic, setHeadNext, setHeadMagic, setHeadSize]
      rw [read32_write32_apart _ _ (by omega), read32_write32_same _ _ (by decide)]
      rfl
    · exact read32_write32_same _ _ hsz
    · intro b hb
      rw [List.mem_singleton.mp hb]
      exact ⟨h16, by simp only; omega, hfit, hsz⟩
    · intro x hx
      have hout := hx _ (List.mem_singleton_self _)
      simp only [Block.InHead, Block.payload] at hout
      simp only [setHeadNext, setHeadMagic, setHeadSize, write32]
      rw [writeLE_outside _ _ (by omega), writeLE_outside _ _ (by omega),
        writeLE_outside _ _ (by omega)]

theorem HeapInv.append {k sz : Nat} (h : HeapInv s (pre ++ [b])) (hsz : sz < 2 ^ 32)
    (hfit : nextPayload b.stop (2 ^ k) < 2 ^ 32) :
    HeapInv { s with mem := appendBlock s.mem b.head (nextPayload b.stop (2 ^ k) - 16) sz }
      (pre ++ [b, ⟨nextPayload b.stop (2 ^ k) - 16, sz, true⟩]) where
  linked := by
    have hle := le_nextPayload b.stop k
    exact h.linked.append h.ordered (by simp only [Block.stop, Block.payload] at *; omega)
      (by omega) hsz
  start _ := (h.start (by simp)).trans (firstHead_append_cons pre [] _ rfl)
  blockOk c hc := by
    have hle := le_nextPayload b.stop k
    have h16 := sixteen_dvd_nextPayload b.stop k
    have hb := (h.blockOk b (by simp)).positive
    simp only [List.mem_append, List.mem_cons, List.not_mem_nil, or_false] at hc
    rcases hc with hc | rfl | rfl
    · exact h.blockOk c (by simp [hc])
    · exact h.blockOk c (by simp)
    · refine ⟨?_, ?_, ?_, hsz⟩ <;> simp only [Block.stop, Block.payload] at * <;> omega
  ordered := by
    have hle := le_nextPayload b.stop k
    rw [show pre ++ [b, ⟨nextPayload b.stop (2 ^ k) - 16, sz, true⟩] =
      (pre ++ [b]) ++ [⟨nextPayload b.stop (2 ^ k) - 16, sz, true⟩] by simp, List.pairwise_append]
    refine ⟨h.ordered, List.pairwise_singleton _ _, ?_⟩
    intro c hc d hd
    obtain rfl := List.mem_singleton.mp hd
    have hcb : c.stop ≤ b.stop := by
      rcases List.mem_append.mp hc with hc | hc
      · have hbefore : c.stop ≤ b.head :=
          (List.pairwise_append.mp h.ordered).2.2 c hc b (List.mem_singleton_self b)
        simp only [Block.stop] at *
        omega
      · rw [List.mem_singleton.mp hc]
    simp only [Before]
    omega
  baseAligned := h.baseAligned
  baseInSpace := h.baseInSpace
  empty_iff := by
    have hsome := h.empty_iff
    simp only [List.append_eq_nil_iff, reduceCtorEq, and_false, false_iff] at hsome ⊢
    exact hsome

/-- A free block that fits is handed out as it lies. -/
theorem blHeapAllocAlignFrom_reuse {sz k : Nat} (h : HeapInv s bs)
    (hfirst : firstFit bs sz (2 ^ k) = some b) :
    ∃ s' pre post, bs = pre ++ b :: post ∧ b.used = false ∧
      blHeapAllocAlignFrom s.heap s sz (2 ^ k) = some (s', b.payload) ∧
      Allocated s s' bs (pre ++ { b with used := true } :: post) { b with used := true } sz := by
  have hmem := List.mem_of_find?_eq_some hfirst
  have hfits : b.Fits sz (2 ^ k) := by simpa using List.find?_some hfirst
  have hne : bs ≠ [] := List.ne_nil_of_mem (List.dropLast_subset bs hmem)
  rw [blHeapAllocAlignFrom, h.scan hne, hfirst]
  obtain ⟨pre, post, rfl⟩ := List.append_of_mem (List.dropLast_subset bs hmem)
  have hb := h.blockOk b (by simp)
  refine ⟨_, pre, post, rfl, hfits.1, ?_,
    ⟨h.setMagic (u := true) le_rfl, .reused pre post b hfits.1, hfits.2.2, le_rfl, ?_⟩⟩
  · simp only [headPayload_eq hb]
    rfl
  · intro x hx
    have hout := hx { b with used := true } (by simp)
    simp only [Block.InHead, Block.payload] at hout
    exact setHeadMagic_outside _ _ (by omega)

theorem Linked.last (h : Linked m (pre ++ [b])) : HeadAt m b 0 := by
  induction pre with
  | nil => exact h.1
  | cons c pre ih => exact ih h.2

/-- Nothing fits: the block goes behind the last one. -/
theorem blHeapAllocAlignFrom_append {sz k : Nat} (h : HeapInv s (pre ++ [b])) (hk : k < 32)
    (hsz : sz < 2 ^ 32) (hfirst : firstFit (pre ++ [b]) sz (2 ^ k) = none)
    (hfit : nextPayload b.stop (2 ^ k) < 2 ^ 32) :
    ∃ s', blHeapAllocAlignFrom s.heap s sz (2 ^ k) = some (s', nextPayload b.stop (2 ^ k)) ∧
      Allocated s s' (pre ++ [b]) ((pre ++ [b]) ++ [⟨nextPayload b.stop (2 ^ k) - 16, sz, true⟩])
        ⟨nextPayload b.stop (2 ^ k) - 16, sz, true⟩ sz := by
  have hb := h.blockOk b (by simp)
  have hle := le_nextPayload b.stop k
  have haddr := appendAddress_eq h.linked.last hb hk hfit
  have hpay : payloadHead (nextPayload b.stop (2 ^ k)) = nextPayload b.stop (2 ^ k) - 16 := by
    simp only [payloadHead, blHeapBlockHeadSize, Block.stop] at *
    omega
  simp only [blHeapAllocAlignFrom, h.scan (List.concat_ne_nil b pre), hfirst,
    List.getLast_concat, haddr, hpay]
  refine ⟨{ s with mem := appendBlock s.mem b.head (nextPayload b.stop (2 ^ k) - 16) sz }, rfl,
    ?_, .appended _ _ (by simp) rfl, le_rfl, le_rfl, ?_⟩
  · rw [List.append_assoc]
    exact h.append hsz hfit
  · intro x hx
    have hout := hx _ (List.mem_append_right _ (List.mem_singleton_self _))
    have houtLast := hx b (by simp)
    simp only [Block.InHead, Block.payload] at hout houtLast
    exact appendBlock_outside _ _ (by omega) (by omega)

theorem blHeapAllocAlignFrom_spec {sz k : Nat} (h : HeapInv s bs) (hne : bs ≠ []) (hk : k < 32)
    (hsz : sz < 2 ^ 32)
    (hfit : ∀ q, scanBlocks s.mem sz (2 ^ k) scanFuel s.heap = some (.last q) →
      nextPayload (q + 16 + headSize s.mem q) (2 ^ k) < 2 ^ 32) :
    ∃ s' bs' b, blHeapAllocAlignFrom s.heap s sz (2 ^ k) = some (s', b.payload) ∧
      Allocated s s' bs bs' b sz := by
  cases hfirst : firstFit bs sz (2 ^ k) with
  | some b =>
    obtain ⟨s', pre, post, -, -, hret, hall⟩ := blHeapAllocAlignFrom_reuse h hfirst
    exact ⟨s', _, { b with used := true }, hret, hall⟩
  | none =>
    obtain ⟨pre, b, rfl⟩ : ∃ pre b, bs = pre ++ [b] :=
      ⟨_, _, (List.dropLast_concat_getLast hne).symm⟩
    simp only [h.scan hne, hfirst, List.getLast_concat, Option.some.injEq, Scan.last.injEq,
      forall_eq', h.linked.last.size_eq] at hfit
    obtain ⟨s', hret, hall⟩ := blHeapAllocAlignFrom_append h hk hsz hfirst hfit
    refine ⟨s', _, _, ?_, hall⟩
    have hle := le_nextPayload b.stop k
    rw [hret, Block.payload, Nat.sub_add_cancel (by omega)]

/-- The whole of `bl_heap_alloc_align`: it returns, with null or with a block. -/
theorem blHeapAllocAlign_spec {sz align : Nat} (h : HeapInv s bs) (hsz : sz < 2 ^ 32)
    (halign : align < 2 ^ 32) (hfit : AddressesFit s sz align) :
    blHeapAllocAlign s sz align = some (s, 0) ∨
      ∃ s' bs' b, blHeapAllocAlign s sz align = some (s', b.payload) ∧
        Allocated s s' bs bs' b sz := by
  have hone : (if align = 0 then 1 else align) = max align 1 := by split <;> omega
  simp only [blHeapAllocAlign, hone]
  by_cases hnull : s.heap = 0
  · exact .inl (if_pos hnull)
  by_cases hpow : max align 1 &&& (max align 1 - 1) = 0
  · right
    obtain ⟨k, hk, hkeq⟩ := two_pow_of_and_eq_zero (by omega) (by omega) hpow
    rw [AddressesFit, hkeq] at hfit
    rw [if_neg hnull, if_neg (not_not.mpr hpow), hkeq]
    by_cases hempty : s.occupiedBlocks = 0 ∧ s.freeBlocks = 0
    · obtain rfl := h.empty_iff.mpr hempty
      rw [if_pos hempty] at hfit ⊢
      obtain ⟨hpay, hall⟩ := allocFirstBlock_spec h hk hsz hnull hfit
      exact ⟨_, _, _, by rw [Block.payload, ← hpay], hall⟩
    · rw [if_neg hempty] at hfit ⊢
      exact blHeapAllocAlignFrom_spec h (fun hbs => hempty (h.empty_iff.mp hbs)) hk hsz hfit
  · left
    rw [if_neg hnull, if_pos hpow]

/-! ## Alignment

A reused block and an appended one are aligned as asked, whatever the memory holds. -/

variable {p q sz fuel k : Nat}

theorem dvd_blMemoryAlignUp (addr : Nat) (hk : k < 32) : 2 ^ k ∣ blMemoryAlignUp addr (2 ^ k) := by
  rw [blMemoryAlignUp_eq addr hk]
  exact Nat.dvd_mul_left _ _

/-- The address is moved up only when a low bit of it is set. -/
theorem dvd_moved_up (addr : Nat) (hk : k < 32) :
    2 ^ k ∣ if addr &&& (2 ^ k - 1) ≠ 0 then blMemoryAlignUp addr (2 ^ k) else addr := by
  split_ifs with h
  · exact dvd_blMemoryAlignUp addr hk
  · exact and_low_bits_eq_zero.mp (not_not.mp h)

theorem dvd_headPayload_iff (hk : k < 32) : 2 ^ k ∣ headPayload q ↔ 2 ^ k ∣ q + 16 := by
  rw [headPayload, blHeapBlockHeadSize]
  exact Nat.dvd_mod_iff (pow_dvd_pow 2 (by omega))

theorem scanBlocks_fits_dvd (h : scanBlocks m sz (2 ^ k) fuel p = some (.fits q)) :
    2 ^ k ∣ headPayload q := by
  induction fuel generalizing p with
  | zero => simp [scanBlocks] at h
  | succ fuel ih =>
    simp only [scanBlocks] at h
    split_ifs at h with _ _ hfit
    · simp at h
    · obtain rfl : p = q := by simpa using h
      exact and_low_bits_eq_zero.mp hfit.1
    · exact ih h
    · simp at h
    · exact ih h

theorem blHeapAllocAlignFrom_dvd {ptr : Nat} (hk : k < 32)
    (h : blHeapAllocAlignFrom ptr s sz (2 ^ k) = some (s', p)) : 2 ^ k ∣ p := by
  unfold blHeapAllocAlignFrom at h
  split at h
  · simp at h
  · rename_i q hscan
    obtain ⟨-, rfl⟩ := Prod.mk.inj (Option.some.inj h)
    exact scanBlocks_fits_dvd hscan
  · obtain ⟨-, rfl⟩ := Prod.mk.inj (Option.some.inj h)
    exact dvd_zero _
  · obtain ⟨-, rfl⟩ := Prod.mk.inj (Option.some.inj h)
    exact dvd_moved_up _ hk

/-- One request, the alignment being a power of two. -/
theorem blHeapAllocAlign_two_pow (s : BlHeap) (sz k : Nat) :
    blHeapAllocAlign s sz (2 ^ k) =
      if s.heap = 0 then some (s, 0)
      else if s.occupiedBlocks = 0 ∧ s.freeBlocks = 0 then some (allocFirstBlock s sz (2 ^ k))
      else blHeapAllocAlignFrom s.heap s sz (2 ^ k) := by
  have hpow : 2 ^ k &&& (2 ^ k - 1) = 0 := and_low_bits_eq_zero.mpr dvd_rfl
  simp only [blHeapAllocAlign, if_neg (Nat.two_pow_pos k).ne', hpow, ne_eq, not_true_eq_false,
    if_false]

/-- An alignment of 0 counts as 1. -/
theorem blHeapAllocAlign_max (s : BlHeap) (sz align : Nat) :
    blHeapAllocAlign s sz (max align 1) = blHeapAllocAlign s sz align := by
  rcases Nat.eq_zero_or_pos align with rfl | hpos
  · rfl
  · rw [max_eq_left hpos]

theorem blHeapAllocAlign_not_pow {align : Nat} (h : max align 1 &&& (max align 1 - 1) ≠ 0) :
    blHeapAllocAlign s sz align = some (s, 0) := by
  rw [← blHeapAllocAlign_max, blHeapAllocAlign]
  simp only [show max align 1 ≠ 0 by omega, if_false, if_pos h, ite_self]

/-- Every block but the first is aligned as asked. The first one's head is, so its payload is
not. -/
theorem blHeapAllocAlign_aligned (h : HeapInv s bs) (hne : bs ≠ []) (hk : k < 32)
    (hret : blHeapAllocAlign s sz (2 ^ k) = some (s', p)) : 2 ^ k ∣ p := by
  rw [blHeapAllocAlign_two_pow, if_neg fun hempty => hne (h.empty_iff.mpr hempty)] at hret
  split at hret
  · obtain ⟨-, rfl⟩ := Prod.mk.inj (Option.some.inj hret)
    exact dvd_zero _
  · exact blHeapAllocAlignFrom_dvd hk hret

/-! ## What an allocation keeps -/

theorem Granted.payload_kept (h : Granted bs bs' b) (hd : d ∈ bs) :
    ∃ d' ∈ bs', d'.payload = d.payload ∧ d'.size = d.size := by
  cases h with
  | first => cases hd
  | reused pre post b hfree =>
    simp only [List.mem_append, List.mem_cons] at hd
    rcases hd with hd | rfl | hd
    · exact ⟨d, by simp [hd], rfl, rfl⟩
    · exact ⟨{ d with used := true }, by simp, rfl, rfl⟩
    · exact ⟨d, by simp [hd], rfl, rfl⟩
  | appended => exact ⟨d, List.mem_append_left _ hd, rfl, rfl⟩

theorem Granted.used_kept (h : Granted bs bs' b) (hord : bs'.Pairwise Before) (hd : d ∈ bs)
    (hused : d.used = true) : d ∈ bs' ∧ d.payload ≠ b.payload := by
  cases h with
  | first => cases hd
  | reused pre post b hfree =>
    simp only [List.mem_append, List.mem_cons] at hd
    rcases hd with hd | rfl | hd
    · have hbefore := (List.pairwise_append.mp hord).2.2 d hd _ List.mem_cons_self
      simp only [Before, Block.stop, Block.payload] at hbefore ⊢
      exact ⟨by simp [hd], by omega⟩
    · rw [hfree] at hused
      exact absurd hused (by decide)
    · have hbefore := (List.pairwise_cons.mp (List.pairwise_append.mp hord).2.1).1 d hd
      simp only [Before, Block.stop, Block.payload] at hbefore ⊢
      exact ⟨by simp [hd], by omega⟩
  | appended =>
    have hbefore := (List.pairwise_append.mp hord).2.2 d hd b (List.mem_singleton_self b)
    simp only [Before, Block.stop, Block.payload] at hbefore ⊢
    exact ⟨by simp [hd], by omega⟩

theorem Granted.mem_used (h : Granted bs bs' b) : b ∈ bs' ∧ b.used = true := by
  cases h with
  | first _ hused => exact ⟨by simp, hused⟩
  | reused => exact ⟨by simp, rfl⟩
  | appended _ _ _ hused => exact ⟨by simp, hused⟩

/-! ## Release and writes -/

/-- Freeing a block of the chain marks it free; a second time changes nothing. -/
theorem blHeapFree_eq (h : HeapInv s bs) (hb : b ∈ bs) :
    blHeapFree s b.payload =
      if b.used then { s with
        mem := setHeadMagic s.mem b.head { b with used := false }.magic,
        freeBlocks := s.freeBlocks + 1 }
      else s := by
  have hok := h.blockOk b hb
  have hmagic : headMagic s.mem b.head = b.magic := by
    have hlinked := h.linked
    clear h
    induction bs with
    | nil => cases hb
    | cons c rest ih =>
      rcases List.mem_cons.mp hb with rfl | hb
      · exact hlinked.1.magic_eq
      · exact ih hb hlinked.2
  have halign : b.payload &&& (blHeapMemAlign - 1) = 0 := by
    have := hok.aligned
    rw [blHeapMemAlign, show 16 - 1 = 2 ^ 4 - 1 by rfl, and_low_bits_eq_zero, Block.payload]
    omega
  rw [blHeapFree, if_neg (not_not.mpr halign), payloadHead_eq hok]
  simp only [hmagic, magic_eq_used_iff]
  cases b.used <;> rfl

theorem HeapInv.free (h : HeapInv s (pre ++ b :: post)) :
    HeapInv (blHeapFree s b.payload) (pre ++ { b with used := false } :: post) := by
  rw [blHeapFree_eq h (by simp)]
  cases hused : b.used with
  | true => exact h.setMagic (u := false) (by omega)
  | false =>
    have hsame : { b with used := false } = b := by rw [← hused]
    rw [hsame]
    exact h

theorem before_or_eq (hord : bs.Pairwise Before) (hb : b ∈ bs) (hc : c ∈ bs) :
    Before b c ∨ Before c b ∨ b = c :=
  List.Pairwise.forall_of_forall_of_flip (R := fun b c => Before b c ∨ Before c b ∨ b = c)
    (fun _ _ => .inr (.inr rfl)) (hord.imp .inl) (hord.imp fun h => .inr (.inl h)) hb hc

theorem payload_not_head {a : Nat} (hord : bs.Pairwise Before) (hb : b ∈ bs) (hc : c ∈ bs)
    (ha : b.InPayload a) : ¬ c.InHead a := by
  intro hhead
  simp only [Block.InPayload, Block.InHead, Block.payload] at *
  rcases before_or_eq hord hb hc with hbc | hcb | rfl
  · simp only [Before] at hbc; omega
  · simp only [Before, Block.stop] at hcb; omega
  · omega

theorem HeapInv.frame (h : HeapInv s bs) (hm : ∀ b ∈ bs, ∀ x, b.InHead x → m' x = s.mem x) :
    HeapInv { s with mem := m' } bs where
  linked := h.linked.frame hm
  start := h.start
  blockOk := h.blockOk
  ordered := h.ordered
  baseAligned := h.baseAligned
  baseInSpace := h.baseInSpace
  empty_iff := h.empty_iff

theorem HeapInv.store {a : Nat} (v : Byte) (h : HeapInv s bs) (hb : b ∈ bs)
    (ha : b.InPayload a) : HeapInv { s with mem := ByteMemory.store s.mem a v } bs :=
  h.frame fun _ hc _ hx => store_other _ _ fun heq =>
    payload_not_head h.ordered hb hc ha (heq ▸ hx)

theorem HeapInv.eq_nil_of_null (h : HeapInv s bs) (hheap : s.heap = 0) : bs = [] := by
  by_contra hne
  obtain ⟨c, rest, rfl⟩ := List.exists_cons_of_ne_nil hne
  have hpos := (h.blockOk c List.mem_cons_self).positive
  have hstart : s.heap = c.head := h.start hne
  omega

theorem heapInv_base (m : Mem) (base : Nat) (h16 : 16 ∣ base) (hlt : base < 2 ^ 32) :
    HeapInv ⟨m, base, 0, 0⟩ [] :=
  ⟨trivial, fun h => absurd rfl h, by simp, .nil, h16, hlt, by simp⟩

theorem HeapInv.blocksApart (h : HeapInv s bs) : BlocksApart s bs where
  start := h.start
  linked := h.linked
  increasing := h.ordered.imp fun hbc => by
    simp only [Before, Block.stop] at hbc
    omega
  before := h.ordered
  payloads := by
    rintro b hb c hc - - hne a ⟨hba, hca⟩
    simp only [Block.InPayload, Block.payload] at *
    rcases before_or_eq h.ordered hb hc with hbc | hcb | heq
    · simp only [Before] at hbc; omega
    · simp only [Before] at hcb; omega
    · exact hne heq
  heads := by
    rintro b hb c hc - a ⟨hba, hca⟩
    exact payload_not_head h.ordered hb hc hba hca

end BootLoader.Heap

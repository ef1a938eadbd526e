import BootLoader.Heap.Balanced
import BootLoader.Utils.Memory

/-! # Copies of strings (`bl_strdup` and `bl_strndup` of `core/utils/string.c`) -/

open ByteMemory BootLoader.Heap

namespace BootLoader.Utils

/-- The loop of `bl_strlen` from the byte number `len` on. -/
def strlenFrom (m : Mem) (s : Nat) : Nat → Nat → Option Nat
  | 0, _ => none
  | fuel + 1, len => if m ((s + len) % 2 ^ 32) = 0 then some len else strlenFrom m s fuel (len + 1)

/-- As many bytes as there are: a loop that goes on meets no zero at all. -/
def strlenFuel : Nat := 2 ^ 32

def blStrlen (m : Mem) (s : Nat) : Option Nat :=
  if s = 0 then some 0 else strlenFrom m s strlenFuel 0

/-- The heap behind a call, what the call returns, and the bytes that it wrote itself. -/
structure Copied where
  heap : BlHeap
  res : Nat
  written : List Nat

/-- From `bl_heap_alloc(len)` on. The terminator goes to `res[len]`, and then the copy is made. -/
def copyOut (s : BlHeap) (src len : Nat) : Option Copied :=
  (blHeapAlloc s len).map fun (s, res) =>
    if res = 0 then ⟨s, 0, []⟩
    else
      ⟨{ s with mem := blMemcpy (store s.mem ((res + len) % 2 ^ 32) 0) res src len }, res,
        (res + len) % 2 ^ 32 :: (List.range len).map fun i => (res + i) % 2 ^ 32⟩

/-- `none`: the source has no end. -/
def blStrdup (s : BlHeap) (src : Nat) : Option Copied :=
  if src = 0 then some ⟨s, 0, []⟩
  else (blStrlen s.mem src).bind fun len => copyOut s src ((len + 1) % 2 ^ 32)

def blStrndup (s : BlHeap) (src n : Nat) : Option Copied :=
  if src = 0 then some ⟨s, 0, []⟩
  else (blStrlen s.mem src).bind fun len =>
    let len := (len + 1) % 2 ^ 32
    copyOut s src (if n < len then (n + 1) % 2 ^ 32 else len)

/-- The result is a block of its own that holds the text, and nothing else has been written. -/
structure Duplicated (bs bs' : List Block) (b : Block) (text : List Byte) (r : Copied) : Prop where
  inv : HeapInv r.heap bs'
  granted : Granted bs bs' b
  payload : b.payload = r.res
  bytes : HasBytes r.heap.mem r.res (text ++ [0])
  inside : ∀ a ∈ r.written, b.InPayload a

def Duplicates (bs : List Block) (text : List Byte) (call : Option Copied) : Prop :=
  ∃ r bs' b, call = some r ∧ Duplicated bs bs' b text r

/-- The request for `sz` bytes is served. -/
def Served (s : BlHeap) (sz : Nat) : Prop := ∃ s' res, blHeapAlloc s sz = some (s', res) ∧ res ≠ 0

variable {m m' : Mem} {s s₁ : BlHeap} {bs bs' : List Block} {b : Block} {text : List Byte}
  {src len fuel n res x : Nat} {r : Copied}

/-! ## The length -/

theorem strlenFrom_eq (h : HasBytes m (src + len) (text ++ [0])) (hnul : (0 : Byte) ∉ text)
    (hbound : src + len + text.length < 2 ^ 32) (hfuel : text.length < fuel) :
    strlenFrom m src fuel len = some (len + text.length) := by
  induction text generalizing len fuel with
  | nil =>
    obtain ⟨fuel, rfl⟩ := Nat.exists_eq_succ_of_ne_zero (by omega : fuel ≠ 0)
    rw [strlenFrom, Nat.mod_eq_of_lt (by omega), if_pos h.1]
    rfl
  | cons c text ih =>
    obtain ⟨fuel, rfl⟩ := Nat.exists_eq_succ_of_ne_zero (by omega : fuel ≠ 0)
    obtain ⟨hhead, hrest⟩ := h
    rw [List.mem_cons, not_or] at hnul
    rw [List.length_cons] at hbound hfuel
    rw [strlenFrom, Nat.mod_eq_of_lt (by omega), if_neg (by rw [hhead]; exact Ne.symm hnul.1),
      ih hrest hnul.2 (by omega) (by omega), List.length_cons]
    congr 1
    omega

/-- A string that stands in memory, apart from the bytes that the heap may hand out. -/
structure StringAt (s : BlHeap) (bs : List Block) (src : Nat) (text : List Byte) : Prop where
  bytes : HasBytes s.mem src (text ++ [0])
  noNul : (0 : Byte) ∉ text
  notNull : src ≠ 0
  inSpace : src + text.length < 2 ^ 32
  apart : ∀ i ≤ text.length, ¬ OwnedByHeap s bs (src + i)

theorem StringAt.blStrlen_eq (h : StringAt s bs src text) :
    blStrlen s.mem src = some text.length := by
  rw [blStrlen, if_neg h.notNull, strlenFrom_eq h.bytes h.noNul h.inSpace, Nat.zero_add]
  exact Nat.lt_of_le_of_lt (Nat.le_add_left _ _) h.inSpace

theorem StringAt.length_lt (h : StringAt s bs src text) : text.length + 1 < 2 ^ 32 := by
  have hne := h.notNull
  have hspace := h.inSpace
  omega

theorem StringAt.blStrdup_eq (h : StringAt s bs src text) :
    blStrdup s src = copyOut s src (text.length + 1) := by
  rw [blStrdup, if_neg h.notNull, h.blStrlen_eq, Option.bind_some, Nat.mod_eq_of_lt h.length_lt]

/-- The limit cuts off what is copied, which is one byte more than the limit. -/
theorem StringAt.blStrndup_eq (h : StringAt s bs src text) :
    blStrndup s src n = copyOut s src (min n text.length + 1) := by
  have hlt := h.length_lt
  rw [blStrndup, if_neg h.notNull, h.blStrlen_eq, Option.bind_some]
  simp only [Nat.mod_eq_of_lt hlt]
  split_ifs with hcut
  · rw [Nat.mod_eq_of_lt (by omega), Nat.min_eq_left (by omega)]
  · rw [Nat.min_eq_right (by omega)]

/-! ## The block that is handed out -/

theorem linked_headSize (h : Linked m bs) (hb : b ∈ bs) : headSize m b.head = b.size := by
  induction bs with
  | nil => cases hb
  | cons c rest ih =>
    rcases List.mem_cons.mp hb with rfl | hb
    · exact h.1.size_eq
    · exact ih h.2 hb

/-- A block that is added is as large as the request. -/
theorem headSize_added (h : HeapInv s bs) (hlen : len < 2 ^ 32)
    (hfirst : firstFit bs len 1 = none) (halloc : blHeapAlloc s len = some (s₁, res))
    (hpayload : b.payload = res) (hb : BlockOk b) : headSize s₁.mem b.head = len := by
  have haligned := hb.aligned
  have hspace := hb.inSpace
  rw [Block.payload] at hpayload hspace
  rw [blHeapAlloc_eq] at halloc
  split_ifs at halloc with hnull hempty
  · cases halloc
    omega
  · -- The first block of all.
    have hbase := h.baseInSpace
    have hbaseAligned := h.baseAligned
    simp only [allocFirstBlock, Nat.sub_self, Nat.and_zero, ne_eq, not_true_eq_false, if_false,
      if_neg hnull, Option.some.injEq, Prod.mk.injEq, headPayload, blHeapBlockHeadSize] at halloc
    obtain ⟨rfl, hres⟩ := halloc
    have hhead : b.head = s.heap := by omega
    rw [hhead]
    exact read32_write32_same _ _ hlen
  · have hne : bs ≠ [] := fun hnil => hempty (h.empty_iff.mp hnil)
    rw [blHeapAllocAlignFrom, h.scan_last hne hfirst] at halloc
    cases halloc
    have hlast := (h.blockOk _ (List.getLast_mem hne)).aligned
    have hhead : payloadHead (appendAddress s.mem (bs.getLast hne).head 1) = b.head := by
      rw [payloadHead, blHeapBlockHeadSize]
      omega
    simp only [hhead, Heap.headSize, appendBlock, setHeadNext, setHeadSize]
    rw [read32_write32_apart _ _ (by omega), read32_write32_apart _ _ (by omega)]
    exact read32_write32_same _ _ hlen

/-- A free block serves. -/
theorem blHeapAlloc_reused (h : HeapInv s bs) (hfirst : firstFit bs len 1 = some b) :
    ∃ s₁ bs', blHeapAlloc s len = some (s₁, b.payload) ∧
      Allocated s s₁ bs bs' { b with used := true } len := by
  have hmem : b ∈ bs := List.dropLast_subset bs (List.mem_of_find?_eq_some hfirst)
  have hempty : ¬ (s.occupiedBlocks = 0 ∧ s.freeBlocks = 0) := fun he =>
    List.ne_nil_of_mem hmem (h.empty_iff.mpr he)
  have hheap : s.heap ≠ 0 := fun hnull => List.ne_nil_of_mem hmem (h.eq_nil_of_null hnull)
  obtain ⟨s₁, pre, post, -, -, hret, hall⟩ := blHeapAllocAlignFrom_reuse (k := 0) h hfirst
  refine ⟨s₁, _, ?_, hall⟩
  rw [blHeapAlloc_eq, if_neg hheap, if_neg hempty, ← pow_zero 2, hret]

/-! ## What is written -/

theorem copyOut_eq (halloc : blHeapAlloc s len = some (s₁, res)) (hres : res ≠ 0) :
    copyOut s src len = some
      ⟨{ s₁ with mem := blMemcpy (store s₁.mem ((res + len) % 2 ^ 32) 0) res src len }, res,
        (res + len) % 2 ^ 32 :: (List.range len).map fun i => (res + i) % 2 ^ 32⟩ := by
  rw [copyOut, halloc, Option.map_some]
  simp only [if_neg hres]

/-- What is written goes up to `res[len]`, and does not wrap if it lies in the block. -/
theorem written_lt (hb : BlockOk b) (hpayload : b.payload = res)
    (hinside : ∀ a ∈ (res + len) % 2 ^ 32 :: (List.range len).map fun i => (res + i) % 2 ^ 32,
      b.InPayload a) : res + len < 2 ^ 32 ∧ len < b.size := by
  have hspace := hb.inSpace
  have hall : ∀ i ≤ len, b.InPayload ((res + i) % 2 ^ 32) := by
    intro i hi
    rcases Nat.lt_or_eq_of_le hi with hlt | rfl
    · exact hinside _ (List.mem_cons_of_mem _ (List.mem_map_of_mem (List.mem_range.mpr hlt)))
    · exact hinside _ List.mem_cons_self
  have hnowrap : res + len < 2 ^ 32 := by
    by_contra hwrap
    have hzero := (hall (2 ^ 32 - res) (by omega)).1
    rw [show (res + (2 ^ 32 - res)) % 2 ^ 32 = 0 by omega, Block.payload] at hzero
    omega
  have hlast := (hall len (Nat.le_refl len)).2
  rw [Nat.mod_eq_of_lt hnowrap, Block.stop] at hlast
  rw [Block.payload] at hpayload
  exact ⟨hnowrap, by omega⟩

/-- The copy lies in a block with room for one more byte, and only a block that is reused has
it. -/
theorem duplicates_reused (h : HeapInv s bs) (hlen : len < 2 ^ 32)
    (hdup : Duplicates bs text (copyOut s src len)) :
    ∃ b, firstFit bs len 1 = some b ∧ len < b.size := by
  obtain ⟨r, bs', b, hcopy, hdup⟩ := hdup
  have hmem := hdup.granted.mem_used.1
  have hb := hdup.inv.blockOk b hmem
  have hpayload := hdup.payload
  cases halloc : blHeapAlloc s len with
  | none =>
    rw [copyOut, halloc] at hcopy
    cases hcopy
  | some a =>
    obtain ⟨s₁, res⟩ := a
    have hres : res ≠ 0 := by
      rintro rfl
      rw [copyOut, halloc, Option.map_some] at hcopy
      cases hcopy
      simp only [Block.payload, if_true] at hpayload
      omega
    rw [copyOut_eq halloc hres, Option.some.injEq] at hcopy
    subst hcopy
    simp only at hpayload
    obtain ⟨hnowrap, hroom⟩ := written_lt hb hpayload hdup.inside
    -- The head of the block is not written, so it is as the request has left it.
    have hhead : headSize s₁.mem b.head = b.size := by
      rw [← linked_headSize hdup.inv.linked hmem]
      refine (readLE_congr fun x hx hx' => ?_).symm
      rw [Block.payload] at hpayload
      exact (blMemcpy_outside (by omega) (by omega)).trans (store_other _ _ (by omega))
    cases hfirst : firstFit bs len 1 with
    | none =>
      rw [headSize_added h hlen hfirst halloc hpayload hb] at hhead
      omega
    | some b₀ =>
      obtain ⟨s₂, bs₂, halloc₂, hall⟩ := blHeapAlloc_reused h hfirst
      rw [halloc] at halloc₂
      cases halloc₂
      have hsize := linked_headSize hall.inv.linked hall.granted.mem_used.1
      have heq : b₀.head = b.head := by
        simp only [Block.payload] at hpayload
        omega
      simp only [heq, hhead] at hsize
      exact ⟨b₀, rfl, hsize ▸ hroom⟩

/-- In such a block the copy is made, of as many bytes as are asked for. -/
theorem copyOut_reused (h : HeapInv s bs) (hfirst : firstFit bs len 1 = some b)
    (hroom : len < b.size) (hsrc : src ≠ 0) (hspace : src + len ≤ 2 ^ 32)
    (hapart : ∀ i < len, ¬ OwnedByHeap s bs (src + i)) :
    ∃ r bs', copyOut s src len = some r ∧ HeapInv r.heap bs' ∧
      Granted bs bs' { b with used := true } ∧ r.res = b.payload ∧
      (∀ a ∈ r.written, b.InPayload a) ∧ ∀ i < len, r.heap.mem (r.res + i) = s.mem (src + i) := by
  obtain ⟨s₁, bs', halloc, hall⟩ := blHeapAlloc_reused h hfirst
  have hstop := h.stop_lt_of_firstFit hfirst
  have hres : b.payload ≠ 0 := by
    rw [Block.payload]
    omega
  have hwritten : ∀ i ≤ len, b.InPayload ((b.payload + i) % 2 ^ 32) := by
    intro i hi
    unfold Block.InPayload
    rw [Block.stop, ← Block.payload] at hstop ⊢
    rw [Nat.mod_eq_of_lt (by omega)]
    omega
  have hterminator := hwritten len (Nat.le_refl len)
  rw [Block.stop, ← Block.payload] at hstop
  rw [Nat.mod_eq_of_lt (by omega)] at hterminator
  have hcopy : blMemcpy (store s₁.mem (b.payload + len) 0) b.payload src len =
      copyRange (store s₁.mem (b.payload + len) 0) b.payload src len :=
    blMemcpy_eq hres hsrc (by omega) hspace
  refine ⟨_, bs', copyOut_eq halloc hres, ?_, hall.granted, rfl, fun a ha => ?_, fun i hi => ?_⟩
  · refine hall.inv.frame fun c hc x hx => ?_
    have hout : ¬ b.InPayload x := fun hin =>
      payload_not_head hall.inv.ordered hall.granted.mem_used.1 hc hin hx
    rw [Block.InPayload, Block.stop, ← Block.payload] at hout
    simp only [Nat.mod_eq_of_lt (show b.payload + len < 2 ^ 32 by omega)]
    rw [blMemcpy_outside (by omega) (by omega), store_other _ _ (by omega)]
  · rcases List.mem_cons.mp ha with rfl | ha
    · exact hwritten len (Nat.le_refl len)
    · obtain ⟨i, hi, rfl⟩ := List.mem_map.mp ha
      exact hwritten i (Nat.le_of_lt (List.mem_range.mp hi))
  · -- The source is in no head that is written, and not in the block.
    obtain ⟨-, hout⟩ := hall.outside (hapart i hi)
    have hne : src + i ≠ b.payload + len := fun heq => hout (heq ▸ hterminator)
    simp only [Nat.mod_eq_of_lt (show b.payload + len < 2 ^ 32 by omega)]
    rw [hcopy, copyRange_inside _ _ hi, store_other _ _ hne, hall.frame_outside (hapart i hi)]

/-! ## Both functions -/

/-- A free block that is larger than the request is reused. -/
def LargerReused (bs : List Block) (sz : Nat) : Prop :=
  ∃ b, firstFit bs sz 1 = some b ∧ sz < b.size

theorem StringAt.strdup_iff (hs : StringAt s bs src text) (h : HeapInv s bs) :
    Duplicates bs text (blStrdup s src) ↔ LargerReused bs (text.length + 1) := by
  rw [hs.blStrdup_eq]
  constructor
  · exact duplicates_reused h hs.length_lt
  · rintro ⟨b, hfirst, hroom⟩
    obtain ⟨r, bs', hcopy, hinv, hgranted, hres, hinside, hbytes⟩ := copyOut_reused h hfirst hroom
      hs.notNull (by have := hs.inSpace; omega) (fun i hi => hs.apart i (by omega))
    refine ⟨r, bs', _, hcopy, hinv, hgranted, hres.symm, hasBytes_iff.mpr fun k hk => ?_, hinside⟩
    rw [List.length_append, List.length_singleton] at hk
    rw [hbytes k hk]
    exact hasBytes_iff.mp hs.bytes k _

/-- Cut off, the copy has no terminator: the byte there is one of the source. -/
theorem StringAt.strndup_iff (hs : StringAt s bs src text) (h : HeapInv s bs) (n : Nat) :
    Duplicates bs (text.take n) (blStrndup s src n) ↔
      text.length ≤ n ∧ LargerReused bs (min n text.length + 1) := by
  rw [hs.blStrndup_eq]
  have hlen := hs.length_lt
  have hspace := hs.inSpace
  constructor
  · intro hdup
    have hlarger := duplicates_reused h (by omega) hdup
    refine ⟨?_, hlarger⟩
    by_contra hcut
    obtain ⟨b, hfirst, hroom⟩ := hlarger
    obtain ⟨r, bs', hcopy, -, -, -, -, hbytes⟩ := copyOut_reused h hfirst hroom hs.notNull
      (by omega) (fun i hi => hs.apart i (by omega))
    obtain ⟨r', _, _, hcopy', hdup⟩ := hdup
    rw [hcopy, Option.some.injEq] at hcopy'
    subst hcopy'
    have hend := (hasBytes_append.mp hdup.bytes).2.1
    rw [List.length_take, hbytes _ (by omega)] at hend
    have hchar := hasBytes_iff.mp (hasBytes_append.mp hs.bytes).1 (min n text.length) (by omega)
    apply hs.noNul
    rw [← hend, hchar]
    exact List.getElem_mem _
  · rintro ⟨hall, b, hfirst, hroom⟩
    rw [Nat.min_eq_right hall] at hfirst hroom ⊢
    have hdup := hs.strdup_iff h
    rw [hs.blStrdup_eq] at hdup
    rw [List.take_of_length_le hall]
    exact hdup.mpr ⟨b, hfirst, hroom⟩

/-- **Where the copies are right**: a request that is served needs a free block with a byte to
spare, and `bl_strndup` a limit that cuts off nothing. -/
theorem strings_duplicated_iff (h : HeapInv s bs) (hs : StringAt s bs src text) :
    (Served s (text.length + 1) →
      (Duplicates bs text (blStrdup s src) ↔ LargerReused bs (text.length + 1))) ∧
    ∀ n, Served s (min n text.length + 1) →
      (Duplicates bs (text.take n) (blStrndup s src n) ↔
        text.length ≤ n ∧ LargerReused bs (min n text.length + 1)) :=
  ⟨fun _ => hs.strdup_iff h, fun n _ => hs.strndup_iff h n⟩

/-- The string `a`, a free block, and a block in use behind it. -/
def reusableHeap : BlHeap where
  mem := ofPieces [(0x2000, [97, 0]),
    (0x100000, bytesLE 4 0x100050 ++ bytesLE 4 blHeapBlockHeadFreeMagic ++ bytesLE 4 0x40),
    (0x100050, bytesLE 4 0 ++ bytesLE 4 blHeapBlockHeadUsedMagic ++ bytesLE 4 0x10)]
  heap := 0x100000
  occupiedBlocks := 2
  freeBlocks := 1

def reusableBlocks : List Block := [⟨0x100000, 0x40, false⟩, ⟨0x100050, 0x10, true⟩]

theorem reusableHeap_inv : HeapInv reusableHeap reusableBlocks where
  linked := ⟨⟨by decide, by decide, by decide⟩, ⟨by decide, by decide, by decide⟩, trivial⟩
  start _ := rfl
  blockOk b hb := by
    rcases List.mem_pair.mp hb with rfl | rfl <;>
      exact ⟨by decide, by decide, by decide, by decide⟩
  ordered := by simp [reusableBlocks, Before, Block.stop]
  baseAligned := by decide
  baseInSpace := by decide
  empty_iff := by decide

theorem reusableHeap_string : StringAt reusableHeap reusableBlocks 0x2000 [97] where
  bytes := by simp [HasBytes]; decide
  noNul := by decide
  notNull := by decide
  inSpace := by decide
  apart i hi hin := by
    have hlow : 0x100000 ≤ 0x2000 + i := hin.1
    rw [List.length_singleton] at hi
    omega

theorem strings_duplicated_reused :
    Duplicates reusableBlocks [97] (blStrdup reusableHeap 0x2000) ∧
      Duplicates reusableBlocks [97] (blStrndup reusableHeap 0x2000 1) := by
  have hserved : Served reusableHeap 2 := by
    have hfirst : firstFit reusableBlocks 2 1 = some ⟨0x100000, 0x40, false⟩ := rfl
    obtain ⟨s₁, bs', halloc, -⟩ := blHeapAlloc_reused reusableHeap_inv hfirst
    exact ⟨s₁, _, halloc, by decide⟩
  have hboth := strings_duplicated_iff reusableHeap_inv reusableHeap_string
  exact ⟨(hboth.1 hserved).mpr ⟨_, rfl, by decide⟩,
    (hboth.2 1 hserved).mpr ⟨by decide, _, rfl, by decide⟩⟩

/-- The string `a` before the first request of all. -/
def emptyHeap : BlHeap := blHeapInitBios (unset (ofPieces [(0x2000, [97, 0])]))

/-- The zero goes behind a block that is as large as the request. -/
theorem terminator_outside :
    Served emptyHeap 2 ∧ ¬ Duplicates [] [97] (blStrdup emptyHeap 0x2000) := by
  have hstring : StringAt emptyHeap [] 0x2000 [97] :=
    ⟨by simp [HasBytes]; decide, by decide, by decide, by decide, fun i hi hin => by
      have hlow : 0x100000 ≤ 0x2000 + i := hin.1
      rw [List.length_singleton] at hi
      omega⟩
  refine ⟨⟨_, 0x100010, rfl, by decide⟩, ?_⟩
  rw [hstring.strdup_iff (Started.inv (.bios _))]
  rintro ⟨b, hfirst, -⟩
  cases hfirst

end BootLoader.Utils

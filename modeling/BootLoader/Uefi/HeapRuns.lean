import BootLoader.Uefi.Heap
import Mathlib.Data.List.Nodup

/-!
# What the firmware has handed out

Over a whole run the firmware's books show the blocks of the heap, each under the service it came
from, and nothing of those that were released.
-/

open ByteMemory RoundUp Relation

namespace BootLoader.Uefi

open Heap

/-! ## The firmware's books -/

inductive Service where
  | pool
  | pages
  deriving DecidableEq

structure Region where
  service : Service
  base : Nat
  size : Nat
  deriving DecidableEq

/-- One past its bytes. A region without bytes has its address all the same. -/
def Region.stop (r : Region) : Nat := r.base + max r.size 1

def Region.Has (r : Region) (x : Nat) : Prop := r.base ≤ x ∧ x < r.base + r.size

def Apart (r r' : Region) : Prop := r.stop ≤ r'.base ∨ r'.stop ≤ r.base

/-- The bytes of every region that is handed out before and after are as they were. -/
def Kept {σ : Type} (regions : σ → Set Region) (m m' : Machine σ) : Prop :=
  ∀ r ∈ regions m.fw, r ∈ regions m'.fw → ∀ x, r.Has x → m'.mem x = m.mem x

/-- The documented behaviour of the services, `regions` being what is handed out. -/
structure Lawful {σ : Type} (S : BootServices σ) (regions : σ → Set Region) : Prop where
  apart : ∀ fw, ∀ r ∈ regions fw, ∀ r' ∈ regions fw, r ≠ r' → Apart r r'
  inSpace : ∀ fw, ∀ r ∈ regions fw, 0 < r.base ∧ r.stop ≤ 2 ^ 32
  pagesAligned : ∀ fw, ∀ r ∈ regions fw, r.service = .pages → 0x1000 ∣ r.base
  poolAligned : ∀ fw, ∀ r ∈ regions fw, r.service = .pool → 8 ∣ r.base
  allocatePages : ∀ m n, 0 < n →
    Kept regions m (S.allocatePages m n).1 ∧
    ((S.allocatePages m n).2.1 ≠ efiSuccess →
      regions (S.allocatePages m n).1.fw = regions m.fw) ∧
    ((S.allocatePages m n).2.1 = efiSuccess →
      ⟨.pages, (S.allocatePages m n).2.2.toNat, 0x1000 * n⟩ ∉ regions m.fw ∧
      regions (S.allocatePages m n).1.fw =
        insert ⟨.pages, (S.allocatePages m n).2.2.toNat, 0x1000 * n⟩ (regions m.fw))
  allocatePool : ∀ m n,
    Kept regions m (S.allocatePool m n).1 ∧
    ((S.allocatePool m n).2.1 ≠ efiSuccess →
      regions (S.allocatePool m n).1.fw = regions m.fw) ∧
    ((S.allocatePool m n).2.1 = efiSuccess →
      ⟨.pool, (S.allocatePool m n).2.2, n⟩ ∉ regions m.fw ∧
      regions (S.allocatePool m n).1.fw =
        insert ⟨.pool, (S.allocatePool m n).2.2, n⟩ (regions m.fw))
  /-- Pages that were allocated, all of them. -/
  freePages : ∀ m (addr : BitVec 64) n, ⟨.pages, addr.toNat, 0x1000 * n⟩ ∈ regions m.fw →
    Kept regions m (S.freePages m addr n).1 ∧ (S.freePages m addr n).2 = efiSuccess ∧
      regions (S.freePages m addr n).1.fw =
        regions m.fw \ {⟨.pages, addr.toNat, 0x1000 * n⟩}
  /-- An address that is in no pages that were allocated. -/
  freePages_notFound : ∀ m (addr : BitVec 64) n,
    (∀ r ∈ regions m.fw, r.service = .pages → ¬ (r.base ≤ addr.toNat ∧ addr.toNat < r.stop)) →
    Kept regions m (S.freePages m addr n).1 ∧ (S.freePages m addr n).2 = efiNotFound ∧
      regions (S.freePages m addr n).1.fw = regions m.fw
  freePool : ∀ m ptr n, ⟨.pool, ptr, n⟩ ∈ regions m.fw →
    Kept regions m (S.freePool m ptr).1 ∧
      regions (S.freePool m ptr).1.fw = regions m.fw \ {⟨.pool, ptr, n⟩}
  setMem : ∀ m ptr n v, (S.setMem m ptr n v).fw = m.fw ∧
    ∀ x, (S.setMem m ptr n v).mem x = if ptr ≤ x ∧ x < ptr + n then v else m.mem x

variable {σ : Type} {S : BootServices σ} {regions : σ → Set Region} {m m' m'' : Machine σ}
  {r : Region} {ptr sz align : Nat}

/-! ## One call -/

/-- The region behind a block. -/
def regionOf (ptr sz align : Nat) : Region :=
  if align ≤ 8 then ⟨.pool, ptr, sz⟩ else ⟨.pages, ptr, roundUp sz 0x1000⟩

/-- The machine has one region more, and its bytes are zero. -/
structure Served (regions : σ → Set Region) (m m' : Machine σ) (r : Region) : Prop where
  new : r ∉ regions m.fw
  books : regions m'.fw = insert r (regions m.fw)
  kept : Kept regions m m'
  zero : ∀ x, r.Has x → m'.mem x = 0

/-- Pages can be counted in 32 bits, and there are some. -/
def Countable (sz align : Nat) : Prop := align ≤ 8 ∨ 0 < sz ∧ sz ≤ 2 ^ 32 - 0x1000

theorem roundUp_page (h : sz ≤ 2 ^ 32 - 0x1000) :
    blMemoryAlignUp sz 0x1000 = roundUp sz 0x1000 ∧ roundUp sz 0x1000 ≤ 2 ^ 32 - 0x1000 := by
  have hle : roundUp sz 0x1000 ≤ 2 ^ 32 - 0x1000 :=
    roundUp_le_of_dvd (by decide) (by decide) h
  exact ⟨blMemoryAlignUp_eq_roundUp (k := 12) (by decide) (by change roundUp sz 0x1000 < _; omega),
    hle⟩

theorem pages_roundUp (sz : Nat) : 0x1000 * (roundUp sz 0x1000 / 0x1000) = roundUp sz 0x1000 :=
  Nat.mul_div_cancel' (dvd_roundUp sz 0x1000)

theorem Apart.not_has {r r' : Region} (h : Apart r r') {x : Nat} (hx : r.Has x) : ¬ r'.Has x := by
  unfold Apart Region.stop at h
  unfold Region.Has at *
  omega

theorem Lawful.base_lt (h : Lawful S regions) (hr : r ∈ regions m.fw) : r.base < 2 ^ 32 := by
  have hspace := (h.inSpace _ r hr).2
  simp only [Region.stop] at hspace
  omega

theorem Kept.trans (h : Kept regions m m') (h' : Kept regions m' m'')
    (hbooks : regions m''.fw ⊆ regions m'.fw) : Kept regions m m'' := fun r hr hr'' x hx =>
  (h' r (hbooks hr'') hr'' x hx).trans (h r hr (hbooks hr'') x hx)

/-- Clearing the bytes of a region that has just been handed out. -/
theorem Lawful.served (h : Lawful S regions) (hnew : r ∉ regions m.fw)
    (hbooks : regions m'.fw = insert r (regions m.fw)) (hkept : Kept regions m m') :
    Served regions m (S.setMem m' r.base r.size 0) r := by
  obtain ⟨hfw, hmem⟩ := h.setMem m' r.base r.size 0
  refine ⟨hnew, by rw [hfw, hbooks], fun r' hr' hr'' x hx => ?_, fun x hx => ?_⟩
  · rw [hfw] at hr''
    have hne : r' ≠ r := fun heq => hnew (heq ▸ hr')
    have hin : r ∈ regions m'.fw := hbooks ▸ Set.mem_insert r _
    have hout : ¬ r.Has x := (h.apart _ r' hr'' r hin hne).not_has hx
    exact (hmem x).trans ((if_neg hout).trans (hkept r' hr' hr'' x hx))
  · exact (hmem x).trans (if_pos hx)

theorem blHeapAlloc_spec (h : Lawful S regions) (m : Machine σ) (sz : Nat) :
    ((blHeapAlloc S m sz).2 = 0 ∧ regions (blHeapAlloc S m sz).1.fw = regions m.fw ∧
        Kept regions m (blHeapAlloc S m sz).1) ∨
      Served regions m (blHeapAlloc S m sz).1 ⟨.pool, (blHeapAlloc S m sz).2, sz⟩ := by
  obtain ⟨hkept, hfail, hok⟩ := h.allocatePool m sz
  unfold blHeapAlloc
  dsimp only
  split_ifs with hstatus
  · exact .inl ⟨rfl, hfail hstatus, hkept⟩
  · obtain ⟨hnew, hbooks⟩ := hok (not_not.mp hstatus)
    exact .inr (h.served hnew hbooks hkept)

theorem toNat_and_low32 {addr : BitVec 64} (h : addr.toNat < 2 ^ 32) :
    (addr &&& 0xffffffff).toNat = addr.toNat := by
  rw [BitVec.toNat_and]
  change addr.toNat &&& (2 ^ 32 - 1) = _
  rw [Nat.and_two_pow_sub_one_eq_mod, Nat.mod_eq_of_lt h]

theorem blHeapAllocAlign_spec (h : Lawful S regions) (m : Machine σ) (hsz : Countable sz align) :
    ((blHeapAllocAlign S m sz align).2 = 0 ∧
        regions (blHeapAllocAlign S m sz align).1.fw = regions m.fw ∧
        Kept regions m (blHeapAllocAlign S m sz align).1) ∨
      align &&& (align - 1) = 0 ∧ Served regions m (blHeapAllocAlign S m sz align).1
        (regionOf (blHeapAllocAlign S m sz align).2 sz align) := by
  have hone : (if align = 0 then 1 else align) &&& ((if align = 0 then 1 else align) - 1) =
      align &&& (align - 1) := by
    split_ifs with h0
    · rw [h0]
      rfl
    · rfl
  have height : (if align = 0 then 1 else align) ≤ 8 ↔ align ≤ 8 := by
    split_ifs <;> omega
  unfold blHeapAllocAlign
  simp only [hone, height]
  by_cases hpower : align &&& (align - 1) = 0
  swap
  · rw [if_pos hpower]
    exact .inl ⟨rfl, rfl, fun _ _ _ _ _ => rfl⟩
  rw [if_neg (not_not.mpr hpower)]
  by_cases hsmall : align ≤ 8
  · simp only [regionOf, if_pos hsmall]
    exact (blHeapAlloc_spec h m sz).imp_right fun hserved => ⟨hpower, hserved⟩
  simp only [regionOf, if_neg hsmall]
  obtain ⟨hpos, hle⟩ := hsz.resolve_left hsmall
  obtain ⟨hup, hroom⟩ := roundUp_page hle
  have hpages := pages_roundUp sz
  have hsome : sz ≤ roundUp sz 0x1000 := le_roundUp (by decide)
  rw [hup]
  obtain ⟨hkept, hfail, hok⟩ := h.allocatePages m (roundUp sz 0x1000 / 0x1000) (by omega)
  split_ifs with hstatus
  · exact .inl ⟨rfl, hfail hstatus, hkept⟩
  · obtain ⟨hnew, hbooks⟩ := hok (not_not.mp hstatus)
    rw [hpages] at hnew hbooks
    rw [toNat_and_low32 (h.base_lt (hbooks ▸ Set.mem_insert _ _))]
    exact .inr ⟨hpower, h.served hnew hbooks hkept⟩

/-- A size that a block may be released with: a pool's does not matter, and that of pages has to
come to as many of them. -/
def Releases (sz sz' align : Nat) : Prop :=
  align ≤ 8 ∨ blMemoryAlignUp sz' 0x1000 = roundUp sz 0x1000

theorem Lawful.pool_notFound (h : Lawful S regions) (addr : BitVec 64) (n : Nat)
    (hr : ⟨.pool, addr.toNat, sz⟩ ∈ regions m.fw) :
    Kept regions m (S.freePages m addr n).1 ∧ (S.freePages m addr n).2 = efiNotFound ∧
      regions (S.freePages m addr n).1.fw = regions m.fw := by
  refine h.freePages_notFound m addr n fun r' hr' hpages hin => ?_
  have hne : (⟨.pool, addr.toNat, sz⟩ : Region) ≠ r' := by
    rintro rfl
    cases hpages
  have hapart := h.apart _ _ hr r' hr' hne
  simp only [Apart, Region.stop] at hapart hin
  omega

/-- Whichever service a block came from, it is the one that the block is released to. -/
theorem blHeapFree_spec {sz' : Nat} (h : Lawful S regions)
    (hr : regionOf ptr sz align ∈ regions m.fw) (hsz : Releases sz sz' align) :
    regions (blHeapFree S m ptr sz').fw = regions m.fw \ {regionOf ptr sz align} ∧
      Kept regions m (blHeapFree S m ptr sz') := by
  have hbase : (regionOf ptr sz align).base = ptr := by
    unfold regionOf
    split_ifs <;> rfl
  have hpos : ptr ≠ 0 := by
    have := (h.inSpace _ _ hr).1
    omega
  have haddr : (BitVec.ofNat 64 ptr).toNat = ptr := by
    have := h.base_lt hr
    rw [BitVec.toNat_ofNat, Nat.mod_eq_of_lt (by omega)]
  unfold blHeapFree
  rw [if_neg hpos]
  by_cases hsmall : align ≤ 8
  · simp only [regionOf, if_pos hsmall] at hr ⊢
    split_ifs with hoffset hstatus
    · exact (h.freePool m ptr sz hr).symm
    · obtain ⟨hkept, -, hbooks⟩ := h.pool_notFound (BitVec.ofNat 64 ptr)
        (blMemoryAlignUp sz' 0x1000 / 0x1000) (haddr.symm ▸ hr)
      obtain ⟨hkept', hbooks'⟩ := h.freePool _ ptr sz (hbooks.symm ▸ hr)
      rw [hbooks] at hbooks'
      exact ⟨hbooks', hkept.trans hkept' (by rw [hbooks', hbooks]; exact Set.sdiff_subset)⟩
    · exact absurd (h.pool_notFound (BitVec.ofNat 64 ptr)
        (blMemoryAlignUp sz' 0x1000 / 0x1000) (haddr.symm ▸ hr)).2.1 hstatus
  · have hup : blMemoryAlignUp sz' 0x1000 = roundUp sz 0x1000 := hsz.resolve_left hsmall
    simp only [regionOf, if_neg hsmall] at hr ⊢
    have hpage : ptr &&& 0xfff = 0 :=
      and_low_bits_eq_zero (k := 12).mpr (h.pagesAligned _ _ hr rfl)
    obtain ⟨hkept, hstatus, hbooks⟩ := h.freePages m (BitVec.ofNat 64 ptr)
      (roundUp sz 0x1000 / 0x1000) (by rw [haddr, pages_roundUp]; exact hr)
    rw [if_neg (not_not.mpr hpage), hup]
    rw [if_neg (by rw [hstatus]; decide), hbooks, haddr, pages_roundUp]
    exact ⟨rfl, hkept⟩

/-! ## Runs -/

/-- A block that was handed out, and what it was asked for with. -/
structure Given where
  ptr : Nat
  sz : Nat
  align : Nat
  deriving DecidableEq

def Given.region (g : Given) : Region := regionOf g.ptr g.sz g.align

/-- The caller's own bytes; the firmware may have handed out more. -/
def Given.Has (g : Given) (x : Nat) : Prop := g.ptr ≤ x ∧ x < g.ptr + g.sz

/-- A larger alignment than that of a page is not kept. -/
def Given.Aligned (g : Given) : Prop := min (max g.align 1) 0x1000 ∣ g.ptr

/-- `content` is what the callers expect to find in their blocks: zeros, and what they have put
there. -/
structure Callers (σ : Type) where
  machine : Machine σ
  live : List Given
  content : Mem

def Callers.handOut (c : Callers σ) (result : Machine σ × Nat) (sz align : Nat) : Callers σ :=
  if result.2 = 0 then { c with machine := result.1 }
  else
    { machine := result.1
      live := ⟨result.2, sz, align⟩ :: c.live
      content := fun x => if result.2 ≤ x ∧ x < result.2 + sz then 0 else c.content x }

inductive HeapStep (S : BootServices σ) : Callers σ → Callers σ → Prop
  | alloc (c : Callers σ) (sz : Nat) :
    HeapStep S c (c.handOut (blHeapAlloc S c.machine sz) sz 1)
  | allocAlign (c : Callers σ) (sz align : Nat) (hsz : Countable sz align) :
    HeapStep S c (c.handOut (blHeapAllocAlign S c.machine sz align) sz align)
  | free (c : Callers σ) (g : Given) (sz : Nat) (hg : g ∈ c.live)
    (hsz : Releases g.sz sz g.align) :
    HeapStep S c
      { c with machine := blHeapFree S c.machine g.ptr sz, live := c.live.erase g }
  | freeNull (c : Callers σ) (sz : Nat) :
    HeapStep S c { c with machine := blHeapFree S c.machine 0 sz }
  | write (c : Callers σ) (g : Given) (x : Nat) (v : Byte) (hg : g ∈ c.live) (hx : g.Has x) :
    HeapStep S c
      { c with
        machine := { c.machine with mem := store c.machine.mem x v }
        content := store c.content x v }

/-- What the books show besides `m₀`'s are the blocks, and no byte is another one than it should
be. -/
structure Accounted (regions : σ → Set Region) (m₀ : Machine σ) (c : Callers σ) : Prop where
  books : regions c.machine.fw = regions m₀.fw ∪ {r | ∃ g ∈ c.live, g.region = r}
  own : ∀ g ∈ c.live, g.region ∉ regions m₀.fw
  distinct : (c.live.map Given.region).Nodup
  power : ∀ g ∈ c.live, g.align &&& (g.align - 1) = 0
  content : ∀ g ∈ c.live, ∀ x, g.Has x → c.machine.mem x = c.content x
  others : ∀ r ∈ regions m₀.fw, ∀ x, r.Has x → c.machine.mem x = m₀.mem x

variable {m₀ : Machine σ} {c c' : Callers σ} {g : Given}

theorem Given.region_base (g : Given) : g.region.base = g.ptr := by
  unfold Given.region regionOf
  split_ifs <;> rfl

theorem Given.Has.region {x : Nat} (h : g.Has x) : g.region.Has x := by
  have hsz : g.sz ≤ g.region.size := by
    unfold Given.region regionOf
    split_ifs
    · rfl
    · exact le_roundUp (by decide)
  have hbase := g.region_base
  unfold Given.Has at h
  unfold Region.Has
  omega

theorem Accounted.mem_books (h : Accounted regions m₀ c) (hg : g ∈ c.live) :
    g.region ∈ regions c.machine.fw := by
  rw [h.books]
  exact .inr ⟨g, hg, rfl⟩

theorem Accounted.start (m₀ : Machine σ) (content : Mem) :
    Accounted regions m₀ ⟨m₀, [], content⟩ where
  books := by simp
  own _ hg := absurd hg List.not_mem_nil
  distinct := .nil
  power _ hg := absurd hg List.not_mem_nil
  content _ hg := absurd hg List.not_mem_nil
  others _ _ _ _ := rfl

/-- The machine may do what it likes that the books do not show. -/
theorem Accounted.congr (h : Accounted regions m₀ c) {m : Machine σ}
    (hbooks : regions m.fw = regions c.machine.fw) (hkept : Kept regions c.machine m) :
    Accounted regions m₀ { c with machine := m } where
  books := hbooks.trans h.books
  own := h.own
  distinct := h.distinct
  power := h.power
  content g hg x hx := by
    have hin := h.mem_books hg
    exact (hkept _ hin (hbooks ▸ hin) x hx.region).trans (h.content g hg x hx)
  others r hr x hx := by
    have hin : r ∈ regions c.machine.fw := h.books ▸ .inl hr
    exact (hkept r hin (hbooks ▸ hin) x hx).trans (h.others r hr x hx)

theorem Accounted.handOut (hS : Lawful S regions) (h : Accounted regions m₀ c)
    {result : Machine σ × Nat} (hresult : (result.2 = 0 ∧ regions result.1.fw =
        regions c.machine.fw ∧ Kept regions c.machine result.1) ∨
      align &&& (align - 1) = 0 ∧
        Served regions c.machine result.1 (regionOf result.2 sz align)) :
    Accounted regions m₀ (c.handOut result sz align) := by
  rcases hresult with ⟨hnull, hbooks, hkept⟩ | ⟨hpower, hserved⟩
  · rw [Callers.handOut, if_pos hnull]
    exact h.congr hbooks hkept
  · let g : Given := ⟨result.2, sz, align⟩
    have hregion : regionOf result.2 sz align = g.region := rfl
    rw [hregion] at hserved
    have hnew : g.region ∈ regions result.1.fw := hserved.books ▸ Set.mem_insert _ _
    have hpos : result.2 ≠ 0 := by
      have := (hS.inSpace _ _ hnew).1
      rw [g.region_base] at this
      exact this.ne'
    have hold : ∀ r ∈ regions c.machine.fw, r ∈ regions result.1.fw := fun r hr =>
      hserved.books ▸ Set.mem_insert_of_mem _ hr
    rw [Callers.handOut, if_neg hpos]
    refine ⟨?_, ?_, ?_, ?_, ?_, ?_⟩
    · rw [hserved.books, h.books]
      ext r
      simp only [Set.mem_insert_iff, Set.mem_union, Set.mem_ofPred_eq, List.mem_cons,
        exists_eq_or_imp]
      rw [eq_comm (a := r)]
      tauto
    · rintro g' hg'
      rcases List.mem_cons.mp hg' with rfl | hg'
      · exact fun hstart => hserved.new (h.books ▸ .inl hstart)
      · exact h.own g' hg'
    · refine List.nodup_cons.mpr ⟨fun hmem => ?_, h.distinct⟩
      obtain ⟨g', hg', heq⟩ := List.mem_map.mp hmem
      exact hserved.new (heq ▸ h.mem_books hg')
    · rintro g' hg'
      rcases List.mem_cons.mp hg' with rfl | hg'
      · exact hpower
      · exact h.power g' hg'
    · rintro g' hg' x hx
      rcases List.mem_cons.mp hg' with rfl | hg'
      · exact (hserved.zero x hx.region).trans (if_pos hx).symm
      · have hin := h.mem_books hg'
        have hne : g'.region ≠ g.region := fun heq => hserved.new (heq ▸ hin)
        have hout : ¬ g.Has x := fun hx' =>
          (hS.apart _ _ (hold _ hin) _ hnew hne).not_has hx.region hx'.region
        exact ((hserved.kept _ hin (hold _ hin) x hx.region).trans (h.content g' hg' x hx)).trans
          (if_neg hout).symm
    · intro r hr x hx
      have hin : r ∈ regions c.machine.fw := h.books ▸ .inl hr
      exact (hserved.kept r hin (hold r hin) x hx).trans (h.others r hr x hx)

theorem Accounted.free (hS : Lawful S regions) (h : Accounted regions m₀ c) (hg : g ∈ c.live)
    (hsz : Releases g.sz sz g.align) :
    Accounted regions m₀
      { c with machine := blHeapFree S c.machine g.ptr sz, live := c.live.erase g } := by
  obtain ⟨hbooks, hkept⟩ := blHeapFree_spec hS (h.mem_books hg) hsz
  have hnodup : c.live.Nodup := List.Nodup.of_map _ h.distinct
  have hlive : ∀ {g'}, g' ∈ c.live.erase g → g' ∈ c.live ∧ g'.region ≠ g.region := by
    intro g' hg'
    obtain ⟨hne, hg'⟩ := hnodup.mem_erase_iff.mp hg'
    exact ⟨hg', fun heq => hne (List.inj_on_of_nodup_map h.distinct hg' hg heq)⟩
  refine ⟨?_, fun g' hg' => h.own g' (hlive hg').1, ?_, fun g' hg' => h.power g' (hlive hg').1, ?_,
    ?_⟩
  · rw [hbooks, h.books]
    ext r
    simp only [Set.mem_sdiff, Set.mem_union, Set.mem_ofPred_eq, Set.mem_singleton_iff]
    constructor
    · rintro ⟨hstart | ⟨g', hg', rfl⟩, hne⟩
      · exact .inl hstart
      · have hother : g' ≠ g := fun heq => hne (heq ▸ rfl)
        exact .inr ⟨g', hnodup.mem_erase_iff.mpr ⟨hother, hg'⟩, rfl⟩
    · rintro (hstart | ⟨g', hg', rfl⟩)
      · refine ⟨.inl hstart, ?_⟩
        rintro rfl
        exact h.own g hg hstart
      · exact ⟨.inr ⟨g', (hlive hg').1, rfl⟩, (hlive hg').2⟩
  · exact h.distinct.sublist (List.erase_sublist.map _)
  · intro g' hg' x hx
    obtain ⟨hin, hne⟩ := hlive hg'
    have hbook := h.mem_books hin
    exact (hkept _ hbook (hbooks ▸ ⟨hbook, hne⟩) x hx.region).trans (h.content g' hin x hx)
  · intro r hr x hx
    have hin : r ∈ regions c.machine.fw := h.books ▸ .inl hr
    have hne : r ≠ g.region := fun heq => h.own g hg (heq ▸ hr)
    exact (hkept r hin (hbooks ▸ ⟨hin, hne⟩) x hx).trans (h.others r hr x hx)

theorem Accounted.write (hS : Lawful S regions) (h : Accounted regions m₀ c) (hg : g ∈ c.live)
    {x : Nat} (v : Byte) (hx : g.Has x) :
    Accounted regions m₀
      { c with
        machine := { c.machine with mem := store c.machine.mem x v }
        content := store c.content x v } := by
  refine ⟨h.books, h.own, h.distinct, h.power, fun g' hg' y hy => ?_, fun r hr y hy => ?_⟩
  · rcases eq_or_ne y x with rfl | hne
    · exact (store_same _ _ _).trans (store_same _ _ _).symm
    · exact (store_other _ _ hne).trans ((h.content g' hg' y hy).trans (store_other _ _ hne).symm)
  · have hne : r ≠ g.region := fun heq => h.own g hg (heq ▸ hr)
    have hapart := hS.apart _ r (h.books ▸ .inl hr) _ (h.mem_books hg) hne
    have hout : y ≠ x := by
      rintro rfl
      exact hapart.not_has hy hx.region
    exact (store_other _ _ hout).trans (h.others r hr y hy)

theorem HeapStep.accounted (hS : Lawful S regions) (hstep : HeapStep S c c')
    (h : Accounted regions m₀ c) : Accounted regions m₀ c' := by
  cases hstep with
  | alloc sz =>
    have hspec := (blHeapAlloc_spec hS c.machine sz).imp_right fun hserved =>
      (⟨rfl, hserved⟩ : (1 : Nat) &&& (1 - 1) = 0 ∧ _)
    exact h.handOut hS hspec
  | allocAlign sz align hsz => exact h.handOut hS (blHeapAllocAlign_spec hS c.machine hsz)
  | free g sz hg hsz => exact h.free hS hg hsz
  | freeNull sz => exact h
  | write g x v hg hx => exact h.write hS hg v hx

theorem runs_account (hS : Lawful S regions) {content : Mem}
    (hrun : ReflTransGen (HeapStep S) ⟨m₀, [], content⟩ c) : Accounted regions m₀ c := by
  induction hrun with
  | refl => exact .start m₀ content
  | tail _ hstep ih => exact hstep.accounted hS ih

/-! ## What a run comes to -/

theorem small_dvd : ∀ a ≤ 8, a &&& (a - 1) = 0 → min (max a 1) 0x1000 ∣ 8 := by decide

theorem Accounted.aligned (hS : Lawful S regions) (h : Accounted regions m₀ c) (hg : g ∈ c.live) :
    g.Aligned := by
  have hin := h.mem_books hg
  have hbase := g.region_base
  have hpower := h.power g hg
  unfold Given.Aligned
  by_cases hsmall : g.align ≤ 8
  · have height : 8 ∣ g.ptr := by
      rw [← hbase]
      exact hS.poolAligned _ _ hin (by rw [Given.region, regionOf, if_pos hsmall])
    exact (small_dvd g.align hsmall hpower).trans height
  · have hpage : 2 ^ 12 ∣ g.ptr := by
      rw [← hbase]
      exact hS.pagesAligned _ _ hin (by rw [Given.region, regionOf, if_neg hsmall])
    obtain ⟨k, hk⟩ := (Nat.and_sub_one_eq_zero_iff_isPowerOfTwo (by omega)).mp hpower
    refine dvd_trans ?_ hpage
    rw [Nat.max_eq_left (by omega), hk]
    rcases Nat.le_total k 12 with hle | hle
    · rw [Nat.min_eq_left (Nat.pow_le_pow_right Nat.two_pos hle)]
      exact pow_dvd_pow 2 hle
    · rw [Nat.min_eq_right (Nat.pow_le_pow_right Nat.two_pos hle)]

/-- It hands out whole pages, also for pools, and never hands out a page again. -/
structure Bump where
  next : Nat
  live : List Region
  pos : 0 < next
  page : 0x1000 ∣ next
  le : next ≤ 2 ^ 32
  below : ∀ r ∈ live, 0 < r.base ∧ 0x1000 ∣ r.base ∧ r.stop ≤ next
  apart : ∀ r ∈ live, ∀ r' ∈ live, r ≠ r' → Apart r r'

def Bump.books (f : Bump) : Set Region := {r | r ∈ f.live}

def Bump.add (f : Bump) (s : Service) (n : Nat) : Option Bump :=
  if h : f.next + roundUp (max n 1) 0x1000 ≤ 2 ^ 32 then
    some
      { next := f.next + roundUp (max n 1) 0x1000
        live := ⟨s, f.next, n⟩ :: f.live
        pos := f.pos.trans_le (Nat.le_add_right _ _)
        page := Nat.dvd_add f.page (dvd_roundUp _ _)
        le := h
        below := by
          have hroom : max n 1 ≤ roundUp (max n 1) 0x1000 := le_roundUp (by decide)
          rintro r hr
          rcases List.mem_cons.mp hr with rfl | hr
          · exact ⟨f.pos, f.page, Nat.add_le_add_left hroom _⟩
          · exact ⟨(f.below r hr).1, (f.below r hr).2.1,
              (f.below r hr).2.2.trans (Nat.le_add_right _ _)⟩
        apart := by
          rintro r hr r' hr' hne
          rcases List.mem_cons.mp hr with rfl | hr <;> rcases List.mem_cons.mp hr' with rfl | hr'
          · exact absurd rfl hne
          · exact .inr (f.below r' hr').2.2
          · exact .inl (f.below r hr).2.2
          · exact f.apart r hr r' hr' hne }
  else none

def Bump.drop (f : Bump) (p : Region → Bool) : Bump :=
  { f with
    live := f.live.filter fun r => !p r
    below := fun r hr => f.below r (List.mem_of_mem_filter hr)
    apart := fun r hr r' hr' =>
      f.apart r (List.mem_of_mem_filter hr) r' (List.mem_of_mem_filter hr') }

/-- `EFI_ERROR_STATUS(9)`. -/
def efiOutOfResources : BitVec 32 := 0x80000009

theorem outOfResources_failed : efiOutOfResources ≠ efiSuccess := by decide

def bumpServices : BootServices Bump where
  allocatePages m n :=
    match m.fw.add .pages (0x1000 * n) with
    | none => (m, efiOutOfResources, 0)
    | some f => ({ m with fw := f }, efiSuccess, BitVec.ofNat 64 m.fw.next)
  freePages m addr n :=
    if ⟨.pages, addr.toNat, 0x1000 * n⟩ ∈ m.fw.live then
      ({ m with fw := m.fw.drop fun r => r = ⟨.pages, addr.toNat, 0x1000 * n⟩ }, efiSuccess)
    else (m, efiNotFound)
  allocatePool m n :=
    match m.fw.add .pool n with
    | none => (m, efiOutOfResources, 0)
    | some f => ({ m with fw := f }, efiSuccess, m.fw.next)
  freePool m ptr :=
    ({ m with fw := m.fw.drop fun r => r.service = .pool ∧ r.base = ptr }, efiSuccess)
  setMem m ptr n v := { m with mem := fun x => if ptr ≤ x ∧ x < ptr + n then v else m.mem x }

theorem Bump.add_spec (f f' : Bump) {s : Service} {n : Nat} (h : f.add s n = some f') :
    ⟨s, f.next, n⟩ ∉ f.books ∧ f'.books = insert ⟨s, f.next, n⟩ f.books := by
  unfold Bump.add at h
  split_ifs at h
  obtain rfl := Option.some.inj h
  refine ⟨fun hin => ?_, ?_⟩
  · have hstop := (f.below _ hin).2.2
    simp only [Region.stop] at hstop
    omega
  · ext r
    exact List.mem_cons

theorem Bump.eq_of_base (f : Bump) {r r' : Region} (hr : r ∈ f.live) (hr' : r' ∈ f.live)
    (hbase : r.base = r'.base) : r = r' := by
  by_contra hne
  have hapart := f.apart r hr r' hr' hne
  simp only [Apart, Region.stop] at hapart
  omega

theorem Bump.drop_books (f : Bump) (p : Region → Bool)
    (hp : ∀ r' ∈ f.live, p r' = true ↔ r' = r) : (f.drop p).books = f.books \ {r} := by
  ext r'
  simp only [Bump.books, Bump.drop, Set.mem_ofPred_eq, List.mem_filter, Bool.not_eq_true',
    Set.mem_sdiff, Set.mem_singleton_iff]
  refine and_congr_right fun hr' => ?_
  rw [← hp r' hr', Bool.not_eq_true]

theorem bumpServices_lawful : Lawful bumpServices Bump.books where
  apart f r hr r' hr' hne := f.apart r hr r' hr' hne
  inSpace f r hr := ⟨(f.below r hr).1, (f.below r hr).2.2.trans f.le⟩
  pagesAligned f r hr _ := (f.below r hr).2.1
  poolAligned f r hr _ := dvd_trans (by decide) (f.below r hr).2.1
  allocatePages m n _ := by
    simp only [bumpServices]
    cases hadd : m.fw.add .pages (0x1000 * n) with
    | none => exact ⟨fun _ _ _ _ _ => rfl, fun _ => rfl, fun h => absurd h outOfResources_failed⟩
    | some f =>
      have haddr : (BitVec.ofNat 64 m.fw.next).toNat = m.fw.next := by
        have := m.fw.le
        rw [BitVec.toNat_ofNat, Nat.mod_eq_of_lt (by omega)]
      refine ⟨fun _ _ _ _ _ => rfl, fun h => absurd rfl h, fun _ => ?_⟩
      simp only [haddr]
      exact m.fw.add_spec f hadd
  allocatePool m n := by
    simp only [bumpServices]
    cases hadd : m.fw.add .pool n with
    | none => exact ⟨fun _ _ _ _ _ => rfl, fun _ => rfl, fun h => absurd h outOfResources_failed⟩
    | some f =>
      exact ⟨fun _ _ _ _ _ => rfl, fun h => absurd rfl h, fun _ => m.fw.add_spec f hadd⟩
  freePages m addr n hr := by
    have hlive : ⟨.pages, addr.toNat, 0x1000 * n⟩ ∈ m.fw.live := hr
    simp only [bumpServices, if_pos hlive]
    exact ⟨fun _ _ _ _ _ => rfl, trivial,
      m.fw.drop_books _ fun r' _ => decide_eq_true_iff⟩
  freePages_notFound m addr n hnone := by
    have hlive : ⟨.pages, addr.toNat, 0x1000 * n⟩ ∉ m.fw.live := fun hin =>
      hnone _ hin rfl ⟨le_rfl, by simp only [Region.stop]; omega⟩
    simp only [bumpServices, if_neg hlive]
    exact ⟨fun _ _ _ _ _ => rfl, trivial, trivial⟩
  freePool m ptr n hr := by
    refine ⟨fun _ _ _ _ _ => rfl, m.fw.drop_books _ fun r' hr' => ?_⟩
    rw [decide_eq_true_iff]
    constructor
    · rintro ⟨-, hbase⟩
      exact m.fw.eq_of_base hr' hr hbase
    · rintro rfl
      exact ⟨rfl, rfl⟩
  setMem m ptr n v := ⟨rfl, fun x => rfl⟩

def bumpStart : Machine Bump :=
  ⟨⟨0x1000, [], by decide, by decide, by decide, by simp, by simp⟩, fun _ => 1⟩

end BootLoader.Uefi

import BootLoader.Ehci.Code
import BootLoader.Heap.Proofs
import BootLoader.Lib.Fuel

/-!
# The buffer of an EHCI descriptor

It has entries for the start of the buffer and for four pages behind. The loop that fills them stays
at the second one.
-/

open Filter DescriptorPool RoundUp

namespace BootLoader.Ehci.Pages

open Usb Heap

def bufferSize : Nat := 0x1000

/-- The words from `buffer_pointer` on: its five, the five of `extended_buffer_pointer`, and what
follows them. -/
structure BlEhciQtd where
  token : BitVec 32
  bufferPointer : Nat → Nat

/-- What is left of the buffer behind the page of an entry. -/
def tdBufferAlignment (pointer : Nat) (left : Int) : Int :=
  if pointer % bufferSize ≠ 0 then
    left - ((blMemoryAlignUp pointer bufferSize + 2 ^ 32 - pointer) % 2 ^ 32 : Nat)
  else left - bufferSize

/-- `none`: the loop does not end. -/
def fillPages (i : Nat) : Nat → Int → (Nat → Nat) → Option (Nat → Nat)
  | 0, _, _ => none
  | fuel + 1, left, pointers =>
    if 0 < left then
      -- `i` is the same in the next round.
      let pointers := Function.update pointers i (blMemoryAlignUp (pointers (i - 1)) bufferSize)
      fillPages i fuel (tdBufferAlignment (pointers i) left) pointers
    else some pointers

def initializedQtd (fuel buf : Nat) (length : Int) (toggle : Bool) (pid : BlUsbPid) :
    Option BlEhciQtd :=
  if buf ≠ 0 ∧ length ≠ 0 then
    let pointers := Function.update (fun _ => 0) 0 buf
    (fillPages 1 fuel (tdBufferAlignment (pointers 0) length) pointers).map fun bufferPointer =>
      ⟨qtdToken length.toNat toggle pid, bufferPointer⟩
  else some ⟨qtdToken 0 toggle pid, fun _ => 0⟩

/-- The pool and the descriptor, or null. -/
def blEhciInitQtd (fuel buf : Nat) (length : Int) (toggle : Bool) (pid : BlUsbPid)
    (qtds : Pool BlEhciQtd) : Option (Pool BlEhciQtd × Option Nat) :=
  if maxBufferSize < length ∨ length < 0 then some (qtds, none)
  else
    (initializedQtd fuel buf length toggle pid).map fun qtd =>
      match take qtds blEhciNumQtds qtd with
      | none => (qtds, none)
      | some (qtds, i) => (qtds, some i)

/-! ## What the entries should hold -/

def pagesTouched (buf length : Nat) : Nat := (buf % bufferSize + length + 0xfff) / bufferSize

structure Filled (buf length : Nat) (pointers : Nat → Nat) : Prop where
  start : pointers 0 = buf
  page : ∀ k, 0 < k → k < pagesTouched buf length →
    pointers k = (buf / bufferSize + k) * bufferSize
  outside : ∀ k, 5 ≤ k → pointers k = 0

/-- While there is a free descriptor: a buffer in five pages is described, and one in more takes no
descriptor. -/
def PagesRight (buf length : Nat) : Prop :=
  ∀ toggle pid qtds, (∃ i < blEhciNumQtds, (qtds i).used = false) →
    ∀ᶠ fuel in atTop,
      if pagesTouched buf length ≤ 5 then
        ∃ qtds' i, blEhciInitQtd fuel buf length toggle pid qtds = some (qtds', some i) ∧
          Filled buf length (qtds' i).body.bufferPointer
      else blEhciInitQtd fuel buf length toggle pid qtds = some (qtds, none)

variable {buf length : Nat} {left : Int} {pointers : Nat → Nat} {toggle : Bool} {pid : BlUsbPid}
  {qtds : Pool BlEhciQtd}

/-! ## The loop -/

theorem alignUp_aligned (addr : Nat) : blMemoryAlignUp addr bufferSize % bufferSize = 0 := by
  rw [show bufferSize = 2 ^ 12 from rfl, blMemoryAlignUp_eq addr (by decide)]
  exact Nat.mul_mod_left _ _

/-- The round after the first one writes the same entry again. -/
theorem fillPages_ends (left : Int) (pointers : Nat → Nat) :
    ∀ᶠ fuel in atTop, fillPages 1 fuel left pointers =
      some (if 0 < left then
        Function.update pointers 1 (blMemoryAlignUp (pointers 0) bufferSize) else pointers) := by
  induction hn : left.toNat using Nat.strong_induction_on generalizing left pointers with
  | _ n ih =>
    by_cases hleft : 0 < left
    · have hrest := ih (left - bufferSize).toNat (by simp only [bufferSize]; omega)
        (left - bufferSize) (Function.update pointers 1 (blMemoryAlignUp (pointers 0) bufferSize))
        rfl
      refine Fuel.eventually_round hrest fun fuel hfuel => ?_
      rw [Function.update_of_ne (by decide), Function.update_idem, ite_self] at hfuel
      unfold fillPages
      rw [if_pos hleft, if_pos hleft, ← hfuel]
      simp only [Nat.sub_self, Function.update_self]
      unfold tdBufferAlignment
      rw [if_neg (not_not.mpr (alignUp_aligned _))]
    · refine Fuel.eventually_of_succ fun fuel => ?_
      unfold fillPages
      rw [if_neg hleft, if_neg hleft]

/-- The entries of a descriptor: the second one is the first one rounded up. -/
def entries (buf length : Nat) : Nat → Nat :=
  let pointers := Function.update (fun _ => 0) 0 buf
  if 0 < tdBufferAlignment buf length then
    Function.update pointers 1 (blMemoryAlignUp buf bufferSize)
  else pointers

theorem initializedQtd_ends (hlength : 0 < length) (toggle : Bool) (pid : BlUsbPid) :
    ∀ᶠ fuel in atTop, ∃ token,
      initializedQtd fuel buf length toggle pid = some ⟨token, entries buf length⟩ := by
  by_cases hbuf : buf = 0
  · have hentries : entries buf length = fun _ => 0 := by
      subst hbuf
      have hround : blMemoryAlignUp 0 bufferSize = 0 := rfl
      unfold entries
      rw [hround]
      split_ifs <;> simp
    refine .of_forall fun fuel => ⟨qtdToken 0 toggle pid, ?_⟩
    unfold initializedQtd
    rw [if_neg fun h => h.1 hbuf, hentries]
  · refine (fillPages_ends (tdBufferAlignment buf length)
      (Function.update (fun _ => 0) 0 buf)).mono fun fuel hfuel => ?_
    refine ⟨qtdToken length toggle pid, ?_⟩
    unfold initializedQtd entries
    rw [if_pos ⟨hbuf, by omega⟩]
    simp only [Function.update_self] at hfuel ⊢
    rw [hfuel]
    rfl

/-- The token is the one of `Ehci.initializedQtd`, which has the first entry only. -/
theorem initializedQtd_token {fuel : Nat} {length : Int} {qtd : BlEhciQtd}
    (h : initializedQtd fuel buf length toggle pid = some qtd) (p : Ptr) :
    qtd.token = (Ehci.initializedQtd (if buf = 0 then none else some p) length.toNat toggle
      pid).token := by
  unfold initializedQtd at h
  unfold Ehci.initializedQtd
  split_ifs at h with hboth
  · obtain ⟨pointers, -, rfl⟩ := Option.map_eq_some_iff.mp h
    simp [hboth.1]
  · cases h
    by_cases hbuf : buf = 0
    · simp [hbuf]
    · obtain rfl : length = 0 := by
        by_contra hlength
        exact hboth ⟨hbuf, hlength⟩
      simp [hbuf]

/-! ## The entries -/

theorem tdBufferAlignment_eq (hbuf : buf < 2 ^ 32) (left : Int) :
    tdBufferAlignment buf left = left + (buf % bufferSize : Nat) - bufferSize := by
  have hround := @blMemoryAlignUp_eq buf 12 (by decide)
  unfold tdBufferAlignment
  rw [show bufferSize = 2 ^ 12 from rfl, hround]
  split_ifs <;> omega

theorem entries_start (buf length : Nat) : entries buf length 0 = buf := by
  unfold entries
  split_ifs <;> simp

theorem entries_second (hbuf : buf < 2 ^ 32) (h : bufferSize < buf % bufferSize + length) :
    entries buf length 1 = blMemoryAlignUp buf bufferSize := by
  have hleft : 0 < tdBufferAlignment buf length := by
    rw [tdBufferAlignment_eq hbuf]
    omega
  unfold entries
  rw [if_pos hleft, Function.update_self]

theorem entries_behind (buf length : Nat) {k : Nat} (hk : 2 ≤ k) : entries buf length k = 0 := by
  unfold entries
  split_ifs <;> simp [Function.update_of_ne, show k ≠ 0 by omega, show k ≠ 1 by omega]

/-- At most the second page is described, and that only behind an unaligned start. -/
theorem entries_filled_iff (hlength : 0 < length) (hend : buf + length ≤ 2 ^ 32) :
    Filled buf length (entries buf length) ↔
      buf % bufferSize + length ≤ bufferSize ∨
        buf % bufferSize ≠ 0 ∧ buf % bufferSize + length ≤ 2 * bufferSize := by
  have hbuf : buf < 2 ^ 32 := by omega
  have hround := @blMemoryAlignUp_eq buf 12 (by decide)
  rw [show 2 ^ 12 = bufferSize from rfl] at hround
  constructor
  · intro h
    by_contra hmore
    have hsecond := h.page 1 (by decide)
    rw [entries_second hbuf (by omega), hround] at hsecond
    have hthird := h.page 2 (by decide)
    rw [entries_behind buf length le_rfl] at hthird
    simp only [pagesTouched, bufferSize] at hmore hsecond hthird
    by_cases haligned : buf % 0x1000 = 0
    · have hpage := hsecond (by omega)
      omega
    · have hpage := hthird (by omega)
      omega
  · intro h
    refine ⟨entries_start buf length, fun k hpos hk => ?_,
      fun k hk => entries_behind _ _ (by omega)⟩
    simp only [pagesTouched, bufferSize] at h hk
    obtain rfl : k = 1 := by omega
    rw [entries_second hbuf (by simp only [bufferSize]; omega), hround]
    simp only [bufferSize]
    omega

/-! ## Descriptors -/

theorem blEhciInitQtd_long (h : maxBufferSize < length) (fuel buf : Nat) (toggle : Bool)
    (pid : BlUsbPid) (qtds : Pool BlEhciQtd) :
    blEhciInitQtd fuel buf length toggle pid qtds = some (qtds, none) := by
  unfold blEhciInitQtd
  rw [if_pos (.inl (by exact_mod_cast h))]

theorem blEhciInitQtd_ends (hlength : 0 < length) (h : length ≤ maxBufferSize) (toggle : Bool)
    (pid : BlUsbPid) (hfree : ∃ i < blEhciNumQtds, (qtds i).used = false) :
    ∀ᶠ fuel in atTop, ∃ qtds' i,
      blEhciInitQtd fuel buf length toggle pid qtds = some (qtds', some i) ∧
        (qtds' i).body.bufferPointer = entries buf length := by
  refine (@initializedQtd_ends buf length hlength toggle pid).mono fun fuel ⟨token, hqtd⟩ => ?_
  obtain ⟨⟨qtds', i⟩, htake⟩ :
      ∃ r, take qtds blEhciNumQtds ⟨token, entries buf length⟩ = some r := by
    refine Option.ne_none_iff_exists'.mp fun hnone => ?_
    obtain ⟨i, hi, hunused⟩ := hfree
    rw [take_eq_none hnone i hi] at hunused
    contradiction
  refine ⟨qtds', i, ?_, ?_⟩
  · unfold blEhciInitQtd
    rw [if_neg (by omega), hqtd, Option.map_some, htake]
  · obtain ⟨-, -, rfl⟩ := take_spec htake
    rw [Function.update_self]

theorem PagesRight.filled (h : PagesRight buf length) (hlength : 0 < length)
    (hshort : length ≤ maxBufferSize) : Filled buf length (entries buf length) := by
  let qtds : Pool BlEhciQtd := fun _ => ⟨false, none, ⟨0, fun _ => 0⟩⟩
  have hfree : ∃ i < blEhciNumQtds, (qtds i).used = false := ⟨0, by decide, rfl⟩
  obtain ⟨fuel, hright, qtds', i, hqtd, hentries⟩ :=
    ((h false .tokenIn qtds hfree).and
      (@blEhciInitQtd_ends buf length qtds hlength hshort false .tokenIn hfree)).exists
  rw [hqtd] at hright
  split_ifs at hright
  · obtain ⟨_, _, heq, hfilled⟩ := hright
    cases heq
    rwa [hentries] at hfilled
  · cases hright

/-- **When the buffer is described.** A length above the limit is rejected; else the buffer must
stay in its first page, or in two of which it does not begin the first. -/
theorem pagesRight_iff (buf length : Nat) (hlength : 1 ≤ length) (hend : buf + length ≤ 2 ^ 32) :
    PagesRight buf length ↔
      maxBufferSize < length ∨ buf % bufferSize + length ≤ bufferSize ∨
        buf % bufferSize ≠ 0 ∧ buf % bufferSize + length ≤ 2 * bufferSize := by
  rw [← entries_filled_iff hlength hend]
  constructor
  · intro h
    by_cases hlong : maxBufferSize < length
    · exact .inl hlong
    · exact .inr (h.filled hlength (not_lt.mp hlong))
  · rintro (hlong | hfilled) toggle pid qtds hfree
    · refine .of_forall fun fuel => ?_
      rw [if_neg (by simp only [pagesTouched, bufferSize, maxBufferSize] at hlong ⊢; omega)]
      exact blEhciInitQtd_long hlong ..
    · have hpages := (entries_filled_iff hlength hend).mp hfilled
      simp only [bufferSize] at hpages
      have hshort : length ≤ maxBufferSize := by
        simp only [maxBufferSize]
        omega
      refine (@blEhciInitQtd_ends buf length qtds hlength hshort toggle pid hfree).mono
        fun fuel ⟨qtds', i, hqtd, hentries⟩ => ?_
      rw [if_pos (by simp only [pagesTouched, bufferSize]; omega)]
      exact ⟨qtds', i, hqtd, hentries ▸ hfilled⟩

/-- A packet across one border of two pages. -/
theorem crossing_right : PagesRight 0x10fff 0x200 :=
  (pagesRight_iff 0x10fff 0x200 (by decide) (by decide)).mpr (.inr (.inr (by decide)))

/-- Two whole pages: the second entry holds the first page again. -/
theorem wholePages_not_right : ¬ ∀ buf length, 1 ≤ length → length ≤ maxBufferSize →
    buf + length ≤ 2 ^ 32 → PagesRight buf length := by
  intro h
  have hfilled := (h 0x10000 0x2000 (by decide) (by decide) (by decide)).filled (by decide)
    (by decide)
  have hpages := (entries_filled_iff (by decide) (by decide)).mp hfilled
  revert hpages
  decide

end BootLoader.Ehci.Pages

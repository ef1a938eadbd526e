import BootLoader.Lib.WordUpdates
import BootLoader.Uefi.Code
import Mathlib.Data.List.Induction

/-!
# What self-relocation leaves in the image

Every target gets the base added once, as long as no entry rewrites one that is still to come.
-/

open ByteMemory WordUpdates

namespace BootLoader.Uefi

open Elf

variable {m m' : Mem} {base entry reloc n : Nat}

/-! ## The dynamic section -/

/-- `n` entries stand before the one that ends the section. -/
structure DynamicSection (m : Mem) (entry n : Nat) : Prop where
  tagged : ∀ i < n, (dynamicEntry m entry i).dTag ≠ dtNull
  ended : (dynamicEntry m entry n).dTag = dtNull

def dynamicEntries (m : Mem) (entry n : Nat) : List Elf32Dyn :=
  (List.range n).map (dynamicEntry m entry)

/-- What the last entry of a tag says. -/
def lastValue (es : List Elf32Dyn) (tag : Nat) : Option Nat :=
  (es.filter (·.dTag = tag)).getLast?.map Elf32Dyn.dUn

theorem lastValue_concat (es : List Elf32Dyn) (e : Elf32Dyn) (tag : Nat) :
    lastValue (es ++ [e]) tag = if e.dTag = tag then some e.dUn else lastValue es tag := by
  unfold lastValue
  rw [List.filter_append, List.filter_singleton]
  split_ifs with h <;> simp [h]

theorem foldl_add (base : Nat) (es : List Elf32Dyn) :
    es.foldl (Described.add base) ⟨0, 0, 0⟩ =
      ⟨(lastValue es dtRel).elim 0 fun p => (base + p) % 2 ^ 32,
        (lastValue es dtRelsz).getD 0, (lastValue es dtRelent).getD 0⟩ := by
  induction es using List.reverseRecOn with
  | nil => rfl
  | append_singleton es e ih =>
    rw [List.foldl_append, ih, List.foldl_cons, List.foldl_nil, lastValue_concat,
      lastValue_concat, lastValue_concat, Described.add]
    by_cases hrel : e.dTag = dtRel
    · simp [hrel, dtRel, dtRelsz, dtRelent]
    · by_cases hsize : e.dTag = dtRelsz
      · simp [hsize, dtRel, dtRelsz, dtRelent]
      · by_cases hent : e.dTag = dtRelent
        · simp [hent, dtRel, dtRelsz, dtRelent]
        · simp [hrel, hsize, hent]

theorem dynamicFrom_eq (base : Nat) (h : DynamicSection m entry n) {fuel i k : Nat}
    (hi : i + k = n) (hfuel : k < fuel) (d : Described) :
    dynamicFrom m base entry fuel i d =
      some (((List.range' i k).map (dynamicEntry m entry)).foldl (Described.add base) d) := by
  induction k generalizing fuel i d with
  | zero =>
    obtain ⟨fuel, rfl⟩ : ∃ f, fuel = f + 1 := ⟨fuel - 1, by omega⟩
    obtain rfl : i = n := hi
    rw [dynamicFrom, if_pos h.ended]
    rfl
  | succ k ih =>
    obtain ⟨fuel, rfl⟩ : ∃ f, fuel = f + 1 := ⟨fuel - 1, by omega⟩
    rw [dynamicFrom, if_neg (h.tagged i (by omega)), ih (by omega) (by omega), List.range'_succ,
      List.map_cons, List.foldl_cons]

/-- The dynamic section has a table at `base + p` of entries that the code can read. -/
structure Loads (base : Nat) (es : List Elf32Dyn) (p : Nat) : Prop where
  rel : lastValue es dtRel = some p
  not_null : (base + p) % 2 ^ 32 ≠ 0
  relent : lastValue es dtRelent = some 8

/-- The entries of the table; there are none where `DT_RELSZ` is missing. -/
def relocationCount (es : List Elf32Dyn) : Nat := (lastValue es dtRelsz).getD 0 / 8

/-! ## The relocation table -/

def IsRelative (m : Mem) (reloc i : Nat) : Prop :=
  elf32RType (relocation m reloc i).rInfo = r386Relative

instance (m : Mem) (reloc i : Nat) : Decidable (IsRelative m reloc i) :=
  inferInstanceAs (Decidable (_ = _))

/-- Where entry `i` is applied. -/
def target (m : Mem) (base reloc i : Nat) : Nat :=
  (base + (relocation m reloc i).rOffset.toNat) % 2 ^ 32

/-- The relative entries of a table, and they have targets of their own. -/
structure TargetsApart (m : Mem) (base reloc count : Nat) : Prop where
  table_fits : reloc + 8 * count ≤ 2 ^ 32
  target_fits : ∀ i < count, IsRelative m reloc i → target m base reloc i + 4 ≤ 2 ^ 32
  apart : ∀ j < count, ∀ i < j, IsRelative m reloc i → IsRelative m reloc j →
    target m base reloc i + 4 ≤ target m base reloc j ∨
      target m base reloc j + 4 ≤ target m base reloc i

/-- No entry is applied to one that comes later. -/
def LeavesTable (m : Mem) (base reloc count : Nat) : Prop :=
  ∀ j < count, ∀ i < j, IsRelative m reloc i →
    target m base reloc i + 4 ≤ reloc + 8 * j ∨ reloc + 8 * j + 8 ≤ target m base reloc i

structure RelocatedOnce (m m' : Mem) (base reloc count : Nat) : Prop where
  targets : ∀ i < count, IsRelative m reloc i →
    read32 m' (target m base reloc i) = (read32 m (target m base reloc i) + base) % 2 ^ 32
  others : ∀ x, (∀ i < count, IsRelative m reloc i →
    x < target m base reloc i ∨ target m base reloc i + 4 ≤ x) → m' x = m x

def updateOf (m : Mem) (base reloc i : Nat) : Option Update :=
  if IsRelative m reloc i then some ⟨target m base reloc i, 4, base⟩ else none

/-- What the table asks for, as it stands before anything is relocated. -/
def updates (m : Mem) (base reloc count : Nat) : List Update :=
  (List.range count).filterMap (updateOf m base reloc)

theorem updateOf_eq_some_iff {i : Nat} {u : Update} :
    updateOf m base reloc i = some u ↔
      IsRelative m reloc i ∧ u = ⟨target m base reloc i, 4, base⟩ := by
  unfold updateOf
  split_ifs with h <;> simp [h, eq_comm]

theorem mem_updates {count : Nat} {u : Update} :
    u ∈ updates m base reloc count ↔
      ∃ i < count, IsRelative m reloc i ∧ u = ⟨target m base reloc i, 4, base⟩ := by
  simp [updates, updateOf_eq_some_iff]

/-- An entry asks for the same in every memory that has it. -/
theorem relocateRelative_eq {i : Nat} (hsame : relocation m' reloc i = relocation m reloc i) :
    relocateRelative base reloc m' i =
      (updateOf m base reloc i).toList.foldl Update.apply m' := by
  unfold relocateRelative
  rw [hsame]
  by_cases hrelative : IsRelative m reloc i
  · rw [updateOf, if_pos hrelative]
    exact if_pos hrelative
  · rw [updateOf, if_neg hrelative]
    exact if_neg hrelative

theorem relocation_foldl {count : Nat} {us : List Update} (hfits : reloc + 8 * count + 8 ≤ 2 ^ 32)
    (h : ∀ u ∈ us, u.place + u.width ≤ reloc + 8 * count ∨ reloc + 8 * count + 8 ≤ u.place) :
    relocation (us.foldl Update.apply m) reloc count = relocation m reloc count := by
  have hword (k : Nat) (hk : k ≤ 4) : read32 (us.foldl Update.apply m) (reloc + 8 * count + k) =
      read32 m (reloc + 8 * count + k) := by
    apply readLE_congr
    intro x hlow hhigh
    apply foldl_outside
    intro u hu
    have := h u hu
    omega
  unfold relocation
  rw [Nat.mod_eq_of_lt (by omega : reloc + 8 * count < 2 ^ 32),
    Nat.mod_eq_of_lt (by omega : reloc + 8 * count + 4 < 2 ^ 32), hword 4 (by omega)]
  rw [show read32 (us.foldl Update.apply m) (reloc + 8 * count) = read32 m (reloc + 8 * count) from
    hword 0 (by omega)]

/-- The loop does what the table asked for before it ran. -/
theorem foldl_relocateRelative {count : Nat} (hfits : reloc + 8 * count ≤ 2 ^ 32)
    (h : LeavesTable m base reloc count) :
    (List.range count).foldl (relocateRelative base reloc) m =
      (updates m base reloc count).foldl Update.apply m := by
  induction count with
  | zero => rfl
  | succ count ih =>
    have hentry : relocation ((updates m base reloc count).foldl Update.apply m) reloc count =
        relocation m reloc count := by
      apply relocation_foldl (by omega)
      intro u hu
      obtain ⟨i, hi, hrelative, rfl⟩ := mem_updates.mp hu
      exact h count (Nat.lt_succ_self count) i hi hrelative
    have hsplit : updates m base reloc (count + 1) =
        updates m base reloc count ++ (updateOf m base reloc count).toList := by
      unfold updates
      rw [List.range_succ, List.filterMap_append]
      cases hu : updateOf m base reloc count <;> simp [hu]
    rw [List.range_succ, List.foldl_append, ih (by omega) fun j hj => h j (by omega),
      List.foldl_cons, List.foldl_nil, relocateRelative_eq hentry, hsplit, List.foldl_append]

theorem TargetsApart.pairwise {count : Nat} (h : TargetsApart m base reloc count) :
    (updates m base reloc count).Pairwise Update.Apart := by
  unfold updates
  rw [List.pairwise_filterMap]
  apply List.Pairwise.imp_of_mem ?_ List.pairwise_lt_range
  intro i j hi hj hlt u hu v hv
  obtain ⟨hirel, rfl⟩ := updateOf_eq_some_iff.mp hu
  obtain ⟨hjrel, rfl⟩ := updateOf_eq_some_iff.mp hv
  exact h.apart j (List.mem_range.mp hj) i hlt hirel hjrel

theorem TargetsApart.relocatedOnce {count : Nat} (h : TargetsApart m base reloc count)
    (hleaves : LeavesTable m base reloc count) :
    RelocatedOnce m ((List.range count).foldl (relocateRelative base reloc) m) base reloc
      count := by
  rw [foldl_relocateRelative h.table_fits hleaves]
  constructor
  · intro i hi hrelative
    exact readLE_foldl_of_pairwise h.pairwise (mem_updates.mpr ⟨i, hi, hrelative, rfl⟩)
  · intro x hx
    apply foldl_outside
    intro u hu
    obtain ⟨i, hi, hrelative, rfl⟩ := mem_updates.mp hu
    exact hx i hi hrelative

/-! ## Self-relocation -/

/-- `bl_efi_relocate_self` returns; it succeeds where `present` says so, and then every target is
relocated once. -/
def RelocatesSelf (m : Mem) (base entry n : Nat) (present : Prop) : Prop :=
  ∃ rounds, ∀ fuel ≥ rounds, ∃ status m',
    blEfiRelocateSelf m base entry fuel = some (status, m') ∧
    (status = .success ↔ present) ∧ (status ≠ .success → m' = m) ∧
    (status = .success → ∀ p, lastValue (dynamicEntries m entry n) dtRel = some p →
      RelocatedOnce m m' base ((base + p) % 2 ^ 32)
        (relocationCount (dynamicEntries m entry n)))

theorem blEfiRelocateSelf_eq (hmz : read16 m base = mzDosMagic) (hdyn : DynamicSection m entry n)
    {fuel : Nat} (hfuel : n < fuel) :
    ((¬ ∃ p, Loads base (dynamicEntries m entry n) p) →
      blEfiRelocateSelf m base entry fuel = some (.loadError, m)) ∧
    ∀ p, Loads base (dynamicEntries m entry n) p →
      blEfiRelocateSelf m base entry fuel =
        some (.success, (List.range (relocationCount (dynamicEntries m entry n))).foldl
          (relocateRelative base ((base + p) % 2 ^ 32)) m) := by
  have hscan := dynamicFrom_eq base hdyn (Nat.zero_add n) hfuel ⟨0, 0, 0⟩
  rw [← List.range_eq_range', ← dynamicEntries, foldl_add] at hscan
  constructor
  · intro hnone
    rw [blEfiRelocateSelf, if_neg (not_not.mpr hmz), hscan]
    apply if_pos
    by_contra hreads
    push Not at hreads
    obtain ⟨hreloc, hsize, height⟩ := hreads
    cases hrel : lastValue (dynamicEntries m entry n) dtRel with
    | none => simp [hrel] at hreloc
    | some p =>
      refine hnone ⟨p, hrel, by simpa [hrel] using hreloc, ?_⟩
      cases hent : lastValue (dynamicEntries m entry n) dtRelent with
      | none => simp [hent] at hsize
      | some size => simpa [hent] using height
  · rintro p ⟨hrel, hnull, hent⟩
    rw [blEfiRelocateSelf, if_neg (not_not.mpr hmz), hscan]
    simpa [hrel, hent, relocationCount] using hnull

theorem relocates_self (hmz : read16 m base = mzDosMagic) (hdyn : DynamicSection m entry n)
    (htable : ∀ p, Loads base (dynamicEntries m entry n) p →
      TargetsApart m base ((base + p) % 2 ^ 32) (relocationCount (dynamicEntries m entry n)) ∧
      LeavesTable m base ((base + p) % 2 ^ 32) (relocationCount (dynamicEntries m entry n))) :
    RelocatesSelf m base entry n (∃ p, Loads base (dynamicEntries m entry n) p) := by
  refine ⟨n + 1, fun fuel hfuel => ?_⟩
  obtain ⟨hfails, hloads⟩ := blEfiRelocateSelf_eq hmz hdyn hfuel
  by_cases hpresent : ∃ p, Loads base (dynamicEntries m entry n) p
  · obtain ⟨p, hp⟩ := hpresent
    obtain ⟨hapart, hleaves⟩ := htable p hp
    refine ⟨_, _, hloads p hp, iff_of_true rfl ⟨p, hp⟩, fun h => absurd rfl h, fun _ q hq => ?_⟩
    obtain rfl : p = q := Option.some.inj (hp.rel.symm.trans hq)
    exact hapart.relocatedOnce hleaves
  · exact ⟨_, _, hfails hpresent, iff_of_false (by decide) hpresent, fun _ => rfl,
      fun h => absurd h (by decide)⟩

/-- The entries that `bl_efi_relocate_self` asks for are there. -/
def Present (es : List Elf32Dyn) : Prop :=
  (∃ e ∈ es, e.dTag = dtRel) ∧ ∃ e ∈ es, e.dTag = dtRelent ∧ e.dUn = 8

instance (es : List Elf32Dyn) : Decidable (Present es) :=
  inferInstanceAs (Decidable (_ ∧ _))

/-- The entries that are there count, and the table may be anywhere. -/
def RelocatesAnyTable (m : Mem) (base entry n : Nat) : Prop :=
  read16 m base = mzDosMagic → DynamicSection m entry n →
  (∀ p, lastValue (dynamicEntries m entry n) dtRel = some p →
    TargetsApart m base ((base + p) % 2 ^ 32)
      (relocationCount (dynamicEntries m entry n))) →
  RelocatesSelf m base entry n (Present (dynamicEntries m entry n))

/-- An image that is turned down although its entries are there. -/
theorem not_relocatesAnyTable (hmz : read16 m base = mzDosMagic) (hdyn : DynamicSection m entry n)
    (hapart : ∀ p, lastValue (dynamicEntries m entry n) dtRel = some p →
      TargetsApart m base ((base + p) % 2 ^ 32)
        (relocationCount (dynamicEntries m entry n)))
    (hpresent : Present (dynamicEntries m entry n))
    (hnone : ¬ ∃ p, Loads base (dynamicEntries m entry n) p) :
    ¬ RelocatesAnyTable m base entry n := by
  intro hany
  obtain ⟨rounds, hruns⟩ := hany hmz hdyn hapart
  obtain ⟨status, m', hrun, hiff, -⟩ := hruns (rounds + n + 1) (by omega)
  rw [(blEfiRelocateSelf_eq hmz hdyn (by omega)).1 hnone, Option.some.injEq, Prod.mk.injEq] at hrun
  have hstatus := hiff.mpr hpresent
  rw [← hrun.1] at hstatus
  cases hstatus

/-! ## Images at `0x1000` -/

/-- The magic, the dynamic section at `0x1100`, the table at `0x1200`, and a word at `0x1300`. -/
def imageWith (dynamic table : List Nat) : Mem :=
  ofPieces [(0x1000, [0x4d, 0x5a]), (0x1100, dynamic.flatMap (bytesLE 4)),
    (0x1200, table.flatMap (bytesLE 4)), (0x1300, bytesLE 4 5)]

/-- One word to relocate, and an entry of another type. -/
def oneWord : Mem := imageWith [19, 8, 18, 16, 17, 0x200] [0x300, 8, 0x208, 0]

theorem oneWord_relocates :
    RelocatesSelf oneWord 0x1000 0x1100 3 (∃ p, Loads 0x1000 (dynamicEntries oneWord 0x1100 3) p) ∧
    Loads 0x1000 (dynamicEntries oneWord 0x1100 3) 0x200 := by
  have hloads : Loads 0x1000 (dynamicEntries oneWord 0x1100 3) 0x200 :=
    ⟨by decide +kernel, by decide, by decide +kernel⟩
  have hcount : relocationCount (dynamicEntries oneWord 0x1100 3) = 2 := by decide +kernel
  refine ⟨relocates_self (by decide +kernel) ⟨by decide +kernel, by decide +kernel⟩ ?_, hloads⟩
  intro p hp
  obtain rfl : 0x200 = p := Option.some.inj (hloads.rel.symm.trans hp.rel)
  rw [hcount]
  refine ⟨⟨by decide, by decide +kernel, ?_⟩, ?_⟩
  · decide +kernel
  · unfold LeavesTable
    decide +kernel

/-- The first entry is applied to the second one, which then names another word. -/
def selfAltering : Mem := imageWith [17, 0x200, 18, 16, 19, 8] [0x208, 8, 0x300, 8]

/-- The table is said to stand at address 0. -/
def tableAtNull : Mem := imageWith [17, 0xfffff000, 19, 8] []

/-- The entries are said to be of 8 bytes, and then of 12. -/
def twoEntrySizes : Mem := imageWith [17, 0x200, 19, 8, 19, 12] []

theorem selfAltering_not_relocated :
    ¬ RelocatesAnyTable selfAltering 0x1000 0x1100 3 ∧
    ¬ RelocatesAnyTable tableAtNull 0x1000 0x1100 2 ∧
    ¬ RelocatesAnyTable twoEntrySizes 0x1000 0x1100 3 := by
  refine ⟨?_, ?_, ?_⟩
  · intro hany
    have hmz : read16 selfAltering 0x1000 = mzDosMagic := by decide +kernel
    have hdyn : DynamicSection selfAltering 0x1100 3 := ⟨by decide +kernel, by decide +kernel⟩
    have hloads : Loads 0x1000 (dynamicEntries selfAltering 0x1100 3) 0x200 :=
      ⟨by decide +kernel, by decide, by decide +kernel⟩
    have hcount : relocationCount (dynamicEntries selfAltering 0x1100 3) = 2 := by decide +kernel
    have hapart : TargetsApart selfAltering 0x1000 0x1200 2 :=
      ⟨by decide, by decide +kernel, by decide +kernel⟩
    obtain ⟨rounds, hruns⟩ := hany hmz hdyn fun p hp => by
      obtain rfl : 0x200 = p := Option.some.inj (hloads.rel.symm.trans hp)
      rw [hcount]
      exact hapart
    obtain ⟨status, m', hrun, hiff, -, honce⟩ := hruns (rounds + 4) (by omega)
    rw [(blEfiRelocateSelf_eq hmz hdyn (by omega)).2 _ hloads, Option.some.injEq,
      Prod.mk.injEq, hcount] at hrun
    obtain ⟨rfl, rfl⟩ := hrun
    have hword := (honce rfl _ hloads.rel).targets
    rw [hcount] at hword
    exact absurd (hword 1 (by decide) (by decide +kernel)) (by decide +kernel)
  · apply not_relocatesAnyTable (by decide +kernel) ⟨by decide +kernel, by decide +kernel⟩
    · intro p hp
      have hcount : relocationCount (dynamicEntries tableAtNull 0x1100 2) = 0 := by decide +kernel
      rw [hcount]
      exact ⟨by omega, by simp, by simp⟩
    · decide +kernel
    · rintro ⟨p, hp⟩
      have hrel : lastValue (dynamicEntries tableAtNull 0x1100 2) dtRel = some 0xfffff000 := by
        decide +kernel
      obtain rfl : 0xfffff000 = p := Option.some.inj (hrel.symm.trans hp.rel)
      exact hp.not_null (by decide)
  · apply not_relocatesAnyTable (by decide +kernel) ⟨by decide +kernel, by decide +kernel⟩
    · intro p hp
      have hcount : relocationCount (dynamicEntries twoEntrySizes 0x1100 3) = 0 := by
        decide +kernel
      rw [hcount]
      exact ⟨by omega, by simp, by simp⟩
    · decide +kernel
    · rintro ⟨p, hp⟩
      exact absurd hp.relent (by decide +kernel)

end BootLoader.Uefi

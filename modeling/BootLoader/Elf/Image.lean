import BootLoader.Elf.Code
import BootLoader.Heap.Owned
import BootLoader.Lib.Packing

/-!
# Where the image is laid out

The first loop sets room aside for every section, each rounded to the largest alignment before
it. The second loop places the loaded sections, each at its own alignment. Nothing compares the
two.
-/

open ByteMemory RoundUp Packing

namespace BootLoader.Elf

open Heap Utils

def Elf32Shdr.size (sh : Elf32Shdr) : Nat := sh.shSize.toNat
def Elf32Shdr.align (sh : Elf32Shdr) : Nat := sh.shAddralign.toNat

/-- The loaded sections, each with its index. -/
def loadedSections (sections : List Elf32Shdr) (i : Nat) : List (Elf32Shdr × Nat) :=
  (sections.zipIdx i).filter (·.1.loaded)

/-- Where the loaded sections start when they are placed from 0 on. -/
def placedSections (sections : List Elf32Shdr) : List (Nat × (Elf32Shdr × Nat)) :=
  place (·.1.size) (·.1.align) 0 (loadedSections sections 0)

/-- One past the last section when the loaded ones are placed from 0 on. -/
def placedSize (sections : List Elf32Shdr) : Nat :=
  placeEnd (·.size) (·.align) 0 (sections.filter (·.loaded))

/-- The room that is set aside, in unbounded arithmetic. -/
def reservedSize (sections : List Elf32Shdr) : Nat := reserve (·.size) (·.align) 0 1 sections

/-- The heap `s'` and the image that the two allocations of `bl_elf_load_image` give. -/
def ImageAllocated (sections : List Elf32Shdr) (s s' : BlHeap) (image : Nat) : Prop :=
  ∃ s₁ segments, blHeapAlloc s (segmentsSize sections) = some (s₁, segments) ∧ segments ≠ 0 ∧
    blHeapAllocAlign s₁ (imageInfo sections).imageSize (imageInfo sections).alignment =
      some (s', image) ∧ image ≠ 0

/-- Both allocations are served inside the address space. -/
def RoomForImage (sections : List Elf32Shdr) (s : BlHeap) : Prop :=
  RoomFor s (segmentsSize sections) 1 ∧
    ∀ s₁ segments, blHeapAlloc s (segmentsSize sections) = some (s₁, segments) →
      RoomFor s₁ (imageInfo sections).imageSize (imageInfo sections).alignment

/-- The `size` bytes at `image` hold every segment, no two of them share a byte, and each is
aligned as its section asks. -/
structure LaidOut (sections : List Elf32Shdr) (image size : Nat) (m m' : Mem)
    (segments : List BlSegment) : Prop where
  written : ∀ x, x < image ∨ image + size ≤ x → m' x = m x
  inside : ∀ g ∈ segments, image ≤ g.address ∧ g.address + g.size ≤ image + size
  disjoint : segments.Pairwise fun g h =>
    g.address + g.size ≤ h.address ∨ h.address + h.size ≤ g.address
  aligned : ∀ g ∈ segments, ∀ sh, sections[g.index]? = some sh → sh.align = 0 ∨ sh.align ∣ g.address

variable {sections : List Elf32Shdr} {elf : Nat} {m : Mem} {i p : Nat}

theorem Elf32Shdr.size_pos {sh : Elf32Shdr} (h : sh.loaded = true) : 0 < sh.size := by
  simp only [Elf32Shdr.loaded, decide_eq_true_eq] at h
  exact Nat.pos_of_ne_zero fun hsize => h.2 (BitVec.eq_of_toNat_eq hsize)

/-! ## The first loop -/

theorem addSection_eq {r : ImageInfo} {sh : Elf32Shdr} {k : Nat} (hk : k < 32)
    (ha : r.alignment = 2 ^ k) (hlt : roundUp r.imageSize r.alignment + sh.size < 2 ^ 32) :
    (addSection r sh).imageSize = roundUp r.imageSize r.alignment + sh.size ∧
      (addSection r sh).alignment = max r.alignment sh.align := by
  refine ⟨?_, ?_⟩
  · unfold addSection
    simp only
    rw [ha] at hlt ⊢
    rw [blMemoryAlignUp_eq_roundUp hk (by omega)]
    exact Nat.mod_eq_of_lt hlt
  · unfold addSection Elf32Shdr.align
    simp only
    split <;> omega

/-- Below `2 ^ 32` the first loop computes what is set aside. -/
theorem foldl_addSection_eq {r : ImageInfo} (ha : ∃ k < 32, r.alignment = 2 ^ k)
    (halign : ∀ sh ∈ sections, sh.align = 0 ∨ ∃ k < 32, sh.align = 2 ^ k)
    (hlt : reserve (·.size) (·.align) r.imageSize r.alignment sections < 2 ^ 32) :
    (sections.foldl addSection r).imageSize =
        reserve (·.size) (·.align) r.imageSize r.alignment sections ∧
      (sections.foldl addSection r).alignment = maxAlign (·.align) r.alignment sections := by
  induction sections generalizing r with
  | nil => exact ⟨rfl, rfl⟩
  | cons sh rest ih =>
    obtain ⟨k, hk, hpow⟩ := ha
    have hmax : ∃ k < 32, maxAlign (·.align) r.alignment [sh] = 2 ^ k :=
      maxAlign_two_pow ⟨k, hk, hpow⟩ fun x hx => halign x (by simp_all)
    rw [reserve] at hlt ⊢
    have hnext := lt_of_le_of_lt (le_reserve (by
      obtain ⟨j, -, hj⟩ := hmax
      have := Nat.two_pow_pos j
      simp only [maxAlign, List.foldl_cons, List.foldl_nil] at hj
      omega)) hlt
    obtain ⟨hsize, hal⟩ := addSection_eq hk hpow hnext
    rw [List.foldl_cons, maxAlign, List.foldl_cons]
    rw [← hsize, ← hal] at hlt ⊢
    exact ih (by rw [hal]; exact hmax) (fun x hx => halign x (List.mem_cons_of_mem _ hx)) hlt

/-! ## The second loop -/

/-- From `image + pos` on, with all alignments powers of two that divide `image`, the addresses
are those of the placing, wrapped. -/
theorem placeSections_segments {image pos : Nat}
    (halign : ∀ q ∈ loadedSections sections i, ∃ k < 32, q.1.align = 2 ^ k ∧ 2 ^ k ∣ image) :
    (placeSections elf sections i ((image + pos) % 2 ^ 32) m).2 =
      (place (·.1.size) (·.1.align) pos (loadedSections sections i)).map fun q =>
        ⟨(image + q.1) % 2 ^ 32, q.2.1.size, q.2.2⟩ := by
  induction sections generalizing i pos m with
  | nil => rfl
  | cons sh rest ih =>
    rw [placeSections]
    by_cases hsh : sh.loaded = true
    · have hcons : loadedSections (sh :: rest) i = (sh, i) :: loadedSections rest (i + 1) := by
        rw [loadedSections, List.zipIdx_cons, List.filter_cons_of_pos (by exact hsh)]
        rfl
      rw [hcons] at halign ⊢
      obtain ⟨k, hk, hpow, hdvd⟩ := halign (sh, i) List.mem_cons_self
      have hptr : blMemoryAlignUp ((image + pos) % 2 ^ 32) sh.shAddralign.toNat =
          (image + roundUp pos sh.align) % 2 ^ 32 := by
        rw [show sh.shAddralign.toNat = 2 ^ k from hpow, show sh.align = 2 ^ k from hpow,
          blMemoryAlignUp_wrap, blMemoryAlignUp_mod _ hk,
          roundUp_add_left (Nat.two_pow_pos k) hdvd]
      have hnext : ((image + roundUp pos sh.align) % 2 ^ 32 + sh.shSize.toNat) % 2 ^ 32 =
          (image + (roundUp pos sh.align + sh.size)) % 2 ^ 32 := by
        unfold Elf32Shdr.size
        omega
      simp only [hsh, if_true, place, List.map_cons, hptr, hnext]
      rw [ih fun q hq => halign q (List.mem_cons_of_mem _ hq)]
      rfl
    · have hcons : loadedSections (sh :: rest) i = loadedSections rest (i + 1) := by
        rw [loadedSections, List.zipIdx_cons, List.filter_cons_of_neg (by exact hsh)]
        rfl
      rw [hcons] at halign ⊢
      rw [if_neg hsh]
      exact ih halign

/-- A loaded section without an alignment is recorded at address 0. -/
theorem placeSections_null (h : ∃ sh ∈ sections, sh.loaded = true ∧ sh.align = 0) :
    ∃ g ∈ (placeSections elf sections i p m).2, g.address = 0 := by
  induction sections generalizing i p m with
  | nil =>
    obtain ⟨sh, hmem, -⟩ := h
    cases hmem
  | cons sh rest ih =>
    rw [placeSections]
    obtain ⟨sh', hmem, hloaded, hzero⟩ := h
    rcases List.mem_cons.mp hmem with rfl | hmem
    · rw [if_pos hloaded]
      refine ⟨_, List.mem_cons_self, ?_⟩
      simp only [show sh'.shAddralign.toNat = 0 from hzero]
      simp [blMemoryAlignUp]
    · have hrest := fun p m => ih (i := i + 1) (p := p) (m := m) ⟨sh', hmem, hloaded, hzero⟩
      split
      · obtain ⟨g, hg, haddr⟩ := hrest _ _
        exact ⟨g, List.mem_cons_of_mem _ hg, haddr⟩
      · exact hrest _ _

theorem fillSection_outside {sh : Elf32Shdr} {x : Nat} (hsh : sh.loaded = true)
    (hp : p + sh.size ≤ 2 ^ 32) (hx : x < p ∨ p + sh.size ≤ x) :
    fillSection elf sh p m x = m x := by
  have hne : sh.shSize.toNat ≠ 0 := (Elf32Shdr.size_pos hsh).ne'
  rw [fillSection]
  split_ifs
  · exact blMemcpy_outside hp hx
  · exact blMemset_outside hne hp hx
  · rfl

theorem placeSections_outside {x : Nat}
    (h : ∀ g ∈ (placeSections elf sections i p m).2, g.address + g.size ≤ 2 ^ 32 ∧
      (x < g.address ∨ g.address + g.size ≤ x)) :
    (placeSections elf sections i p m).1 x = m x := by
  induction sections generalizing i p m with
  | nil => rfl
  | cons sh rest ih =>
    rw [placeSections] at h ⊢
    split at h
    · rename_i hsh
      rw [if_pos hsh]
      obtain ⟨hspace, hout⟩ := h _ List.mem_cons_self
      exact (ih fun g hg => h g (List.mem_cons_of_mem _ hg)).trans
        (fillSection_outside hsh hspace hout)
    · rename_i hsh
      rw [if_neg hsh]
      exact ih h

/-! ## The two loops together -/

theorem mem_loadedSections {q : Elf32Shdr × Nat} (hq : q ∈ loadedSections sections 0) :
    q.1 ∈ sections ∧ q.1.loaded = true ∧ sections[q.2]? = some q.1 := by
  obtain ⟨hmem, hloaded⟩ := List.mem_filter.mp hq
  have hget := List.mem_zipIdx_iff_getElem?.mp hmem
  exact ⟨List.mem_of_getElem? hget, hloaded, hget⟩

theorem placedSize_eq (sections : List Elf32Shdr) :
    placedSize sections = placeEnd (·.1.size) (·.1.align) 0 (loadedSections sections 0) := by
  have hfst : (loadedSections sections 0).map Prod.fst = sections.filter (·.loaded) := by
    rw [← List.zipIdx_map_fst 0 sections, List.filter_map, List.zipIdx_map_fst]
    rfl
  rw [placedSize, ← hfst, placeEnd_map]

/-- The placing never runs more than the largest alignment past the room set aside. -/
theorem placedSize_le (halign : ∀ sh ∈ sections, sh.align = 0 ∨ ∃ k < 32, sh.align = 2 ^ k)
    (hzero : ∀ sh ∈ sections, sh.loaded = true → sh.align ≠ 0) :
    placedSize sections ≤ reservedSize sections + maxAlign (·.align) 1 sections :=
  placeEnd_le_reserve_add _ ⟨0, rfl⟩
    (fun sh hsh => (halign sh hsh).imp_right fun ⟨k, _, hk⟩ => ⟨k, hk⟩) hzero (by omega)

theorem placedSections_bounds (hzero : ∀ sh ∈ sections, sh.loaded = true → sh.align ≠ 0)
    {q : Nat × (Elf32Shdr × Nat)} (hq : q ∈ placedSections sections) :
    q.1 + q.2.1.size ≤ placedSize sections ∧ q.2.1.align ∣ q.1 ∧ q.2.1.loaded = true ∧
      sections[q.2.2]? = some q.2.1 := by
  have hpos : ∀ r ∈ loadedSections sections 0, 0 < r.1.align := by
    intro r hr
    obtain ⟨hmem, hloaded, -⟩ := mem_loadedSections hr
    exact Nat.pos_of_ne_zero (hzero _ hmem hloaded)
  obtain ⟨-, hend, hdvd, hmem⟩ := place_bounds hpos hq
  obtain ⟨-, hloaded, hget⟩ := mem_loadedSections hmem
  exact ⟨placedSize_eq sections ▸ hend, hdvd, hloaded, hget⟩

section
variable {image k : Nat} (halign : ∀ sh ∈ sections, sh.align = 0 ∨ ∃ k < 32, sh.align = 2 ^ k)
  (hzero : ∀ sh ∈ sections, sh.loaded = true → sh.align ≠ 0)
  (hmax : maxAlign (·.align) 1 sections = 2 ^ k) (hdvd : 2 ^ k ∣ image)

include halign hzero hmax hdvd

theorem align_dvd_image {sh : Elf32Shdr} (hmem : sh ∈ sections) (hloaded : sh.loaded = true) :
    ∃ j < 32, sh.align = 2 ^ j ∧ 2 ^ j ∣ image := by
  obtain ⟨j, hj, hal⟩ := (halign sh hmem).resolve_left (hzero sh hmem hloaded)
  have hle : 2 ^ j ≤ 2 ^ k := hal ▸ hmax ▸ le_maxAlign_of_mem hmem
  exact ⟨j, hj, hal, (pow_dvd_pow 2 ((Nat.pow_le_pow_iff_right (by omega)).mp hle)).trans hdvd⟩

theorem segments_eq (hlt : image < 2 ^ 32) :
    (placeSections elf sections 0 image m).2 = (placedSections sections).map fun q =>
      ⟨(image + q.1) % 2 ^ 32, q.2.1.size, q.2.2⟩ := by
  have hstart : image = (image + 0) % 2 ^ 32 := (Nat.mod_eq_of_lt hlt).symm
  rw [hstart, placeSections_segments, ← hstart]
  · rfl
  · intro q hq
    obtain ⟨hmem, hloaded, -⟩ := mem_loadedSections hq
    exact align_dvd_image halign hzero hmax hdvd hmem hloaded

theorem laidOut_of_room (hlt : image < 2 ^ 32) (hspace : image + reservedSize sections ≤ 2 ^ 32)
    (hle : placedSize sections ≤ reservedSize sections) :
    LaidOut sections image (reservedSize sections) m (placeSections elf sections 0 image m).1
      (placeSections elf sections 0 image m).2 := by
  have hsegments : (placeSections elf sections 0 image m).2 = _ :=
    segments_eq halign hzero hmax hdvd hlt
  have hbounds : ∀ q ∈ placedSections sections, _ := fun q hq => placedSections_bounds hzero hq
  have haddr : ∀ q ∈ placedSections sections, (image + q.1) % 2 ^ 32 = image + q.1 := by
    intro q hq
    obtain ⟨hq, -, hloaded, -⟩ := hbounds q hq
    have hpos := Elf32Shdr.size_pos hloaded
    exact Nat.mod_eq_of_lt (by omega)
  have hinside : ∀ g ∈ (placeSections elf sections 0 image m).2,
      image ≤ g.address ∧ g.address + g.size ≤ image + reservedSize sections := by
    intro g hg
    rw [hsegments] at hg
    obtain ⟨q, hq, rfl⟩ := List.mem_map.mp hg
    have hend := (hbounds q hq).1
    simp only [haddr q hq]
    omega
  refine ⟨fun x hx => ?_, hinside, ?_, ?_⟩
  · apply placeSections_outside
    intro g hg
    have hg := hinside g hg
    omega
  · rw [hsegments, List.pairwise_map]
    refine List.Pairwise.imp_of_mem (fun {q r} hq hr hqr => .inl ?_)
      (place_pairwise fun q hq => ?_)
    · simp only [haddr q hq, haddr r hr]
      omega
    · obtain ⟨hmem, hloaded, -⟩ := mem_loadedSections hq
      exact Nat.pos_of_ne_zero (hzero _ hmem hloaded)
  · intro g hg sh hget
    rw [hsegments] at hg
    obtain ⟨q, hq, rfl⟩ := List.mem_map.mp hg
    obtain ⟨-, hal, hloaded, hsection⟩ := hbounds q hq
    obtain rfl : q.2.1 = sh := Option.some.inj (hsection.symm.trans hget)
    obtain ⟨j, -, hpow, hj⟩ :=
      align_dvd_image halign hzero hmax hdvd (List.mem_of_getElem? hsection) hloaded
    simp only [haddr q hq]
    exact .inr ((Nat.dvd_add_right (hpow ▸ hj)).mpr hal)

end

/-- The segments are where they should be just when no loaded section lacks an alignment and the
room set aside is enough. -/
theorem laidOut_iff {image : Nat}
    (halign : ∀ sh ∈ sections, sh.align = 0 ∨ ∃ k < 32, sh.align = 2 ^ k)
    (htotal : reservedSize sections < 2 ^ 31) (hne : image ≠ 0) (hlt : image < 2 ^ 32)
    (hspace : image + reservedSize sections ≤ 2 ^ 32)
    (hdvd : maxAlign (·.align) 1 sections ∣ image) :
    LaidOut sections image (reservedSize sections) m (placeSections elf sections 0 image m).1
        (placeSections elf sections 0 image m).2 ↔
      (∀ sh ∈ sections, sh.loaded = true → sh.align ≠ 0) ∧
        placedSize sections ≤ reservedSize sections := by
  have hpow : ∃ k < 32, maxAlign (·.align) 1 sections = 2 ^ k :=
    maxAlign_two_pow ⟨0, by omega, rfl⟩ halign
  obtain ⟨k, hk, hmax⟩ := hpow
  by_cases hzero : ∀ sh ∈ sections, sh.loaded = true → sh.align ≠ 0
  · have hmaxle : 2 ^ k ≤ 2 ^ 31 := Nat.pow_le_pow_right (by omega) (by omega)
    have hend := placedSize_le halign hzero
    rw [hmax] at hdvd hend
    have hsegments : (placeSections elf sections 0 image m).2 = _ :=
      segments_eq halign hzero hmax hdvd hlt
    have hbounds : ∀ q ∈ placedSections sections, _ := fun q hq => placedSections_bounds hzero hq
    refine ⟨fun h => ⟨hzero, ?_⟩, fun ⟨_, hle⟩ => ?_⟩
    · -- An address that wrapped would lie below the image.
      rw [placedSize_eq]
      refine placeEnd_le (Nat.zero_le _) fun q hq => ?_
      have hin := h.inside _ (hsegments ▸ List.mem_map_of_mem hq)
      have hq := (hbounds q hq).1
      simp only at hin
      omega
    · exact laidOut_of_room halign hzero hmax hdvd hlt hspace hle
  · push Not at hzero
    obtain ⟨g, hg, hnull⟩ : ∃ g ∈ (placeSections elf sections 0 image m).2, g.address = 0 :=
      placeSections_null hzero
    refine ⟨fun h => ?_, fun h => ?_⟩
    · have := (h.inside g hg).1
      omega
    · obtain ⟨sh, hsh, hloaded, hal⟩ := hzero
      exact absurd hal (h.1 sh hsh hloaded)

/-! ## The whole load -/

variable {s s' : BlHeap} {bs : List Block} {mod mod' : BlModule} {status : BlStatus}

theorem blElfLoadImage_success
    (hrun : blElfLoadImage elf sections mod s = some (s', mod', .success)) :
    ∃ s₁ image, ImageAllocated sections s s₁ image ∧
      s'.mem = (placeSections elf sections 0 image s₁.mem).1 ∧
      mod'.segments = (placeSections elf sections 0 image s₁.mem).2 := by
  unfold blElfLoadImage at hrun
  simp only at hrun
  split at hrun
  · cases hrun
  · rename_i s₁ segments hsegments
    split at hrun
    · cases hrun
    · rename_i hne
      split at hrun
      · cases hrun
      · rename_i s₂ image himage
        split at hrun
        · cases hrun
        · rename_i hineq
          cases hrun
          exact ⟨s₂, image, ⟨s₁, segments, hsegments, hne, himage, hineq⟩, rfl, rfl⟩

theorem ImageAllocated.unique {s₁ s₂ : BlHeap} {image₁ image₂ : Nat}
    (h₁ : ImageAllocated sections s s₁ image₁) (h₂ : ImageAllocated sections s s₂ image₂) :
    s₁ = s₂ ∧ image₁ = image₂ := by
  obtain ⟨t₁, p₁, hseg₁, -, himg₁, -⟩ := h₁
  obtain ⟨t₂, p₂, hseg₂, -, himg₂, -⟩ := h₂
  obtain ⟨rfl, rfl⟩ := Prod.mk.inj (Option.some.inj (hseg₁.symm.trans hseg₂))
  exact Prod.mk.inj (Option.some.inj (himg₁.symm.trans himg₂))

/-- The image is never the first block, so it is aligned for every section. -/
theorem ImageAllocated.spec {image : Nat} {s₁ : BlHeap} (h : HeapInv s bs)
    (halign : ∀ sh ∈ sections, sh.align = 0 ∨ ∃ k < 32, sh.align = 2 ^ k)
    (htotal : reservedSize sections < 2 ^ 31) (hroom : RoomForImage sections s)
    (himage : ImageAllocated sections s s₁ image) :
    (imageInfo sections).imageSize = reservedSize sections ∧ image < 2 ^ 32 ∧
      image + reservedSize sections ≤ 2 ^ 32 ∧ maxAlign (·.align) 1 sections ∣ image := by
  obtain ⟨hsize, hal⟩ : (imageInfo sections).imageSize = reservedSize sections ∧
      (imageInfo sections).alignment = maxAlign (·.align) 1 sections :=
    foldl_addSection_eq ⟨0, by omega, rfl⟩ halign (lt_trans htotal (by omega))
  have hpow : ∃ k < 32, maxAlign (·.align) 1 sections = 2 ^ k :=
    maxAlign_two_pow ⟨0, by omega, rfl⟩ halign
  obtain ⟨k, hk, hmax⟩ := hpow
  obtain ⟨t, p, hseg, hne, himg, hine⟩ := himage
  have hseglt : segmentsSize sections < 2 ^ 32 := Nat.mod_lt _ (by omega)
  have hroom₂ := hroom.2 t p hseg
  rw [hsize, hal, hmax] at himg hroom₂
  rcases blHeapAllocAlign_spec h hseglt (by omega : 1 < 2 ^ 32) hroom.1.1 with
    hnull | ⟨t', bs', b, hsome, hall⟩
  · exact absurd (Prod.mk.inj (Option.some.inj (hseg.symm.trans hnull))).2 hne
  · obtain ⟨rfl, rfl⟩ := Prod.mk.inj (Option.some.inj (hseg.symm.trans hsome))
    have hmem := hall.granted.mem_used.1
    have hlt : 2 ^ k < 2 ^ 32 := Nat.pow_lt_pow_right (by omega) hk
    refine ⟨hsize, ?_, hroom₂.2 _ _ himg, hmax ▸ blHeapAllocAlign_aligned hall.inv
      (List.ne_nil_of_mem hmem) hk himg⟩
    rcases blHeapAllocAlign_spec hall.inv (by omega) hlt hroom₂.1 with
      hnull | ⟨t', bs₂, c, hsome₂, hall₂⟩
    · exact absurd (Prod.mk.inj (Option.some.inj (himg.symm.trans hnull))).2 hine
    · obtain ⟨-, rfl⟩ := Prod.mk.inj (Option.some.inj (himg.symm.trans hsome₂))
      exact (hall₂.inv.blockOk c hall₂.granted.mem_used.1).inSpace

/-- **Image layout.** A load that succeeds lays the segments out inside the image, apart and
aligned, just when no loaded section has an alignment of 0 and the loaded sections, placed at
their own alignments, end within the room set aside. -/
theorem blElfLoadImage_laidOut_iff (h : HeapInv s bs)
    (halign : ∀ sh ∈ sections, sh.align = 0 ∨ ∃ k, sh.align = 2 ^ k)
    (htotal : reservedSize sections < 2 ^ 31) (hroom : RoomForImage sections s)
    (hrun : blElfLoadImage elf sections mod s = some (s', mod', .success)) :
    (∃ s₁ image, ImageAllocated sections s s₁ image ∧
        LaidOut sections image (imageInfo sections).imageSize s₁.mem s'.mem mod'.segments) ↔
      (∀ sh ∈ sections, sh.loaded = true → sh.align ≠ 0) ∧
        placedSize sections ≤ reservedSize sections := by
  have halign' : ∀ sh ∈ sections, sh.align = 0 ∨ ∃ k < 32, sh.align = 2 ^ k := by
    intro sh hsh
    refine (halign sh hsh).imp_right fun ⟨k, hk⟩ => ⟨k, ?_, hk⟩
    exact (Nat.pow_lt_pow_iff_right (a := 2) (by omega)).mp (hk ▸ sh.shAddralign.isLt)
  obtain ⟨s₁, image, himage, hmem, hsegments⟩ := blElfLoadImage_success hrun
  obtain ⟨hsize, hlt, hspace, hdvd⟩ := himage.spec h halign' htotal hroom
  have hne : image ≠ 0 := himage.choose_spec.choose_spec.2.2.2
  rw [hsize, hmem, hsegments, ← laidOut_iff halign' htotal hne hlt hspace hdvd]
  refine ⟨fun ⟨s₂, image₂, himage₂, hlaid⟩ => ?_, fun hlaid => ⟨s₁, image, himage, hlaid⟩⟩
  obtain ⟨rfl, rfl⟩ := himage.unique himage₂
  exact hlaid

/-- Two sections of 16 bytes, in a memory of zeros with nothing allocated yet. -/
def lineThenLine : List Elf32Shdr :=
  [⟨shtProgbits, shfAlloc, 0x40, 16, 0, 0, 16, 0⟩, ⟨shtProgbits, shfAlloc, 0x50, 16, 0, 0, 16, 0⟩]

def emptyHeap : BlHeap := ⟨fun _ => 0, 0x100000, 0, 0⟩

theorem blElfLoadImage_laidOut_iff_lines :
    ∃ s' mod', blElfLoadImage 0x2000 lineThenLine ⟨0, [], 0, 0⟩ emptyHeap =
        some (s', mod', .success) ∧
      ∃ s₁ image, ImageAllocated lineThenLine emptyHeap s₁ image ∧
        LaidOut lineThenLine image (imageInfo lineThenLine).imageSize s₁.mem s'.mem
          mod'.segments := by
  refine ⟨_, _, rfl, (blElfLoadImage_laidOut_iff (heapInv_base _ _ (by decide) (by decide)) ?_
    (by decide) ⟨⟨by simp [AddressesFit, roundUp], ?_⟩, ?_⟩ rfl).mpr (by decide)⟩
  · intro sh hsh
    exact .inr ⟨4, by revert sh; decide⟩
  · rintro s' p ⟨⟩
    decide
  · rintro s₁ p ⟨⟩
    refine ⟨?_, ?_⟩
    · intro q hq
      cases hq
      decide
    · rintro s' p ⟨⟩
      decide

/-- A byte, then 16 bytes aligned to 16: 17 bytes are set aside, and 32 are used. -/
def byteThenLine : List Elf32Shdr :=
  [⟨shtProgbits, shfAlloc, 0x40, 1, 0, 0, 1, 0⟩, ⟨shtProgbits, shfAlloc, 0x50, 16, 0, 0, 16, 0⟩]

/-- The last byte of the second section is 7, and it is written 14 bytes past the image. -/
theorem byteThenLine_not_laidOut :
    ∃ s' mod', blElfLoadImage 0x2000 byteThenLine ⟨0, [], 0, 0⟩
        ⟨fun x => if x = 0x205f then 7 else 0, 0x100000, 0, 0⟩ = some (s', mod', .success) ∧
      ¬ ∃ s₁ image, ImageAllocated byteThenLine
          ⟨fun x => if x = 0x205f then 7 else 0, 0x100000, 0, 0⟩ s₁ image ∧
        LaidOut byteThenLine image (imageInfo byteThenLine).imageSize s₁.mem s'.mem
          mod'.segments := by
  refine ⟨_, _, rfl, ?_⟩
  rintro ⟨s₁, image, ⟨t, p, hseg, -, himg, -⟩, hlaid⟩
  obtain ⟨rfl, rfl⟩ := Prod.mk.inj (Option.some.inj hseg)
  obtain ⟨rfl, rfl⟩ := Prod.mk.inj (Option.some.inj himg)
  exact absurd (hlaid.written 0x10005f (.inr (by decide))) (by decide)

/-! ## Sections without bits -/

theorem fillSection_nobits {sh : Elf32Shdr} (hsh : sh.shType = shtNobits) :
    fillSection elf sh p m = blMemset m p 0 sh.size := by
  have hne : sh.shType ≠ shtProgbits := by
    rw [hsh]
    decide
  rw [fillSection, if_neg hne, if_pos hsh]
  rfl

/-- **When `bl_memset` fills what it should**, and what that means for something that is cleared and
for a section without bits. -/
theorem blMemset_fills_iff (m : Mem) (s n image : BitVec 32) (c : Byte) (elf : Nat)
    (sh : Elf32Shdr) :
    (Filled m (blMemset m s.toNat c n.toNat) s.toNat n.toNat c ↔
      UnsetRight m s.toNat n.toNat c) ∧
    (s.toNat ≠ 0 → n.toNat ≠ 0 →
      ((∀ i < n.toNat, blMemset m s.toNat 0 n.toNat ((s.toNat + i) % 2 ^ 32) = 0) ↔
        m ((s.toNat + (n.toNat - 1)) % 2 ^ 32) = 0)) ∧
    (image.toNat ≠ 0 → sh.loaded = true → sh.shType = shtNobits →
      ((∀ i < sh.size, fillSection elf sh image.toNat m ((image.toNat + i) % 2 ^ 32) = 0) ↔
        m ((image.toNat + (sh.size - 1)) % 2 ^ 32) = 0)) := by
  refine ⟨blMemset_filled_iff m c s.isLt n.isLt, fun hs hn => ?_, fun himage hloaded hsh => ?_⟩
  · exact blMemset_cleared_iff s.isLt hs n.isLt hn
  · rw [fillSection_nobits hsh]
    exact blMemset_cleared_iff image.isLt himage sh.shSize.isLt (Elf32Shdr.size_pos hloaded).ne'

/-- A section of 64 bytes in a memory of zeros. -/
theorem blMemset_fills_zeros :
    (∀ i < 64, fillSection 0x1000 ⟨shtNobits, shfAlloc, 0, 64, 0, 0, 4, 0⟩ 0x2000 (fun _ => 0)
      ((0x2000 + i) % 2 ^ 32) = 0) :=
  ((blMemset_fills_iff (fun _ => 0) 0x2000 64 0x2000 0 0x1000
    ⟨shtNobits, shfAlloc, 0, 64, 0, 0, 4, 0⟩).2.2 (by decide) (by decide) rfl).mpr rfl

/-- A byte that was 1 is not cleared. -/
theorem byte_not_cleared : ¬ ∀ (m : Mem) (s n : BitVec 32) (c : Byte),
    Filled m (blMemset m s.toNat c n.toNat) s.toNat n.toNat c := by
  intro h
  have hbyte := (h (fun _ => 1) 0x2000 1 0).filled 0 (by decide)
  exact absurd hbyte (by decide)

end BootLoader.Elf

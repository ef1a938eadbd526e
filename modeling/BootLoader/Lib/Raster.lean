import BootLoader.Lib.ByteMemory

/-!
# Rasters

Rows of pixels in a flat memory, rectangles of pixels, and changes that stay in one.
-/

namespace Raster

open ByteMemory

/-- Lines of `pitch` bytes that start with `width` pixels of `depth` bytes. -/
structure Layout where
  width : Nat
  height : Nat
  pitch : Nat
  depth : Nat
  fits : width * depth ≤ pitch

structure Rect where
  x : Nat
  y : Nat
  w : Nat
  h : Nat
  deriving DecidableEq

def Rect.Covers (r : Rect) (px py : Nat) : Prop :=
  r.x ≤ px ∧ px < r.x + r.w ∧ r.y ≤ py ∧ py < r.y + r.h

instance (r : Rect) (px py : Nat) : Decidable (r.Covers px py) :=
  inferInstanceAs (Decidable (_ ∧ _))

def Rect.Inside (r : Rect) (s : Layout) : Prop := r.x + r.w ≤ s.width ∧ r.y + r.h ≤ s.height

/-- The least rectangle around two. -/
def Rect.hull (r q : Rect) : Rect where
  x := min r.x q.x
  y := min r.y q.y
  w := max (r.x + r.w) (q.x + q.w) - min r.x q.x
  h := max (r.y + r.h) (q.y + q.h) - min r.y q.y

variable {s : Layout} {r q : Rect} {m m' m'' : Mem} {base px py k : Nat}

theorem Rect.covers_hull_left (h : r.Covers px py) : (r.hull q).Covers px py := by
  simp only [Rect.Covers, Rect.hull] at h ⊢
  omega

theorem Rect.covers_hull_right (h : q.Covers px py) : (r.hull q).Covers px py := by
  simp only [Rect.Covers, Rect.hull] at h ⊢
  omega

theorem Rect.hull_inside (hr : r.Inside s) (hq : q.Inside s) : (r.hull q).Inside s := by
  simp only [Rect.Inside, Rect.hull] at hr hq ⊢
  omega

theorem Rect.Inside.pixel (hr : r.Inside s) (h : r.Covers px py) :
    px < s.width ∧ py < s.height := by
  simp only [Rect.Inside, Rect.Covers] at hr h
  omega

/-! ## Where a pixel lies -/

def Layout.offset (s : Layout) (px py : Nat) : Nat := py * s.pitch + px * s.depth

/-- From the first byte of the first pixel to behind the last pixel. -/
def Layout.extent (s : Layout) : Nat := (s.height - 1) * s.pitch + s.width * s.depth

theorem Layout.offset_add (s : Layout) (px py n : Nat) :
    s.offset px py + n * s.depth = s.offset (px + n) py := by
  unfold Layout.offset
  ring

theorem Layout.offset_next (s : Layout) (px py : Nat) :
    s.offset px py + s.pitch = s.offset px (py + 1) := by
  unfold Layout.offset
  ring

theorem Layout.offset_mono (s : Layout) {a b : Nat} (h : a ≤ b) (py : Nat) :
    s.offset a py ≤ s.offset b py :=
  Nat.add_le_add_left (Nat.mul_le_mul_right _ h) _

theorem Layout.offset_le_next (s : Layout) {row : Nat} (hx : px ≤ s.width) (hrow : py < row)
    (qx : Nat) : s.offset px py ≤ s.offset qx row := by
  have hline : px * s.depth ≤ s.pitch := le_trans (Nat.mul_le_mul_right _ hx) s.fits
  have hrows : (py + 1) * s.pitch ≤ row * s.pitch := Nat.mul_le_mul_right _ hrow
  unfold Layout.offset
  rw [Nat.succ_mul] at hrows
  omega

theorem Layout.offset_le_extent (s : Layout) (hx : px ≤ s.width) (hy : py < s.height) :
    s.offset px py ≤ s.extent := by
  have hline : px * s.depth ≤ s.width * s.depth := Nat.mul_le_mul_right _ hx
  have hrows : py * s.pitch ≤ (s.height - 1) * s.pitch := Nat.mul_le_mul_right _ (by omega)
  unfold Layout.offset Layout.extent
  omega

theorem Layout.byte_lt_extent (s : Layout) (hx : px < s.width) (hy : py < s.height)
    (hk : k < s.depth) : s.offset px py + k < s.extent := by
  have hend := s.offset_le_extent (show px + 1 ≤ s.width from hx) hy
  rw [← s.offset_add, one_mul] at hend
  omega

/-- The bytes of a pixel lie in a stretch of a line only if the pixel does. -/
theorem Layout.byte_in_line {x w row : Nat} (hline : x + w ≤ s.width) (hx : px < s.width)
    (hk : k < s.depth) (hlo : s.offset x row ≤ s.offset px py + k)
    (hhi : s.offset px py + k < s.offset (x + w) row) : py = row ∧ x ≤ px ∧ px < x + w := by
  have hpixel : s.offset px py + k < s.offset (px + 1) py := by
    rw [← s.offset_add, one_mul]
    omega
  obtain hlt | rfl | hgt := lt_trichotomy py row
  · have hbefore := s.offset_le_next (show px + 1 ≤ s.width from hx) hlt x
    omega
  · refine ⟨rfl, ?_, ?_⟩
    · by_contra hleft
      have hbefore := s.offset_mono (show px + 1 ≤ x by omega) py
      omega
    · by_contra hright
      have hbehind := s.offset_mono (show x + w ≤ px by omega) py
      omega
  · have hbehind := s.offset_le_next hline hgt px
    omega

/-! ## Changes inside a stretch of bytes -/

def KeptOutside (lo hi : Nat) (m m' : Mem) : Prop := ∀ a, a < lo ∨ hi ≤ a → m' a = m a

theorem KeptOutside.refl (lo hi : Nat) (m : Mem) : KeptOutside lo hi m m := fun _ _ => rfl

theorem KeptOutside.trans {lo hi : Nat} (h : KeptOutside lo hi m m')
    (h' : KeptOutside lo hi m' m'') : KeptOutside lo hi m m'' :=
  fun a ha => (h' a ha).trans (h a ha)

theorem KeptOutside.mono {lo hi lo' hi' : Nat} (h : KeptOutside lo hi m m') (hlo : lo' ≤ lo)
    (hhi : hi ≤ hi') : KeptOutside lo' hi' m m' :=
  fun a ha => h a (by omega)

theorem keptOutside_writeLE (m : Mem) (a n v : Nat) :
    KeptOutside a (a + n) m (writeLE m a n v) :=
  fun _ hx => writeLE_outside m v hx

/-! ## Changes inside a rectangle -/

def colorAt (s : Layout) (m : Mem) (base px py : Nat) : Nat :=
  readLE m (base + s.offset px py) s.depth

theorem colorAt_lt (s : Layout) (m : Mem) (base px py : Nat) :
    colorAt s m base px py < 256 ^ s.depth :=
  readLE_lt m _ _

/-- Only pixels of `r` differ, of the raster at `base`. -/
def Confined (s : Layout) (base : Nat) (r : Rect) (m m' : Mem) : Prop :=
  ∀ a, (∀ px py, r.Covers px py → ∀ k < s.depth, a ≠ base + s.offset px py + k) → m' a = m a

theorem Confined.refl (s : Layout) (base : Nat) (r : Rect) (m : Mem) : Confined s base r m m :=
  fun _ _ => rfl

theorem Confined.trans (h : Confined s base r m m') (h' : Confined s base r m' m'') :
    Confined s base r m m'' :=
  fun a ha => (h' a ha).trans (h a ha)

theorem Confined.mono (h : Confined s base q m m')
    (hqr : ∀ px py, q.Covers px py → r.Covers px py) : Confined s base r m m' :=
  fun a ha => h a fun px py hp => ha px py (hqr px py hp)

theorem confined_line {row : Nat} (hlo : r.y ≤ row) (hhi : row < r.y + r.h)
    (h : KeptOutside (base + s.offset r.x row) (base + s.offset (r.x + r.w) row) m m') :
    Confined s base r m m' := by
  intro a ha
  apply h
  by_contra hin
  rw [← s.offset_add] at hin
  obtain ⟨i, rfl⟩ : ∃ i, a = base + s.offset r.x row + i :=
    ⟨a - (base + s.offset r.x row), by omega⟩
  have hi : i < s.depth * r.w := by
    rw [Nat.mul_comm]
    omega
  have hdepth : 0 < s.depth := Nat.pos_of_mul_pos_right (by omega : 0 < s.depth * r.w)
  have hcol : i / s.depth < r.w := Nat.div_lt_of_lt_mul hi
  apply ha (r.x + i / s.depth) row
    ⟨Nat.le_add_right _ _, Nat.add_lt_add_left hcol _, hlo, hhi⟩ (i % s.depth)
    (Nat.mod_lt _ hdepth)
  rw [← s.offset_add, Nat.mul_comm (i / s.depth)]
  have hsplit := Nat.div_add_mod i s.depth
  omega

theorem Confined.pixel (h : Confined s base r m m') (hr : r.Inside s) (hx : px < s.width)
    (hout : ¬ r.Covers px py) (hk : k < s.depth) :
    m' (base + s.offset px py + k) = m (base + s.offset px py + k) := by
  apply h
  intro qx qy hq j hj heq
  have hqx := (hr.pixel hq).1
  have hlo : s.offset qx qy ≤ s.offset px py + k := by omega
  have hhi : s.offset px py + k < s.offset (qx + 1) qy := by
    rw [← s.offset_add, one_mul]
    omega
  obtain ⟨rfl, hle, hlt⟩ := s.byte_in_line (show qx + 1 ≤ s.width from hqx) hx hk hlo hhi
  obtain rfl : px = qx := by omega
  exact hout hq

theorem Confined.outside (h : Confined s base r m m') (hr : r.Inside s) {a : Nat}
    (ha : a < base ∨ base + s.extent ≤ a) : m' a = m a := by
  apply h
  intro px py hp k hk heq
  have hin := s.byte_lt_extent (hr.pixel hp).1 (hr.pixel hp).2 hk
  omega

/-! ## Pixels of one colour -/

/-- The pixels in `P` have these bytes, and nothing else differs, of the raster at `base`. -/
structure Painted (s : Layout) (base : Nat) (bytes : Nat → Byte) (P : Nat → Nat → Prop)
    (m m' : Mem) : Prop where
  inside : ∀ px py, P px py → ∀ k < s.depth, m' (base + s.offset px py + k) = bytes k
  outside : ∀ a, (∀ px py, P px py → ∀ k < s.depth, a ≠ base + s.offset px py + k) → m' a = m a

variable {bytes : Nat → Byte} {P Q : Nat → Nat → Prop}

theorem Layout.offset_inj (s : Layout) {qx qy j : Nat} (hpx : px < s.width) (hqx : qx < s.width)
    (hk : k < s.depth) (hj : j < s.depth) (h : s.offset px py + k = s.offset qx qy + j) :
    px = qx ∧ py = qy ∧ k = j := by
  have hlo : s.offset qx qy ≤ s.offset px py + k := by omega
  have hhi : s.offset px py + k < s.offset (qx + 1) qy := by
    rw [← s.offset_add, one_mul]
    omega
  obtain ⟨rfl, hle, hlt⟩ := s.byte_in_line (show qx + 1 ≤ s.width from hqx) hpx hk hlo hhi
  obtain rfl : px = qx := by omega
  exact ⟨rfl, rfl, by omega⟩

theorem Painted.empty (hP : ∀ px py, ¬ P px py) : Painted s base bytes P m m :=
  ⟨fun px py hp => absurd hp (hP px py), fun _ _ => rfl⟩

/-- Painting goes on in the same colour, also over what was painted. -/
theorem Painted.trans (h : Painted s base bytes P m m') (h' : Painted s base bytes Q m' m'')
    (hP : ∀ px py, P px py → px < s.width) (hQ : ∀ px py, Q px py → px < s.width) :
    Painted s base bytes (fun px py => P px py ∨ Q px py) m m'' := by
  constructor
  · rintro px py (hp | hq) k hk
    · by_cases hagain : Q px py
      · exact h'.inside px py hagain k hk
      · rw [h'.outside, h.inside px py hp k hk]
        intro qx qy hq j hj heq
        have hsame : s.offset px py + k = s.offset qx qy + j := by omega
        obtain ⟨rfl, rfl, -⟩ := s.offset_inj (hP px py hp) (hQ qx qy hq) hk hj hsame
        exact hagain hq
    · exact h'.inside px py hq k hk
  · intro a ha
    rw [h'.outside a fun px py hq => ha px py (.inr hq),
      h.outside a fun px py hp => ha px py (.inl hp)]

theorem Painted.congr (h : Painted s base bytes P m m') (hPQ : ∀ px py, P px py ↔ Q px py) :
    Painted s base bytes Q m m' :=
  ⟨fun px py hq => h.inside px py ((hPQ px py).mpr hq),
    fun a ha => h.outside a fun px py hp => ha px py ((hPQ px py).mp hp)⟩

theorem Painted.unique (h : Painted s base bytes P m m') (h' : Painted s base bytes P m m'') :
    m' = m'' := by
  funext a
  by_cases hin : ∃ px py, P px py ∧ ∃ k < s.depth, a = base + s.offset px py + k
  · obtain ⟨px, py, hp, k, hk, rfl⟩ := hin
    rw [h.inside px py hp k hk, h'.inside px py hp k hk]
  · have hout : ∀ px py, P px py → ∀ k < s.depth, a ≠ base + s.offset px py + k :=
      fun px py hp k hk heq => hin ⟨px, py, hp, k, hk, heq⟩
    rw [h.outside a hout, h'.outside a hout]

theorem Painted.confined (h : Painted s base bytes r.Covers m m') : Confined s base r m m' :=
  fun a ha => h.outside a ha

/-- One pixel. -/
theorem painted_writeLE (s : Layout) (base px py v : Nat) (m : Mem) :
    Painted s base (fun k => BitVec.ofNat 8 (v / 256 ^ k)) (fun qx qy => qx = px ∧ qy = py) m
      (writeLE m (base + s.offset px py) s.depth v) := by
  constructor
  · rintro _ _ ⟨rfl, rfl⟩ k hk
    exact writeLE_inside m v hk
  · intro a ha
    apply writeLE_outside
    by_contra hin
    exact ha px py ⟨rfl, rfl⟩ (a - (base + s.offset px py)) (by omega) (by omega)

end Raster

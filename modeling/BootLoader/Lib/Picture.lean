import BootLoader.Lib.Raster

/-!
# Pictures

What a raster shows, pixel by pixel, as far as it is known. Drawing, copying and writing beside the
raster are changes of the picture.
-/

open ByteMemory

namespace Raster

/-- `none`: it is not known what colour the pixel has. -/
abbrev Picture := Nat → Nat → Option Nat

variable {s : Layout} {base base' : Nat} {m m' : Mem} {pic back : Picture} {r : Rect}
  {P Q : Nat → Nat → Prop} {f : Nat → Nat → Option Nat → Option Nat} {px py v : Nat}

/-- The pixels in `P` are changed, each by what it was. -/
def Picture.alter (pic : Picture) (P : Nat → Nat → Prop) [∀ px py, Decidable (P px py)]
    (f : Nat → Nat → Option Nat → Option Nat) : Picture :=
  fun px py => if P px py then f px py (pic px py) else pic px py

theorem Picture.alter_congr [∀ px py, Decidable (P px py)] [∀ px py, Decidable (Q px py)]
    (h : ∀ px py, P px py ↔ Q px py) : pic.alter P f = pic.alter Q f := by
  funext px py
  simp only [alter, h]

theorem Picture.alter_none [∀ px py, Decidable (P px py)] (h : ∀ px py, ¬ P px py) :
    pic.alter P f = pic := by
  funext px py
  rw [alter, if_neg (h px py)]

/-- One after the other, where no pixel is changed twice. -/
theorem Picture.alter_alter [∀ px py, Decidable (P px py)] [∀ px py, Decidable (Q px py)]
    (h : ∀ px py, P px py → ¬ Q px py) :
    (pic.alter P f).alter Q f = pic.alter (fun px py => P px py ∨ Q px py) f := by
  funext px py
  unfold alter
  by_cases hp : P px py
  · rw [if_neg (h px py hp), if_pos hp, if_pos (.inl hp)]
  · by_cases hq : Q px py
    · rw [if_pos hq, if_neg hp, if_pos (.inr hq)]
    · rw [if_neg hq, if_neg hp, if_neg (not_or.mpr ⟨hp, hq⟩)]

/-- What is known of the picture is what the raster at `base` has. -/
def Holds (s : Layout) (base : Nat) (m : Mem) (pic : Picture) : Prop :=
  ∀ px py, px < s.width → py < s.height → ∀ v ∈ pic px py, colorAt s m base px py = v

theorem Holds.congr (h : Holds s base m pic)
    (hsame : ∀ px < s.width, ∀ py < s.height, colorAt s m' base px py = colorAt s m base px py) :
    Holds s base m' pic :=
  fun px py hx hy v hv => (hsame px hx py hy).trans (h px py hx hy v hv)

theorem holds_unknown (s : Layout) (base : Nat) (m : Mem) : Holds s base m fun _ _ => none :=
  fun _ _ _ _ _ hv => nomatch hv

theorem Painted.colorAt {bytes : Nat → Byte} (h : Painted s base bytes P m m')
    (hP : ∀ px py, P px py → px < s.width) (hx : px < s.width) (hp : ¬ P px py) :
    colorAt s m' base px py = colorAt s m base px py := by
  refine readLE_congr fun a ha ha' => h.outside a fun qx qy hq k hk heq => hp ?_
  have hsame : s.offset px py + (a - (base + s.offset px py)) = s.offset qx qy + k := by omega
  obtain ⟨rfl, rfl, -⟩ := s.offset_inj hx (hP qx qy hq) (by omega) hk hsame
  exact hq

section

variable [∀ px py, Decidable (P px py)]

/-- The pixels in `P` are changed somehow, to what is said of them. -/
theorem Holds.alter (h : Holds s base m pic)
    (hin : ∀ px py, px < s.width → py < s.height → P px py → ∀ v ∈ f px py (pic px py),
      colorAt s m' base px py = v)
    (hout : ∀ px py, px < s.width → py < s.height → ¬ P px py →
      colorAt s m' base px py = colorAt s m base px py) :
    Holds s base m' (pic.alter P f) := by
  intro px py hx hy v hv
  unfold Picture.alter at hv
  split_ifs at hv with hp
  · exact hin px py hx hy hp v hv
  · exact (hout px py hx hy hp).trans (h px py hx hy v hv)

/-- Painting in the colour `v`. -/
theorem Holds.paint (h : Holds s base m pic)
    (hpaint : Painted s base (fun k => BitVec.ofNat 8 (v / 256 ^ k)) P m m')
    (hP : ∀ px py, P px py → px < s.width) :
    Holds s base m' (pic.alter P fun _ _ _ => some (v % 256 ^ s.depth)) := by
  refine h.alter (fun px py hx hy hp c hc => ?_) fun px py hx hy hp => hpaint.colorAt hP hx hp
  obtain rfl := Option.some.inj hc
  exact readLE_of_bytes fun k hk => hpaint.inside px py hp k hk

end

theorem Confined.colorAt (h : Confined s base r m m') (hr : r.Inside s) (hx : px < s.width)
    (hout : ¬ r.Covers px py) : colorAt s m' base px py = colorAt s m base px py := by
  refine readLE_congr fun a ha ha' => ?_
  obtain ⟨k, rfl⟩ : ∃ k, a = base + s.offset px py + k := ⟨a - (base + s.offset px py), by omega⟩
  exact h.pixel hr hx hout (by omega)

/-- Another raster, beside this one. -/
def Layout.Beside (s : Layout) (base base' : Nat) : Prop :=
  base + s.extent ≤ base' ∨ base' + s.extent ≤ base

instance (s : Layout) (base base' : Nat) : Decidable (s.Beside base base') :=
  inferInstanceAs (Decidable (_ ∨ _))

theorem Layout.Beside.symm (h : s.Beside base base') : s.Beside base' base := Or.symm h

theorem Confined.colorAt_beside (h : Confined s base' r m m') (hr : r.Inside s)
    (hbeside : s.Beside base base') (hx : px < s.width) (hy : py < s.height) :
    Raster.colorAt s m' base px py = Raster.colorAt s m base px py := by
  refine readLE_congr fun a ha ha' => h.outside hr ?_
  obtain ⟨k, rfl⟩ : ∃ k, a = base + s.offset px py + k := ⟨a - (base + s.offset px py), by omega⟩
  have hin := s.byte_lt_extent hx hy (show k < s.depth by omega)
  unfold Layout.Beside at hbeside
  omega

theorem Holds.beside (h : Holds s base m pic) (hconf : Confined s base' r m m') (hr : r.Inside s)
    (hbeside : s.Beside base base') : Holds s base m' pic :=
  h.congr fun _ hx _ hy => hconf.colorAt_beside hr hbeside hx hy

/-- A rectangle is copied from another raster. -/
theorem Holds.copy (h : Holds s base m pic) (hback : Holds s base' m back)
    (hconf : Confined s base r m m') (hr : r.Inside s) (hbeside : s.Beside base' base)
    (hcopied : ∀ px py, r.Covers px py →
      Raster.colorAt s m' base px py = Raster.colorAt s m' base' px py) :
    Holds s base m' (pic.alter r.Covers fun px py _ => back px py) := by
  refine h.alter (fun px py hx hy hp v hv => ?_) fun px py hx _ hp => hconf.colorAt hr hx hp
  rw [hcopied px py hp, hconf.colorAt_beside hr hbeside hx hy]
  exact hback px py hx hy v hv

/-! ## Pixel by pixel -/

/-- Only pixels of `r` differ, and each has become `g` of what it was. -/
structure Altered (s : Layout) (base : Nat) (r : Rect) (g : Nat → Nat) (m m' : Mem) : Prop where
  confined : Confined s base r m m'
  pixel : ∀ px py, r.Covers px py → colorAt s m' base px py = g (colorAt s m base px py)

variable {q t : Rect} {g : Nat → Nat} {m'' : Mem}

theorem Altered.empty (h : ∀ px py, ¬ r.Covers px py) : Altered s base r g m m :=
  ⟨Confined.refl _ _ _ _, fun px py hp => absurd hp (h px py)⟩

/-- One part after the other. -/
theorem Altered.append (h : Altered s base r g m m') (h' : Altered s base q g m' m'')
    (hr : r.Inside s) (hq : q.Inside s) (hdisjoint : ∀ px py, r.Covers px py → ¬ q.Covers px py)
    (ht : ∀ px py, t.Covers px py ↔ r.Covers px py ∨ q.Covers px py) :
    Altered s base t g m m'' := by
  refine ⟨(h.confined.mono fun px py hp => (ht px py).mpr (.inl hp)).trans
    (h'.confined.mono fun px py hp => (ht px py).mpr (.inr hp)), fun px py hp => ?_⟩
  rcases (ht px py).mp hp with hin | hin
  · rw [h'.confined.colorAt hq (hr.pixel hin).1 (hdisjoint px py hin), h.pixel px py hin]
  · have hout : ¬ r.Covers px py := fun hold => hdisjoint px py hold hin
    rw [h'.pixel px py hin, h.confined.colorAt hr (hq.pixel hin).1 hout]

theorem Holds.altered (h : Holds s base m pic) (halter : Altered s base r g m m')
    (hr : r.Inside s) : Holds s base m' (pic.alter r.Covers fun _ _ => Option.map g) := by
  refine h.alter (fun px py hx hy hp v hv => ?_) fun px py hx _ hp =>
    halter.confined.colorAt hr hx hp
  obtain ⟨c, hc, rfl⟩ := Option.map_eq_some_iff.mp hv
  rw [halter.pixel px py hp, h px py hx hy c hc]

end Raster

import BootLoader.Video.Flush

/-!
# Rectangles are drawn pixel by pixel

The loops of `bl_fb_fill_rectangle` go from pixel to pixel by adding to a pointer, and
`bl_fb_set_pixel` computes where each is. They write the same.
-/

open ByteMemory

namespace BootLoader.Video

open Raster

/-- The pixel size is the one that a driver gives for the bits of a pixel. -/
structure BlVideoInfo.DepthOk (info : BlVideoInfo) : Prop where
  bits : info.bitsPerPixel = 15 ∨ info.bitsPerPixel = 16 ∨ info.bitsPerPixel = 24 ∨
    info.bitsPerPixel = 32
  bytes : info.bytesPerPixel = (info.bitsPerPixel + (info.bitsPerPixel &&& 7)) >>> 3

def setPixels (fb : BlFb) (color : Nat) (pixels : List (Nat × Nat)) (m : Mem) : Mem :=
  pixels.foldl (fun m p => blFbSetPixel fb m color p.1 p.2) m

def colorByte (color k : Nat) : Byte := BitVec.ofNat 8 (color / 256 ^ k)

variable {info : BlVideoInfo} {fits : info.width * info.bytesPerPixel ≤ info.pitch} {fb : BlFb}
  {m : Mem} {base color : Nat} {r : Rect}

theorem BlVideoInfo.DepthOk.cases (h : info.DepthOk) :
    info.bytesPerPixel = 2 ∧ (info.bitsPerPixel = 15 ∨ info.bitsPerPixel = 16) ∨
      info.bytesPerPixel = 3 ∧ info.bitsPerPixel = 24 ∨
      info.bytesPerPixel = 4 ∧ info.bitsPerPixel = 32 := by
  have hbytes := h.bytes
  rcases h.bits with hbits | hbits | hbits | hbits <;> rw [hbits] at hbytes
  · exact .inl ⟨hbytes, .inl hbits⟩
  · exact .inl ⟨hbytes, .inr hbits⟩
  · exact .inr (.inl ⟨hbytes, hbits⟩)
  · exact .inr (.inr ⟨hbytes, hbits⟩)

/-! ## One pixel -/

theorem store24_eq {d : Nat} (c : Nat) (hd : d + 3 ≤ 2 ^ 32) :
    store24 m d c = writeLE m d 3 c := by
  unfold store24
  rw [Nat.mod_eq_of_lt (show d < 2 ^ 32 by omega), Nat.mod_eq_of_lt (show d + 1 < 2 ^ 32 by omega),
    Nat.mod_eq_of_lt (show d + 2 < 2 ^ 32 by omega)]
  funext a
  by_cases hin : d ≤ a ∧ a < d + 3
  · obtain rfl | rfl | rfl : a = d ∨ a = d + 1 ∨ a = d + 2 := by omega
    all_goals simp [store, writeLE, Nat.shiftRight_eq_div_pow]
  · rw [writeLE, if_neg hin, store_other _ _ (by omega), store_other _ _ (by omega),
      store_other _ _ (by omega)]

/-- The masked colour has the same bytes. -/
theorem write16_mask (d : Nat) : write16 m d (color &&& 0xffff) = writeLE m d 2 color := by
  have hmask : color &&& 0xffff = color % 2 ^ 16 := Nat.and_two_pow_sub_one_eq_mod color 16
  funext a
  rw [hmask, write16, writeLE, writeLE]
  split_ifs with hin
  · obtain rfl | rfl : a = d ∨ a = d + 1 := by omega
    · apply BitVec.eq_of_toNat_eq
      simp
    · apply BitVec.eq_of_toNat_eq
      simp
      omega
  · rfl

theorem pixel_le (fits : info.width * info.bytesPerPixel ≤ info.pitch) {px py : Nat}
    (hbuffer : base + (info.layout fits).extent ≤ 2 ^ 32) (hx : px < info.width)
    (hy : py < info.height) :
    base + (info.layout fits).offset px py + info.bytesPerPixel ≤ 2 ^ 32 := by
  have hend := (info.layout fits).offset_le_extent (show px + 1 ≤ info.width from hx) hy
  rw [← Layout.offset_add, one_mul] at hend
  simp only [BlVideoInfo.layout] at hend hbuffer ⊢
  omega

theorem blFbSetPixel_painted (fits : fb.info.width * fb.info.bytesPerPixel ≤ fb.info.pitch)
    {px py : Nat} (hdepth : fb.info.DepthOk)
    (hbuffer : blFbGetTargetPtr fb + (fb.info.layout fits).extent ≤ 2 ^ 32)
    (hx : px < fb.info.width) (hy : py < fb.info.height) :
    Painted (fb.info.layout fits) (blFbGetTargetPtr fb) (colorByte color)
      (fun qx qy => qx = px ∧ qy = py) m (blFbSetPixel fb m color px py) := by
  have hend := pixel_le fits hbuffer hx hy
  have hone := painted_writeLE (fb.info.layout fits) (blFbGetTargetPtr fb) px py color m
  have hdepths := hdepth.cases
  rw [show (fb.info.layout fits).depth = fb.info.bytesPerPixel from rfl] at hone
  unfold blFbSetPixel
  rw [pixelPtr_eq fits, Nat.mod_eq_of_lt (by omega)]
  rcases hdepths with ⟨hbytes, hbits | hbits⟩ | ⟨hbytes, hbits⟩ | ⟨hbytes, hbits⟩ <;>
    rw [hbytes] at hone hend <;> rw [hbits]
  · simp only [write16_mask]
    exact hone
  · simp only [write16_mask]
    exact hone
  · simp only [store24_eq _ hend]
    exact hone
  · exact hone

theorem setPixels_painted (fits : fb.info.width * fb.info.bytesPerPixel ≤ fb.info.pitch)
    (hdepth : fb.info.DepthOk)
    (hbuffer : blFbGetTargetPtr fb + (fb.info.layout fits).extent ≤ 2 ^ 32)
    (pixels : List (Nat × Nat))
    (hpixels : ∀ p ∈ pixels, p.1 < fb.info.width ∧ p.2 < fb.info.height) :
    Painted (fb.info.layout fits) (blFbGetTargetPtr fb) (colorByte color)
      (fun px py => (px, py) ∈ pixels) m (setPixels fb color pixels m) := by
  induction pixels generalizing m with
  | nil => exact Painted.empty fun px py => List.not_mem_nil
  | cons p pixels ih =>
    obtain ⟨hx, hy⟩ := hpixels p (by simp)
    have hrest : ∀ q ∈ pixels, q.1 < fb.info.width ∧ q.2 < fb.info.height :=
      fun q hq => hpixels q (by simp [hq])
    have hone : Painted (fb.info.layout fits) (blFbGetTargetPtr fb) (colorByte color)
        (fun qx qy => qx = p.1 ∧ qy = p.2) m (blFbSetPixel fb m color p.1 p.2) :=
      blFbSetPixel_painted fits hdepth hbuffer hx hy
    refine (hone.trans (ih hrest) ?_ ?_).congr fun px py => ?_
    · rintro px py ⟨rfl, -⟩
      exact hx
    · exact fun px py hmem => (hrest _ hmem).1
    · rw [List.mem_cons, Prod.ext_iff]

/-! ## Rows -/

theorem fillRow_painted {x y w : Nat} (hbytes : 0 < info.bytesPerPixel) (hx : x + w ≤ info.width)
    (hend : base + (info.layout fits).offset (x + w) y ≤ 2 ^ 32) :
    Painted (info.layout fits) base (colorByte color)
      (fun px py => py = y ∧ x ≤ px ∧ px < x + w) m
      (fillRow info.bytesPerPixel color w
        ((base + (info.layout fits).offset x y) % 2 ^ 32) m).2 := by
  induction w generalizing x m with
  | zero => exact Painted.empty fun px py h => by omega
  | succ w ih =>
    have hlt : base + (info.layout fits).offset x y < 2 ^ 32 := by
      rw [line_end, Nat.succ_mul] at hend
      omega
    have hnext : base + (info.layout fits).offset x y + info.bytesPerPixel =
        base + (info.layout fits).offset (x + 1) y := by
      rw [line_end, one_mul]
    rw [← Nat.add_assoc, Nat.add_right_comm] at hx hend
    rw [fillRow, Nat.mod_add_mod, hnext, Nat.mod_eq_of_lt hlt]
    have hone := painted_writeLE (info.layout fits) base x y color m
    refine (hone.trans (ih hx hend) ?_ ?_).congr fun px py => ?_
    · rintro px py ⟨rfl, -⟩
      exact show px < info.width by omega
    · rintro px py ⟨-, -, hright⟩
      exact lt_of_lt_of_le hright hx
    · omega

theorem fillRectangle_painted {pitch : Nat} (hbytes : 0 < info.bytesPerPixel)
    (hbase : base + (info.layout fits).extent ≤ 2 ^ 32) (hr : r.Inside (info.layout fits))
    (hpitch : (r.w * info.bytesPerPixel + pitch) % 2 ^ 32 = info.pitch % 2 ^ 32)
    (n i : Nat) (m : Mem) (hn : i + n = r.h) :
    Painted (info.layout fits) base (colorByte color)
      (fun px py => r.Covers px py ∧ r.y + i ≤ py) m
      (fillRectangle info.bytesPerPixel
        ((base + (info.layout fits).offset r.x (r.y + i)) % 2 ^ 32) color pitch r.w n m) := by
  induction n generalizing i m with
  | zero =>
    refine Painted.empty fun px py h => ?_
    simp only [Rect.Covers] at h
    omega
  | succ n ih =>
    have hend := row_le hbase hr (show i < r.h by omega)
    obtain ⟨hptr, -⟩ := fillRow_spec (m := m) info.bytesPerPixel color hend
    have hnext := @fill_next_row info fits base r.x (r.y + i) r.w pitch hpitch
    rw [← line_end] at hend
    have hrow := @fillRow_painted info fits m base color r.x (r.y + i) r.w hbytes hr.1 hend
    rw [fillRectangle]
    simp only [hptr, hnext]
    refine (hrow.trans (ih (i + 1) _ (by omega)) ?_ ?_).congr fun px py => ?_
    · rintro px py ⟨-, -, hlt⟩
      exact lt_of_lt_of_le hlt hr.1
    · exact fun px py h => (hr.pixel h.1).1
    · simp only [Rect.Covers]
      omega

/-! ## Rectangles -/

theorem blFbFillRectangle_painted (fits : fb.info.width * fb.info.bytesPerPixel ≤ fb.info.pitch)
    (hdepth : fb.info.DepthOk) (htarget : blFbGetTargetPtr fb ≠ 0)
    (hbuffer : blFbGetTargetPtr fb + (fb.info.layout fits).extent ≤ 2 ^ 32)
    (hr : r.Inside (fb.info.layout fits)) :
    Painted (fb.info.layout fits) (blFbGetTargetPtr fb) (colorByte color) r.Covers m
      (blFbFillRectangle fb m color r.x r.y r.w r.h).2 := by
  have hdepths := hdepth.cases
  have hpitch := fill_pitch fb.info.pitch (r.w * fb.info.bytesPerPixel)
  have hfill := @fillRectangle_painted _ fits _ color _ _ (by omega) hbuffer hr hpitch r.h 0 m
    (Nat.zero_add _)
  rw [Nat.add_zero, ← pixelPtr_eq, Nat.mul_comm r.w] at hfill
  unfold blFbFillRectangle
  simp only [if_neg htarget]
  unfold blFbFillRectanglePtr
  rw [if_neg htarget]
  refine Painted.congr (P := fun px py => r.Covers px py ∧ r.y ≤ py) ?_ fun px py => ?_
  · unfold blFbFillRectangle16bits blFbFillRectangle24bits blFbFillRectangle32bits
    rcases hdepths with ⟨hbytes, -⟩ | ⟨hbytes, -⟩ | ⟨hbytes, -⟩
    all_goals
      simp only [blFbUpdateDirtyArea, hbytes] at hfill ⊢
      exact hfill
  · exact and_iff_left_of_imp fun hcovers => hcovers.2.2.1

/-- **Filling is drawing every pixel**, in any order and also more than once. -/
theorem fill_eq_setPixels (fb : BlFb) (m : Mem) (color : Nat) (r : Rect)
    (fits : fb.info.width * fb.info.bytesPerPixel ≤ fb.info.pitch) (hdepth : fb.info.DepthOk)
    (htarget : blFbGetTargetPtr fb ≠ 0)
    (hbuffer : blFbGetTargetPtr fb + (fb.info.layout fits).extent ≤ 2 ^ 32)
    (hr : r.Inside (fb.info.layout fits)) (pixels : List (Nat × Nat))
    (hpixels : ∀ px py, (px, py) ∈ pixels ↔ r.Covers px py) :
    (blFbFillRectangle fb m color r.x r.y r.w r.h).2 = setPixels fb color pixels m ∧
      Confined (fb.info.layout fits) (blFbGetTargetPtr fb) r m
        (blFbFillRectangle fb m color r.x r.y r.w r.h).2 := by
  have hfill := @blFbFillRectangle_painted fb m color r fits hdepth htarget hbuffer hr
  refine ⟨hfill.unique ?_, hfill.confined⟩
  refine (setPixels_painted fits hdepth hbuffer pixels fun p hp => ?_).congr hpixels
  exact hr.pixel ((hpixels p.1 p.2).mp hp)

/-- Four pixels of 16 bits in a line, and two bytes of padding. -/
def paddedLines : BlFb where
  info := ⟨4, 2, 10, 0xe0000000, 16, 2, ⟨11, 5⟩, ⟨5, 6⟩, ⟨0, 5⟩, ⟨0, 0⟩⟩
  renderer := 0
  dirtyArea := noDirtyArea
  doubleBuffer := 0x1000

theorem paddedLines_fill :
    (blFbFillRectangle paddedLines (fun _ => 0) 0xffff 1 0 2 2).2 =
        setPixels paddedLines 0xffff [(2, 1), (1, 0), (1, 1), (2, 0)] (fun _ => 0) ∧
      Confined (paddedLines.info.layout (by decide)) 0x1000 ⟨1, 0, 2, 2⟩ (fun _ => 0)
        (blFbFillRectangle paddedLines (fun _ => 0) 0xffff 1 0 2 2).2 := by
  refine fill_eq_setPixels paddedLines (fun _ => 0) 0xffff ⟨1, 0, 2, 2⟩ (by decide)
    ⟨.inr (.inl rfl), rfl⟩ (by decide) (by decide) ⟨by decide, by decide⟩ _ fun px py => ?_
  simp [Rect.Covers]
  omega

end BootLoader.Video

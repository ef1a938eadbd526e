import BootLoader.Lib.Raster
import BootLoader.Video.Code

/-!
# No drawn pixel is lost

The dirty area covers every pixel drawn since the last update.
-/

open ByteMemory

namespace BootLoader.Video

open Raster Utils

def BlVideoInfo.layout (info : BlVideoInfo)
    (fits : info.width * info.bytesPerPixel ≤ info.pitch) : Layout where
  width := info.width
  height := info.height
  pitch := info.pitch
  depth := info.bytesPerPixel
  fits := fits

/-- Two separate buffers that hold the whole raster. -/
structure BuffersFit (s : Layout) (front back : Nat) : Prop where
  front_ne : front ≠ 0
  front_le : front + s.extent ≤ 2 ^ 32
  back_le : back + s.extent ≤ 2 ^ 32
  apart : front + s.extent ≤ back ∨ back + s.extent ≤ front

/-! ## The dirty area is the least rectangle around what was drawn -/

def DirtyArea.rect (a : DirtyArea) : Rect := ⟨a.x, a.y, a.w, a.h⟩

theorem updateDirty_reset (x w : Nat) :
    updateDirtyStart invalidPos x = x ∧ updateDirtyLength invalidPos invalidPos x w = w := by
  simp [updateDirtyStart, updateDirtyLength]

theorem updateDirty_hull {dirtyX dirtyW x w size : Nat} (hsize : size < invalidPos)
    (hdirty : dirtyX + dirtyW ≤ size) (h : x + w ≤ size) :
    updateDirtyStart dirtyX x = min dirtyX x ∧
      updateDirtyLength dirtyX dirtyW x w = max (dirtyX + dirtyW) (x + w) - min dirtyX x := by
  unfold updateDirtyStart updateDirtyLength invalidPos at *
  rw [Nat.mod_eq_of_lt (show x + w < 2 ^ 32 by omega),
    Nat.mod_eq_of_lt (show dirtyX + dirtyW < 2 ^ 32 by omega)]
  constructor <;> split_ifs <;> omega

variable {info : BlVideoInfo} {fits : info.width * info.bytesPerPixel ≤ info.pitch} {back : Nat}

theorem blFbUpdateDirtyArea_reset (fb : BlFb) (r : Rect) (h : fb.dirtyArea = noDirtyArea) :
    (blFbUpdateDirtyArea fb r.x r.y r.w r.h).dirtyArea.rect = r := by
  obtain ⟨hx, hw⟩ := updateDirty_reset r.x r.w
  obtain ⟨hy, hh⟩ := updateDirty_reset r.y r.h
  simp [blFbUpdateDirtyArea, h, noDirtyArea, DirtyArea.rect, hx, hw, hy, hh]

theorem blFbUpdateDirtyArea_hull (fb : BlFb) {r : Rect} {s : Layout}
    (hwidth : s.width < invalidPos) (hheight : s.height < invalidPos)
    (hdirty : fb.dirtyArea.rect.Inside s) (hr : r.Inside s) :
    (blFbUpdateDirtyArea fb r.x r.y r.w r.h).dirtyArea.rect = fb.dirtyArea.rect.hull r := by
  obtain ⟨hx, hw⟩ := updateDirty_hull hwidth hdirty.1 hr.1
  obtain ⟨hy, hh⟩ := updateDirty_hull hheight hdirty.2 hr.2
  simp only [DirtyArea.rect] at hx hw hy hh
  simp only [blFbUpdateDirtyArea, DirtyArea.rect, Rect.hull, hx, hw, hy, hh]

/-! ## Drawing changes pixels of its rectangle only -/

theorem pixelPtr_eq (fits : info.width * info.bytesPerPixel ≤ info.pitch) (base x y : Nat) :
    pixelPtr info base x y = (base + (info.layout fits).offset x y) % 2 ^ 32 := by
  rw [pixelPtr, Nat.add_assoc]
  rfl

theorem next_row (base x y : Nat) :
    ((base + (info.layout fits).offset x y) % 2 ^ 32 + info.pitch) % 2 ^ 32 =
      (base + (info.layout fits).offset x (y + 1)) % 2 ^ 32 := by
  rw [Nat.mod_add_mod, Nat.add_assoc, ← (info.layout fits).offset_next]
  rfl

theorem line_end (base x y w : Nat) :
    base + (info.layout fits).offset (x + w) y =
      base + (info.layout fits).offset x y + w * info.bytesPerPixel := by
  rw [← Layout.offset_add, Nat.add_assoc]
  rfl

theorem row_le {base : Nat} {r : Rect} (hbase : base + (info.layout fits).extent ≤ 2 ^ 32)
    (hr : r.Inside (info.layout fits)) {i : Nat} (hi : i < r.h) :
    base + (info.layout fits).offset r.x (r.y + i) + r.w * info.bytesPerPixel ≤ 2 ^ 32 := by
  have hend := (info.layout fits).offset_le_extent hr.1
    (show r.y + i < (info.layout fits).height by have := hr.2; omega)
  rw [← Layout.offset_add] at hend
  simp only [BlVideoInfo.layout] at hend hbase ⊢
  omega

theorem overRows_confined {row : Nat → Nat → Nat → Mem → Mem} {base : Nat} {r : Rect}
    (hrow : ∀ i < r.h, ∀ src m,
      KeptOutside (base + (info.layout fits).offset r.x (r.y + i))
        (base + (info.layout fits).offset (r.x + r.w) (r.y + i)) m
        (row i src ((base + (info.layout fits).offset r.x (r.y + i)) % 2 ^ 32) m))
    (n i src : Nat) (m : Mem) (hn : i + n = r.h) :
    Confined (info.layout fits) base r m
      (overRows row info.pitch n i src
        ((base + (info.layout fits).offset r.x (r.y + i)) % 2 ^ 32) m) := by
  induction n generalizing i src m with
  | zero => exact Confined.refl _ _ _ _
  | succ n ih =>
    rw [overRows, next_row, Nat.add_assoc r.y]
    have hline := confined_line (by omega) (by omega) (hrow i (by omega) src m)
    exact hline.trans (ih (i + 1) _ _ (by omega))

/-! ### Rows of a glyph -/

variable {m : Mem} {d n : Nat}

theorem blend_kept {j : Nat} (fg mask under : BitVec 64) (hd : d + n ≤ 2 ^ 32) (hj : j + 8 ≤ n) :
    KeptOutside d (d + n) m (blend m (d + j) fg mask under) := by
  unfold blend
  rw [Nat.mod_eq_of_lt (show d + j < 2 ^ 32 by omega)]
  exact (keptOutside_writeLE m _ 8 _).mono (by omega) (by omega)

theorem blitRow2_kept (white : Nat) (glyph : Byte) (src : Nat) (hd : d + 16 ≤ 2 ^ 32) :
    KeptOutside d (d + 16) m (blitRow2 info white glyph src (d % 2 ^ 32) m) := by
  rw [Nat.mod_eq_of_lt (show d < 2 ^ 32 by omega)]
  exact (blend_kept (j := 0) _ _ _ hd (by omega)).trans (blend_kept _ _ _ hd (by omega))

theorem blitRow4_kept (white : Nat) (glyph : Byte) (src : Nat) (hd : d + 32 ≤ 2 ^ 32) :
    KeptOutside d (d + 32) m (blitRow4 info white glyph src (d % 2 ^ 32) m) := by
  rw [Nat.mod_eq_of_lt (show d < 2 ^ 32 by omega)]
  refine KeptOutside.trans ?_ (blend_kept (j := 24) _ _ _ hd (by omega))
  refine KeptOutside.trans ?_ (blend_kept (j := 16) _ _ _ hd (by omega))
  refine KeptOutside.trans ?_ (blend_kept (j := 8) _ _ _ hd (by omega))
  exact blend_kept (j := 0) _ _ _ hd (by omega)

theorem keptOutside_store (m : Mem) (v : Byte) {a lo hi : Nat} (hlo : lo ≤ a) (hhi : a < hi) :
    KeptOutside lo hi m (store m a v) :=
  fun _ _ => store_other m v (by omega)

theorem store24_kept {j : Nat} (c : Nat) (hd : d + n ≤ 2 ^ 32) (hj : j + 3 ≤ n) :
    KeptOutside d (d + n) m (store24 m (d + j) c) := by
  unfold store24
  rw [Nat.mod_eq_of_lt (show d + j < 2 ^ 32 by omega),
    Nat.mod_eq_of_lt (show d + j + 1 < 2 ^ 32 by omega),
    Nat.mod_eq_of_lt (show d + j + 2 < 2 ^ 32 by omega)]
  refine KeptOutside.trans ?_ (keptOutside_store _ _ (by omega) (by omega))
  refine KeptOutside.trans ?_ (keptOutside_store _ _ (by omega) (by omega))
  exact keptOutside_store _ _ (by omega) (by omega)

theorem blitPixels3_kept (glyph : Byte) (src : Nat) (hd : d + 24 ≤ 2 ^ 32) (hn : n ≤ 8) :
    KeptOutside d (d + 24) m (blitPixels3 info glyph src d n m) := by
  induction n generalizing m with
  | zero => exact KeptOutside.refl _ _ _
  | succ j ih =>
    rw [blitPixels3]
    exact (store24_kept _ hd (by unfold blFontCharacterWidth; omega)).trans (ih (by omega))

theorem blitRow3_kept (glyph : Byte) (src : Nat) (hd : d + 24 ≤ 2 ^ 32) :
    KeptOutside d (d + 24) m (blitRow3 info glyph src (d % 2 ^ 32) m) := by
  rw [Nat.mod_eq_of_lt (show d < 2 ^ 32 by omega)]
  exact blitPixels3_kept glyph src hd le_rfl

/-! ### Rows of a rectangle -/

theorem fillRow_spec (bytes color : Nat) {w : Nat} (hd : d + w * bytes ≤ 2 ^ 32) :
    (fillRow bytes color w (d % 2 ^ 32) m).1 = (d + w * bytes) % 2 ^ 32 ∧
      KeptOutside d (d + w * bytes) m (fillRow bytes color w (d % 2 ^ 32) m).2 := by
  induction w generalizing m d with
  | zero => exact ⟨by simp [fillRow], KeptOutside.refl _ _ _⟩
  | succ w ih =>
    rw [Nat.succ_mul] at hd ⊢
    obtain ⟨hptr, hkept⟩ := ih (m := writeLE m (d % 2 ^ 32) bytes color) (d := d + bytes) (by omega)
    rw [fillRow, Nat.mod_add_mod]
    refine ⟨?_, KeptOutside.trans ?_ (hkept.mono (by omega) (by omega))⟩
    · rw [hptr, Nat.add_assoc, Nat.add_comm bytes]
    · rcases Nat.eq_zero_or_pos bytes with rfl | hpos
      · intro a _
        exact writeLE_outside _ _ (by omega)
      · rw [Nat.mod_eq_of_lt (show d < 2 ^ 32 by omega)]
        exact (keptOutside_writeLE m d bytes color).mono le_rfl (by omega)

/-- The pointer behind a row, moved by what is left of the line. -/
theorem fill_next_row {base x y w pitch : Nat}
    (hpitch : (w * info.bytesPerPixel + pitch) % 2 ^ 32 = info.pitch % 2 ^ 32) :
    ((base + (info.layout fits).offset x y + w * info.bytesPerPixel) % 2 ^ 32 + pitch) % 2 ^ 32 =
      (base + (info.layout fits).offset x (y + 1)) % 2 ^ 32 := by
  rw [← next_row, Nat.mod_add_mod, Nat.mod_add_mod, Nat.add_assoc _ _ pitch, Nat.add_mod, hpitch,
    ← Nat.add_mod]

theorem fillRectangle_confined {base pitch : Nat} {r : Rect} (color : Nat)
    (hbase : base + (info.layout fits).extent ≤ 2 ^ 32) (hr : r.Inside (info.layout fits))
    (hpitch : (r.w * info.bytesPerPixel + pitch) % 2 ^ 32 = info.pitch % 2 ^ 32)
    (i : Nat) (m : Mem) (hn : i + n = r.h) :
    Confined (info.layout fits) base r m
      (fillRectangle info.bytesPerPixel
        ((base + (info.layout fits).offset r.x (r.y + i)) % 2 ^ 32) color pitch r.w n m) := by
  induction n generalizing i m with
  | zero => exact Confined.refl _ _ _ _
  | succ n ih =>
    obtain ⟨hptr, hkept⟩ := fillRow_spec (m := m) info.bytesPerPixel color
      (row_le hbase hr (show i < r.h by omega))
    have hnext := @fill_next_row info fits base r.x (r.y + i) r.w pitch hpitch
    rw [← line_end] at hkept
    rw [fillRectangle]
    simp only [hptr, hnext]
    exact (confined_line (by omega) (by omega) hkept).trans (ih (i + 1) _ (by omega))

/-! ### The two ways to draw -/

/-- With no renderer set. -/
def screen (info : BlVideoInfo) (back : Nat) (area : DirtyArea) : BlFb where
  info := info
  renderer := 0
  dirtyArea := area
  doubleBuffer := back

theorem blFbGetTargetPtr_screen (info : BlVideoInfo) (area : DirtyArea) (hback : back ≠ 0) :
    blFbGetTargetPtr (screen info back area) = back := by
  simp [blFbGetTargetPtr, screen, hback]

theorem fill_pitch (pitch bytes : Nat) :
    (bytes + (pitch + (2 ^ 32 - bytes % 2 ^ 32)) % 2 ^ 32) % 2 ^ 32 = pitch % 2 ^ 32 := by
  omega

theorem blFbFillRectanglePtr_confined {r : Rect} (hback : back ≠ 0)
    (hfits : back + (info.layout fits).extent ≤ 2 ^ 32) (hr : r.Inside (info.layout fits))
    (color : Nat) (m : Mem) :
    Confined (info.layout fits) back r m
      (blFbFillRectanglePtr info m back color r.x r.y r.w r.h) := by
  have hpitch := fill_pitch info.pitch (r.w * info.bytesPerPixel)
  have hfill := fillRectangle_confined color hfits hr hpitch 0 m (Nat.zero_add _)
  rw [Nat.add_zero, ← pixelPtr_eq, Nat.mul_comm r.w] at hfill
  unfold blFbFillRectanglePtr
  rw [if_neg hback]
  split <;> rename_i hbytes
  · rw [hbytes] at hfill ⊢
    exact hfill
  · rw [hbytes] at hfill ⊢
    exact hfill
  · rw [hbytes] at hfill ⊢
    exact hfill
  · exact Confined.refl _ _ _ _

theorem blFbFillRectangle_spec {r : Rect} (area : DirtyArea) (hback : back ≠ 0)
    (hfits : back + (info.layout fits).extent ≤ 2 ^ 32) (hr : r.Inside (info.layout fits))
    (color : Nat) (m : Mem) :
    ∃ m', blFbFillRectangle (screen info back area) m color r.x r.y r.w r.h =
        (blFbUpdateDirtyArea (screen info back area) r.x r.y r.w r.h, m') ∧
      Confined (info.layout fits) back r m m' := by
  unfold blFbFillRectangle
  simp only [blFbGetTargetPtr_screen info area hback, if_neg hback]
  exact ⟨_, rfl, blFbFillRectanglePtr_confined hback hfits hr color m⟩

theorem glyph_confined {x y : Nat} {row : Nat → Nat → Nat → Mem → Mem}
    (hfits : back + (info.layout fits).extent ≤ 2 ^ 32)
    (hr : (Rect.mk x y 8 16).Inside (info.layout fits))
    (hrow : ∀ i src d m, d + 8 * info.bytesPerPixel ≤ 2 ^ 32 →
      KeptOutside d (d + 8 * info.bytesPerPixel) m (row i src (d % 2 ^ 32) m))
    (src : Nat) (m : Mem) :
    Confined (info.layout fits) back ⟨x, y, 8, 16⟩ m
      (overRows row info.pitch 16 0 src (pixelPtr info back x y) m) := by
  rw [pixelPtr_eq fits]
  apply overRows_confined (r := ⟨x, y, 8, 16⟩) _ 16 0 src m rfl
  intro i hi src m
  rw [line_end]
  exact hrow i src _ m (row_le hfits hr hi)

theorem blFbBlitGlyph_spec {x y : Nat} {c : BitVec 8} (area : DirtyArea) (hback : back ≠ 0)
    (hfits : back + (info.layout fits).extent ≤ 2 ^ 32) (hc : ¬ c.toInt < 0x20)
    (hr : (Rect.mk x y 8 16).Inside (info.layout fits)) (font : Nat → Nat → Byte) (blitBg : Nat)
    (m : Mem) :
    ∃ m', blFbBlitGlyph font (screen info back area) m c blitBg x y =
        (blFbUpdateDirtyArea (screen info back area) x y 8 16, m') ∧
      Confined (info.layout fits) back ⟨x, y, 8, 16⟩ m m' := by
  have htarget := blFbGetTargetPtr_screen info
    (blFbUpdateDirtyArea (screen info back area) x y 8 16).dirtyArea hback
  have hrows := @glyph_confined info fits back x y
  unfold blFbBlitGlyph
  rw [if_neg hc]
  simp only [blFontCharacterWidth, blFontCharacterHeight]
  rw [show blFbGetTargetPtr (blFbUpdateDirtyArea (screen info back area) x y 8 16) = back
    from htarget]
  split <;> rename_i hbytes <;> refine ⟨_, rfl, ?_⟩
  · apply hrows hfits hr
    intro i src d m hd
    rw [show info.bytesPerPixel = 2 from hbytes] at hd ⊢
    exact blitRow2_kept _ _ _ hd
  · apply hrows hfits hr
    intro i src d m hd
    rw [show info.bytesPerPixel = 3 from hbytes] at hd ⊢
    exact blitRow3_kept _ _ hd
  · apply hrows hfits hr
    intro i src d m hd
    rw [show info.bytesPerPixel = 4 from hbytes] at hd ⊢
    exact blitRow4_kept _ _ _ hd
  · exact Confined.refl _ _ _ _

/-! ## An update copies the dirty area -/

/-- The bytes of one pixel agree in two buffers. -/
def SamePixel (s : Layout) (front back : Nat) (m : Mem) (px py : Nat) : Prop :=
  ∀ k < s.depth, m (front + s.offset px py + k) = m (back + s.offset px py + k)

theorem copyLine_kept {front x y w : Nat} (src : Nat) (m : Mem) :
    KeptOutside (front + (info.layout fits).offset x y)
      (front + (info.layout fits).offset (x + w) y) m
      (copyRange m (front + (info.layout fits).offset x y) src (w * info.bytesPerPixel)) := by
  rw [line_end]
  exact fun _ ha => copyRange_outside m src ha

theorem blMemcpy_row {front : Nat} {r : Rect} {i : Nat} (hback : back ≠ 0)
    (hfits : BuffersFit (info.layout fits) front back) (hr : r.Inside (info.layout fits))
    (hi : i < r.h) (m : Mem) :
    blMemcpy m ((front + (info.layout fits).offset r.x (r.y + i)) % 2 ^ 32)
        ((back + (info.layout fits).offset r.x (r.y + i)) % 2 ^ 32)
        (r.w * info.bytesPerPixel % 2 ^ 32) =
      copyRange m (front + (info.layout fits).offset r.x (r.y + i))
        (back + (info.layout fits).offset r.x (r.y + i)) (r.w * info.bytesPerPixel) := by
  have hfrontLe := row_le hfits.front_le hr hi
  have hbackLe := row_le hfits.back_le hr hi
  have hfront := hfits.front_ne
  have hlen : r.w * info.bytesPerPixel < 2 ^ 32 := by omega
  rw [Nat.mod_eq_of_lt hlen]
  rcases Nat.eq_zero_or_pos (r.w * info.bytesPerPixel) with hzero | hpos
  · -- Nothing is copied, wherever the pointers are.
    rw [hzero]
    funext a
    rw [copyRange_outside _ _ (by omega)]
    unfold blMemcpy
    split_ifs <;> rfl
  · rw [Nat.mod_eq_of_lt (by omega), Nat.mod_eq_of_lt (by omega)]
    exact blMemcpy_eq (by omega) (by omega) hfrontLe hbackLe

theorem copyLine_pixel {front x w px py k : Nat} (hlo : x ≤ px) (hhi : px < x + w)
    (hk : k < info.bytesPerPixel) (m : Mem) :
    copyRange m (front + (info.layout fits).offset x py) (back + (info.layout fits).offset x py)
        (w * info.bytesPerPixel) (front + (info.layout fits).offset px py + k) =
      m (back + (info.layout fits).offset px py + k) := by
  obtain ⟨i, rfl⟩ : ∃ i, px = x + i := ⟨px - x, by omega⟩
  have hbyte : i * info.bytesPerPixel + k < w * info.bytesPerPixel := by
    have hcols := Nat.mul_le_mul_right info.bytesPerPixel (show i + 1 ≤ w by omega)
    rw [Nat.succ_mul] at hcols
    omega
  rw [line_end, line_end, Nat.add_assoc _ _ k, copyRange_inside m _ hbyte, ← Nat.add_assoc]

theorem copyRows_spec {front : Nat} {r : Rect} (hback : back ≠ 0)
    (hfits : BuffersFit (info.layout fits) front back) (hr : r.Inside (info.layout fits))
    (n i : Nat) (m : Mem) (hn : i + n = r.h) :
    ∃ m', overRows (fun _ src dst m => blMemcpy m dst src (r.w * info.bytesPerPixel % 2 ^ 32))
        info.pitch n i ((back + (info.layout fits).offset r.x (r.y + i)) % 2 ^ 32)
        ((front + (info.layout fits).offset r.x (r.y + i)) % 2 ^ 32) m = m' ∧
      Confined (info.layout fits) front ⟨r.x, r.y + i, r.w, n⟩ m m' ∧
      ∀ px py, (Rect.mk r.x (r.y + i) r.w n).Covers px py →
        SamePixel (info.layout fits) front back m' px py := by
  induction n generalizing i m with
  | zero =>
    refine ⟨_, rfl, Confined.refl _ _ _ _, ?_⟩
    intro px py hp
    simp only [Rect.Covers] at hp
    omega
  | succ n ih =>
    rw [overRows, next_row, next_row, blMemcpy_row hback hfits hr (by omega), Nat.add_assoc r.y]
    set m₁ := copyRange m (front + (info.layout fits).offset r.x (r.y + i))
      (back + (info.layout fits).offset r.x (r.y + i)) (r.w * info.bytesPerPixel) with hm₁
    obtain ⟨m', hm', hrest, hsame⟩ := ih (i + 1) m₁ (by omega)
    have hhead : Confined (info.layout fits) front ⟨r.x, r.y + i, r.w, n + 1⟩ m m₁ :=
      confined_line (show r.y + i ≤ r.y + i from le_rfl) (by simp) (copyLine_kept _ m)
    have hinside : (Rect.mk r.x (r.y + i) r.w (n + 1)).Inside (info.layout fits) :=
      ⟨hr.1, by have := hr.2; simp only; omega⟩
    have hrestInside : (Rect.mk r.x (r.y + (i + 1)) r.w n).Inside (info.layout fits) :=
      ⟨hr.1, by have := hr.2; simp only; omega⟩
    refine ⟨m', hm', hhead.trans (hrest.mono ?_), ?_⟩
    · intro px py hp
      simp only [Rect.Covers] at hp ⊢
      omega
    · intro px py hp
      by_cases hlater : (Rect.mk r.x (r.y + (i + 1)) r.w n).Covers px py
      · exact hsame px py hlater
      · -- The pixel is in row `i`: the rows behind it change neither of its two copies.
        obtain ⟨hpx, hpy⟩ := hinside.pixel hp
        simp only [Rect.Covers] at hp hlater
        obtain rfl : py = r.y + i := by omega
        intro k hk
        have hbyte := (info.layout fits).byte_lt_extent hpx hpy hk
        have hapart := hfits.apart
        have hbackOut : back + (info.layout fits).offset px (r.y + i) + k < front ∨
            front + (info.layout fits).extent ≤
              back + (info.layout fits).offset px (r.y + i) + k := by
          omega
        rw [hrest.pixel hrestInside hpx (by simp only [Rect.Covers]; omega) hk, hm₁,
          copyLine_pixel hp.1 hp.2.1 hk, hrest.outside hrestInside hbackOut,
          hhead.outside hinside hbackOut]

/-! ## Runs -/

inductive Call where
  | fillRectangle (color x y w h : Nat)
  | blitGlyph (c : BitVec 8) (blitBg x y : Nat)
  | updateFromDoubleBuffer

def Call.run (font : Nat → Nat → Byte) : BlFb × Mem → Call → BlFb × Mem
  | (fb, m), .fillRectangle color x y w h => blFbFillRectangle fb m color x y w h
  | (fb, m), .blitGlyph c blitBg x y => blFbBlitGlyph font fb m c blitBg x y
  | (fb, m), .updateFromDoubleBuffer => blFbUpdateFromDoubleBuffer fb m

def runCalls (font : Nat → Nat → Byte) (calls : List Call) (fb : BlFb) (m : Mem) : BlFb × Mem :=
  calls.foldl (Call.run font) (fb, m)

/-- Rectangles and glyphs are on the screen, glyphs are printable. -/
def Call.Inside (info : BlVideoInfo) : Call → Prop
  | .fillRectangle _ x y w h => x + w ≤ info.width ∧ y + h ≤ info.height
  | .blitGlyph c _ x y =>
    (0x20 ≤ c.toNat ∧ c.toNat < 0x7f) ∧ x + blFontCharacterWidth ≤ info.width ∧
      y + blFontCharacterHeight ≤ info.height
  | .updateFromDoubleBuffer => True

def Call.Draws : Call → Nat → Nat → Prop
  | .fillRectangle _ x y w h, px, py => (Rect.mk x y w h).Covers px py
  | .blitGlyph _ _ x y, px, py =>
    (Rect.mk x y blFontCharacterWidth blFontCharacterHeight).Covers px py
  | .updateFromDoubleBuffer, _, _ => False

/-- What holds between two calls, of the pixels drawn so far. -/
structure Tracked (s : Layout) (front back : Nat) (area : DirtyArea) (m : Mem)
    (drawn : Nat → Nat → Prop) : Prop where
  area_inside : area = noDirtyArea ∨ area.rect.Inside s
  drawn_inside : ∀ px py, drawn px py → px < s.width ∧ py < s.height
  shown : ∀ px py, drawn px py → area.rect.Covers px py ∨ SamePixel s front back m px py

variable {front : Nat} {area : DirtyArea} {drawn : Nat → Nat → Prop} {s : Layout}

theorem noDirtyArea_covers {px py : Nat} (hx : px < invalidPos) :
    ¬ noDirtyArea.rect.Covers px py := by
  simp only [noDirtyArea, DirtyArea.rect, Rect.Covers]
  omega

theorem updateDirtyArea_covers (info : BlVideoInfo) (back : Nat) {r : Rect}
    (hwidth : s.width < invalidPos) (hheight : s.height < invalidPos)
    (harea : area = noDirtyArea ∨ area.rect.Inside s)
    (hr : r.Inside s) :
    (blFbUpdateDirtyArea (screen info back area) r.x r.y r.w r.h).dirtyArea.rect.Inside s ∧
      ∀ px py, px < s.width → area.rect.Covers px py ∨ r.Covers px py →
        (blFbUpdateDirtyArea (screen info back area) r.x r.y r.w r.h).dirtyArea.rect.Covers
          px py := by
  rcases harea with hnone | hinside
  · rw [blFbUpdateDirtyArea_reset (screen info back area) r hnone]
    refine ⟨hr, ?_⟩
    rintro px py hx (hold | hnew)
    · rw [hnone] at hold
      exact absurd hold (noDirtyArea_covers (by omega))
    · exact hnew
  · rw [blFbUpdateDirtyArea_hull (screen info back area) hwidth hheight hinside hr]
    refine ⟨Rect.hull_inside hinside hr, ?_⟩
    rintro px py - (hold | hnew)
    · exact Rect.covers_hull_left hold
    · exact Rect.covers_hull_right hnew

theorem Tracked.draw {r : Rect} {m' : Mem} (h : Tracked s front back area m drawn)
    (hwidth : s.width < invalidPos) (hheight : s.height < invalidPos)
    (hfits : BuffersFit s front back) (hr : r.Inside s) (hm : Confined s back r m m') :
    Tracked s front back
      (blFbUpdateDirtyArea (screen info back area) r.x r.y r.w r.h).dirtyArea m'
      (fun px py => drawn px py ∨ r.Covers px py) := by
  obtain ⟨hinside, hcovers⟩ :=
    updateDirtyArea_covers info back hwidth hheight h.area_inside hr
  refine ⟨Or.inr hinside, ?_, ?_⟩
  · rintro px py (hold | hnew)
    · exact h.drawn_inside px py hold
    · exact hr.pixel hnew
  · intro px py hp
    by_cases hnew : r.Covers px py
    · exact Or.inl (hcovers px py (hr.pixel hnew).1 (Or.inr hnew))
    · have hold := hp.resolve_right hnew
      obtain ⟨hx, hy⟩ := h.drawn_inside px py hold
      rcases h.shown px py hold with hdirty | hsame
      · exact Or.inl (hcovers px py hx (Or.inl hdirty))
      · -- Neither copy of the pixel is touched.
        right
        intro k hk
        have hbyte := s.byte_lt_extent hx hy hk
        have hapart := hfits.apart
        rw [hm.pixel hr hx hnew hk, hm.outside hr (by omega)]
        exact hsame k hk

theorem Tracked.flush {m : Mem} (h : Tracked (info.layout fits) front back area m drawn)
    (hfront : info.frameBuffer = front) (hback : back ≠ 0)
    (hwidth : info.width < invalidPos) (hheight : info.height < invalidPos)
    (hfits : BuffersFit (info.layout fits) front back) :
    ∃ m', blFbUpdateFromDoubleBuffer (screen info back area) m =
        (screen info back noDirtyArea, m') ∧
      Tracked (info.layout fits) front back noDirtyArea m' drawn ∧
      ∀ px py, drawn px py → SamePixel (info.layout fits) front back m' px py := by
  subst hfront
  unfold blFbUpdateFromDoubleBuffer
  rcases h.area_inside with rfl | hinside
  · have hall : ∀ px py, drawn px py →
        SamePixel (info.layout fits) info.frameBuffer back m px py := by
      intro px py hp
      have hx : px < info.width := (h.drawn_inside px py hp).1
      exact (h.shown px py hp).resolve_left (noDirtyArea_covers (by omega))
    refine ⟨m, ?_, ⟨Or.inl rfl, h.drawn_inside, fun px py hp => Or.inr (hall px py hp)⟩, hall⟩
    simp [screen, noDirtyArea]
  · have hx : area.x + area.w ≤ info.width := hinside.1
    have hy : area.y + area.h ≤ info.height := hinside.2
    obtain ⟨m', hm', hconf, hcopied⟩ := copyRows_spec hback hfits hinside area.h 0 m
      (Nat.zero_add _)
    have hall : ∀ px py, drawn px py →
        SamePixel (info.layout fits) info.frameBuffer back m' px py := by
      intro px py hp
      by_cases hdirty : area.rect.Covers px py
      · exact hcopied px py hdirty
      · intro k hk
        obtain ⟨hpx, hpy⟩ := h.drawn_inside px py hp
        have hbyte := (info.layout fits).byte_lt_extent hpx hpy hk
        have hapart := hfits.apart
        rw [hconf.pixel hinside hpx hdirty hk, hconf.outside hinside (by omega)]
        exact (h.shown px py hp).resolve_left hdirty k hk
    refine ⟨m', ?_, ⟨Or.inl rfl, h.drawn_inside, fun px py hp => Or.inr (hall px py hp)⟩, hall⟩
    rw [Nat.add_zero, ← pixelPtr_eq, ← pixelPtr_eq] at hm'
    have htarget := blFbGetTargetPtr_screen info area hback
    simp only [htarget]
    rw [if_neg (by simp only [screen]; omega), ← hm']
    rfl

theorem Tracked.run {m : Mem} (h : Tracked (info.layout fits) front back area m drawn)
    (hfront : info.frameBuffer = front) (hback : back ≠ 0)
    (hwidth : info.width < invalidPos) (hheight : info.height < invalidPos)
    (hfits : BuffersFit (info.layout fits) front back) (font : Nat → Nat → Byte) (call : Call)
    (hcall : call.Inside info) :
    ∃ area' m', Call.run font (screen info back area, m) call = (screen info back area', m') ∧
      Tracked (info.layout fits) front back area' m'
        (fun px py => drawn px py ∨ call.Draws px py) := by
  cases call with
  | fillRectangle color x y w h' =>
    obtain ⟨m', hm', hconf⟩ := blFbFillRectangle_spec (r := ⟨x, y, w, h'⟩) area hback
      hfits.back_le hcall color m
    exact ⟨_, m', hm', h.draw hwidth hheight hfits hcall hconf⟩
  | blitGlyph c blitBg x y =>
    obtain ⟨hc, hinside⟩ := hcall
    have hprintable : ¬ c.toInt < 0x20 := by
      rw [BitVec.toInt_eq_toNat_of_lt (by omega)]
      omega
    obtain ⟨m', hm', hconf⟩ := blFbBlitGlyph_spec area hback hfits.back_le hprintable
      hinside font blitBg m
    exact ⟨_, m', hm', h.draw (r := ⟨x, y, 8, 16⟩) hwidth hheight hfits hinside hconf⟩
  | updateFromDoubleBuffer =>
    obtain ⟨m', hm', htracked, -⟩ := h.flush hfront hback hwidth hheight hfits
    refine ⟨noDirtyArea, m', hm', ?_⟩
    simpa only [Call.Draws, or_false] using htracked

theorem Tracked.runCalls {m : Mem} (h : Tracked (info.layout fits) front back area m drawn)
    (hfront : info.frameBuffer = front) (hback : back ≠ 0)
    (hwidth : info.width < invalidPos) (hheight : info.height < invalidPos)
    (hfits : BuffersFit (info.layout fits) front back) (font : Nat → Nat → Byte)
    (calls : List Call) (hcalls : ∀ call ∈ calls, call.Inside info) :
    ∃ area' m', runCalls font calls (screen info back area) m = (screen info back area', m') ∧
      Tracked (info.layout fits) front back area' m'
        (fun px py => drawn px py ∨ ∃ call ∈ calls, call.Draws px py) := by
  induction calls generalizing area m drawn with
  | nil => exact ⟨area, m, rfl, by simpa using h⟩
  | cons call calls ih =>
    obtain ⟨area₁, m₁, hrun, htracked⟩ := h.run hfront hback hwidth hheight hfits font call
      (hcalls call (by simp))
    obtain ⟨area', m', hrest, hfinal⟩ := ih htracked fun c hc => hcalls c (by simp [hc])
    refine ⟨area', m', ?_, ?_⟩
    · rw [← hrest]
      unfold Video.runCalls
      rw [List.foldl_cons, hrun]
    · simpa only [List.mem_cons, exists_eq_or_imp, or_assoc] using hfinal

theorem blFbInit_success {video : Option (BlVideoInfo → BlStatus × BlVideoInfo)}
    {heapAlloc : Nat → Nat} {fb₀ fb : BlFb} (h : blFbInit video heapAlloc fb₀ = (.success, fb)) :
    fb = screen fb.info fb.doubleBuffer noDirtyArea ∧ fb.doubleBuffer ≠ 0 := by
  unfold blFbInit at h
  cases video with
  | none => simp at h
  | some getInfo =>
    simp only at h
    split_ifs at h with hstatus hbuffer
    · exact absurd (congrArg Prod.fst h) hstatus
    · simp at h
    · obtain rfl := congrArg Prod.snd h
      exact ⟨rfl, hbuffer⟩

/-- With a pixel of at least one byte, no sum of coordinates reaches `BL_FB_INVALID_POS`. -/
theorem BuffersFit.small (hfits : BuffersFit s front back) (hdepth : 0 < s.depth) {px : Nat}
    (hpx : px < s.width) :
    s.width < invalidPos ∧ s.height < invalidPos := by
  have hextent : 2 * s.extent ≤ 2 ^ 32 := by
    have hfront := hfits.front_le
    have hback := hfits.back_le
    have hapart := hfits.apart
    omega
  have hpitch : 1 ≤ s.pitch :=
    le_trans (Nat.mul_pos (by omega) hdepth) s.fits
  have hwidth : s.width ≤ s.width * s.depth := Nat.le_mul_of_pos_right _ hdepth
  have hheight : s.height - 1 ≤ (s.height - 1) * s.pitch := Nat.le_mul_of_pos_right _ hpitch
  unfold Layout.extent at hextent
  unfold invalidPos
  omega

/-- The number in the bytes of a pixel of the buffer at `base`. -/
def pixelValue (info : BlVideoInfo) (m : Mem) (base px py : Nat) : Nat :=
  readLE m (base + (py * info.pitch + px * info.bytesPerPixel)) info.bytesPerPixel

/-- **After an update the screen shows every pixel drawn since initialization.** -/
theorem updateFromDoubleBuffer_shows_drawn
    (video : Option (BlVideoInfo → BlStatus × BlVideoInfo)) (heapAlloc : Nat → Nat) (fb₀ fb : BlFb)
    (font : Nat → Nat → Byte) (calls : List Call) (m : Mem)
    (hinit : blFbInit video heapAlloc fb₀ = (.success, fb))
    (fits : fb.info.width * fb.info.bytesPerPixel ≤ fb.info.pitch)
    (hfits : BuffersFit (fb.info.layout fits) fb.info.frameBuffer fb.doubleBuffer)
    (hcalls : ∀ call ∈ calls, call.Inside fb.info) :
    ∀ call ∈ calls, ∀ px py, call.Draws px py →
      pixelValue fb.info (runCalls font (calls ++ [.updateFromDoubleBuffer]) fb m).2
          fb.info.frameBuffer px py =
        pixelValue fb.info (runCalls font (calls ++ [.updateFromDoubleBuffer]) fb m).2
          fb.doubleBuffer px py := by
  intro call hcall px py hp
  obtain ⟨hfb, hback⟩ := blFbInit_success hinit
  rcases Nat.eq_zero_or_pos fb.info.bytesPerPixel with hdepth | hdepth
  · simp [pixelValue, hdepth, readLE]
  have hscreen : px < fb.info.width ∧ py < fb.info.height := by
    have hinside := hcalls call hcall
    cases call <;> simp only [Call.Inside, Call.Draws, Rect.Covers] at hinside hp <;> omega
  obtain ⟨hwidth, hheight⟩ := hfits.small hdepth hscreen.1
  have hstart : Tracked (fb.info.layout fits) fb.info.frameBuffer fb.doubleBuffer noDirtyArea m
      (fun _ _ => False) :=
    ⟨Or.inl rfl, fun _ _ h => h.elim, fun _ _ h => h.elim⟩
  obtain ⟨area, m₁, hrun, htracked⟩ :=
    hstart.runCalls rfl hback hwidth hheight hfits font calls hcalls
  obtain ⟨m', hflush, -, hshown⟩ := htracked.flush rfl hback hwidth hheight hfits
  have hall : (runCalls font (calls ++ [.updateFromDoubleBuffer]) fb m).2 = m' := by
    unfold runCalls at hrun ⊢
    rw [← hfb] at hrun
    rw [List.foldl_append, hrun, List.foldl_cons, List.foldl_nil, Call.run, hflush]
  rw [hall]
  apply readLE_congr_at
  intro k hk
  exact hshown px py (Or.inr ⟨call, hcall, hp⟩) k hk

def smallInfo : BlVideoInfo where
  width := 16
  height := 16
  pitch := 40
  frameBuffer := 0xe0000000
  bitsPerPixel := 16
  bytesPerPixel := 2
  red := ⟨11, 5⟩
  green := ⟨5, 6⟩
  blue := ⟨0, 5⟩
  reserved := ⟨0, 0⟩

def smallFb : BlFb := screen smallInfo 0x200000 noDirtyArea

/-- A rectangle, shown, and then the letter A to its left. -/
def letterCalls : List Call :=
  [.fillRectangle 0xf800 10 2 4 4, .updateFromDoubleBuffer, .blitGlyph 0x41 0x300000 2 0]

def afterLetter : Mem :=
  (runCalls (fun _ _ => 0x18) (letterCalls ++ [.updateFromDoubleBuffer]) smallFb (fun _ => 0)).2

theorem updateFromDoubleBuffer_shows_letter :
    pixelValue smallInfo afterLetter 0xe0000000 5 0 =
      pixelValue smallInfo afterLetter 0x200000 5 0 :=
  updateFromDoubleBuffer_shows_drawn (some fun _ => (.success, smallInfo)) (fun _ => 0x200000)
    smallFb smallFb (fun _ _ => 0x18) letterCalls (fun _ => 0) (by rfl) (by decide)
    ⟨by decide, by decide, by decide, by decide⟩ (by simp [Call.Inside, letterCalls, smallFb,
      screen, smallInfo, blFontCharacterWidth, blFontCharacterHeight])
    (.blitGlyph 0x41 0x300000 2 0) (by simp [letterCalls]) 5 0
    (by simp [Call.Draws, Rect.Covers, blFontCharacterWidth, blFontCharacterHeight])

end BootLoader.Video

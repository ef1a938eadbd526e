import BootLoader.Lib.Picture
import BootLoader.Video.Bounds
import BootLoader.Video.Colors

/-!
# Three screens

What the renderer, the double buffer and the frame buffer show, as pictures, and that the memory has
these pictures after any run of drawing, switching and updating.
-/

open ByteMemory

namespace BootLoader.Video

open Raster Utils

/-! ## Blending over the picture (`core/gui/bitmap.c`) -/

def blFbGetPixel (fb : BlFb) (m : Mem) (x y : Nat) : Nat :=
  blFbGetPixelPtr fb.info m (blFbGetTargetPtr fb) x y

/-- The body of the two loops. -/
def blitPixel (fb : BlFb) (x y : Nat) (m : Mem) : Mem :=
  let color := blAlphaBlendColor fb.info (blFbPrepareColor fb.info 0xf 0xf 0xf 0xf)
    (blFbGetPixel fb m x y) 0xa0
  blFbSetPixel fb m color.1 x y

/-- The loops of `bl_bitmap_blit_shell_background` and `bl_bitmap_blit_prompt_background`. -/
def blitBackground (fb : BlFb) (x y w h : Nat) (m : Mem) : Mem :=
  (List.range w).foldl (fun m i =>
    (List.range h).foldl (fun m j => blitPixel fb (i + x) (j + y) m) m) m

def blBitmapBlitShellBackground (fb : BlFb) (m : Mem) : Rect × Mem :=
  let x := fb.info.width / 20
  let y := fb.info.height / 20
  let w := fb.info.width * 9 % 2 ^ 32 / 10
  let h := fb.info.height * 9 % 2 ^ 32 / 10
  let h := h - h % blFontCharacterHeight
  (⟨x, y, w, h⟩, blitBackground fb x y w h m)

def blBitmapBlitPromptBackground (fb : BlFb) (m : Mem) : Rect × Mem :=
  let x := fb.info.width / 20
  let y := fb.info.height * 16 % 2 ^ 32 / 20
  let w := fb.info.width * 9 % 2 ^ 32 / 10
  let h := fb.info.height / 10
  (⟨x, y, w, h⟩, blitBackground fb x y w h m)

/-! ## Calls -/

/-- A call of the drawing functions. The renderer, and the background of glyphs, is one buffer. -/
inductive Drawing where
  | fillRectangle (color : Nat) (r : Rect)
  | setPixel (color x y : Nat)
  | blitBackground (r : Rect)
  | blitGlyph (c : BitVec 8) (x y : Nat)
  | setRenderPtr
  | switchFromRenderer
  | updateFromDoubleBuffer

def Drawing.run (font : Nat → Nat → Byte) (renderer : Nat) : BlFb × Mem → Drawing → BlFb × Mem
  | (fb, m), .fillRectangle color r => blFbFillRectangle fb m color r.x r.y r.w r.h
  | (fb, m), .setPixel color x y => (fb, blFbSetPixel fb m color x y)
  | (fb, m), .blitBackground r => (fb, Video.blitBackground fb r.x r.y r.w r.h m)
  | (fb, m), .blitGlyph c x y => blFbBlitGlyph font fb m c renderer x y
  | (fb, m), .setRenderPtr => (blFbSetRenderPtr fb renderer, m)
  | (fb, m), .switchFromRenderer => blFbSwitchFromRenderer fb m
  | (fb, m), .updateFromDoubleBuffer => blFbUpdateFromDoubleBuffer fb m

/-- Everything is drawn on the screen. -/
def Drawing.Inside (info : BlVideoInfo) : Drawing → Prop
  | .fillRectangle _ r => OnScreen info r
  | .setPixel _ x y => OnScreen info ⟨x, y, 1, 1⟩
  | .blitBackground r => OnScreen info r
  | .blitGlyph _ x y => OnScreen info ⟨x, y, 8, 16⟩
  | _ => True

/-! ## What is shown -/

/-- The three pictures, whether drawing goes to the renderer, and what was drawn since the
update. -/
structure Screens where
  renderer : Picture
  back : Picture
  front : Picture
  rendering : Bool
  dirty : Option Rect

def Screens.target (σ : Screens) : Picture := if σ.rendering then σ.renderer else σ.back

/-- A drawing changes the target. -/
def Screens.draw (σ : Screens) (P : Nat → Nat → Prop) [∀ px py, Decidable (P px py)]
    (f : Nat → Nat → Option Nat → Option Nat) : Screens :=
  if σ.rendering then { σ with renderer := σ.renderer.alter P f }
  else { σ with back := σ.back.alter P f }

def Screens.mark (σ : Screens) (r : Rect) : Screens :=
  { σ with dirty := some (σ.dirty.elim r (·.hull r)) }

/-- The colour that a pixel has once the background is blended with it. -/
def blended (info : BlVideoInfo) (color : Nat) : Nat :=
  (blAlphaBlendColor info (blFbPrepareColor info 0xf 0xf 0xf 0xf) color 0xa0).1 %
    256 ^ info.bytesPerPixel

/-- A pixel of a glyph over a background. Of 3 and 4 bytes it is another pixel's background that
shows, and of 2 bytes a white that is wider than a pixel runs into the next one. -/
def glyphColor (info : BlVideoInfo) (font : Nat → Nat → Byte) (c : BitVec 8) (bg : Picture)
    (x y px py : Nat) : Option Nat :=
  let white := blFbPrepareColor info 0xff 0xff 0xff 0xff
  let i := px - x
  if (font c.toNat (py - y)).getLsbD (7 - i) then
    if info.bytesPerPixel = 2 ∧ 2 ^ 16 ≤ white then none
    else some (if info.bytesPerPixel = 3 then 0xffffff else white)
  else bg (x + if info.bytesPerPixel = 3 then 0
    else if info.bytesPerPixel = 4 then partner i else i) py

/-- The meaning of a call. A glyph over the renderer itself is left open. -/
def Screens.step (info : BlVideoInfo) (font : Nat → Nat → Byte) (σ : Screens) : Drawing → Screens
  | .fillRectangle color r =>
    (σ.draw r.Covers fun _ _ _ => some (color % 256 ^ info.bytesPerPixel)).mark r
  | .setPixel color x y =>
    σ.draw (Rect.mk x y 1 1).Covers fun _ _ _ => some (color % 256 ^ info.bytesPerPixel)
  | .blitBackground r => σ.draw r.Covers fun _ _ => Option.map (blended info)
  | .blitGlyph c x y =>
    if c.toInt < 0x20 then σ
    else
      (σ.draw (Rect.mk x y 8 16).Covers fun px py _ =>
        if σ.rendering then none
        else glyphColor info font c σ.renderer x y px py).mark ⟨x, y, 8, 16⟩
  | .setRenderPtr => { σ with rendering := true }
  | .switchFromRenderer =>
    if σ.rendering then
      { σ with
        rendering := false
        back := σ.back.alter (Rect.mk 0 0 info.width info.height).Covers
          fun px py _ => σ.renderer px py }
    else σ
  | .updateFromDoubleBuffer =>
    match σ.dirty with
    | none => σ
    | some r =>
      { σ with dirty := none, front := σ.front.alter r.Covers fun px py _ => σ.target px py }

/-! ## Where the pictures are -/

/-- Three buffers that hold the whole raster, apart from each other. -/
structure Separate (s : Layout) (renderer back front : Nat) : Prop where
  width_lt : s.width < invalidPos
  height_lt : s.height < invalidPos
  renderer_lt : renderer < 2 ^ 32
  back_lt : back < 2 ^ 32
  renderer_ne : renderer ≠ 0
  back_ne : back ≠ 0
  front_ne : front ≠ 0
  renderer_le : renderer + s.extent ≤ 2 ^ 32
  back_le : back + s.extent ≤ 2 ^ 32
  front_le : front + s.extent ≤ 2 ^ 32
  renderer_back : s.Beside renderer back
  renderer_front : s.Beside renderer front
  back_front : s.Beside back front

def areaOf : Option Rect → DirtyArea
  | none => noDirtyArea
  | some r => ⟨r.x, r.y, r.w, r.h⟩

/-- The variables of `fb.c`. -/
def Screens.fb (σ : Screens) (info : BlVideoInfo) (renderer back : Nat) : BlFb where
  info := info
  renderer := if σ.rendering then renderer else 0
  dirtyArea := areaOf σ.dirty
  doubleBuffer := back

/-- The memory has the three pictures. -/
structure Shown (s : Layout) (renderer back front : Nat) (σ : Screens) (m : Mem) : Prop where
  renderer : Holds s renderer m σ.renderer
  back : Holds s back m σ.back
  front : Holds s front m σ.front
  dirty : ∀ r ∈ σ.dirty, r.Inside s

def Screens.base (σ : Screens) (renderer back : Nat) : Nat := if σ.rendering then renderer else back

variable {info : BlVideoInfo} {fits : info.width * info.bytesPerPixel ≤ info.pitch} {s : Layout}
  {renderer back front : Nat} {σ : Screens} {m m' : Mem} {r : Rect} {font : Nat → Nat → Byte}

theorem Screens.target_fb (σ : Screens) (info : BlVideoInfo)
    (h : Separate s renderer back front) :
    blFbGetTargetPtr (σ.fb info renderer back) = σ.base renderer back := by
  unfold blFbGetTargetPtr fb base
  cases σ.rendering with
  | true => exact if_pos h.renderer_ne
  | false => simp [h.back_ne]

theorem Separate.base_le (h : Separate s renderer back front) (σ : Screens) :
    σ.base renderer back ≠ 0 ∧ σ.base renderer back + s.extent ≤ 2 ^ 32 ∧
      s.Beside (σ.base renderer back) front := by
  unfold Screens.base
  cases σ.rendering with
  | true => exact ⟨h.renderer_ne, h.renderer_le, h.renderer_front⟩
  | false => exact ⟨h.back_ne, h.back_le, h.back_front⟩

/-! ## Drawing to the target -/

theorem Shown.target (h : Shown s renderer back front σ m) :
    Holds s (σ.base renderer back) m σ.target := by
  unfold Screens.base Screens.target
  cases σ.rendering with
  | true => exact h.renderer
  | false => exact h.back

section

variable {P : Nat → Nat → Prop} [∀ px py, Decidable (P px py)]
  {f : Nat → Nat → Option Nat → Option Nat}

/-- A change inside a rectangle of the target leaves the other two. -/
theorem Shown.draw (h : Shown s renderer back front σ m) (hsep : Separate s renderer back front)
    (hconf : Confined s (σ.base renderer back) r m m') (hr : r.Inside s)
    (hholds : Holds s (σ.base renderer back) m' (σ.target.alter P f)) :
    Shown s renderer back front (σ.draw P f) m' := by
  unfold Screens.base Screens.target at *
  unfold Screens.draw
  cases hrendering : σ.rendering with
  | true =>
    rw [hrendering] at hconf hholds
    exact ⟨hholds, h.back.beside hconf hr hsep.renderer_back.symm,
      h.front.beside hconf hr hsep.renderer_front.symm, h.dirty⟩
  | false =>
    rw [hrendering] at hconf hholds
    exact ⟨h.renderer.beside hconf hr hsep.renderer_back, hholds,
      h.front.beside hconf hr hsep.back_front.symm, h.dirty⟩

theorem Screens.fb_draw (σ : Screens) (info : BlVideoInfo) (renderer back : Nat) :
    (σ.draw P f).fb info renderer back = σ.fb info renderer back := by
  unfold draw
  split_ifs <;> rfl

theorem Screens.fb_draw_mark (σ : Screens) (info : BlVideoInfo) (renderer back : Nat) :
    ((σ.draw P f).mark r).fb info renderer back = (σ.mark r).fb info renderer back := by
  unfold draw
  split_ifs <;> rfl

end

/-! ## The dirty area -/

theorem area_eq {a : DirtyArea} (h : a.rect = r) : a = areaOf (some r) := by
  subst h
  rfl

theorem Shown.mark (h : Shown s renderer back front σ m) (hr : r.Inside s) :
    Shown s renderer back front (σ.mark r) m := by
  refine ⟨h.renderer, h.back, h.front, fun q hq => ?_⟩
  obtain rfl := Option.some.inj hq
  cases hdirty : σ.dirty with
  | none => exact hr
  | some old => exact Rect.hull_inside (h.dirty old hdirty) hr

theorem Shown.fb_mark (h : Shown s renderer back front σ m) (hsep : Separate s renderer back front)
    (hr : r.Inside s) :
    blFbUpdateDirtyArea (σ.fb info renderer back) r.x r.y r.w r.h =
      (σ.mark r).fb info renderer back := by
  have hrect : (blFbUpdateDirtyArea (σ.fb info renderer back) r.x r.y r.w r.h).dirtyArea.rect =
      σ.dirty.elim r (·.hull r) := by
    cases hdirty : σ.dirty with
    | none =>
      refine blFbUpdateDirtyArea_reset _ r ?_
      rw [Screens.fb, hdirty]
      rfl
    | some old =>
      have hold : (σ.fb info renderer back).dirtyArea.rect = old := by
        rw [Screens.fb, hdirty]
        rfl
      rw [blFbUpdateDirtyArea_hull _ hsep.width_lt hsep.height_lt (hold ▸ h.dirty old hdirty) hr,
        hold]
      rfl
  have harea := area_eq hrect
  rw [blFbUpdateDirtyArea] at harea ⊢
  dsimp only at harea
  rw [harea]
  rfl

/-! ## Blending, pixel by pixel -/

section

variable {fb : BlFb} {x y w h n : Nat}

theorem blFbGetPixel_eq (fits : fb.info.width * fb.info.bytesPerPixel ≤ fb.info.pitch)
    (hdepth : fb.info.DepthOk)
    (hbuffer : blFbGetTargetPtr fb + (fb.info.layout fits).extent ≤ 2 ^ 32)
    (hx : x < fb.info.width) (hy : y < fb.info.height) (m : Mem) :
    blFbGetPixel fb m x y = colorAt (fb.info.layout fits) m (blFbGetTargetPtr fb) x y := by
  have hend := pixel_le fits hbuffer hx hy
  have hline : (fb.info.layout fits).offset x y = y * fb.info.pitch + x * fb.info.bytesPerPixel :=
    rfl
  have hptr : ∀ base, pixelPtr fb.info base x y =
      pixelPtr fb.info (base + y * fb.info.pitch) x 0 := fun base => by
    rw [pixelPtr, pixelPtr, Nat.zero_mul, Nat.add_zero]
  have hmoved : blFbGetPixel fb m x y =
      blFbGetPixelPtr fb.info m (blFbGetTargetPtr fb + y * fb.info.pitch) x 0 := by
    rw [blFbGetPixel, blFbGetPixelPtr, blFbGetPixelPtr, hptr]
  rw [hline] at hend
  rw [hmoved, blFbGetPixelPtr_eq m hdepth (by omega), colorAt, hline, ← Nat.add_assoc]
  rfl

theorem blitPixel_altered (fits : fb.info.width * fb.info.bytesPerPixel ≤ fb.info.pitch)
    (hdepth : fb.info.DepthOk)
    (hbuffer : blFbGetTargetPtr fb + (fb.info.layout fits).extent ≤ 2 ^ 32)
    (hx : x < fb.info.width) (hy : y < fb.info.height) (m : Mem) :
    Altered (fb.info.layout fits) (blFbGetTargetPtr fb) ⟨x, y, 1, 1⟩ (blended fb.info) m
      (blitPixel fb x y m) := by
  have hcovers : ∀ px py, px = x ∧ py = y ↔ (Rect.mk x y 1 1).Covers px py := fun px py => by
    simp only [Rect.Covers]
    omega
  rw [blitPixel, blFbGetPixel_eq fits hdepth hbuffer hx hy]
  have hpaint : ∀ color, Painted (fb.info.layout fits) (blFbGetTargetPtr fb) (colorByte color)
      (Rect.mk x y 1 1).Covers m (blFbSetPixel fb m color x y) := fun color =>
    (blFbSetPixel_painted fits hdepth hbuffer hx hy).congr hcovers
  refine ⟨(hpaint _).confined, fun px py hp => ?_⟩
  obtain ⟨rfl, rfl⟩ := (hcovers px py).mpr hp
  exact readLE_of_bytes fun k hk => (hpaint _).inside px py hp k hk

theorem blitColumn_altered (fits : fb.info.width * fb.info.bytesPerPixel ≤ fb.info.pitch)
    (hdepth : fb.info.DepthOk)
    (hbuffer : blFbGetTargetPtr fb + (fb.info.layout fits).extent ≤ 2 ^ 32)
    (hx : x < fb.info.width) (hn : y + n ≤ fb.info.height) (m : Mem) :
    Altered (fb.info.layout fits) (blFbGetTargetPtr fb) ⟨x, y, 1, n⟩ (blended fb.info) m
      ((List.range n).foldl (fun m j => blitPixel fb x (j + y) m) m) := by
  induction n with
  | zero => exact .empty fun px py => by simp only [Rect.Covers]; omega
  | succ n ih =>
    rw [List.range_succ, List.foldl_append, List.foldl_cons, List.foldl_nil]
    have hpixel := blitPixel_altered fits hdepth hbuffer hx (show n + y < fb.info.height by omega)
      ((List.range n).foldl (fun m j => blitPixel fb x (j + y) m) m)
    refine (ih (by omega)).append hpixel ⟨hx, Nat.le_of_succ_le hn⟩
      ⟨hx, show n + y + 1 ≤ fb.info.height by omega⟩ ?_ ?_ <;>
    · intro px py
      simp only [Rect.Covers]
      omega

theorem blitBackground_altered (fits : fb.info.width * fb.info.bytesPerPixel ≤ fb.info.pitch)
    (hdepth : fb.info.DepthOk)
    (hbuffer : blFbGetTargetPtr fb + (fb.info.layout fits).extent ≤ 2 ^ 32)
    (hw : x + w ≤ fb.info.width) (hh : y + h ≤ fb.info.height) (m : Mem) :
    Altered (fb.info.layout fits) (blFbGetTargetPtr fb) ⟨x, y, w, h⟩ (blended fb.info) m
      (blitBackground fb x y w h m) := by
  unfold blitBackground
  induction w with
  | zero => exact .empty fun px py => by simp only [Rect.Covers]; omega
  | succ w ih =>
    rw [List.range_succ, List.foldl_append, List.foldl_cons, List.foldl_nil]
    generalize (List.range w).foldl _ m = m' at ih ⊢
    have hcolumn := blitColumn_altered fits hdepth hbuffer (show w + x < fb.info.width by omega)
      hh m'
    refine (ih (by omega)).append hcolumn ⟨Nat.le_of_succ_le hw, hh⟩
      ⟨show w + x + 1 ≤ fb.info.width by omega, hh⟩ ?_ ?_ <;>
    · intro px py
      simp only [Rect.Covers]
      omega

end

/-! ## Glyphs -/

section

variable {fb : BlFb} {x y blitBg : Nat} {c : BitVec 8}

theorem blFbBlitGlyph_fb (hdepth : fb.info.DepthOk) (hc : ¬ c.toInt < 0x20) (m : Mem) :
    (blFbBlitGlyph font fb m c blitBg x y).1 = blFbUpdateDirtyArea fb x y 8 16 := by
  have hinfo : (blFbUpdateDirtyArea fb x y 8 16).info = fb.info := rfl
  rw [blFbBlitGlyph, if_neg hc]
  simp only [blFontCharacterWidth, blFontCharacterHeight, hinfo]
  rcases hdepth.cases with ⟨hbytes, -⟩ | ⟨hbytes, -⟩ | ⟨hbytes, -⟩ <;> simp only [hbytes]

theorem blFbBlitGlyph_confined (fits : fb.info.width * fb.info.bytesPerPixel ≤ fb.info.pitch)
    (hne : blFbGetTargetPtr fb ≠ 0)
    (hbuffer : blFbGetTargetPtr fb + (fb.info.layout fits).extent ≤ 2 ^ 32)
    (hc : ¬ c.toInt < 0x20) (hr : (Rect.mk x y 8 16).Inside (fb.info.layout fits)) (m : Mem) :
    Confined (fb.info.layout fits) (blFbGetTargetPtr fb) ⟨x, y, 8, 16⟩ m
      (blFbBlitGlyph font fb m c blitBg x y).2 := by
  obtain ⟨m', hm', hconf⟩ :=
    blFbBlitGlyph_spec fb.dirtyArea hne hbuffer hc hr font blitBg m
  -- The function sees the two buffers only through the target.
  have hsame : (blFbBlitGlyph font fb m c blitBg x y).2 =
      (blFbBlitGlyph font (screen fb.info (blFbGetTargetPtr fb) fb.dirtyArea) m c blitBg x
        y).2 := by
    have htarget := blFbGetTargetPtr_screen fb.info
      (blFbUpdateDirtyArea (screen fb.info (blFbGetTargetPtr fb) fb.dirtyArea) x y 8 16).dirtyArea
      hne
    have hown : blFbGetTargetPtr (blFbUpdateDirtyArea fb x y 8 16) = blFbGetTargetPtr fb := rfl
    have hinfo : (blFbUpdateDirtyArea fb x y 8 16).info = fb.info := rfl
    have hinfo' : (blFbUpdateDirtyArea (screen fb.info (blFbGetTargetPtr fb) fb.dirtyArea)
      x y 8 16).info = fb.info := rfl
    unfold blFbBlitGlyph
    rw [if_neg hc, if_neg hc]
    simp only [blFontCharacterWidth, blFontCharacterHeight]
    rw [show blFbGetTargetPtr (blFbUpdateDirtyArea (screen fb.info (blFbGetTargetPtr fb)
      fb.dirtyArea) x y 8 16) = blFbGetTargetPtr fb from htarget, hown, hinfo, hinfo']
    split <;> rfl
  rw [hsame, hm']
  exact hconf

/-- The pixels of a cell are those of the glyph, as far as it says. -/
theorem blFbBlitGlyph_color (fits : fb.info.width * fb.info.bytesPerPixel ≤ fb.info.pitch)
    (hdepth : fb.info.DepthOk) (hc : ¬ c.toInt < 0x20)
    (hr : (Rect.mk x y 8 16).Inside (fb.info.layout fits))
    (hbuffers : Apart (fb.info.layout fits) (blFbGetTargetPtr fb) blitBg) {bg : Picture}
    (hbg : Holds (fb.info.layout fits) blitBg m bg) {px py v : Nat}
    (hp : (Rect.mk x y 8 16).Covers px py) (hv : v ∈ glyphColor fb.info font c bg x y px py) :
    colorAt (fb.info.layout fits) (blFbBlitGlyph font fb m c blitBg x y).2 (blFbGetTargetPtr fb)
      px py = v := by
  simp only [Rect.Covers] at hp
  obtain ⟨i, hi, rfl⟩ : ∃ i < 8, px = x + i := ⟨px - x, by omega, by omega⟩
  obtain ⟨j, hj, rfl⟩ : ∃ j < 16, py = y + j := ⟨py - y, by omega, by omega⟩
  obtain ⟨hpixels, -⟩ := @blFbBlitGlyph_drawn fb m x y font c blitBg fits hdepth hc hr hbuffers
  have hdrawn := hpixels j hj i hi
  rw [glyphColor, Nat.add_sub_cancel_left, Nat.add_sub_cancel_left] at hv
  have hpartner : partner i < 8 := by
    unfold partner
    split_ifs <;> omega
  have hx : x + 8 ≤ fb.info.width := hr.1
  have hy : y + 16 ≤ fb.info.height := hr.2
  cases hset : (font c.toNat j).getLsbD (7 - i) with
  | true =>
    rw [hset, if_pos rfl] at hv
    by_cases hwide : fb.info.bytesPerPixel = 2 ∧
        2 ^ 16 ≤ blFbPrepareColor fb.info 0xff 0xff 0xff 0xff
    · rw [if_pos hwide] at hv
      cases hv
    · rw [if_neg hwide] at hv
      obtain rfl := Option.some.inj hv
      rw [hdrawn fun h2 _ => Nat.lt_of_not_le fun hle => hwide ⟨h2, hle⟩, drawn, hset, if_pos rfl]
  | false =>
    rw [hset, if_neg Bool.false_ne_true] at hv
    rw [hdrawn fun _ h => absurd (hset.symm.trans h) Bool.false_ne_true, drawn, hset,
      if_neg Bool.false_ne_true]
    refine hbg _ _ ?_ (show y + j < fb.info.height by omega) v hv
    change _ < fb.info.width
    split_ifs <;> omega

end

/-! ## Copies -/

/-- Rows that are copied from one buffer to another. -/
theorem copied_color {dst src : Nat} (hsrc : src ≠ 0)
    (hfits : BuffersFit (info.layout fits) dst src) (hr : r.Inside (info.layout fits)) (m : Mem) :
    ∃ m', overRows (fun _ src dst m => blMemcpy m dst src (r.w * info.bytesPerPixel % 2 ^ 32))
        info.pitch r.h 0 (pixelPtr info src r.x r.y) (pixelPtr info dst r.x r.y) m = m' ∧
      Confined (info.layout fits) dst r m m' ∧ ∀ px py, r.Covers px py →
        colorAt (info.layout fits) m' dst px py = colorAt (info.layout fits) m' src px py := by
  obtain ⟨m', hm', hconf, hsame⟩ := copyRows_spec hsrc hfits hr r.h 0 m (Nat.zero_add _)
  rw [Nat.add_zero, ← pixelPtr_eq, ← pixelPtr_eq] at hm'
  exact ⟨m', hm', hconf, fun px py hp => readLE_congr_at fun k hk => hsame px py hp k hk⟩

/-! ## The calls, one by one -/

/-- A call does what it means. -/
def Matches (info : BlVideoInfo) (fits : info.width * info.bytesPerPixel ≤ info.pitch)
    (font : Nat → Nat → Byte) (renderer back : Nat) (σ : Screens) (m : Mem) (call : Drawing) :
    Prop :=
  ∃ m', call.run font renderer (σ.fb info renderer back, m) =
      ((σ.step info font call).fb info renderer back, m') ∧
    Shown (info.layout fits) renderer back info.frameBuffer (σ.step info font call) m'

section

variable (hsep : Separate (info.layout fits) renderer back info.frameBuffer)
  (h : Shown (info.layout fits) renderer back info.frameBuffer σ m)

include hsep h

theorem matches_fillRectangle (hdepth : info.DepthOk) (color : Nat)
    (hr : r.Inside (info.layout fits)) :
    Matches info fits font renderer back σ m (.fillRectangle color r) := by
  obtain ⟨hne, hle, -⟩ := hsep.base_le σ
  have htarget := σ.target_fb info hsep
  have hpaint : Painted (info.layout fits) (blFbGetTargetPtr (σ.fb info renderer back))
      (colorByte color) r.Covers m
      (blFbFillRectangle (σ.fb info renderer back) m color r.x r.y r.w r.h).2 :=
    blFbFillRectangle_painted fits hdepth (htarget ▸ hne) (htarget ▸ hle) hr
  rw [htarget] at hpaint
  refine ⟨_, Prod.ext ?_ rfl, (h.draw hsep hpaint.confined hr
    (h.target.paint hpaint fun px py hp => (hr.pixel hp).1)).mark hr⟩
  change (blFbFillRectangle (σ.fb info renderer back) m color r.x r.y r.w r.h).1 = _
  rw [blFbFillRectangle, htarget, if_neg hne]
  exact (h.fb_mark hsep hr).trans (σ.fb_draw_mark info renderer back).symm

theorem matches_setPixel (hdepth : info.DepthOk) (color : Nat) {x y : Nat}
    (hr : (Rect.mk x y 1 1).Inside (info.layout fits)) :
    Matches info fits font renderer back σ m (.setPixel color x y) := by
  obtain ⟨-, hle, -⟩ := hsep.base_le σ
  have htarget := σ.target_fb info hsep
  have hpixel := hr.pixel (show (Rect.mk x y 1 1).Covers x y by simp [Rect.Covers])
  have hpaint : Painted (info.layout fits) (blFbGetTargetPtr (σ.fb info renderer back))
      (colorByte color) (Rect.mk x y 1 1).Covers m
      (blFbSetPixel (σ.fb info renderer back) m color x y) :=
    (blFbSetPixel_painted fits hdepth (htarget ▸ hle) hpixel.1 hpixel.2).congr fun px py => by
      simp only [Rect.Covers]
      omega
  rw [htarget] at hpaint
  exact ⟨_, Prod.ext (σ.fb_draw info renderer back).symm rfl, h.draw hsep hpaint.confined hr
    (h.target.paint hpaint fun px py hp => (hr.pixel hp).1)⟩

theorem matches_blitBackground (hdepth : info.DepthOk) (hr : r.Inside (info.layout fits)) :
    Matches info fits font renderer back σ m (.blitBackground r) := by
  obtain ⟨-, hle, -⟩ := hsep.base_le σ
  have htarget := σ.target_fb info hsep
  have halter : Altered (info.layout fits) (blFbGetTargetPtr (σ.fb info renderer back)) r
      (blended info) m (blitBackground (σ.fb info renderer back) r.x r.y r.w r.h m) :=
    blitBackground_altered fits hdepth (htarget ▸ hle) hr.1 hr.2 m
  rw [htarget] at halter
  exact ⟨_, Prod.ext (σ.fb_draw info renderer back).symm rfl,
    h.draw hsep halter.confined hr (h.target.altered halter hr)⟩

theorem matches_blitGlyph (hdepth : info.DepthOk) (c : BitVec 8) {x y : Nat}
    (hr : (Rect.mk x y 8 16).Inside (info.layout fits)) :
    Matches info fits font renderer back σ m (.blitGlyph c x y) := by
  obtain ⟨hne, hle, -⟩ := hsep.base_le σ
  have htarget := σ.target_fb info hsep
  unfold Matches
  rw [Screens.step]
  by_cases hchar : c.toInt < 0x20
  · rw [if_pos hchar]
    exact ⟨m, if_pos hchar, h⟩
  rw [if_neg hchar]
  have hconf : Confined (info.layout fits) (blFbGetTargetPtr (σ.fb info renderer back))
      ⟨x, y, 8, 16⟩ m (blFbBlitGlyph font (σ.fb info renderer back) m c renderer x y).2 :=
    blFbBlitGlyph_confined fits (htarget ▸ hne) (htarget ▸ hle) hchar hr m
  have hfb : (blFbBlitGlyph font (σ.fb info renderer back) m c renderer x y).1 =
      blFbUpdateDirtyArea (σ.fb info renderer back) x y 8 16 := blFbBlitGlyph_fb hdepth hchar m
  refine ⟨_, Prod.ext (hfb.trans ?_) rfl, (h.draw hsep (htarget ▸ hconf) hr ?_).mark hr⟩
  · exact (h.fb_mark hsep hr).trans (σ.fb_draw_mark info renderer back).symm
  · refine h.target.alter (fun px py hx hy hp v hv => ?_) fun px py hx _ hp =>
      (htarget ▸ hconf).colorAt hr hx hp
    cases hrendering : σ.rendering with
    | true =>
      rw [hrendering] at hv
      cases hv
    | false =>
      rw [hrendering] at hv
      have hback : σ.base renderer back = back := by
        rw [Screens.base, hrendering]
        rfl
      have hapart : Apart (info.layout fits) (blFbGetTargetPtr (σ.fb info renderer back))
          renderer := by
        rw [htarget, hback]
        exact ⟨hsep.back_le, hsep.renderer_le, hsep.renderer_back.symm⟩
      rw [← htarget]
      exact blFbBlitGlyph_color fits hdepth hchar hr hapart h.renderer hp hv

theorem matches_setRenderPtr : Matches info fits font renderer back σ m .setRenderPtr :=
  ⟨m, Prod.ext (if_pos hsep.renderer_ne) rfl, h.renderer, h.back, h.front, h.dirty⟩

theorem matches_switchFromRenderer :
    Matches info fits font renderer back σ m .switchFromRenderer := by
  unfold Matches
  cases hrendering : σ.rendering with
  | false =>
    have hstep : σ.step info font .switchFromRenderer = σ := by
      simp [Screens.step, hrendering]
    rw [hstep]
    refine ⟨m, ?_, h⟩
    have hnull : (σ.fb info renderer back).renderer = 0 := by
      simp [Screens.fb, hrendering]
    rw [Drawing.run, blFbSwitchFromRenderer, if_pos hnull]
  | true =>
    have hwhole : (Rect.mk 0 0 info.width info.height).Inside (info.layout fits) :=
      ⟨(Nat.zero_add _).le, (Nat.zero_add _).le⟩
    obtain ⟨m', hm', hconf, hcopied⟩ := copied_color hsep.renderer_ne
      ⟨hsep.back_ne, hsep.back_le, hsep.renderer_le, hsep.renderer_back.symm⟩ hwhole m
    have hstart : ∀ base, base < 2 ^ 32 → pixelPtr info base 0 0 = base := fun base hbase => by
      rw [pixelPtr, Nat.zero_mul, Nat.zero_mul, Nat.add_zero, Nat.mod_eq_of_lt hbase]
    rw [hstart _ hsep.renderer_lt, hstart _ hsep.back_lt] at hm'
    have hstep : σ.step info font .switchFromRenderer =
        { σ with
          rendering := false
          back := σ.back.alter (Rect.mk 0 0 info.width info.height).Covers
            fun px py _ => σ.renderer px py } := by
      simp [Screens.step, hrendering]
    have hfull : (σ.fb info renderer back).renderer = renderer := by
      simp [Screens.fb, hrendering]
    rw [hstep]
    refine ⟨m', ?_, h.renderer.beside hconf hwhole hsep.renderer_back,
      h.back.copy h.renderer hconf hwhole hsep.renderer_back hcopied,
      h.front.beside hconf hwhole hsep.back_front.symm, h.dirty⟩
    rw [Drawing.run, blFbSwitchFromRenderer, hfull, if_neg hsep.renderer_ne, ← hm']
    simp [Screens.fb, blFbGetTargetPtr, hsep.back_ne]

theorem matches_updateFromDoubleBuffer :
    Matches info fits font renderer back σ m .updateFromDoubleBuffer := by
  unfold Matches
  cases hdirty : σ.dirty with
  | none =>
    have hstep : σ.step info font .updateFromDoubleBuffer = σ := by
      simp [Screens.step, hdirty]
    rw [hstep]
    refine ⟨m, ?_, h⟩
    rw [Drawing.run, blFbUpdateFromDoubleBuffer]
    simp [Screens.fb, hdirty, areaOf, noDirtyArea]
  | some r =>
    obtain ⟨hne, hle, hbeside⟩ := hsep.base_le σ
    have hr := h.dirty r hdirty
    obtain ⟨m', hm', hconf, hcopied⟩ := copied_color hne
      ⟨hsep.front_ne, hsep.front_le, hle, hbeside.symm⟩ hr m
    have hx : r.x + r.w < invalidPos := lt_of_le_of_lt hr.1 hsep.width_lt
    have hy : r.y + r.h < invalidPos := lt_of_le_of_lt hr.2 hsep.height_lt
    have hstep : σ.step info font .updateFromDoubleBuffer =
        { σ with
          dirty := none
          front := σ.front.alter r.Covers fun px py _ => σ.target px py } := by
      simp [Screens.step, hdirty]
    have htarget := σ.target_fb info hsep
    rw [hstep]
    refine ⟨m', ?_, ?_, ?_, h.front.copy h.target hconf hr hbeside hcopied,
      fun r hr => absurd hr (Option.not_mem_none r)⟩
    · have harea : (σ.fb info renderer back).dirtyArea = ⟨r.x, r.y, r.w, r.h⟩ := by
        simp [Screens.fb, hdirty, areaOf]
      rw [Drawing.run, blFbUpdateFromDoubleBuffer, harea, htarget]
      dsimp only
      rw [if_neg (by omega)]
      exact Prod.ext rfl hm'
    · exact h.renderer.beside hconf hr hsep.renderer_front
    · exact h.back.beside hconf hr hsep.back_front

theorem matches_call (hdepth : info.DepthOk) (call : Drawing) (hcall : call.Inside info) :
    Matches info fits font renderer back σ m call := by
  cases call with
  | fillRectangle color r => exact matches_fillRectangle hsep h hdepth color hcall
  | setPixel color x y => exact matches_setPixel hsep h hdepth color hcall
  | blitBackground r => exact matches_blitBackground hsep h hdepth hcall
  | blitGlyph c x y =>
    exact matches_blitGlyph hsep h hdepth c hcall
  | setRenderPtr => exact matches_setRenderPtr hsep h
  | switchFromRenderer => exact matches_switchFromRenderer hsep h
  | updateFromDoubleBuffer => exact matches_updateFromDoubleBuffer hsep h

end

def runDrawings (font : Nat → Nat → Byte) (renderer : Nat) (calls : List Drawing) (fb : BlFb)
    (m : Mem) : BlFb × Mem :=
  calls.foldl (Drawing.run font renderer) (fb, m)

/-- **The three buffers have the three pictures**, after any run. -/
theorem drawings_shown (info : BlVideoInfo) (fits : info.width * info.bytesPerPixel ≤ info.pitch)
    (hdepth : info.DepthOk) (font : Nat → Nat → Byte) (renderer back : Nat)
    (hsep : Separate (info.layout fits) renderer back info.frameBuffer) (calls : List Drawing)
    (hcalls : ∀ call ∈ calls, call.Inside info) (σ : Screens) (m : Mem)
    (h : Shown (info.layout fits) renderer back info.frameBuffer σ m) :
    ∃ m', runDrawings font renderer calls (σ.fb info renderer back) m =
        ((calls.foldl (Screens.step info font) σ).fb info renderer back, m') ∧
      Shown (info.layout fits) renderer back info.frameBuffer
        (calls.foldl (Screens.step info font) σ) m' := by
  induction calls generalizing σ m with
  | nil => exact ⟨m, rfl, h⟩
  | cons call calls ih =>
    obtain ⟨m₁, hrun, hshown⟩ := matches_call hsep h hdepth call (hcalls call List.mem_cons_self)
    obtain ⟨m', hrest, hshown'⟩ :=
      ih (fun call hcall => hcalls call (List.mem_cons_of_mem _ hcall)) _ m₁ hshown
    refine ⟨m', ?_, hshown'⟩
    rw [runDrawings, List.foldl_cons, hrun]
    exact hrest

/-- After `bl_fb_init`. Nothing is known of what the buffers hold. -/
def Screens.fresh : Screens where
  renderer _ _ := none
  back _ _ := none
  front _ _ := none
  rendering := false
  dirty := none

theorem shown_fresh (s : Layout) (renderer back front : Nat) (m : Mem) :
    Shown s renderer back front .fresh m :=
  ⟨holds_unknown s _ m, holds_unknown s _ m, holds_unknown s _ m, nofun⟩

/-- A red background, and the letter A over it. -/
def bannerCalls : List Drawing :=
  [.setRenderPtr, .fillRectangle 0xf800 ⟨0, 0, 16, 16⟩, .switchFromRenderer, .blitGlyph 0x41 8 0,
    .setPixel 0x07e0 3 3, .updateFromDoubleBuffer]

theorem drawings_shown_banner :
    let m := (runDrawings (fun _ _ => 0x18) 0x300000 bannerCalls smallFb fun _ => 0).2
    pixelValue smallInfo m 0xe0000000 11 2 = 0xffff ∧
      pixelValue smallInfo m 0xe0000000 8 2 = 0xf800 ∧
      pixelValue smallInfo m 0xe0000000 3 3 = 0x07e0 := by
  have hsep : Separate (smallInfo.layout (by decide)) 0x300000 0x200000 0xe0000000 := by
    constructor <;> decide
  have hcalls : ∀ call ∈ bannerCalls, call.Inside smallInfo := by
    simp [bannerCalls, Drawing.Inside, OnScreen, smallInfo]
  obtain ⟨m', hrun, hshown⟩ := drawings_shown smallInfo (by decide) ⟨.inr (.inl rfl), rfl⟩
    (fun _ _ => 0x18) 0x300000 0x200000 hsep bannerCalls hcalls .fresh (fun _ => 0)
    (shown_fresh _ _ _ _ _)
  have hstart : Screens.fresh.fb smallInfo 0x300000 0x200000 = smallFb := rfl
  rw [hstart] at hrun
  rw [hrun]
  exact ⟨hshown.front 11 2 (by decide) (by decide) _ rfl,
    hshown.front 8 2 (by decide) (by decide) _ rfl, hshown.front 3 3 (by decide) (by decide) _ rfl⟩

end BootLoader.Video

import BootLoader.Lib.Footprint
import BootLoader.Video.Glyph

/-!
# Drawing inside the buffers

The double buffer and the renderer (`core/gui/bitmap.c`) are as large as all pixels. Lines are
`pitch` bytes apart.
-/

open ByteMemory

namespace BootLoader.Video

open Raster Footprint Utils

/-! ## The background -/

def blBitmapSetBackgroundImageDefault (fb : BlFb) (m : Mem) : BlFb × Mem :=
  let x := fb.info.width
  let y := fb.info.height
  (List.range 3).foldl (fun s j =>
    (List.range 32).foldl (fun s i =>
      blFbFillRectangle s.1 s.2 (blFbPrepareColor s.1.info (if j = 0 then 0x7f else i * 2)
        (if j = 1 then 0x7f else i) (if j = 2 then 0x7f else i) 0x7f)
        (i * (x / 32)) (j * (y / 3)) (x / 32) (y / 3)) s) (fb, m)

/-- `ptr` is what lies at the given place, if one is given. -/
def blBitmapSetBackground (heapAlloc : Nat → Nat) (ptr : Option Nat) (fb : BlFb) (m : Mem) :
    BlStatus × Option Nat × BlFb × Mem :=
  match ptr with
  | none => (.invalidParameters, none, fb, m)
  | some _ =>
    let ptr := heapAlloc (fb.info.width * fb.info.height * fb.info.bytesPerPixel % 2 ^ 32)
    if ptr = 0 then (.memoryAllocationFailed, some ptr, fb, m)
    else (.success, some ptr, blBitmapSetBackgroundImageDefault (blFbSetRenderPtr fb ptr) m)

/-! ## Regions -/

def Block (p size : Nat) : Nat → Prop := fun a => p ≤ a ∧ a < p + size

/-- The lines of the hardware's frame buffer. -/
def FrameBuffer (info : BlVideoInfo) : Nat → Prop := fun a =>
  ∃ y < info.height, ∃ i < info.width * info.bytesPerPixel,
    a = (info.frameBuffer + y * info.pitch + i) % 2 ^ 32

def OnScreen (info : BlVideoInfo) (r : Rect) : Prop :=
  r.x + r.w ≤ info.width ∧ r.y + r.h ≤ info.height

/-- Everything drawn at coordinates inside the screen stays in blocks of `size` bytes. -/
structure DrawsInside (fb : BlFb) (blitBg size : Nat) : Prop where
  fill : ∀ color r, OnScreen fb.info r → Within (Block (blFbGetTargetPtr fb) size)
    fun m => (blFbFillRectangle fb m color r.x r.y r.w r.h).2
  setPixel : ∀ color x y, x < fb.info.width → y < fb.info.height →
    Within (Block (blFbGetTargetPtr fb) size) fun m => blFbSetPixel fb m color x y
  glyph : ∀ font c x y, OnScreen fb.info ⟨x, y, 8, 16⟩ →
    Within (fun a => Block (blFbGetTargetPtr fb) size a ∨ Block blitBg size a)
      fun m => (blFbBlitGlyph font fb m c blitBg x y).2
  switch : Within (fun a => Block fb.renderer size a ∨ Block fb.doubleBuffer size a)
    fun m => (blFbSwitchFromRenderer fb m).2
  update : fb.dirtyArea = noDirtyArea ∨ OnScreen fb.info fb.dirtyArea.rect →
    Within (fun a => Block (blFbGetTargetPtr fb) size a ∨ FrameBuffer fb.info a)
      fun m => (blFbUpdateFromDoubleBuffer fb m).2

def LinesInside (info : BlVideoInfo) (size : Nat) : Prop :=
  ∀ y < info.height, 0 < info.width →
    y * info.pitch % 2 ^ 32 + info.width * info.bytesPerPixel ≤ size

variable {info : BlVideoInfo} {fb : BlFb} {R : Nat → Prop} {m : Mem}
  {p d s n x y w size bytes color white : Nat}

/-! ## Copies -/

theorem copyUp_within (hd : ∀ i < n, R ((d + i) % 2 ^ 32)) (hs : ∀ i < n, R ((s + i) % 2 ^ 32)) :
    Within R fun m => copyUp m (d % 2 ^ 32) (s % 2 ^ 32) n := by
  induction n generalizing d s with
  | zero => exact within_id R
  | succ n ih =>
    have hrest := @ih (d + 1) (s + 1)
      (fun i hi => by rw [Nat.add_assoc, Nat.add_comm 1]; exact hd (i + 1) (by omega))
      (fun i hi => by rw [Nat.add_assoc, Nat.add_comm 1]; exact hs (i + 1) (by omega))
    have hfirst : Within R fun m => store m (d % 2 ^ 32) (m (s % 2 ^ 32)) :=
      within_store (hd 0 (by omega)) fun m m' h => h _ (hs 0 (by omega))
    simp only [copyUp, Nat.mod_add_mod]
    exact hrest.comp hfirst

theorem copyDown_within (hd : ∀ i < n, R ((d + i) % 2 ^ 32)) (hs : ∀ i < n, R ((s + i) % 2 ^ 32)) :
    Within R fun m => copyDown m ((d + n) % 2 ^ 32) ((s + n) % 2 ^ 32) n := by
  induction n with
  | zero => exact within_id R
  | succ n ih =>
    have hrest := ih (fun i hi => hd i (by omega)) fun i hi => hs i (by omega)
    have hback : ∀ a, ((a + (n + 1)) % 2 ^ 32 + (2 ^ 32 - 1)) % 2 ^ 32 = (a + n) % 2 ^ 32 := by
      intro a
      omega
    have hfirst : Within R fun m => store m ((d + n) % 2 ^ 32) (m ((s + n) % 2 ^ 32)) :=
      within_store (hd n (by omega)) fun m m' h => h _ (hs n (by omega))
    simp only [copyDown, hback]
    exact hrest.comp hfirst

theorem blMemcpy_within (hd : ∀ i < n, R ((d + i) % 2 ^ 32)) (hs : ∀ i < n, R ((s + i) % 2 ^ 32)) :
    Within R fun m => blMemcpy m (d % 2 ^ 32) (s % 2 ^ 32) n := by
  unfold blMemcpy
  split_ifs
  · exact within_id R
  · exact copyUp_within hd hs
  · simp only [Nat.mod_add_mod]
    exact copyDown_within hd hs

theorem overRows_within {row : Nat → Nat → Nat → Mem → Mem} {pitch i : Nat}
    (h : ∀ k < n, Within R (row (i + k) ((s + k * pitch) % 2 ^ 32) ((d + k * pitch) % 2 ^ 32))) :
    Within R (overRows row pitch n i (s % 2 ^ 32) (d % 2 ^ 32)) := by
  induction n generalizing i s d with
  | zero => exact within_id R
  | succ n ih =>
    have hfirst := h 0 (by omega)
    simp only [Nat.zero_mul, Nat.add_zero] at hfirst
    have hrest := @ih (d + pitch) (s + pitch) (i + 1) fun k hk => by
      have hrow := h (k + 1) (by omega)
      rw [show i + 1 + k = i + (k + 1) by omega, Nat.add_assoc s, Nat.add_assoc d,
        show pitch + k * pitch = (k + 1) * pitch by ring]
      exact hrow
    simp only [overRows, Nat.mod_add_mod]
    exact hrest.comp hfirst

/-! ## Pixels -/

theorem pixels_inside (hlines : LinesInside info size) (hbase : p + size ≤ 2 ^ 32)
    (hbytes : 0 < info.bytesPerPixel) (hx : x + n ≤ info.width) (hn : 0 < n)
    (hy : y < info.height) :
    p ≤ pixelPtr info p x y ∧
      pixelPtr info p x y + n * info.bytesPerPixel ≤ p + size := by
  have hline := hlines y hy (by omega)
  have hpixels : (x + n) * info.bytesPerPixel ≤ info.width * info.bytesPerPixel :=
    Nat.mul_le_mul_right _ hx
  have hpos : 0 < n * info.bytesPerPixel := Nat.mul_pos hn hbytes
  rw [Nat.add_mul] at hpixels
  have hptr : pixelPtr info p x y = p + y * info.pitch % 2 ^ 32 + x * info.bytesPerPixel := by
    unfold pixelPtr
    omega
  omega

theorem block_of_pixels (hlines : LinesInside info size) (hbase : p + size ≤ 2 ^ 32)
    (hbytes : 0 < info.bytesPerPixel) (hx : x + n ≤ info.width) (hy : y < info.height) :
    (0 < n → pixelPtr info p x y + n * info.bytesPerPixel ≤ 2 ^ 32) ∧
      ∀ k < n * info.bytesPerPixel, Block p size (pixelPtr info p x y + k) := by
  rcases Nat.eq_zero_or_pos n with rfl | hn
  · exact ⟨fun h => absurd h (lt_irrefl 0), fun k hk => absurd hk (by omega)⟩
  · obtain ⟨hlo, hhi⟩ := pixels_inside hlines hbase hbytes hx hn hy
    exact ⟨fun _ => by omega, fun k hk => ⟨by omega, by omega⟩⟩

theorem store24_within {v : Mem → Nat} (hend : d + 3 ≤ 2 ^ 32) (hd : ∀ k < 3, R (d + k))
    (hv : Reads R v) : Within R fun m => store24 m d (v m) := by
  simp only [store24_eq _ hend]
  exact within_writeLE hd hv

theorem blFbSetPixel_within (hdepth : fb.info.DepthOk)
    (hend : pixelPtr fb.info (blFbGetTargetPtr fb) x y + fb.info.bytesPerPixel ≤ 2 ^ 32)
    (hd : ∀ k < fb.info.bytesPerPixel, R (pixelPtr fb.info (blFbGetTargetPtr fb) x y + k)) :
    Within R fun m => blFbSetPixel fb m color x y := by
  unfold blFbSetPixel
  rcases hdepth.cases with ⟨hbytes, hbits | hbits⟩ | ⟨hbytes, hbits⟩ | ⟨hbytes, hbits⟩ <;>
    rw [hbytes] at hd hend <;> simp only [hbits]
  · exact within_writeLE hd (Reads.const R _)
  · exact within_writeLE hd (Reads.const R _)
  · exact store24_within hend hd (Reads.const R color)
  · exact within_writeLE hd (Reads.const R color)

/-! ## Rectangles -/

theorem fillRow_within (hbytes : 0 < bytes) (hend : d + w * bytes ≤ 2 ^ 32)
    (hd : ∀ k < w * bytes, R (d + k)) :
    Within R fun m => (fillRow bytes color w (d % 2 ^ 32) m).2 := by
  induction w generalizing d with
  | zero => exact within_id R
  | succ w ih =>
    rw [Nat.succ_mul] at hend hd
    have hfirst : Within R fun m => writeLE m d bytes color :=
      within_writeLE (fun k hk => hd k (by omega)) (Reads.const R color)
    have hrest := @ih (d + bytes) (by omega) fun k hk => by
      rw [Nat.add_assoc]
      exact hd (bytes + k) (by omega)
    simp only [fillRow, Nat.mod_eq_of_lt (show d < 2 ^ 32 by omega)]
    exact hrest.comp hfirst

/-- The rows start `line` bytes apart. -/
theorem fillRectangle_within {pitch line : Nat} (hbytes : 0 < bytes)
    (hpitch : (w * bytes + pitch) % 2 ^ 32 = line % 2 ^ 32)
    (hend : ∀ i < n, (d + i * line) % 2 ^ 32 + w * bytes ≤ 2 ^ 32)
    (hd : ∀ i < n, ∀ k < w * bytes, R ((d + i * line) % 2 ^ 32 + k)) :
    Within R (fillRectangle bytes (d % 2 ^ 32) color pitch w n) := by
  induction n generalizing d with
  | zero => exact within_id R
  | succ n ih =>
    have hfirst_end := hend 0 (by omega)
    have hfirst := hd 0 (by omega)
    rw [Nat.zero_mul, Nat.add_zero] at hfirst_end hfirst
    have hrow := @fillRow_within R (d % 2 ^ 32) w bytes color hbytes hfirst_end hfirst
    have hptr := fun m => (@fillRow_spec m (d % 2 ^ 32) bytes color w hfirst_end).1
    rw [Nat.mod_mod] at hrow hptr
    have hnext : ((d % 2 ^ 32 + w * bytes) % 2 ^ 32 + pitch) % 2 ^ 32 = (d + line) % 2 ^ 32 := by
      omega
    have hstep : ∀ i, d + line + i * line = d + (i + 1) * line := fun i => by ring
    have hrest := @ih (d + line) (fun i hi => by rw [hstep]; exact hend (i + 1) (by omega))
      fun i hi => by rw [hstep]; exact hd (i + 1) (by omega)
    simp only [fillRectangle, hptr, hnext]
    exact hrest.comp hrow

theorem pixelPtr_rows (info : BlVideoInfo) (p x y i : Nat) :
    (p + y * info.pitch + x * info.bytesPerPixel + i * info.pitch) % 2 ^ 32 =
      pixelPtr info p x (y + i) := by
  unfold pixelPtr
  ring_nf

theorem blFbFillRectangle_within {r : Rect} (hdepth : fb.info.DepthOk)
    (hlines : LinesInside fb.info size) (hbase : blFbGetTargetPtr fb + size ≤ 2 ^ 32)
    (hr : OnScreen fb.info r) :
    Within (Block (blFbGetTargetPtr fb) size)
      fun m => (blFbFillRectangle fb m color r.x r.y r.w r.h).2 := by
  have hdepths := hdepth.cases
  have hbytes : 0 < fb.info.bytesPerPixel := by omega
  have hpitch := fill_pitch fb.info.pitch (r.w * fb.info.bytesPerPixel)
  have hrows : ∀ i < r.h, _ := fun i hi =>
    block_of_pixels (y := r.y + i) hlines hbase hbytes hr.1
      (show r.y + i < fb.info.height by have := hr.2; omega)
  have hfill := @fillRectangle_within (Block (blFbGetTargetPtr fb) size)
    (blFbGetTargetPtr fb + r.y * fb.info.pitch + r.x * fb.info.bytesPerPixel) r.h r.w
    fb.info.bytesPerPixel color _ fb.info.pitch hbytes hpitch
    (fun i hi => by
      rw [pixelPtr_rows]
      rcases Nat.eq_zero_or_pos r.w with hw | hw
      · rw [hw, Nat.zero_mul]
        exact (Nat.mod_lt _ (by decide)).le
      · exact (hrows i hi).1 hw)
    fun i hi => by
      rw [pixelPtr_rows]
      exact (hrows i hi).2
  unfold blFbFillRectangle
  by_cases htarget : blFbGetTargetPtr fb = 0
  · simp only [if_pos htarget]
    exact within_id _
  · unfold blFbFillRectanglePtr
    simp only [if_neg htarget]
    unfold blFbFillRectangle16bits blFbFillRectangle24bits blFbFillRectangle32bits
    rw [Nat.mul_comm r.w, ← pixelPtr] at hfill
    rcases hdepths with ⟨hbytes, -⟩ | ⟨hbytes, -⟩ | ⟨hbytes, -⟩
    all_goals
      simp only [blFbUpdateDirtyArea, hbytes] at hfill ⊢
      exact hfill

/-! ## Glyphs -/

theorem blend_within {fg mask : BitVec 64} {under : Mem → BitVec 64} (hend : d + 8 ≤ 2 ^ 32)
    (hd : ∀ k < 8, R (d + k)) (hunder : Reads R under) :
    Within R fun m => blend m d fg mask (under m) := by
  unfold blend
  rw [Nat.mod_eq_of_lt (by omega)]
  refine within_writeLE hd fun m m' h => ?_
  rw [hunder m m' h]

theorem blFbGetPixelPtr_reads {i : Nat} (hdepth : info.DepthOk)
    (hend : s + 8 * info.bytesPerPixel ≤ 2 ^ 32)
    (hs : ∀ k < 8 * info.bytesPerPixel, R (s + k)) (hi : i < 8) :
    Reads R fun m => blFbGetPixelPtr info m s i 0 := by
  have hin : (i + 1) * info.bytesPerPixel ≤ 8 * info.bytesPerPixel := Nat.mul_le_mul_right _ hi
  rw [Nat.succ_mul] at hin
  simp only [fun m => blFbGetPixelPtr_eq (i := i) m hdepth (show s + _ + _ ≤ 2 ^ 32 by omega)]
  refine reads_readLE fun k hk => ?_
  rw [Nat.add_assoc]
  exact hs _ (by omega)

theorem blitRow2_within (hbytes : info.bytesPerPixel = 2) (glyph : Byte)
    (hpixel : ∀ i < 8, Reads R fun m => blFbGetPixelPtr info m s i 0)
    (hend : d + 8 * info.bytesPerPixel ≤ 2 ^ 32)
    (hd : ∀ k < 8 * info.bytesPerPixel, R (d + k)) :
    Within R (blitRow2 info white glyph s d) := by
  rw [hbytes] at hend hd
  have hunder : ∀ i, i + 3 < 8 → Reads R fun m => under2 info m s i := fun i hi m m' h => by
    simp only [under2, hpixel i (by omega) m m' h, hpixel (i + 1) (by omega) m m' h,
      hpixel (i + 2) (by omega) m m' h, hpixel (i + 3) (by omega) m m' h]
  have hfirst := fun fg mask => @blend_within R d fg mask _ (by omega)
    (fun k hk => hd k (by omega)) (hunder 0 (by omega))
  have hsecond := fun fg mask => @blend_within R (d + 8) fg mask _ (by omega)
    (fun k hk => by rw [Nat.add_assoc]; exact hd (8 + k) (by omega)) (hunder 4 (by omega))
  exact (hsecond _ _).comp (hfirst _ _)

theorem blitRow3_within (hbytes : info.bytesPerPixel = 3) (glyph : Byte)
    (hpixel : ∀ i < 8, Reads R fun m => blFbGetPixelPtr info m s i 0)
    (hend : d + 8 * info.bytesPerPixel ≤ 2 ^ 32)
    (hd : ∀ k < 8 * info.bytesPerPixel, R (d + k)) :
    Within R (blitRow3 info glyph s d) := by
  rw [hbytes] at hend hd
  have hpixels : ∀ n ≤ 8, Within R (blitPixels3 info glyph s d n) := by
    intro n hn
    induction n with
    | zero => exact within_id R
    | succ j ih =>
      have hcolor : Reads R fun m =>
          if glyph.getLsbD j then 0xffffff else blFbGetPixelPtr info m s 0 0 := by
        intro m m' h
        simp only [hpixel 0 (by omega) m m' h]
      have hone := @store24_within R (d + (blFontCharacterWidth - 1 - j) * 3) _
        (by unfold blFontCharacterWidth; omega)
        (fun k hk => by
          rw [Nat.add_assoc]
          exact hd _ (by unfold blFontCharacterWidth; omega)) hcolor
      exact (ih (by omega)).comp hone
  exact hpixels 8 le_rfl

theorem blitRow4_within (hbytes : info.bytesPerPixel = 4) (glyph : Byte)
    (hpixel : ∀ i < 8, Reads R fun m => blFbGetPixelPtr info m s i 0)
    (hend : d + 8 * info.bytesPerPixel ≤ 2 ^ 32)
    (hd : ∀ k < 8 * info.bytesPerPixel, R (d + k)) :
    Within R (blitRow4 info white glyph s d) := by
  rw [hbytes] at hend hd
  have hpair : ∀ j fg mask, j < 4 →
      Within R fun m => blend m (d + 8 * j) fg mask (under4 info m s (2 * j)) := by
    intro j fg mask hj
    refine blend_within (by omega) (fun k hk => ?_) fun m m' h => ?_
    · rw [Nat.add_assoc]
      exact hd _ (by omega)
    · simp only [under4, hpixel (2 * j) (by omega) m m' h, hpixel (2 * j + 1) (by omega) m m' h]
  exact (hpair 3 _ _ (by omega)).comp ((hpair 2 _ _ (by omega)).comp
    ((hpair 1 _ _ (by omega)).comp (hpair 0 _ _ (by omega))))

theorem blFbBlitGlyph_within {blitBg : Nat} (font : Nat → Nat → Byte) (c : BitVec 8)
    (hdepth : fb.info.DepthOk) (hlines : LinesInside fb.info size)
    (hbase : blFbGetTargetPtr fb + size ≤ 2 ^ 32) (hbg : blitBg + size ≤ 2 ^ 32)
    (hr : OnScreen fb.info ⟨x, y, 8, 16⟩) :
    Within (fun a => Block (blFbGetTargetPtr fb) size a ∨ Block blitBg size a)
      fun m => (blFbBlitGlyph font fb m c blitBg x y).2 := by
  have hdepths := hdepth.cases
  have hbytes : 0 < fb.info.bytesPerPixel := by omega
  have hy : ∀ i < 16, y + i < fb.info.height := fun i hi => by
    have hlast := hr.2
    simp only at hlast
    omega
  have hrows : ∀ row : Nat → Nat → Nat → Mem → Mem,
      (∀ i s d, (∀ j < 8, Reads (fun a => Block (blFbGetTargetPtr fb) size a ∨ Block blitBg size a)
          fun m => blFbGetPixelPtr fb.info m s j 0) → d + 8 * fb.info.bytesPerPixel ≤ 2 ^ 32 →
        (∀ k < 8 * fb.info.bytesPerPixel,
          Block (blFbGetTargetPtr fb) size (d + k) ∨ Block blitBg size (d + k)) →
        Within (fun a => Block (blFbGetTargetPtr fb) size a ∨ Block blitBg size a) (row i s d)) →
      Within (fun a => Block (blFbGetTargetPtr fb) size a ∨ Block blitBg size a)
        (overRows row fb.info.pitch 16 0 (pixelPtr fb.info blitBg x y)
          (pixelPtr fb.info (blFbGetTargetPtr fb) x y)) := by
    intro row hrow
    refine overRows_within fun i hi => ?_
    rw [pixelPtr_rows, pixelPtr_rows]
    obtain ⟨hto_end, hto⟩ := block_of_pixels hlines hbase hbytes hr.1 (hy i hi)
    obtain ⟨hfrom_end, hfrom⟩ := block_of_pixels hlines hbg hbytes hr.1 (hy i hi)
    refine hrow _ _ _ (fun j hj => ?_) (hto_end (Nat.succ_pos 7)) fun k hk => .inl (hto k hk)
    exact blFbGetPixelPtr_reads hdepth (hfrom_end (Nat.succ_pos 7))
      (fun k hk => .inr (hfrom k hk)) hj
  unfold blFbBlitGlyph blFontCharacterWidth blFontCharacterHeight
  by_cases hc : c.toInt < 0x20
  · simp only [if_pos hc]
    exact within_id _
  · simp only [if_neg hc]
    rcases hdepths with ⟨hbytes, -⟩ | ⟨hbytes, -⟩ | ⟨hbytes, -⟩
    · simp only [show (blFbUpdateDirtyArea fb x y 8 16).info.bytesPerPixel = 2 from hbytes]
      exact hrows _ fun i s d => blitRow2_within hbytes _
    · simp only [show (blFbUpdateDirtyArea fb x y 8 16).info.bytesPerPixel = 3 from hbytes]
      exact hrows _ fun i s d => blitRow3_within hbytes _
    · simp only [show (blFbUpdateDirtyArea fb x y 8 16).info.bytesPerPixel = 4 from hbytes]
      exact hrows _ fun i s d => blitRow4_within hbytes _

/-! ## Copies of lines -/

theorem copyRows_within {src dst h : Nat}
    (hdst : ∀ i < h, ∀ k < n, R ((pixelPtr info dst x (y + i) + k) % 2 ^ 32))
    (hsrc : ∀ i < h, ∀ k < n, R ((pixelPtr info src x (y + i) + k) % 2 ^ 32)) :
    Within R (overRows (fun _ src dst m => blMemcpy m dst src n) info.pitch h 0
      (pixelPtr info src x y) (pixelPtr info dst x y)) := by
  refine overRows_within fun i hi => blMemcpy_within (fun k hk => ?_) fun k hk => ?_
  · rw [← Nat.mod_add_mod, pixelPtr_rows]
    exact hdst i hi k hk
  · rw [← Nat.mod_add_mod, pixelPtr_rows]
    exact hsrc i hi k hk

theorem block_of_length (hlines : LinesInside info size) (hbase : p + size ≤ 2 ^ 32)
    (hbytes : 0 < info.bytesPerPixel) (hx : x + w ≤ info.width) (hy : y < info.height) :
    ∀ k < w * info.bytesPerPixel % 2 ^ 32, Block p size ((pixelPtr info p x y + k) % 2 ^ 32) := by
  intro k hk
  have hk' := hk.trans_le (Nat.mod_le _ _)
  obtain ⟨hend, hblock⟩ := block_of_pixels hlines hbase hbytes hx hy
  have hw : 0 < w := by
    rcases Nat.eq_zero_or_pos w with rfl | hw
    · omega
    · exact hw
  have hle := hend hw
  rw [Nat.mod_eq_of_lt (by omega)]
  exact hblock k hk'

theorem blFbSwitchFromRenderer_within (hdepth : fb.info.DepthOk) (hlines : LinesInside fb.info size)
    (hrenderer_lt : fb.renderer < 2 ^ 32) (hbuffer_lt : fb.doubleBuffer < 2 ^ 32)
    (hrenderer : fb.renderer + size ≤ 2 ^ 32) (hbuffer : fb.doubleBuffer + size ≤ 2 ^ 32) :
    Within (fun a => Block fb.renderer size a ∨ Block fb.doubleBuffer size a)
      fun m => (blFbSwitchFromRenderer fb m).2 := by
  have hdepths := hdepth.cases
  have hbytes : 0 < fb.info.bytesPerPixel := by omega
  have hstart : ∀ p < 2 ^ 32, p = pixelPtr fb.info p 0 0 := fun p hp => by
    rw [pixelPtr, Nat.zero_mul, Nat.zero_mul]
    exact (Nat.mod_eq_of_lt hp).symm
  have hline : ∀ p, p + size ≤ 2 ^ 32 → ∀ i < fb.info.height, _ := fun p hp i hi =>
    block_of_length (x := 0) (w := fb.info.width) hlines hp hbytes (Nat.zero_add _).le
      (show 0 + i < fb.info.height by rwa [Nat.zero_add])
  have hcopy := @copyRows_within fb.info
    (fun a => Block fb.renderer size a ∨ Block fb.doubleBuffer size a) _ 0 0 fb.renderer
    fb.doubleBuffer _ (fun i hi k hk => .inr (hline _ hbuffer i hi k hk))
    fun i hi k hk => .inl (hline _ hrenderer i hi k hk)
  rw [← hstart _ hrenderer_lt, ← hstart _ hbuffer_lt] at hcopy
  unfold blFbSwitchFromRenderer
  by_cases hset : fb.renderer = 0
  · simp only [if_pos hset]
    exact within_id _
  · have htarget : blFbGetTargetPtr { fb with renderer := 0 } = fb.doubleBuffer := by
      simp only [blFbGetTargetPtr, ne_eq, not_true, if_false, ite_not]
      exact ite_eq_right_iff.mpr fun h => h.symm
    simp only [if_neg hset, htarget]
    exact hcopy

theorem blFbUpdateFromDoubleBuffer_within (hdepth : fb.info.DepthOk)
    (hlines : LinesInside fb.info size) (hbase : blFbGetTargetPtr fb + size ≤ 2 ^ 32)
    (harea : fb.dirtyArea = noDirtyArea ∨ OnScreen fb.info fb.dirtyArea.rect) :
    Within (fun a => Block (blFbGetTargetPtr fb) size a ∨ FrameBuffer fb.info a)
      fun m => (blFbUpdateFromDoubleBuffer fb m).2 := by
  have hdepths := hdepth.cases
  have hbytes : 0 < fb.info.bytesPerPixel := by omega
  unfold blFbUpdateFromDoubleBuffer
  rcases hdirty : fb.dirtyArea with ⟨x, y, w, h⟩
  dsimp only
  by_cases hnone : x = invalidPos ∨ y = invalidPos ∨ w = invalidPos ∨ h = invalidPos
  · simp only [if_pos hnone]
    exact within_id _
  · simp only [if_neg hnone]
    obtain hreset | hinside := harea
    · rw [hdirty] at hreset
      cases hreset
      exact absurd (.inl rfl) hnone
    · rw [hdirty] at hinside
      obtain ⟨hx, hy⟩ := hinside
      simp only [DirtyArea.rect] at hx hy
      refine copyRows_within (fun i hi k hk => .inr ?_) fun i hi k hk => .inl ?_
      · have hin : (x + w) * fb.info.bytesPerPixel ≤ fb.info.width * fb.info.bytesPerPixel :=
          Nat.mul_le_mul_right _ hx
        have hk' := hk.trans_le (Nat.mod_le _ _)
        rw [Nat.add_mul] at hin
        refine ⟨y + i, by omega, x * fb.info.bytesPerPixel + k, by omega, ?_⟩
        unfold pixelPtr
        rw [Nat.mod_add_mod, Nat.add_assoc _ _ k]
      · exact block_of_length hlines hbase hbytes hx (by omega) k hk

/-! ## Lines that end behind the block -/

/-- A byte of some pixel is behind the block, also if its address starts again at zero. -/
theorem outside_of_line (hp : p ≠ 0) (hbase : p + size ≤ 2 ^ 32) (hbytes : 0 < info.bytesPerPixel)
    (hwidth : 0 < info.width)
    (hline : size < y * info.pitch % 2 ^ 32 + info.width * info.bytesPerPixel) :
    ∃ x < info.width, ∃ k < info.bytesPerPixel, ∀ a,
      a = pixelPtr info p x y + k ∨ a = (pixelPtr info p x y + k) % 2 ^ 32 → ¬Block p size a := by
  rcases Nat.lt_or_ge (y * info.pitch % 2 ^ 32) size with hlt | hge
  · -- The line starts inside the block: the pixel of the first byte behind it.
    obtain ⟨left, hleft⟩ : ∃ left, size = y * info.pitch % 2 ^ 32 + left :=
      ⟨size - y * info.pitch % 2 ^ 32, by omega⟩
    have hdiv := Nat.div_add_mod' left info.bytesPerPixel
    refine ⟨left / info.bytesPerPixel, ?_, left % info.bytesPerPixel, Nat.mod_lt _ hbytes, ?_⟩
    · exact (Nat.div_lt_iff_lt_mul hbytes).mpr (by omega)
    · rintro a ha ⟨hlo, hhi⟩
      have hptr : pixelPtr info p (left / info.bytesPerPixel) y =
          (p + y * info.pitch % 2 ^ 32 +
            left / info.bytesPerPixel * info.bytesPerPixel) % 2 ^ 32 := by
        unfold pixelPtr
        omega
      omega
  · refine ⟨0, hwidth, 0, hbytes, ?_⟩
    rintro a ha ⟨hlo, hhi⟩
    have hptr : pixelPtr info p 0 y = (p + y * info.pitch % 2 ^ 32) % 2 ^ 32 := by
      unfold pixelPtr
      omega
    omega

theorem white_byte {k : Nat} (hk : k < 4) : BitVec.ofNat 8 (0xffffffff / 256 ^ k) ≠ 0 := by
  revert k
  decide

/-- White reaches every byte of its pixel. -/
theorem blFbSetPixel_white (hdepth : fb.info.DepthOk) {k : Nat} (hk : k < fb.info.bytesPerPixel) :
    ∃ a, (a = pixelPtr fb.info (blFbGetTargetPtr fb) x y + k ∨
        a = (pixelPtr fb.info (blFbGetTargetPtr fb) x y + k) % 2 ^ 32) ∧
      blFbSetPixel fb (fun _ => 0) 0xffffffff x y a ≠ 0 := by
  have hptr : pixelPtr fb.info (blFbGetTargetPtr fb) x y < 2 ^ 32 := Nat.mod_lt _ (by decide)
  unfold blFbSetPixel
  generalize pixelPtr fb.info (blFbGetTargetPtr fb) x y = d at hptr
  rcases hdepth.cases with ⟨hbytes, hbits | hbits⟩ | ⟨hbytes, hbits⟩ | ⟨hbytes, hbits⟩ <;>
    rw [hbytes] at hk <;> simp only [hbits]
  · refine ⟨d + k, .inl rfl, ?_⟩
    rw [write16_mask, writeLE_inside _ _ hk]
    exact white_byte (by omega)
  · refine ⟨d + k, .inl rfl, ?_⟩
    rw [write16_mask, writeLE_inside _ _ hk]
    exact white_byte (by omega)
  · refine ⟨(d + k) % 2 ^ 32, .inr rfl, ?_⟩
    obtain rfl | rfl | rfl : k = 0 ∨ k = 1 ∨ k = 2 := by omega
    all_goals simp [store24, store]
  · refine ⟨d + k, .inl rfl, ?_⟩
    rw [write32, writeLE_inside _ _ hk]
    exact white_byte hk

theorem linesInside_of_setPixel (hdepth : fb.info.DepthOk) (htarget : blFbGetTargetPtr fb ≠ 0)
    (hbase : blFbGetTargetPtr fb + size ≤ 2 ^ 32)
    (hpixels : ∀ color x y, x < fb.info.width → y < fb.info.height →
      Within (Block (blFbGetTargetPtr fb) size) fun m => blFbSetPixel fb m color x y) :
    LinesInside fb.info size := by
  have hdepths := hdepth.cases
  intro y hy hwidth
  by_contra hline
  obtain ⟨x, hx, k, hk, houtside⟩ := outside_of_line htarget hbase (by omega) hwidth
    (not_le.mp hline)
  obtain ⟨a, ha, hwhite⟩ := @blFbSetPixel_white fb x y hdepth k hk
  exact hwhite ((hpixels 0xffffffff x y hx hy).writes _ a (houtside a ha))

/-! ## After the two allocations -/

/-- What the heap gave lies in the address space. -/
structure Allocated (p size : Nat) : Prop where
  ne : p ≠ 0
  lt : p < 2 ^ 32
  le : p + size ≤ 2 ^ 32

theorem drawsInside_iff {blitBg : Nat} (hdepth : fb.info.DepthOk)
    (hbuffer : Allocated fb.doubleBuffer size) (hbg : Allocated blitBg size)
    (hrenderer : fb.renderer = 0 ∨ fb.renderer = blitBg) :
    DrawsInside fb blitBg size ↔ LinesInside fb.info size := by
  have htarget : Allocated (blFbGetTargetPtr fb) size := by
    unfold blFbGetTargetPtr
    rw [if_pos hbuffer.ne]
    rcases hrenderer with hzero | hset
    · rwa [if_neg (not_not.mpr hzero)]
    · rw [hset, if_pos hbg.ne]
      exact hbg
  constructor
  · exact fun h => linesInside_of_setPixel hdepth htarget.ne htarget.le h.setPixel
  · intro hlines
    refine ⟨fun color r hr => blFbFillRectangle_within hdepth hlines htarget.le hr,
      fun color x y hx hy => ?_,
      fun font c x y hr => blFbBlitGlyph_within font c hdepth hlines htarget.le hbg.le hr,
      ?_, blFbUpdateFromDoubleBuffer_within hdepth hlines htarget.le⟩
    · have hdepths := hdepth.cases
      obtain ⟨hend, hin⟩ := block_of_pixels hlines htarget.le (by omega)
        (show x + 1 ≤ fb.info.width from hx) hy
      rw [one_mul] at hend hin
      exact blFbSetPixel_within hdepth (hend Nat.one_pos) hin
    · refine blFbSwitchFromRenderer_within hdepth hlines ?_ hbuffer.lt ?_ hbuffer.le
      · rcases hrenderer with hzero | hset
        · omega
        · exact hset ▸ hbg.lt
      · rcases hrenderer with hzero | hset
        · have hle := hbuffer.le
          omega
        · exact hset ▸ hbg.le

/-! ### What the two calls leave -/

def bufferSize (info : BlVideoInfo) : Nat := info.width * info.height * info.bytesPerPixel % 2 ^ 32

def SameBuffers (fb fb' : BlFb) : Prop :=
  fb'.info = fb.info ∧ fb'.doubleBuffer = fb.doubleBuffer ∧ fb'.renderer = fb.renderer

theorem SameBuffers.refl (fb : BlFb) : SameBuffers fb fb := ⟨rfl, rfl, rfl⟩

theorem SameBuffers.trans {fb' fb'' : BlFb} (h : SameBuffers fb fb') (h' : SameBuffers fb' fb'') :
    SameBuffers fb fb'' :=
  ⟨h'.1.trans h.1, h'.2.1.trans h.2.1, h'.2.2.trans h.2.2⟩

theorem blFbFillRectangle_same (fb : BlFb) (m : Mem) (color x y w h : Nat) :
    SameBuffers fb (blFbFillRectangle fb m color x y w h).1 := by
  unfold blFbFillRectangle
  by_cases htarget : blFbGetTargetPtr fb = 0
  · simp only [if_pos htarget]
    exact .refl fb
  · simp only [if_neg htarget]
    exact ⟨rfl, rfl, rfl⟩

theorem foldl_same {α : Type} (l : List α) (f : BlFb × Mem → α → BlFb × Mem)
    (hf : ∀ s a, SameBuffers s.1 (f s a).1) (s : BlFb × Mem) : SameBuffers s.1 (l.foldl f s).1 := by
  induction l generalizing s with
  | nil => exact .refl _
  | cons a l ih => exact (hf s a).trans (ih (f s a))

theorem blBitmapSetBackgroundImageDefault_same (fb : BlFb) (m : Mem) :
    SameBuffers fb (blBitmapSetBackgroundImageDefault fb m).1 :=
  foldl_same _ _ (fun s _ => foldl_same _ _ (fun _ _ => blFbFillRectangle_same ..) s) (fb, m)

theorem blBitmapSetBackground_success {heapAlloc : Nat → Nat} {ptr : Option Nat} {fb' : BlFb}
    {m' : Mem} {background : Nat}
    (h : blBitmapSetBackground heapAlloc ptr fb m = (.success, some background, fb', m')) :
    background ≠ 0 ∧ SameBuffers { fb with renderer := background } fb' := by
  cases ptr with
  | none => simp [blBitmapSetBackground] at h
  | some old =>
    simp only [blBitmapSetBackground] at h
    split_ifs at h with hzero
    · simp at h
    · obtain rfl := Option.some.inj (congrArg (fun r => r.2.1) h)
      obtain rfl := congrArg (fun r => r.2.2.1) h
      refine ⟨hzero, ?_⟩
      have hrender : blFbSetRenderPtr fb (heapAlloc
          (fb.info.width * fb.info.height * fb.info.bytesPerPixel % 2 ^ 32)) = _ := if_pos hzero
      rw [hrender]
      exact blBitmapSetBackgroundImageDefault_same _ m

/-- Whatever is set as the renderer, and wherever was drawn since the last update. -/
def drawing (fb : BlFb) (renderer : Nat) (dirtyArea : DirtyArea) : BlFb :=
  { fb with renderer, dirtyArea }

/-- **Drawing stays inside the buffers** exactly if every line of pixels ends inside them. -/
theorem drawing_inside_iff (video : Option (BlVideoInfo → BlStatus × BlVideoInfo))
    (heapAlloc heapAlloc' : Nat → Nat) (fb₀ fb₁ fb : BlFb) (m m' : Mem) (ptr : Option Nat)
    (background : Nat) (hinit : blFbInit video heapAlloc fb₀ = (.success, fb₁))
    (hbackground : blBitmapSetBackground heapAlloc' ptr fb₁ m = (.success, some background, fb, m'))
    (hdepth : fb.info.DepthOk)
    (hspace : ∀ p, p = fb.doubleBuffer ∨ p = background →
      p < 2 ^ 32 ∧ p + bufferSize fb.info ≤ 2 ^ 32) :
    (∀ renderer dirtyArea, renderer = 0 ∨ renderer = background →
      DrawsInside (drawing fb renderer dirtyArea) background (bufferSize fb.info)) ↔
      LinesInside fb.info (bufferSize fb.info) := by
  obtain ⟨-, hbuffer_ne⟩ := blFbInit_success hinit
  obtain ⟨hbackground_ne, -, hbuffer, -⟩ := blBitmapSetBackground_success hbackground
  have hbuffer : Allocated fb.doubleBuffer (bufferSize fb.info) :=
    ⟨hbuffer ▸ hbuffer_ne, (hspace _ (.inl rfl)).1, (hspace _ (.inl rfl)).2⟩
  have hrenderer : Allocated background (bufferSize fb.info) :=
    ⟨hbackground_ne, (hspace _ (.inr rfl)).1, (hspace _ (.inr rfl)).2⟩
  have hdraws := fun renderer dirtyArea => @drawsInside_iff (drawing fb renderer dirtyArea)
    (bufferSize fb.info) background hdepth hbuffer hrenderer
  constructor
  · exact fun h => (hdraws 0 noDirtyArea (.inl rfl)).mp (h 0 noDirtyArea (.inl rfl))
  · exact fun h renderer dirtyArea hset => (hdraws renderer dirtyArea hset).mpr h

/-- Where no product wraps, padding is what moves the last lines out. -/
theorem linesInside_iff (fits : info.width * info.bytesPerPixel ≤ info.pitch)
    (hsmall : info.height * info.pitch < 2 ^ 32) :
    LinesInside info (bufferSize info) ↔
      info.width = 0 ∨ info.height ≤ 1 ∨ info.pitch = info.width * info.bytesPerPixel := by
  have hsize : bufferSize info = info.height * (info.width * info.bytesPerPixel) := by
    have hle := Nat.mul_le_mul_left info.height fits
    unfold bufferSize
    rw [Nat.mul_comm info.width, Nat.mul_assoc, Nat.mod_eq_of_lt (by omega)]
  have hstart : ∀ y < info.height, y * info.pitch % 2 ^ 32 = y * info.pitch := fun y hy =>
    Nat.mod_eq_of_lt (lt_of_le_of_lt (Nat.mul_le_mul_right _ hy.le) hsmall)
  rw [hsize]
  constructor
  · intro hlines
    rcases Nat.eq_zero_or_pos info.width with hzero | hwidth
    · exact .inl hzero
    rcases Nat.lt_or_ge 1 info.height with hheight | hheight
    · refine .inr (.inr (le_antisymm ?_ fits))
      obtain ⟨above, habove⟩ : ∃ above, info.height = above + 2 := ⟨info.height - 2, by omega⟩
      have hlast := hlines (above + 1) (by omega) hwidth
      rw [hstart _ (by omega), habove, show above + 2 = above + 1 + 1 from rfl,
        Nat.succ_mul (above + 1) (info.width * info.bytesPerPixel)] at hlast
      exact Nat.le_of_mul_le_mul_left (Nat.le_of_add_le_add_right hlast) (Nat.succ_pos above)
    · exact .inr (.inl hheight)
  · intro h y hy hwidth
    rw [hstart y hy]
    rcases h with hzero | hheight | hpitch
    · omega
    · obtain rfl : y = 0 := by omega
      obtain hone : info.height = 1 := by omega
      rw [hone]
      omega
    · rw [hpitch, ← Nat.succ_mul]
      exact Nat.mul_le_mul_right _ hy

/-! ### Two modes -/

/-- After both calls, with the buffers 32 MiB apart. -/
def shown (info : BlVideoInfo) : BlFb × Mem :=
  blBitmapSetBackgroundImageDefault
    (blFbSetRenderPtr (screen info 0x2000000 noDirtyArea) 0x4000000) fun _ => 0

def denseMode : BlVideoInfo :=
  ⟨1024, 768, 4096, 0xe0000000, 32, 4, ⟨16, 8⟩, ⟨8, 8⟩, ⟨0, 8⟩, ⟨24, 8⟩⟩

/-- With 40 bytes of padding behind each line. -/
def paddedMode : BlVideoInfo :=
  ⟨1366, 768, 5504, 0xe0000000, 32, 4, ⟨16, 8⟩, ⟨8, 8⟩, ⟨0, 8⟩, ⟨24, 8⟩⟩

theorem shown_same (info : BlVideoInfo) :
    SameBuffers { screen info 0x2000000 noDirtyArea with renderer := 0x4000000 }
      (shown info).1 := by
  rw [shown]
  exact blBitmapSetBackgroundImageDefault_same ..

theorem blBitmapSetBackground_shown (info : BlVideoInfo) :
    blBitmapSetBackground (fun _ => 0x4000000) (some 0) (screen info 0x2000000 noDirtyArea)
      (fun _ => 0) = (.success, some 0x4000000, (shown info).1, (shown info).2) := by
  simp only [blBitmapSetBackground, show (0x4000000 = 0) = False from by decide, if_false]
  rw [shown]

theorem denseMode_drawing :
    (∀ renderer dirtyArea, renderer = 0 ∨ renderer = 0x4000000 →
      DrawsInside (drawing (shown denseMode).1 renderer dirtyArea) 0x4000000
        (bufferSize (shown denseMode).1.info)) ↔
      LinesInside (shown denseMode).1.info (bufferSize (shown denseMode).1.info) := by
  have hinit : blFbInit (some fun _ => (.success, denseMode)) (fun _ => 0x2000000)
      (screen denseMode 0 noDirtyArea) = (.success, screen denseMode 0x2000000 noDirtyArea) := rfl
  have hdepth : (shown denseMode).1.info.DepthOk := by
    rw [(shown_same denseMode).1]
    exact ⟨.inr (.inr (.inr rfl)), rfl⟩
  have hspace : ∀ p, p = (shown denseMode).1.doubleBuffer ∨ p = 0x4000000 →
      p < 2 ^ 32 ∧ p + bufferSize (shown denseMode).1.info ≤ 2 ^ 32 := by
    rw [(shown_same denseMode).1, (shown_same denseMode).2.1]
    rintro p (rfl | rfl) <;> decide
  exact drawing_inside_iff _ _ _ _ _ (shown denseMode).1 _ _ _ _ hinit
    (blBitmapSetBackground_shown denseMode) hdepth hspace

/-- The last lines of a padded mode are drawn behind the buffers. -/
theorem paddedMode_not_inside :
    paddedMode.DepthOk ∧
    paddedMode.width * paddedMode.bytesPerPixel ≤ paddedMode.pitch ∧
    blFbInit (some fun _ => (.success, paddedMode)) (fun _ => 0x2000000)
        (screen paddedMode 0 noDirtyArea) =
      (.success, screen paddedMode 0x2000000 noDirtyArea) ∧
    blBitmapSetBackground (fun _ => 0x4000000) (some 0)
        (screen paddedMode 0x2000000 noDirtyArea) (fun _ => 0) =
      (.success, some 0x4000000, (shown paddedMode).1, (shown paddedMode).2) ∧
    ¬DrawsInside (shown paddedMode).1 0x4000000 (bufferSize paddedMode) := by
  obtain ⟨hinfo, hbuffer, hrenderer⟩ := shown_same paddedMode
  have hdepth : paddedMode.DepthOk := ⟨.inr (.inr (.inr rfl)), rfl⟩
  have hshown : (shown paddedMode).1.info.DepthOk := by
    rw [hinfo]
    exact hdepth
  have hblock : Allocated (shown paddedMode).1.doubleBuffer (bufferSize paddedMode) := by
    rw [hbuffer]
    exact ⟨by decide, by decide, by decide⟩
  refine ⟨hdepth, by decide, rfl, blBitmapSetBackground_shown paddedMode, fun hdraws => ?_⟩
  have hlines := (drawsInside_iff hshown hblock ⟨by decide, by decide, by decide⟩
    (.inr hrenderer)).mp hdraws
  rw [hinfo] at hlines
  exact absurd (hlines 767 (by decide) (by decide)) (by decide)

end BootLoader.Video

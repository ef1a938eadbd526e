import BootLoader.Status
import BootLoader.Utils.Memory

/-!
# The frame buffer (`core/video/fb.c`)

Drawing goes to the double buffer and marks a dirty area, which an update copies to the screen.
-/

open ByteMemory

namespace BootLoader.Video

open Utils

structure BlVideoColorMask where
  position : Nat
  maskSize : Nat

structure BlVideoInfo where
  width : Nat
  height : Nat
  pitch : Nat
  frameBuffer : Nat
  bitsPerPixel : Nat
  bytesPerPixel : Nat
  red : BlVideoColorMask
  green : BlVideoColorMask
  blue : BlVideoColorMask
  reserved : BlVideoColorMask

structure DirtyArea where
  x : Nat
  y : Nat
  w : Nat
  h : Nat
  deriving DecidableEq

structure BlFb where
  info : BlVideoInfo
  renderer : Nat
  dirtyArea : DirtyArea
  doubleBuffer : Nat

/-! ## Colours -/

def colorMask (v sz : Nat) : Nat := v &&& (2 ^ sz - 1)

def blFbPrepareColor (info : BlVideoInfo) (r g b reserved : Nat) : Nat :=
  (colorMask r info.red.maskSize <<< info.red.position |||
    colorMask g info.green.maskSize <<< info.green.position |||
    colorMask b info.blue.maskSize <<< info.blue.position |||
    colorMask reserved info.reserved.maskSize <<< info.reserved.position) % 2 ^ 32

/-! ## The dirty area -/

def invalidPos : Nat := 2 ^ 32 - 1

def blFbGetTargetPtr (fb : BlFb) : Nat :=
  if fb.renderer ≠ 0 then fb.renderer
  else if fb.doubleBuffer ≠ 0 then fb.doubleBuffer
  else 0

def noDirtyArea : DirtyArea where
  x := invalidPos
  y := invalidPos
  w := invalidPos
  h := invalidPos

def blFbResetDirtyArea (fb : BlFb) : BlFb := { fb with dirtyArea := noDirtyArea }

/-- The start of the dirty area along one axis. -/
def updateDirtyStart (dirtyX x : Nat) : Nat :=
  if x < dirtyX ∨ dirtyX = invalidPos then x else dirtyX

/-- The length of the dirty area along one axis. -/
def updateDirtyLength (dirtyX dirtyW x w : Nat) : Nat :=
  if dirtyW = invalidPos then w
  else if x < dirtyX then
    if (x + w) % 2 ^ 32 < (dirtyX + dirtyW) % 2 ^ 32 then
      (dirtyX + dirtyW + (2 ^ 32 - x)) % 2 ^ 32
    else w
  else if (dirtyX + dirtyW) % 2 ^ 32 < (x + w) % 2 ^ 32 then (x + w + (2 ^ 32 - dirtyX)) % 2 ^ 32
  else dirtyW

def blFbUpdateDirtyArea (fb : BlFb) (x y w h : Nat) : BlFb :=
  { fb with
    dirtyArea :=
      { x := updateDirtyStart fb.dirtyArea.x x
        y := updateDirtyStart fb.dirtyArea.y y
        w := updateDirtyLength fb.dirtyArea.x fb.dirtyArea.w x w
        h := updateDirtyLength fb.dirtyArea.y fb.dirtyArea.h y h } }

/-! ## Rows -/

/-- The byte at pixel `(x, y)` of the buffer at `base`. -/
def pixelPtr (info : BlVideoInfo) (base x y : Nat) : Nat :=
  (base + y * info.pitch + x * info.bytesPerPixel) % 2 ^ 32

/-- Runs `row i src dst` on `count` rows, `src` and `dst` stepping by the pitch. -/
def overRows (row : Nat → Nat → Nat → Mem → Mem) (pitch : Nat) : Nat → Nat → Nat → Nat → Mem → Mem
  | 0, _, _, _, m => m
  | count + 1, i, src, dst, m =>
    overRows row pitch count (i + 1) ((src + pitch) % 2 ^ 32) ((dst + pitch) % 2 ^ 32)
      (row i src dst m)

/-! ## Pixels -/

def blFbGetPixelPtr (info : BlVideoInfo) (m : Mem) (src x y : Nat) : Nat :=
  let ptr := pixelPtr info src x y
  match info.bitsPerPixel with
  | 15 | 16 => read16 m ptr
  | 24 => (m ptr).toNat ||| (m (ptr + 1)).toNat <<< 8 ||| (m (ptr + 2)).toNat <<< 16
  | 32 => read32 m ptr
  | _ => 0

/-- Stores three bytes of a colour. -/
def store24 (m : Mem) (dst c : Nat) : Mem :=
  let m := store m (dst % 2 ^ 32) (BitVec.ofNat 8 c)
  let m := store m ((dst + 1) % 2 ^ 32) (BitVec.ofNat 8 (c >>> 8))
  store m ((dst + 2) % 2 ^ 32) (BitVec.ofNat 8 (c >>> 16))

def blFbSetPixel (fb : BlFb) (m : Mem) (color x y : Nat) : Mem :=
  let dst := pixelPtr fb.info (blFbGetTargetPtr fb) x y
  match fb.info.bitsPerPixel with
  | 15 | 16 => write16 m dst (color &&& 0xffff)
  | 24 => store24 m dst color
  | 32 => write32 m dst color
  | _ => m

/-! ## Glyphs -/

def blFontCharacterWidth : Nat := 8
def blFontCharacterHeight : Nat := 16

/-- Four pixels at a time. -/
def blFontLookupTable2 : List (BitVec 64) :=
  [0x0000000000000000, 0xffff000000000000, 0x0000ffff00000000, 0xffffffff00000000,
   0x00000000ffff0000, 0xffff0000ffff0000, 0x0000ffffffff0000, 0xffffffffffff0000,
   0x000000000000ffff, 0xffff00000000ffff, 0x0000ffff0000ffff, 0xffffffff0000ffff,
   0x00000000ffffffff, 0xffff0000ffffffff, 0x0000ffffffffffff, 0xffffffffffffffff]

/-- Two pixels at a time. -/
def blFontLookupTable4 : List (BitVec 64) :=
  [0x0000000000000000, 0xffffffff00000000, 0x00000000ffffffff, 0xffffffffffffffff]

/-- `*(bl_uint64_t *)dst = (fg & mask) | (under & ~mask)` -/
def blend (m : Mem) (dst : Nat) (fg mask under : BitVec 64) : Mem :=
  writeLE m (dst % 2 ^ 32) 8 ((fg &&& mask) ||| (under &&& ~~~mask)).toNat

/-- Pixels `i` to `i + 3` of the background, the first one lowest. -/
def under2 (info : BlVideoInfo) (m : Mem) (src i : Nat) : BitVec 64 :=
  let pixel j := BitVec.ofNat 64 (blFbGetPixelPtr info m src j 0)
  pixel i ||| pixel (i + 1) <<< 16 ||| pixel (i + 2) <<< 32 ||| pixel (i + 3) <<< 48

def blitRow2 (info : BlVideoInfo) (white : Nat) (glyph : Byte) (src dst : Nat) (m : Mem) : Mem :=
  let white := BitVec.ofNat 64 white
  let fg := white <<< 48 ||| white <<< 32 ||| white <<< 16 ||| white
  let mask1 := blFontLookupTable2.getD ((glyph >>> 4) &&& 0xf).toNat 0
  let mask2 := blFontLookupTable2.getD (glyph &&& 0xf).toNat 0
  let m := blend m dst fg mask1 (under2 info m src 0)
  blend m (dst + 8) fg mask2 (under2 info m src 4)

/-- The pixels of bits `n - 1` down to 0; every one over the background's first pixel. -/
def blitPixels3 (info : BlVideoInfo) (glyph : Byte) (src dst : Nat) : Nat → Mem → Mem
  | 0, m => m
  | j + 1, m =>
    let c := if glyph.getLsbD j then 0xffffff else blFbGetPixelPtr info m src 0 0
    blitPixels3 info glyph src dst j (store24 m (dst + (blFontCharacterWidth - 1 - j) * 3) c)

def blitRow3 (info : BlVideoInfo) (glyph : Byte) (src dst : Nat) (m : Mem) : Mem :=
  blitPixels3 info glyph src dst blFontCharacterWidth m

/-- Pixels `i` and `i + 1` of the background, the first one highest. -/
def under4 (info : BlVideoInfo) (m : Mem) (src i : Nat) : BitVec 64 :=
  BitVec.ofNat 64 (blFbGetPixelPtr info m src i 0) <<< 32 |||
    BitVec.ofNat 64 (blFbGetPixelPtr info m src (i + 1) 0)

def blitRow4 (info : BlVideoInfo) (white : Nat) (glyph : Byte) (src dst : Nat) (m : Mem) : Mem :=
  let white := BitVec.ofNat 64 white
  let fg := white <<< 32 ||| white
  let mask1 := blFontLookupTable4.getD ((glyph >>> 6) &&& 0x3).toNat 0
  let mask2 := blFontLookupTable4.getD ((glyph >>> 4) &&& 0x3).toNat 0
  let mask3 := blFontLookupTable4.getD ((glyph >>> 2) &&& 0x3).toNat 0
  let mask4 := blFontLookupTable4.getD (glyph &&& 0x3).toNat 0
  let m := blend m dst fg mask1 (under4 info m src 0)
  let m := blend m (dst + 8) fg mask2 (under4 info m src 2)
  let m := blend m (dst + 16) fg mask3 (under4 info m src 4)
  blend m (dst + 24) fg mask4 (under4 info m src 6)

/-- `font c i` is row `i` of character `c` in `bl_font`. -/
def blFbBlitGlyph (font : Nat → Nat → Byte) (fb : BlFb) (m : Mem) (c : BitVec 8)
    (blitBg x y : Nat) : BlFb × Mem :=
  if c.toInt < 0x20 then (fb, m)
  else
    let fb := blFbUpdateDirtyArea fb x y blFontCharacterWidth blFontCharacterHeight
    let glyph := font c.toNat
    let src := pixelPtr fb.info blitBg x y
    let dst := pixelPtr fb.info (blFbGetTargetPtr fb) x y
    let white := blFbPrepareColor fb.info 0xff 0xff 0xff 0xff
    let rows row := overRows row fb.info.pitch blFontCharacterHeight 0 src dst m
    match fb.info.bytesPerPixel with
    | 2 => (fb, rows fun i => blitRow2 fb.info white (glyph i))
    | 3 => (fb, rows fun i => blitRow3 fb.info (glyph i))
    | 4 => (fb, rows fun i => blitRow4 fb.info white (glyph i))
    | _ => (fb, m)

/-! ## Rectangles -/

/-- Writes `w` pixels of `bytes` bytes; gives the pointer behind the last one too. -/
def fillRow (bytes color : Nat) : Nat → Nat → Mem → Nat × Mem
  | 0, dst, m => (dst, m)
  | w + 1, dst, m =>
    fillRow bytes color w ((dst + bytes) % 2 ^ 32) (writeLE m dst bytes color)

/-- `h` rows of `w` pixels, with `pitch` bytes between the end of a row and the next one. -/
def fillRectangle (bytes dst color pitch w : Nat) : Nat → Mem → Mem
  | 0, m => m
  | h + 1, m =>
    let (dst, m) := fillRow bytes color w dst m
    fillRectangle bytes ((dst + pitch) % 2 ^ 32) color pitch w h m

def blFbFillRectangle16bits (dst color pitch w h : Nat) (m : Mem) : Mem :=
  fillRectangle 2 dst color pitch w h m

def blFbFillRectangle24bits (dst color pitch w h : Nat) (m : Mem) : Mem :=
  fillRectangle 3 dst color pitch w h m

def blFbFillRectangle32bits (dst color pitch w h : Nat) (m : Mem) : Mem :=
  fillRectangle 4 dst color pitch w h m

def blFbFillRectanglePtr (info : BlVideoInfo) (m : Mem) (ptr color x y w h : Nat) : Mem :=
  if ptr = 0 then m
  else
    let dst := pixelPtr info ptr x y
    let pitch := (info.pitch + (2 ^ 32 - info.bytesPerPixel * w % 2 ^ 32)) % 2 ^ 32
    match info.bytesPerPixel with
    | 2 => blFbFillRectangle16bits dst color pitch w h m
    | 3 => blFbFillRectangle24bits dst color pitch w h m
    | 4 => blFbFillRectangle32bits dst color pitch w h m
    | _ => m

def blFbFillRectangle (fb : BlFb) (m : Mem) (color x y w h : Nat) : BlFb × Mem :=
  let ptr := blFbGetTargetPtr fb
  if ptr = 0 then (fb, m)
  else
    let fb := blFbUpdateDirtyArea fb x y w h
    (fb, blFbFillRectanglePtr fb.info m ptr color x y w h)

/-! ## Showing what was drawn -/

def blFbUpdateFromDoubleBuffer (fb : BlFb) (m : Mem) : BlFb × Mem :=
  let { x, y, w, h } := fb.dirtyArea
  if x = invalidPos ∨ y = invalidPos ∨ w = invalidPos ∨ h = invalidPos then (fb, m)
  else
    let src := pixelPtr fb.info (blFbGetTargetPtr fb) x y
    let dst := pixelPtr fb.info fb.info.frameBuffer x y
    let copyRow (_ : Nat) (src dst : Nat) (m : Mem) :=
      blMemcpy m dst src (w * fb.info.bytesPerPixel % 2 ^ 32)
    (blFbResetDirtyArea fb, overRows copyRow fb.info.pitch h 0 src dst m)

def blFbSetRenderPtr (fb : BlFb) (ptr : Nat) : BlFb :=
  if ptr ≠ 0 then { fb with renderer := ptr } else fb

def blFbSwitchFromRenderer (fb : BlFb) (m : Mem) : BlFb × Mem :=
  if fb.renderer = 0 then (fb, m)
  else
    let src := fb.renderer
    let fb := { fb with renderer := 0 }
    let copyRow (_ : Nat) (src dst : Nat) (m : Mem) :=
      blMemcpy m dst src (fb.info.width * fb.info.bytesPerPixel % 2 ^ 32)
    (fb, overRows copyRow fb.info.pitch fb.info.height 0 src (blFbGetTargetPtr fb) m)

/-- `getInfo` is what the driver's `get_info` answers and leaves in the given record. -/
def blFbInit (video : Option (BlVideoInfo → BlStatus × BlVideoInfo)) (heapAlloc : Nat → Nat)
    (fb : BlFb) : BlStatus × BlFb :=
  match video with
  | none => (.invalidParameters, fb)
  | some getInfo =>
    let (status, info) := getInfo fb.info
    let fb := { fb with info }
    if status ≠ .success then (status, fb)
    else
      let fb := blFbResetDirtyArea { fb with renderer := 0 }
      let doubleBuffer := heapAlloc (info.width * info.height * info.bytesPerPixel % 2 ^ 32)
      let fb := { fb with doubleBuffer }
      if doubleBuffer = 0 then (.memoryAllocationFailed, fb) else (.success, fb)

end BootLoader.Video

import BootLoader.Video.Fill

/-!
# Glyphs over a background

Each pixel size has a loop of its own. Two of them store eight bytes at once and choose between
white and the background with a mask.
-/

open ByteMemory

namespace BootLoader.Video

open Raster

variable {info : BlVideoInfo} {fits : info.width * info.bytesPerPixel ≤ info.pitch} {fb : BlFb}
  {m : Mem} {d s i white : Nat} {glyph : Byte}

/-! ## Fields of eight bytes -/

theorem readLE_writeLE_part (m : Mem) (a v : Nat) {n i k : Nat} (h : i * k + k ≤ n) :
    readLE (writeLE m a n v) (a + i * k) k = v / 256 ^ (i * k) % 256 ^ k := by
  refine readLE_of_bytes fun j hj => ?_
  rw [Nat.add_assoc, writeLE_inside m v (by omega), Nat.div_div_eq_div_mul, pow_add]

theorem field_toNat (x : BitVec 64) (i k : Nat) :
    (x.extractLsb' (8 * (i * k)) (8 * k)).toNat = x.toNat / 256 ^ (i * k) % 256 ^ k := by
  rw [BitVec.extractLsb'_toNat, Nat.shiftRight_eq_div_pow, pow_mul 2 8 (i * k), pow_mul 2 8 k]
  norm_num

/-- Where the mask is set or clear as a whole, one of the two words shows. -/
theorem blend_field {start len : Nat} (fg mask under : BitVec 64) (set : Bool)
    (hend : start + len ≤ 64)
    (hmask : mask.extractLsb' start len = if set then BitVec.allOnes len else 0) :
    ((fg &&& mask) ||| (under &&& ~~~mask)).extractLsb' start len =
      if set then fg.extractLsb' start len else under.extractLsb' start len := by
  apply BitVec.eq_of_getLsbD_eq
  intro j hj
  have hbit := congrArg (fun x => x.getLsbD j) hmask
  cases set <;> simp [hj, show start + j < 64 by omega] at hbit ⊢ <;> simp [hbit]

theorem ofNat_setWidth {w n : Nat} (hn : n < 2 ^ w) :
    BitVec.ofNat 64 n = (BitVec.ofNat w n).setWidth 64 := by
  apply BitVec.eq_of_toNat_eq
  rw [BitVec.toNat_setWidth, BitVec.toNat_ofNat, BitVec.toNat_ofNat, Nat.mod_eq_of_lt hn]

/-- Four pixels of two bytes, the first one lowest. -/
def pack2 (p : Nat → Nat) : BitVec 64 :=
  BitVec.ofNat 64 (p 0) ||| BitVec.ofNat 64 (p 1) <<< 16 ||| BitVec.ofNat 64 (p 2) <<< 32 |||
    BitVec.ofNat 64 (p 3) <<< 48

theorem pack2_field {p : Nat → Nat} (hp : ∀ j < 4, p j < 2 ^ 16) (hi : i < 4) :
    (pack2 p).extractLsb' (16 * i) 16 = BitVec.ofNat 16 (p i) := by
  unfold pack2
  rw [ofNat_setWidth (hp 0 (by decide)), ofNat_setWidth (hp 1 (by decide)),
    ofNat_setWidth (hp 2 (by decide)), ofNat_setWidth (hp 3 (by decide))]
  apply BitVec.eq_of_getLsbD_eq
  intro j hj
  obtain rfl | rfl | rfl | rfl : i = 0 ∨ i = 1 ∨ i = 2 ∨ i = 3 := by omega
  all_goals
    simp only [BitVec.getLsbD_extractLsb', BitVec.getLsbD_or, BitVec.getLsbD_shiftLeft,
      BitVec.getLsbD_setWidth]
    grind

/-- Two pixels of four bytes, the first one lowest. -/
def pack4 (p : Nat → Nat) : BitVec 64 :=
  BitVec.ofNat 64 (p 0) ||| BitVec.ofNat 64 (p 1) <<< 32

theorem pack4_field {p : Nat → Nat} (hp : ∀ j < 2, p j < 2 ^ 32) (hi : i < 2) :
    (pack4 p).extractLsb' (32 * i) 32 = BitVec.ofNat 32 (p i) := by
  unfold pack4
  rw [ofNat_setWidth (hp 0 (by decide)), ofNat_setWidth (hp 1 (by decide))]
  apply BitVec.eq_of_getLsbD_eq
  intro j hj
  obtain rfl | rfl : i = 0 ∨ i = 1 := by omega
  all_goals
    simp only [BitVec.getLsbD_extractLsb', BitVec.getLsbD_or, BitVec.getLsbD_shiftLeft,
      BitVec.getLsbD_setWidth]
    grind

/-! ## The background -/

theorem readLE_three (m : Mem) (a : Nat) :
    (m a).toNat ||| (m (a + 1)).toNat <<< 8 ||| (m (a + 2)).toNat <<< 16 = readLE m a 3 := by
  have h0 := (m a).isLt
  have h1 := (m (a + 1)).isLt
  have hread : readLE m a 3 =
      (m a).toNat + 256 * ((m (a + 1)).toNat + 256 * ((m (a + 2)).toNat + 256 * 0)) := rfl
  have hlow : (m a).toNat ||| (m (a + 1)).toNat <<< 8 =
      (m (a + 1)).toNat <<< 8 + (m a).toNat := by
    rw [Nat.or_comm, ← Nat.shiftLeft_add_eq_or_of_lt h0]
  have hall : (m (a + 1)).toNat <<< 8 + (m a).toNat < 2 ^ 16 := by omega
  rw [hlow, Nat.or_comm, ← Nat.shiftLeft_add_eq_or_of_lt hall, hread]
  omega

theorem blFbGetPixelPtr_eq (m : Mem) (hdepth : info.DepthOk)
    (hs : s + i * info.bytesPerPixel + info.bytesPerPixel ≤ 2 ^ 32) :
    blFbGetPixelPtr info m s i 0 = readLE m (s + i * info.bytesPerPixel) info.bytesPerPixel := by
  have hdepths := hdepth.cases
  have hptr : pixelPtr info s i 0 = s + i * info.bytesPerPixel := by
    unfold pixelPtr
    rw [Nat.zero_mul, Nat.add_zero]
    exact Nat.mod_eq_of_lt (by omega)
  unfold blFbGetPixelPtr
  rw [hptr]
  rcases hdepths with ⟨hbytes, hbits | hbits⟩ | ⟨hbytes, hbits⟩ | ⟨hbytes, hbits⟩ <;>
    simp only [hbytes, hbits]
  exact readLE_three _ _

/-! ## Two bytes -/

theorem mask2_field (glyph : Byte) (i : Nat) (hi : i < 4) :
    (blFontLookupTable2.getD ((glyph >>> 4) &&& 0xf).toNat 0).extractLsb' (16 * i) 16 =
        (if glyph.getLsbD (7 - i) then BitVec.allOnes 16 else 0) ∧
      (blFontLookupTable2.getD (glyph &&& 0xf).toNat 0).extractLsb' (16 * i) 16 =
        if glyph.getLsbD (7 - (4 + i)) then BitVec.allOnes 16 else 0 := by
  revert glyph i
  decide +kernel

/-- Four pixels, of the background those from number `k` on. -/
theorem blend2_pixel {k : Nat} {fg mask : BitVec 64} (set : Bool) (hdepth : info.DepthOk)
    (hbytes : info.bytesPerPixel = 2) (hd : d + 8 ≤ 2 ^ 32) (hs : s + (k + 4) * 2 ≤ 2 ^ 32)
    (hfg : fg = pack2 fun _ => white) (hwhite : set = true → white < 2 ^ 16) (hi : i < 4)
    (hmask : mask.extractLsb' (16 * i) 16 = if set then BitVec.allOnes 16 else 0) :
    readLE (blend m d fg mask (under2 info m s k)) (d + i * 2) 2 =
      if set then white else readLE m (s + (k + i) * 2) 2 := by
  have hpixel : ∀ j < 4, blFbGetPixelPtr info m s (k + j) 0 = readLE m (s + (k + j) * 2) 2 := by
    intro j hj
    rw [blFbGetPixelPtr_eq m hdepth (by rw [hbytes]; omega), hbytes]
  have hunder : (under2 info m s k).extractLsb' (16 * i) 16 =
      BitVec.ofNat 16 (blFbGetPixelPtr info m s (k + i) 0) := by
    refine @pack2_field i (fun j => blFbGetPixelPtr info m s (k + j) 0) (fun j hj => ?_) hi
    rw [hpixel j hj]
    exact readLE_lt m _ 2
  have hfield := blend_field fg _ (under2 info m s k) set (by omega) hmask
  rw [hunder, hpixel i hi] at hfield
  unfold blend
  rw [Nat.mod_eq_of_lt (by omega), readLE_writeLE_part _ _ _ (by omega), ← field_toNat,
    show 8 * (i * 2) = 16 * i by omega, hfield]
  cases set with
  | false => exact Nat.mod_eq_of_lt (readLE_lt m _ 2)
  | true =>
    rw [if_pos rfl, if_pos rfl, hfg, pack2_field (fun _ _ => hwhite rfl) hi]
    exact Nat.mod_eq_of_lt (hwhite rfl)

theorem blend_outside {a : Nat} (fg mask under : BitVec 64) (hd : d + 8 ≤ 2 ^ 32)
    (h : a < d ∨ d + 8 ≤ a) : blend m d fg mask under a = m a := by
  unfold blend
  rw [Nat.mod_eq_of_lt (by omega)]
  exact writeLE_outside m _ h

theorem readLE_blend_apart {a n : Nat} (fg mask under : BitVec 64) (hd : d + 8 ≤ 2 ^ 32)
    (h : a + n ≤ d ∨ d + 8 ≤ a) : readLE (blend m d fg mask under) a n = readLE m a n :=
  readLE_congr fun _ _ _ => blend_outside fg mask under hd (by omega)

theorem blitRow2_pixel (hdepth : info.DepthOk) (hbytes : info.bytesPerPixel = 2)
    (hd : d + 16 ≤ 2 ^ 32) (hs : s + 16 ≤ 2 ^ 32) (hapart : d + 16 ≤ s ∨ s + 16 ≤ d)
    (hi : i < 8) (hwhite : glyph.getLsbD (7 - i) = true → white < 2 ^ 16) :
    readLE (blitRow2 info white glyph s d m) (d + i * 2) 2 =
      if glyph.getLsbD (7 - i) then white else readLE m (s + i * 2) 2 := by
  have hreverse : ∀ a b c e : BitVec 64, a ||| b ||| c ||| e = e ||| c ||| b ||| a := by
    intros
    ac_rfl
  have hfg : BitVec.ofNat 64 white <<< 48 ||| BitVec.ofNat 64 white <<< 32 |||
      BitVec.ofNat 64 white <<< 16 ||| BitVec.ofNat 64 white = pack2 fun _ => white :=
    hreverse ..
  unfold blitRow2
  dsimp only
  rcases Nat.lt_or_ge i 4 with hlow | hhigh
  · rw [readLE_blend_apart _ _ _ (by omega) (by omega), blend2_pixel _ hdepth hbytes (by omega)
      (by omega) hfg hwhite hlow (mask2_field glyph i hlow).1, Nat.zero_add]
  · obtain ⟨j, rfl⟩ : ∃ j, i = 4 + j := ⟨i - 4, by omega⟩
    rw [show d + (4 + j) * 2 = d + 8 + j * 2 by omega, blend2_pixel _ hdepth hbytes (by omega)
      (by omega) hfg hwhite (by omega) (mask2_field glyph j (by omega)).2,
      readLE_blend_apart _ _ _ (by omega) (by omega)]

/-! ## Four bytes -/

def partner (i : Nat) : Nat := if i % 2 = 0 then i + 1 else i - 1

theorem mask4_field (glyph : Byte) (k : Nat) (hk : k < 4) (i : Nat) (hi : i < 2) :
    (blFontLookupTable4.getD ((glyph >>> (6 - 2 * k)) &&& 0x3).toNat 0).extractLsb' (32 * i) 32 =
      if glyph.getLsbD (7 - (2 * k + i)) then BitVec.allOnes 32 else 0 := by
  revert glyph k i
  decide +kernel

/-- Two pixels, over each the other one of the background. -/
theorem blend4_pixel {k : Nat} {fg mask : BitVec 64} (set : Bool) (hdepth : info.DepthOk)
    (hbytes : info.bytesPerPixel = 4) (hd : d + 8 ≤ 2 ^ 32) (hs : s + (2 * k + 2) * 4 ≤ 2 ^ 32)
    (hfg : fg = pack4 fun _ => white) (hwhite : white < 2 ^ 32) (hi : i < 2)
    (hmask : mask.extractLsb' (32 * i) 32 = if set then BitVec.allOnes 32 else 0) :
    readLE (blend m d fg mask (under4 info m s (2 * k))) (d + i * 4) 4 =
      if set then white else readLE m (s + partner (2 * k + i) * 4) 4 := by
  have hpixel : ∀ j < 2, blFbGetPixelPtr info m s (partner (2 * k + j)) 0 =
      readLE m (s + partner (2 * k + j) * 4) 4 := by
    intro j hj
    have hpartner : partner (2 * k + j) < 2 * k + 2 := by
      unfold partner
      split_ifs <;> omega
    rw [blFbGetPixelPtr_eq m hdepth (by rw [hbytes]; omega), hbytes]
  have hswapped : under4 info m s (2 * k) =
      pack4 fun j => blFbGetPixelPtr info m s (partner (2 * k + j)) 0 := by
    have hfirst : partner (2 * k + 0) = 2 * k + 1 := if_pos (by omega)
    have hsecond : partner (2 * k + 1) = 2 * k := if_neg (by omega)
    unfold under4 pack4
    simp only [hfirst, hsecond]
    exact BitVec.or_comm _ _
  have hunder : (under4 info m s (2 * k)).extractLsb' (32 * i) 32 =
      BitVec.ofNat 32 (blFbGetPixelPtr info m s (partner (2 * k + i)) 0) := by
    rw [hswapped]
    refine pack4_field (fun j hj => ?_) hi
    rw [hpixel j hj]
    exact readLE_lt m _ 4
  have hfield := blend_field fg _ (under4 info m s (2 * k)) set (by omega) hmask
  rw [hunder, hpixel i hi, hfg, pack4_field (fun _ _ => hwhite) hi] at hfield
  unfold blend
  rw [Nat.mod_eq_of_lt (by omega), readLE_writeLE_part _ _ _ (by omega), ← field_toNat,
    show 8 * (i * 4) = 32 * i by omega, hfg, hfield]
  cases set
  · exact Nat.mod_eq_of_lt (readLE_lt m _ 4)
  · exact Nat.mod_eq_of_lt hwhite

theorem blitRow4_pixel (hdepth : info.DepthOk) (hbytes : info.bytesPerPixel = 4)
    (hd : d + 32 ≤ 2 ^ 32) (hs : s + 32 ≤ 2 ^ 32) (hapart : d + 32 ≤ s ∨ s + 32 ≤ d)
    (hwhite : white < 2 ^ 32) (hi : i < 8) :
    readLE (blitRow4 info white glyph s d m) (d + i * 4) 4 =
      if glyph.getLsbD (7 - i) then white else readLE m (s + partner i * 4) 4 := by
  have hfg : BitVec.ofNat 64 white <<< 32 ||| BitVec.ofNat 64 white = pack4 fun _ => white :=
    BitVec.or_comm _ _
  have hpartner : partner i < 8 := by
    unfold partner
    split_ifs <;> omega
  have hmask := mask4_field glyph
  obtain ⟨k, hk, j, hj, rfl⟩ : ∃ k < 4, ∃ j < 2, i = 2 * k + j :=
    ⟨i / 2, by omega, i % 2, by omega, by omega⟩
  have hat : d + (2 * k + j) * 4 = d + 8 * k + j * 4 := by omega
  -- What is stored behind the pair is elsewhere, and so is what was stored before it.
  have hpair : ∀ m', (∀ a, s ≤ a → a < s + 32 → m' a = m a) →
      readLE (blend m' (d + 8 * k) (BitVec.ofNat 64 white <<< 32 ||| BitVec.ofNat 64 white)
          (blFontLookupTable4.getD ((glyph >>> (6 - 2 * k)) &&& 0x3).toNat 0)
          (under4 info m' s (2 * k))) (d + (2 * k + j) * 4) 4 =
        if glyph.getLsbD (7 - (2 * k + j)) then white
        else readLE m (s + partner (2 * k + j) * 4) 4 := by
    intro m' hm'
    rw [hat, blend4_pixel _ hdepth hbytes (by omega) (by omega) hfg hwhite hj (hmask k hk j hj),
      readLE_congr fun a ha ha' => hm' a (by omega) (by omega)]
  unfold blitRow4
  obtain rfl | rfl | rfl | rfl : k = 0 ∨ k = 1 ∨ k = 2 ∨ k = 3 := by omega
  · dsimp only
    rw [readLE_blend_apart _ _ _ (by omega) (by omega), readLE_blend_apart _ _ _ (by omega)
      (by omega), readLE_blend_apart _ _ _ (by omega) (by omega)]
    exact hpair _ fun _ _ _ => rfl
  · dsimp only
    rw [readLE_blend_apart _ _ _ (by omega) (by omega), readLE_blend_apart _ _ _ (by omega)
      (by omega)]
    refine hpair _ fun a ha ha' => ?_
    rw [blend_outside _ _ _ (by omega) (by omega)]
  · dsimp only
    rw [readLE_blend_apart _ _ _ (by omega) (by omega)]
    refine hpair _ fun a ha ha' => ?_
    rw [blend_outside _ _ _ (by omega) (by omega), blend_outside _ _ _ (by omega) (by omega)]
  · refine hpair _ fun a ha ha' => ?_
    rw [blend_outside _ _ _ (by omega) (by omega), blend_outside _ _ _ (by omega) (by omega),
      blend_outside _ _ _ (by omega) (by omega)]

/-! ## Three bytes -/

theorem blitPixels3_pixel {n : Nat} (hdepth : info.DepthOk) (hbytes : info.bytesPerPixel = 3)
    (hd : d + 24 ≤ 2 ^ 32) (hs : s + 24 ≤ 2 ^ 32) (hapart : d + 24 ≤ s ∨ s + 24 ≤ d)
    (hn : n ≤ 8) (hi : i < 8) :
    readLE (blitPixels3 info glyph s d n m) (d + i * 3) 3 =
      if 8 ≤ i + n then if glyph.getLsbD (7 - i) then 0xffffff else readLE m s 3
      else readLE m (d + i * 3) 3 := by
  induction n generalizing m with
  | zero => rw [if_neg (by omega), blitPixels3]
  | succ j ih =>
    have hfirst : blFbGetPixelPtr info m s 0 0 = readLE m s 3 := by
      rw [blFbGetPixelPtr_eq m hdepth (by rw [hbytes]; omega), hbytes, Nat.zero_mul, Nat.add_zero]
    rw [blitPixels3, ih (by omega)]
    unfold blFontCharacterWidth
    rw [store24_eq _ (by omega), readLE_writeLE_apart m _ (by omega), hfirst]
    have hcolor : (if glyph.getLsbD j then 0xffffff else readLE m s 3) < 256 ^ 3 := by
      split_ifs
      · decide
      · exact readLE_lt m s 3
    rcases Nat.lt_trichotomy (i + j) 7 with hlt | heq | hgt
    · rw [if_neg (show ¬8 ≤ i + j by omega), if_neg (show ¬8 ≤ i + (j + 1) by omega),
        readLE_writeLE_apart m _ (by omega)]
    · obtain rfl : i = 8 - 1 - j := by omega
      rw [if_neg (show ¬8 ≤ 8 - 1 - j + j by omega), if_pos (show 8 ≤ 8 - 1 - j + (j + 1) by omega),
        readLE_writeLE_same, Nat.mod_eq_of_lt hcolor, show 7 - (8 - 1 - j) = j by omega]
    · rw [if_pos (show 8 ≤ i + j by omega), if_pos (show 8 ≤ i + (j + 1) by omega)]

theorem blitRow3_pixel (hdepth : info.DepthOk) (hbytes : info.bytesPerPixel = 3)
    (hd : d + 24 ≤ 2 ^ 32) (hs : s + 24 ≤ 2 ^ 32) (hapart : d + 24 ≤ s ∨ s + 24 ≤ d) (hi : i < 8) :
    readLE (blitRow3 info glyph s d m) (d + i * 3) 3 =
      if glyph.getLsbD (7 - i) then 0xffffff else readLE m s 3 := by
  unfold blitRow3 blFontCharacterWidth
  rw [blitPixels3_pixel hdepth hbytes hd hs hapart le_rfl hi, if_pos (show 8 ≤ i + 8 by omega)]

/-! ## All rows -/

/-- Two buffers that hold the whole raster, one to draw into and one to draw over. -/
structure Apart (s : Layout) (target bg : Nat) : Prop where
  target_le : target + s.extent ≤ 2 ^ 32
  bg_le : bg + s.extent ≤ 2 ^ 32
  apart : target + s.extent ≤ bg ∨ bg + s.extent ≤ target

variable {target bg x y : Nat} {row : Byte → Nat → Nat → Mem → Mem}
  {ok : Byte → Nat → Prop} {value : Byte → (Nat → Nat) → Nat → Nat} {glyph' : Nat → Byte}

/-- Rows from number `i` on. Each finds the background as it was, and those before it keep what they
have drawn. -/
theorem overRows_pixels (hbuffers : Apart (info.layout fits) target bg)
    (hr : (Rect.mk x y 8 16).Inside (info.layout fits))
    (hkept : ∀ g src d m, d + 8 * info.bytesPerPixel ≤ 2 ^ 32 →
      KeptOutside d (d + 8 * info.bytesPerPixel) m (row g src (d % 2 ^ 32) m))
    (hrow : ∀ g s d m, d + 8 * info.bytesPerPixel ≤ 2 ^ 32 → s + 8 * info.bytesPerPixel ≤ 2 ^ 32 →
      (d + 8 * info.bytesPerPixel ≤ s ∨ s + 8 * info.bytesPerPixel ≤ d) → ∀ k < 8, ok g k →
      readLE (row g s d m) (d + k * info.bytesPerPixel) info.bytesPerPixel =
        value g (fun k => readLE m (s + k * info.bytesPerPixel) info.bytesPerPixel) k)
    (hvalue : ∀ g p q, (∀ k < 8, p k = q k) → ∀ k < 8, value g p k = value g q k)
    (hpos : 0 < info.bytesPerPixel) (n i : Nat) (m' : Mem) (hn : i + n = 16)
    (hbg : ∀ a, bg ≤ a → a < bg + (info.layout fits).extent → m' a = m a) :
    let m'' := overRows (fun i => row (glyph' i)) info.pitch n i
      ((bg + (info.layout fits).offset x (y + i)) % 2 ^ 32)
      ((target + (info.layout fits).offset x (y + i)) % 2 ^ 32) m'
    (∀ a, a < target + (info.layout fits).offset x (y + i) → m'' a = m' a) ∧
      ∀ j, i ≤ j → j < 16 → ∀ k < 8, ok (glyph' j) k →
        colorAt (info.layout fits) m'' target (x + k) (y + j) =
          value (glyph' j) (fun k => colorAt (info.layout fits) m bg (x + k) (y + j)) k := by
  induction n generalizing i m' with
  | zero => exact ⟨fun _ _ => rfl, fun j hj hj' => absurd hj' (by omega)⟩
  | succ n ih =>
    have htarget := row_le hbuffers.target_le hr (show i < 16 by omega)
    have hsource := row_le hbuffers.bg_le hr (show i < 16 by omega)
    have hin := (info.layout fits).offset_le_extent hr.1
      (show y + i < (info.layout fits).height by have := hr.2; simp only at this; omega)
    rw [← Layout.offset_add] at hin
    simp only [show (info.layout fits).depth = info.bytesPerPixel from rfl] at hin htarget hsource
    have hapart := hbuffers.apart
    have hline :=
      hkept (glyph' i) ((bg + (info.layout fits).offset x (y + i)) % 2 ^ 32) _ m' htarget
    have hpixels := hrow (glyph' i) (bg + (info.layout fits).offset x (y + i))
      (target + (info.layout fits).offset x (y + i)) m' htarget hsource (by omega)
    rw [Nat.mod_eq_of_lt (show target + (info.layout fits).offset x (y + i) < 2 ^ 32 by omega),
      Nat.mod_eq_of_lt (show bg + (info.layout fits).offset x (y + i) < 2 ^ 32 by omega)] at hline
    rw [overRows, next_row, next_row, Nat.add_assoc y,
      Nat.mod_eq_of_lt (show target + (info.layout fits).offset x (y + i) < 2 ^ 32 by omega),
      Nat.mod_eq_of_lt (show bg + (info.layout fits).offset x (y + i) < 2 ^ 32 by omega)]
    generalize row (glyph' i) (bg + (info.layout fits).offset x (y + i))
      (target + (info.layout fits).offset x (y + i)) m' = m₁ at hline hpixels ⊢
    obtain ⟨hbefore, hrest⟩ := ih (i + 1) m₁ (by omega) fun a ha ha' => by
      rw [hline a (by omega), hbg a ha ha']
    have hnext := (info.layout fits).offset_le_next hr.1 (show y + i < y + (i + 1) by omega) x
    rw [← Layout.offset_add] at hnext
    simp only [show (info.layout fits).depth = info.bytesPerPixel from rfl] at hnext
    refine ⟨fun a ha => ?_, fun j hj hj' k hk hok => ?_⟩
    · rw [hbefore a (by omega), hline a (.inl ha)]
    · rcases Nat.eq_or_lt_of_le hj with rfl | hlt
      · have hk8 : (k + 1) * info.bytesPerPixel ≤ 8 * info.bytesPerPixel :=
          Nat.mul_le_mul_right _ hk
        rw [Nat.succ_mul] at hk8
        unfold colorAt
        rw [line_end]
        refine (readLE_congr fun a ha ha' => hbefore a ?_).trans ((hpixels k hk hok).trans ?_)
        · simp only [show (info.layout fits).depth = info.bytesPerPixel from rfl] at ha'
          omega
        · refine hvalue _ _ _ (fun q hq => ?_) k hk
          have hq8 : (q + 1) * info.bytesPerPixel ≤ 8 * info.bytesPerPixel :=
            Nat.mul_le_mul_right _ hq
          rw [Nat.succ_mul] at hq8
          rw [line_end]
          exact readLE_congr fun a ha ha' => hbg a (by omega) (by omega)
      · exact hrest j hlt hj' k hk hok

theorem glyph_rows (hbuffers : Apart (info.layout fits) target bg)
    (hr : (Rect.mk x y 8 16).Inside (info.layout fits))
    (hkept : ∀ g src d m, d + 8 * info.bytesPerPixel ≤ 2 ^ 32 →
      KeptOutside d (d + 8 * info.bytesPerPixel) m (row g src (d % 2 ^ 32) m))
    (hrow : ∀ g s d m, d + 8 * info.bytesPerPixel ≤ 2 ^ 32 → s + 8 * info.bytesPerPixel ≤ 2 ^ 32 →
      (d + 8 * info.bytesPerPixel ≤ s ∨ s + 8 * info.bytesPerPixel ≤ d) → ∀ k < 8, ok g k →
      readLE (row g s d m) (d + k * info.bytesPerPixel) info.bytesPerPixel =
        value g (fun k => readLE m (s + k * info.bytesPerPixel) info.bytesPerPixel) k)
    (hvalue : ∀ g p q, (∀ k < 8, p k = q k) → ∀ k < 8, value g p k = value g q k)
    (hpos : 0 < info.bytesPerPixel) :
    let m' := overRows (fun i => row (glyph' i)) info.pitch 16 0 (pixelPtr info bg x y)
      (pixelPtr info target x y) m
    (∀ j < 16, ∀ i < 8, ok (glyph' j) i →
      colorAt (info.layout fits) m' target (x + i) (y + j) =
        value (glyph' j) (fun i => colorAt (info.layout fits) m bg (x + i) (y + j)) i) ∧
      Confined (info.layout fits) target ⟨x, y, 8, 16⟩ m m' := by
  intro m'
  have hpixels := @overRows_pixels info fits m target bg x y row ok value glyph' hbuffers hr hkept
    hrow hvalue hpos 16 0 m rfl fun _ _ _ => rfl
  rw [Nat.add_zero, ← pixelPtr_eq, ← pixelPtr_eq] at hpixels
  exact ⟨fun j => hpixels.2 j (Nat.zero_le j), glyph_confined hbuffers.target_le hr
    (fun i src d m hd => hkept (glyph' i) src d m hd) _ m⟩

/-! ## The cell -/

/-- White where the bit is set, else the background. -/
def glyphPixel (white : Nat) (glyph : Byte) (bg : Nat → Nat) (i : Nat) : Nat :=
  if glyph.getLsbD (7 - i) then white else bg i

structure GlyphRight (font : Nat → Nat → Byte) (fb : BlFb)
    (fits : fb.info.width * fb.info.bytesPerPixel ≤ fb.info.pitch) (m : Mem) (c : BitVec 8)
    (blitBg x y : Nat) : Prop where
  pixels : ∀ j < 16, ∀ i < 8,
    colorAt (fb.info.layout fits) (blFbBlitGlyph font fb m c blitBg x y).2 (blFbGetTargetPtr fb)
        (x + i) (y + j) =
      glyphPixel (blFbPrepareColor fb.info 0xff 0xff 0xff 0xff) (font c.toNat j)
        (fun i => colorAt (fb.info.layout fits) m blitBg (x + i) (y + j)) i
  others : Confined (fb.info.layout fits) (blFbGetTargetPtr fb) ⟨x, y, 8, 16⟩ m
    (blFbBlitGlyph font fb m c blitBg x y).2

/-- Where the loop for the pixel size draws a row as it should. -/
def RowOk (bytes white : Nat) (glyph : Byte) (bg : Nat → Nat) : Prop :=
  match bytes with
  | 2 => ∀ i < 8, glyph.getLsbD (7 - i) = true → white < 2 ^ 16
  | 3 => ∀ i < 8, if glyph.getLsbD (7 - i) then white = 0xffffff else bg i = bg 0
  | 4 => ∀ i < 8, glyph.getLsbD (7 - i) = false → bg i = bg (partner i)
  | _ => True

def drawn (bytes white : Nat) (glyph : Byte) (bg : Nat → Nat) (i : Nat) : Nat :=
  if glyph.getLsbD (7 - i) then if bytes = 3 then 0xffffff else white
  else bg (if bytes = 3 then 0 else if bytes = 4 then partner i else i)

theorem drawn_congr {bytes : Nat} {p q : Nat → Nat} (h : ∀ k < 8, p k = q k) (hi : i < 8) :
    drawn bytes white glyph p i = drawn bytes white glyph q i := by
  have hpartner : partner i < 8 := by
    unfold partner
    split_ifs <;> omega
  unfold drawn
  rw [h]
  split_ifs <;> omega

def WhiteFits (bytes white : Nat) (glyph : Byte) (i : Nat) : Prop :=
  bytes = 2 → glyph.getLsbD (7 - i) = true → white < 2 ^ 16

theorem rowOk_iff {bytes : Nat} {bg : Nat → Nat} (hbytes : bytes = 2 ∨ bytes = 3 ∨ bytes = 4) :
    RowOk bytes white glyph bg ↔ ∀ i < 8, WhiteFits bytes white glyph i ∧
      drawn bytes white glyph bg i = glyphPixel white glyph bg i := by
  unfold drawn glyphPixel RowOk WhiteFits
  rcases hbytes with rfl | rfl | rfl
  · simp
  · refine forall₂_congr fun i hi => ?_
    cases glyph.getLsbD (7 - i) <;> simp [eq_comm]
  · refine forall₂_congr fun i hi => ?_
    cases glyph.getLsbD (7 - i) <;> simp [eq_comm]

theorem blFbBlitGlyph_drawn {font : Nat → Nat → Byte} {c : BitVec 8} {blitBg : Nat}
    (fits : fb.info.width * fb.info.bytesPerPixel ≤ fb.info.pitch) (hdepth : fb.info.DepthOk)
    (hc : ¬c.toInt < 0x20) (hr : (Rect.mk x y 8 16).Inside (fb.info.layout fits))
    (hbuffers : Apart (fb.info.layout fits) (blFbGetTargetPtr fb) blitBg) :
    (∀ j < 16, ∀ i < 8, WhiteFits fb.info.bytesPerPixel
        (blFbPrepareColor fb.info 0xff 0xff 0xff 0xff) (font c.toNat j) i →
      colorAt (fb.info.layout fits) (blFbBlitGlyph font fb m c blitBg x y).2 (blFbGetTargetPtr fb)
          (x + i) (y + j) =
        drawn fb.info.bytesPerPixel (blFbPrepareColor fb.info 0xff 0xff 0xff 0xff) (font c.toNat j)
          (fun i => colorAt (fb.info.layout fits) m blitBg (x + i) (y + j)) i) ∧
      Confined (fb.info.layout fits) (blFbGetTargetPtr fb) ⟨x, y, 8, 16⟩ m
        (blFbBlitGlyph font fb m c blitBg x y).2 := by
  have hdepths := hdepth.cases
  have hrows := fun row ok value glyph' =>
    @glyph_rows fb.info fits m (blFbGetTargetPtr fb) blitBg x y row ok value glyph' hbuffers hr
  have hcongr : ∀ bytes white g p q, (∀ k < 8, p k = q k) → ∀ k < 8,
      drawn bytes white g p k = drawn bytes white g q k := fun bytes white g p q h k hk =>
    drawn_congr h hk
  have htarget : ∀ w h, blFbGetTargetPtr (blFbUpdateDirtyArea fb x y w h) = blFbGetTargetPtr fb :=
    fun _ _ => rfl
  have hinfo : ∀ w h, (blFbUpdateDirtyArea fb x y w h).info = fb.info := fun _ _ => rfl
  unfold blFbBlitGlyph
  rw [if_neg hc]
  simp only [htarget, hinfo]
  unfold blFontCharacterHeight
  have hwhite : blFbPrepareColor fb.info 0xff 0xff 0xff 0xff < 2 ^ 32 := Nat.mod_lt _ (by decide)
  generalize blFbPrepareColor fb.info 0xff 0xff 0xff 0xff = white at hwhite ⊢
  generalize blFbGetTargetPtr fb = target at hrows ⊢
  rcases hdepths with ⟨hbytes, -⟩ | ⟨hbytes, -⟩ | ⟨hbytes, -⟩
  · simp only [hbytes]
    refine hrows (blitRow2 fb.info white) (WhiteFits 2 white) (drawn 2 white) (font c.toNat) ?_ ?_
      (hcongr 2 white) (by omega)
    · rw [hbytes]
      exact fun g src d m hd => blitRow2_kept _ _ _ hd
    · rw [hbytes]
      intro g s d m hd hs hapart k hk hfits
      exact blitRow2_pixel hdepth hbytes hd hs hapart hk (hfits rfl)
  · simp only [hbytes]
    refine hrows (blitRow3 fb.info) (WhiteFits 3 white) (drawn 3 white) (font c.toNat) ?_ ?_
      (hcongr 3 white) (by omega)
    · rw [hbytes]
      exact fun g src d m hd => blitRow3_kept _ _ hd
    · rw [hbytes]
      intro g s d m hd hs hapart k hk hfits
      exact blitRow3_pixel hdepth hbytes hd hs hapart hk
  · simp only [hbytes]
    refine hrows (blitRow4 fb.info white) (WhiteFits 4 white) (drawn 4 white) (font c.toNat) ?_ ?_
      (hcongr 4 white) (by omega)
    · rw [hbytes]
      exact fun g src d m hd => blitRow4_kept _ _ _ hd
    · rw [hbytes]
      intro g s d m hd hs hapart k hk hfits
      exact blitRow4_pixel hdepth hbytes hd hs hapart hwhite hk

/-- **When a glyph is right.** Of 24 bits, white must be `0xffffff` and a row of the background of
one colour where it shows; of 32 bits, the two pixels of a pair must have one colour. Of 16 bits
white must be one. -/
theorem glyphRight_iff (font : Nat → Nat → Byte) (fb : BlFb)
    (fits : fb.info.width * fb.info.bytesPerPixel ≤ fb.info.pitch) (m : Mem) (c : BitVec 8)
    (blitBg x y : Nat) (hdepth : fb.info.DepthOk) (hc : 0x20 ≤ c.toNat ∧ c.toNat ≤ 0x7f)
    (hr : (Rect.mk x y 8 16).Inside (fb.info.layout fits))
    (hbuffers : Apart (fb.info.layout fits) (blFbGetTargetPtr fb) blitBg) :
    GlyphRight font fb fits m c blitBg x y ↔
      ∀ j < 16, RowOk fb.info.bytesPerPixel (blFbPrepareColor fb.info 0xff 0xff 0xff 0xff)
        (font c.toNat j) fun i => colorAt (fb.info.layout fits) m blitBg (x + i) (y + j) := by
  have hchar : ¬c.toInt < 0x20 := by
    rw [BitVec.toInt_eq_toNat_of_lt (by omega)]
    omega
  have hbytes : fb.info.bytesPerPixel = 2 ∨ fb.info.bytesPerPixel = 3 ∨
      fb.info.bytesPerPixel = 4 := by
    have hdepths := hdepth.cases
    omega
  obtain ⟨hdrawn, hothers⟩ :=
    @blFbBlitGlyph_drawn fb m x y font c blitBg fits hdepth hchar hr hbuffers
  constructor
  · intro h j hj
    refine (rowOk_iff hbytes).mpr fun i hi => ?_
    have hpixel := h.pixels j hj i hi
    have hfits : WhiteFits fb.info.bytesPerPixel (blFbPrepareColor fb.info 0xff 0xff 0xff 0xff)
        (font c.toNat j) i := by
      intro htwo hset
      rw [glyphPixel, if_pos hset] at hpixel
      have hlt := colorAt_lt (fb.info.layout fits) (blFbBlitGlyph font fb m c blitBg x y).2
        (blFbGetTargetPtr fb) (x + i) (y + j)
      rw [hpixel, show (fb.info.layout fits).depth = 2 from htwo] at hlt
      exact hlt
    exact ⟨hfits, (hdrawn j hj i hi hfits).symm.trans hpixel⟩
  · intro h
    refine ⟨fun j hj i hi => ?_, hothers⟩
    obtain ⟨hfits, hsame⟩ := (rowOk_iff hbytes).mp (h j hj) i hi
    rw [hdrawn j hj i hi hfits, hsame]

/-- One cell of 32 bits. -/
def oneCell : BlFb where
  info := ⟨8, 16, 32, 0xe0000000, 32, 4, ⟨16, 8⟩, ⟨8, 8⟩, ⟨0, 8⟩, ⟨24, 8⟩⟩
  renderer := 0
  dirtyArea := noDirtyArea
  doubleBuffer := 0x1000

theorem oneCell_fits : oneCell.info.width * oneCell.info.bytesPerPixel ≤ oneCell.info.pitch := by
  decide

theorem oneCell_apart : Apart (oneCell.info.layout oneCell_fits) 0x1000 0x2000 :=
  ⟨by decide, by decide, by decide⟩

/-- A full block, of which no background shows. -/
theorem block_right :
    GlyphRight (fun _ _ => 0xff) oneCell oneCell_fits (fun _ => 0) 0x7f 0x2000 0 0 := by
  have hset : ∀ i < 8, (0xff : Byte).getLsbD (7 - i) = true := by decide
  refine (glyphRight_iff _ oneCell oneCell_fits _ 0x7f 0x2000 0 0 ⟨by decide, rfl⟩ (by decide)
    ⟨by decide, by decide⟩ oneCell_apart).mpr fun j _ i hi hclear => ?_
  exact absurd ((hset i hi).symm.trans hclear) (by decide)

/-- Over a background whose first pixel has another colour a blank swaps it with the second. -/
theorem blank_not_right : ¬ ∀ font fb fits m c blitBg x y, fb.info.DepthOk →
    0x20 ≤ c.toNat ∧ c.toNat ≤ 0x7f → (Rect.mk x y 8 16).Inside (fb.info.layout fits) →
    Apart (fb.info.layout fits) (blFbGetTargetPtr fb) blitBg →
    GlyphRight font fb fits m c blitBg x y := by
  intro h
  have hright := h (fun _ _ => 0) oneCell oneCell_fits (write32 (fun _ => 0) 0x2000 1) 0x20 0x2000
    0 0 ⟨by decide, rfl⟩ (by decide) ⟨by decide, by decide⟩ oneCell_apart
  have hrow := (glyphRight_iff _ oneCell oneCell_fits _ 0x20 0x2000 0 0 ⟨by decide, rfl⟩
    (by decide) ⟨by decide, by decide⟩ oneCell_apart).mp hright 0 (by decide)
  have hpair := hrow 0 (by decide) (by decide)
  revert hpair
  decide

end BootLoader.Video

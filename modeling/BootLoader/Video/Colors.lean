import BootLoader.Lib.BitFields
import BootLoader.Video.Code

/-!
# Colours (`fb.c`, `alpha-blending.c`)

A colour holds its channels in fields of bits, the driver says where. Of a colour in the fields that
a mode really has, every channel is found again, and a blend of two lies between them.
-/

open ByteMemory

namespace BootLoader.Video

open BitFields

/-! ## Channels -/

/-- A channel, in a `bl_uint8_t`. -/
def getChannel (mask : BlVideoColorMask) (color : Nat) : Nat :=
  colorMask (color >>> mask.position) mask.maskSize % 2 ^ 8

def blFbGetRed (info : BlVideoInfo) (color : Nat) : Nat := getChannel info.red color
def blFbGetGreen (info : BlVideoInfo) (color : Nat) : Nat := getChannel info.green color
def blFbGetBlue (info : BlVideoInfo) (color : Nat) : Nat := getChannel info.blue color
def blFbGetReserved (info : BlVideoInfo) (color : Nat) : Nat := getChannel info.reserved color

/-- One channel of a blend. -/
def mix (v1 v2 alpha : Nat) : Nat :=
  (v1 * (alpha <<< 8 + alpha) + v2 * ((alpha ^^^ 0xff) <<< 8 + (alpha ^^^ 0xff))) >>> 16 % 2 ^ 8

/-- With what is left in `ignore`. -/
def blAlphaBlendColor (info : BlVideoInfo) (color1 color2 alpha : Nat) : Nat × Bool :=
  if alpha = 0 then (0, true)
  else if alpha = 0xff then (color1, false)
  else
    (blFbPrepareColor info (mix (blFbGetRed info color1) (blFbGetRed info color2) alpha)
      (mix (blFbGetGreen info color1) (blFbGetGreen info color2) alpha)
      (mix (blFbGetBlue info color1) (blFbGetBlue info color2) alpha) alpha, false)

/-! ## Fields that are apart -/

def BlVideoColorMask.field (mask : BlVideoColorMask) : Field := ⟨mask.position, mask.maskSize⟩

def BlVideoInfo.fields (info : BlVideoInfo) : List Field :=
  [info.red.field, info.green.field, info.blue.field, info.reserved.field]

/-- The channels of a pixel are of at most a byte each, and share no bit. -/
structure BlVideoInfo.MasksApart (info : BlVideoInfo) : Prop where
  apart : info.fields.Pairwise Field.Apart
  inside : ∀ f ∈ info.fields, f.pos + f.size ≤ 8 * info.bytesPerPixel
  narrow : ∀ f ∈ info.fields, f.size ≤ 8
  word : 8 * info.bytesPerPixel ≤ 32

variable {info : BlVideoInfo} {mask : BlVideoColorMask} {r g b a v1 v2 alpha : Nat}

/-- The channels as they are packed. -/
def BlVideoInfo.packed (info : BlVideoInfo) (r g b a : Nat) : List (Field × Nat) :=
  [(info.red.field, r), (info.green.field, g), (info.blue.field, b), (info.reserved.field, a)]

theorem blFbPrepareColor_eq (info : BlVideoInfo) (r g b a : Nat) :
    blFbPrepareColor info r g b a = pack (info.packed r g b a) % 2 ^ 32 := by
  simp only [BlVideoInfo.packed, pack, Nat.or_zero, ← Nat.or_assoc]
  rfl

theorem getChannel_eq (h : info.MasksApart) (hmask : mask.field ∈ info.fields) (color : Nat) :
    getChannel mask color = mask.field.get color := by
  have hlt := mask.field.get_lt color
  have hsize := Nat.pow_le_pow_right (by decide : 0 < 2) (h.narrow _ hmask)
  exact Nat.mod_eq_of_lt (lt_of_lt_of_le hlt hsize)

/-- **A channel is found again** in the colour that was prepared, also as the pixel keeps it. -/
theorem getChannel_prepared (h : info.MasksApart) {v : Nat}
    (hmem : (mask.field, v) ∈ info.packed r g b a) :
    getChannel mask (blFbPrepareColor info r g b a % 256 ^ info.bytesPerPixel) =
      v % 2 ^ mask.maskSize := by
  have hmask : mask.field ∈ info.fields :=
    List.mem_map_of_mem (f := Prod.fst) hmem
  have hapart : (info.packed r g b a).Pairwise fun p q => p.1.Apart q.1 :=
    List.pairwise_map.mp h.apart
  have hin := h.inside _ hmask
  have hbytes : (256 : Nat) ^ info.bytesPerPixel = 2 ^ (8 * info.bytesPerPixel) := by
    rw [pow_mul]
    rfl
  rw [getChannel_eq h hmask, hbytes, Field.get_mod hin, blFbPrepareColor_eq,
    Field.get_mod (hin.trans h.word), get_pack hapart hmem]
  rfl

/-! ## Blending -/

theorem xor_ff : ∀ a < 256, a ^^^ 0xff = 255 - a := by decide +kernel

theorem mix_eq (halpha : alpha < 256) :
    mix v1 v2 alpha = 257 * (v1 * alpha + v2 * (255 - alpha)) / 65536 % 256 := by
  have hfactor : ∀ x : Nat, x <<< 8 + x = 257 * x := fun x => by
    rw [Nat.shiftLeft_eq]
    omega
  have hsum : v1 * (257 * alpha) + v2 * (257 * (255 - alpha)) =
      257 * (v1 * alpha + v2 * (255 - alpha)) := by ring
  rw [mix, xor_ff alpha halpha, hfactor, hfactor, hsum, Nat.shiftRight_eq_div_pow]
  rfl

theorem quotient_between {lo hi sum : Nat} (hle : lo ≤ hi) (hhi : hi < 256) (hdown : lo * 255 ≤ sum)
    (hup : sum ≤ hi * 255) : lo ≤ 257 * sum / 65536 % 256 + 1 ∧ 257 * sum / 65536 % 256 ≤ hi := by
  have hdiv := Nat.div_add_mod (257 * sum) 65536
  have hrest : 257 * sum % 65536 < 65536 := Nat.mod_lt _ (Nat.two_pow_pos 16)
  generalize 257 * sum / 65536 = q at hdiv ⊢
  have hq : q ≤ hi := by omega
  rw [Nat.mod_eq_of_lt (show q < 256 by omega)]
  exact ⟨by omega, hq⟩

/-- A blend is not brighter than the brighter one, and not more than a step darker than the
other. -/
theorem mix_between (halpha : alpha < 256) (h1 : v1 < 256) (h2 : v2 < 256) :
    min v1 v2 ≤ mix v1 v2 alpha + 1 ∧ mix v1 v2 alpha ≤ max v1 v2 := by
  have hup : v1 * alpha + v2 * (255 - alpha) ≤ max v1 v2 * 255 := by
    calc v1 * alpha + v2 * (255 - alpha)
        ≤ max v1 v2 * alpha + max v1 v2 * (255 - alpha) :=
          Nat.add_le_add (Nat.mul_le_mul_right _ (le_max_left _ _))
            (Nat.mul_le_mul_right _ (le_max_right _ _))
      _ = max v1 v2 * 255 := by rw [← Nat.mul_add, Nat.add_sub_cancel' (by omega)]
  have hdown : min v1 v2 * 255 ≤ v1 * alpha + v2 * (255 - alpha) := by
    calc min v1 v2 * 255
        = min v1 v2 * alpha + min v1 v2 * (255 - alpha) := by
          rw [← Nat.mul_add, Nat.add_sub_cancel' (by omega)]
      _ ≤ v1 * alpha + v2 * (255 - alpha) :=
          Nat.add_le_add (Nat.mul_le_mul_right _ (min_le_left _ _))
            (Nat.mul_le_mul_right _ (min_le_right _ _))
  have hmax : max v1 v2 < 256 := max_lt h1 h2
  have hmin : min v1 v2 ≤ max v1 v2 := min_le_max
  rw [mix_eq halpha]
  generalize v1 * alpha + v2 * (255 - alpha) = sum at hup hdown
  exact quotient_between hmin hmax hdown hup

theorem getChannel_lt (mask : BlVideoColorMask) (color : Nat) : getChannel mask color < 256 :=
  Nat.mod_lt _ (Nat.two_pow_pos 8)

theorem mem_packed (hmask : mask ∈ [info.red, info.green, info.blue])
    (value : BlVideoColorMask → Nat) (a : Nat) : (mask.field, value mask) ∈
      info.packed (value info.red) (value info.green) (value info.blue) a := by
  simp only [List.mem_cons, List.not_mem_nil, or_false] at hmask
  rcases hmask with rfl | rfl | rfl <;> simp [BlVideoInfo.packed]

/-- The colour channels of a blend, as the pixel keeps it. A mix is as narrow as what is mixed, so
that nothing is cut off. -/
theorem blend_channel (h : info.MasksApart) (hmask : mask ∈ [info.red, info.green, info.blue])
    (hzero : alpha ≠ 0) (halpha : alpha < 0xff) (color1 color2 : Nat) :
    getChannel mask ((blAlphaBlendColor info color1 color2 alpha).1 % 256 ^ info.bytesPerPixel) =
      mix (getChannel mask color1) (getChannel mask color2) alpha := by
  have hmem := mem_packed hmask
    (fun mask => mix (getChannel mask color1) (getChannel mask color2) alpha) alpha
  have hin : mask.field ∈ info.fields := List.mem_map_of_mem (f := Prod.fst) hmem
  have hnarrow : mix (getChannel mask color1) (getChannel mask color2) alpha <
      2 ^ mask.maskSize := by
    have hmix := (mix_between (Nat.lt_succ_of_lt halpha) (getChannel_lt mask color1)
      (getChannel_lt mask color2)).2
    rw [getChannel_eq h hin, getChannel_eq h hin] at hmix ⊢
    exact lt_of_le_of_lt hmix (max_lt (mask.field.get_lt _) (mask.field.get_lt _))
  rw [blAlphaBlendColor, if_neg hzero, if_neg halpha.ne]
  exact (getChannel_prepared h hmem).trans (Nat.mod_eq_of_lt hnarrow)

end BootLoader.Video

import BootLoader.Video.Screens

/-!
# The backdrop

Three rows of tiles in shades, and the shell's area blended into them: what the renderer and the
double buffer show when the GUI is set up (`core/gui/bitmap.c`).
-/

open ByteMemory

namespace BootLoader.Video

open Raster

/-! ## The tiles -/

def tileColor (info : BlVideoInfo) (i j : Nat) : Nat :=
  blFbPrepareColor info (if j = 0 then 0x7f else i * 2) (if j = 1 then 0x7f else i)
    (if j = 2 then 0x7f else i) 0x7f

def tile (info : BlVideoInfo) (i j : Nat) : Rect :=
  ⟨i * (info.width / 32), j * (info.height / 3), info.width / 32, info.height / 3⟩

def tileCalls (info : BlVideoInfo) : List Drawing :=
  (List.range 3).flatMap fun j =>
    (List.range 32).map fun i => .fillRectangle (tileColor info i j) (tile info i j)

variable {info : BlVideoInfo} {font : Nat → Nat → Byte} {σ : Screens} {call : Drawing}

/-- Two loops whose bodies agree while the invariant holds. -/
theorem foldl_agree {α β : Type*} (inv : β → Prop) {f g : β → α → β}
    (h : ∀ s a, inv s → f s a = g s a ∧ inv (f s a)) (l : List α) {s : β} (hs : inv s) :
    l.foldl f s = l.foldl g s ∧ inv (l.foldl f s) := by
  induction l generalizing s with
  | nil => exact ⟨rfl, hs⟩
  | cons a l ih =>
    obtain ⟨hbody, hinv⟩ := h s a hs
    rw [List.foldl_cons, List.foldl_cons, ← hbody]
    exact ih hinv

/-- The colours are prepared as at the start, since nothing changes the mode. -/
theorem blBitmapSetBackgroundImageDefault_run (font : Nat → Nat → Byte) (renderer : Nat) (fb : BlFb)
    (m : Mem) : blBitmapSetBackgroundImageDefault fb m =
      runDrawings font renderer (tileCalls fb.info) fb m := by
  rw [runDrawings, tileCalls, List.foldl_flatMap]
  refine (foldl_agree (fun s : BlFb × Mem => s.1.info = fb.info) (fun s j hs => ?_) _ rfl).1
  rw [List.foldl_map]
  refine foldl_agree (fun s : BlFb × Mem => s.1.info = fb.info) (fun s i hs => ?_) _ hs
  rw [hs]
  exact ⟨rfl, (blFbFillRectangle_same ..).1.trans hs⟩

theorem tiles_inside (info : BlVideoInfo) : ∀ call ∈ tileCalls info, call.Inside info := by
  intro call hcall
  obtain ⟨j, hj, hcall⟩ := List.mem_flatMap.mp hcall
  obtain ⟨i, hi, rfl⟩ := List.mem_map.mp hcall
  have hw := Nat.div_mul_le_self info.width 32
  have hh := Nat.div_mul_le_self info.height 3
  have hcols : (i + 1) * (info.width / 32) ≤ 32 * (info.width / 32) :=
    Nat.mul_le_mul_right _ (List.mem_range.mp hi)
  have hrows : (j + 1) * (info.height / 3) ≤ 3 * (info.height / 3) :=
    Nat.mul_le_mul_right _ (List.mem_range.mp hj)
  rw [Nat.succ_mul] at hcols hrows
  exact ⟨show i * (info.width / 32) + info.width / 32 ≤ info.width by omega,
    show j * (info.height / 3) + info.height / 3 ≤ info.height by omega⟩

/-- The rest of the division of the screen by the tiles is left out. -/
def tiled (info : BlVideoInfo) (pic : Picture) : Picture := fun px py =>
  if px < 32 * (info.width / 32) ∧ py < 3 * (info.height / 3) then
    some (tileColor info (px / (info.width / 32)) (py / (info.height / 3)) %
      256 ^ info.bytesPerPixel)
  else pic px py

theorem step_fillRectangle (hrendering : σ.rendering = true) (color : Nat) (r : Rect) :
    σ.step info font (.fillRectangle color r) =
      { σ with
        renderer := σ.renderer.alter r.Covers fun _ _ _ =>
          some (color % 256 ^ info.bytesPerPixel)
        dirty := some (σ.dirty.elim r (·.hull r)) } := by
  simp [Screens.step, Screens.draw, Screens.mark, hrendering]

/-- Only the renderer's picture has become another one. -/
structure Rendered (σ σ' : Screens) (pic : Picture) : Prop where
  rendering : σ'.rendering = true
  renderer : σ'.renderer = pic
  back : σ'.back = σ.back
  front : σ'.front = σ.front

theorem tileRow_rendered (info : BlVideoInfo) (font : Nat → Nat → Byte)
    (hrendering : σ.rendering = true) (j n : Nat) :
    Rendered σ (((List.range n).map fun i => Drawing.fillRectangle (tileColor info i j)
      (tile info i j)).foldl (Screens.step info font) σ) fun px py =>
        if px < n * (info.width / 32) ∧ j * (info.height / 3) ≤ py ∧
            py < j * (info.height / 3) + info.height / 3 then
          some (tileColor info (px / (info.width / 32)) j % 256 ^ info.bytesPerPixel)
        else σ.renderer px py := by
  induction n with
  | zero =>
    refine ⟨hrendering, funext fun px => funext fun py => (if_neg fun h => ?_).symm, rfl, rfl⟩
    rw [Nat.zero_mul] at h
    exact absurd h.1 (Nat.not_lt_zero _)
  | succ n ih =>
    rw [List.range_succ, List.map_append, List.foldl_append, List.map_singleton, List.foldl_cons,
      List.foldl_nil, step_fillRectangle ih.rendering]
    refine ⟨ih.rendering, funext fun px => funext fun py => ?_, ih.back, ih.front⟩
    dsimp only
    rw [Picture.alter, ih.renderer, Nat.succ_mul n]
    have hcovers : (tile info n j).Covers px py ↔ n * (info.width / 32) ≤ px ∧
        px < n * (info.width / 32) + info.width / 32 ∧
        j * (info.height / 3) ≤ py ∧ py < j * (info.height / 3) + info.height / 3 := Iff.rfl
    by_cases hcovered : (tile info n j).Covers px py
    · have hin := hcovers.mp hcovered
      have hcol : px / (info.width / 32) = n := Nat.div_eq_of_lt_le hin.1 (by
        rw [Nat.succ_mul]
        exact hin.2.1)
      rw [if_pos hcovered, if_pos ⟨hin.2.1, hin.2.2⟩, hcol]
    · rw [if_neg hcovered]
      rw [hcovers] at hcovered
      exact if_congr (by omega) rfl rfl

theorem tiles_rendered (hrendering : σ.rendering = true) :
    Rendered σ ((tileCalls info).foldl (Screens.step info font) σ) (tiled info σ.renderer) := by
  have hrows : ∀ n, Rendered σ (((List.range n).flatMap fun j => (List.range 32).map fun i =>
      Drawing.fillRectangle (tileColor info i j) (tile info i j)).foldl (Screens.step info font) σ)
      fun px py =>
        if px < 32 * (info.width / 32) ∧ py < n * (info.height / 3) then
          some (tileColor info (px / (info.width / 32)) (py / (info.height / 3)) %
            256 ^ info.bytesPerPixel)
        else σ.renderer px py := by
    intro n
    induction n with
    | zero =>
      refine ⟨hrendering, funext fun px => funext fun py => (if_neg fun h => ?_).symm, rfl, rfl⟩
      rw [Nat.zero_mul] at h
      exact absurd h.2 (Nat.not_lt_zero _)
    | succ n ih =>
      rw [@List.range_succ n, List.flatMap_append, List.foldl_append, List.flatMap_singleton]
      have hrow := tileRow_rendered info font ih.rendering n 32
      refine ⟨hrow.rendering, hrow.renderer.trans (funext fun px => funext fun py => ?_),
        hrow.back.trans ih.back, hrow.front.trans ih.front⟩
      rw [ih.renderer, Nat.succ_mul n]
      by_cases hin : px < 32 * (info.width / 32) ∧ n * (info.height / 3) ≤ py ∧
          py < n * (info.height / 3) + info.height / 3
      · have hline : py / (info.height / 3) = n := Nat.div_eq_of_lt_le hin.2.1 (by
          rw [Nat.succ_mul]
          exact hin.2.2)
        rw [if_pos hin, if_pos ⟨hin.1, hin.2.2⟩, hline]
      · rw [if_neg hin]
        exact if_congr (by omega) rfl rfl
  exact hrows 3

/-! ## What an update will show -/

/-- The pixel will be copied by the next update. -/
def Screens.Dirty (σ : Screens) (px py : Nat) : Prop := ∃ r ∈ σ.dirty, r.Covers px py

/-- What is known of the target is shown, or will be by the next update. -/
def Screens.Synced (σ : Screens) : Prop :=
  ∀ px py, ∀ v ∈ σ.target px py, σ.Dirty px py ∨ σ.front px py = some v

section

variable {P : Nat → Nat → Prop} [∀ px py, Decidable (P px py)]
  {f : Nat → Nat → Option Nat → Option Nat} {r : Rect} {px py : Nat}

theorem Screens.target_draw (σ : Screens) : (σ.draw P f).target = σ.target.alter P f := by
  unfold draw target
  cases hrendering : σ.rendering <;> simp

theorem Screens.draw_dirty (σ : Screens) : (σ.draw P f).dirty = σ.dirty := by
  unfold draw
  split_ifs <;> rfl

theorem Screens.draw_front (σ : Screens) : (σ.draw P f).front = σ.front := by
  unfold draw
  split_ifs <;> rfl

theorem Screens.dirty_mark (h : σ.Dirty px py ∨ r.Covers px py) : (σ.mark r).Dirty px py := by
  rcases h with ⟨q, hq, hcovers⟩ | hcovers
  · refine ⟨q.hull r, ?_, Rect.covers_hull_left hcovers⟩
    rw [mark, hq]
    rfl
  · cases hdirty : σ.dirty with
    | none =>
      refine ⟨r, ?_, hcovers⟩
      rw [mark, hdirty]
      rfl
    | some q =>
      refine ⟨q.hull r, ?_, Rect.covers_hull_right hcovers⟩
      rw [mark, hdirty]
      rfl

/-- Whatever is drawn in a rectangle that is marked. -/
theorem Screens.Synced.draw (h : σ.Synced) : ((σ.draw r.Covers f).mark r).Synced := by
  intro px py v hv
  have htarget : ((σ.draw r.Covers f).mark r).target = σ.target.alter r.Covers f := σ.target_draw
  rw [htarget, Picture.alter] at hv
  have hdirty : ∀ px py, σ.Dirty px py → (σ.draw r.Covers f).Dirty px py := fun px py hd => by
    rw [Dirty, draw_dirty]
    exact hd
  split_ifs at hv with hcovers
  · exact .inl (dirty_mark (.inr hcovers))
  · refine (h px py v hv).imp (fun hd => dirty_mark (.inl (hdirty px py hd))) fun hfront => ?_
    change (σ.draw r.Covers f).front px py = _
    rw [draw_front]
    exact hfront

end

theorem Screens.Synced.fillRectangle (h : σ.Synced) (color : Nat) (r : Rect) :
    (σ.step info font (.fillRectangle color r)).Synced := h.draw

theorem Screens.Synced.tiles (h : σ.Synced) :
    ((tileCalls info).foldl (Screens.step info font) σ).Synced := by
  refine List.foldlRecOn (tileCalls info) _ h fun σ hσ call hcall => ?_
  obtain ⟨j, -, hcall⟩ := List.mem_flatMap.mp hcall
  obtain ⟨i, -, rfl⟩ := List.mem_map.mp hcall
  exact hσ.fillRectangle _ _

/-- After an update everything known of the target is shown. -/
theorem Screens.Synced.update (h : σ.Synced) :
    (σ.step info font .updateFromDoubleBuffer).target = σ.target ∧
      (σ.step info font .updateFromDoubleBuffer).dirty = none ∧
      ∀ px py, ∀ v ∈ σ.target px py,
        (σ.step info font .updateFromDoubleBuffer).front px py = some v := by
  cases hdirty : σ.dirty with
  | none =>
    have hstep : σ.step info font .updateFromDoubleBuffer = σ := by simp [step, hdirty]
    rw [hstep]
    refine ⟨rfl, hdirty, fun px py v hv => (h px py v hv).resolve_left fun hd => ?_⟩
    obtain ⟨r, hr, -⟩ := hd
    rw [hdirty] at hr
    cases hr
  | some r =>
    have hstep : σ.step info font .updateFromDoubleBuffer =
        { σ with
          dirty := none
          front := σ.front.alter r.Covers fun px py _ => σ.target px py } := by
      simp [step, hdirty]
    rw [hstep]
    refine ⟨rfl, rfl, fun px py v hv => ?_⟩
    dsimp only
    rw [Picture.alter]
    split_ifs with hcovers
    · exact hv
    · refine (h px py v hv).resolve_left ?_
      rintro ⟨q, hq, hcovers'⟩
      obtain rfl : r = q := Option.some.inj (hdirty.symm.trans hq)
      exact hcovers hcovers'

/-! ## Setting up -/

/-- The area of the shell, and what `bl_bitmap_set_shell_dimensions` gives. -/
def shellRect (info : BlVideoInfo) : Rect :=
  let h := info.height * 9 % 2 ^ 32 / 10
  ⟨info.width / 20, info.height / 20, info.width * 9 % 2 ^ 32 / 10, h - h % blFontCharacterHeight⟩

theorem blBitmapBlitShellBackground_eq (fb : BlFb) (m : Mem) :
    blBitmapBlitShellBackground fb m = (shellRect fb.info, blitBackground fb (shellRect fb.info).x
      (shellRect fb.info).y (shellRect fb.info).w (shellRect fb.info).h m) := rfl

theorem shellRect_onScreen (info : BlVideoInfo) : OnScreen info (shellRect info) := by
  unfold OnScreen shellRect
  dsimp only
  have hw := Nat.mod_le (info.width * 9) (2 ^ 32)
  have hh := Nat.mod_le (info.height * 9) (2 ^ 32)
  omega

/-- The tiles, and over them the shell's area. -/
def backdrop (info : BlVideoInfo) : Picture :=
  (tiled info fun _ _ => none).alter (shellRect info).Covers fun _ _ => Option.map (blended info)

def setupCalls (info : BlVideoInfo) : List Drawing :=
  .setRenderPtr :: tileCalls info ++ [.blitBackground (shellRect info), .switchFromRenderer]

theorem setup_inside (info : BlVideoInfo) : ∀ call ∈ setupCalls info, call.Inside info := by
  intro call hcall
  rw [setupCalls, List.cons_append, List.mem_cons, List.mem_append, List.mem_cons,
    List.mem_singleton] at hcall
  rcases hcall with rfl | hcall | rfl | rfl
  · trivial
  · exact tiles_inside info call hcall
  · exact shellRect_onScreen info
  · trivial

/-- The renderer keeps the backdrop, and text goes to the double buffer. -/
structure SetUp (info : BlVideoInfo) (σ : Screens) : Prop where
  rendering : σ.rendering = false
  renderer : σ.renderer = backdrop info
  back : ∀ px py, px < info.width → py < info.height → σ.back px py = backdrop info px py
  synced : σ.Synced

theorem setup_screens (info : BlVideoInfo) (font : Nat → Nat → Byte) :
    SetUp info ((setupCalls info).foldl (Screens.step info font) .fresh) := by
  have hstart : Screens.Synced { Screens.fresh with rendering := true } := fun px py v hv =>
    nomatch hv
  have htiles : Rendered { Screens.fresh with rendering := true } _ _ :=
    @tiles_rendered info font { Screens.fresh with rendering := true } rfl
  have hsynced : ((tileCalls info).foldl (Screens.step info font)
      { Screens.fresh with rendering := true }).Synced := hstart.tiles
  have hcalls : ∀ calls, (Drawing.setRenderPtr :: calls ++
      [Drawing.blitBackground (shellRect info), Drawing.switchFromRenderer]).foldl
        (Screens.step info font) .fresh =
        ((calls.foldl (Screens.step info font) { Screens.fresh with rendering := true }).step
          info font (.blitBackground (shellRect info))).step info font .switchFromRenderer := by
    intro calls
    rw [List.cons_append, List.foldl_cons, List.foldl_append]
    rfl
  rw [setupCalls, hcalls]
  generalize (tileCalls info).foldl (Screens.step info font)
    { Screens.fresh with rendering := true } = σ at htiles hsynced
  have hrendering := htiles.rendering
  have hfront : ∀ px py, σ.front px py = none := fun px py => congrFun₂ htiles.front px py
  have htarget : σ.target = tiled info fun _ _ => none := by
    rw [Screens.target, if_pos hrendering]
    exact htiles.renderer
  -- All that the tiles left is still to be shown.
  have hdirty : ∀ px py, ∀ v ∈ tiled info (fun _ _ => none) px py, σ.Dirty px py :=
    fun px py v hv => (hsynced px py v (htarget ▸ hv)).resolve_right fun h =>
      nomatch (hfront px py).symm.trans h
  have hknown : ∀ px py, ∀ v ∈ backdrop info px py, σ.Dirty px py := by
    intro px py v hv
    rw [backdrop, Picture.alter] at hv
    split_ifs at hv with hcovers
    · obtain ⟨c, hc, -⟩ := Option.map_eq_some_iff.mp hv
      exact hdirty px py c hc
    · exact hdirty px py v hv
  have hstep : (σ.step info font (.blitBackground (shellRect info))).step info font
      .switchFromRenderer =
        { σ with
          rendering := false
          renderer := backdrop info
          back := σ.back.alter (Rect.mk 0 0 info.width info.height).Covers
            fun px py _ => backdrop info px py } := by
    have hrenderer : σ.renderer.alter (shellRect info).Covers
        (fun _ _ => Option.map (blended info)) = backdrop info := by
      rw [htiles.renderer]
      rfl
    simp only [Screens.step, Screens.draw, hrendering, if_true, hrenderer]
  rw [hstep]
  have hback : ∀ px py, σ.back px py = none := fun px py => congrFun₂ htiles.back px py
  refine ⟨rfl, rfl, fun px py hx hy => if_pos ?_, fun px py v hv => .inl (hknown px py v ?_)⟩
  · simp only [Rect.Covers]
    omega
  · have hv : v ∈ (σ.back.alter (Rect.mk 0 0 info.width info.height).Covers
        fun px py _ => backdrop info px py) px py := hv
    rw [Picture.alter, hback] at hv
    split_ifs at hv with hcovers
    · exact hv
    · cases hv

/-! ## The channels of an area that is blended -/

/-- **Blending is between the colours**: in every channel a pixel of the area is not brighter than
the brighter of the paint and what was there, and not more than a step darker than the other. The
pixels around it stay. -/
theorem background_between (fb : BlFb) (fits : fb.info.width * fb.info.bytesPerPixel ≤ fb.info.pitch)
    (hdepth : fb.info.DepthOk) (hmasks : fb.info.MasksApart)
    (hbuffer : blFbGetTargetPtr fb + (fb.info.layout fits).extent ≤ 2 ^ 32) (r : Rect)
    (hr : OnScreen fb.info r) (m : Mem) :
    let m' := blitBackground fb r.x r.y r.w r.h m
    (∀ px py, r.Covers px py → ∀ mask ∈ [fb.info.red, fb.info.green, fb.info.blue],
      let paint := getChannel mask (blFbPrepareColor fb.info 0xf 0xf 0xf 0xf)
      let old := getChannel mask (blFbGetPixel fb m px py)
      let new := getChannel mask (blFbGetPixel fb m' px py)
      min paint old ≤ new + 1 ∧ new ≤ max paint old) ∧
    ∀ px py, px < fb.info.width → py < fb.info.height → ¬ r.Covers px py →
      blFbGetPixel fb m' px py = blFbGetPixel fb m px py := by
  have halter := blitBackground_altered fits hdepth hbuffer hr.1 hr.2 m
  have hinside : r.Inside (fb.info.layout fits) := hr
  refine ⟨fun px py hp mask hmask => ?_, fun px py hx hy hout => ?_⟩
  · obtain ⟨hx, hy⟩ := hinside.pixel hp
    have hchannel := @blend_channel fb.info mask 0xa0 hmasks hmask (by decide) (by decide)
      (blFbPrepareColor fb.info 0xf 0xf 0xf 0xf) (blFbGetPixel fb m px py)
    have hnew : blFbGetPixel fb (blitBackground fb r.x r.y r.w r.h m) px py =
        blended fb.info (blFbGetPixel fb m px py) := by
      rw [blFbGetPixel_eq fits hdepth hbuffer hx hy, blFbGetPixel_eq fits hdepth hbuffer hx hy]
      exact halter.pixel px py hp
    dsimp only
    rw [hnew, blended, hchannel]
    exact mix_between (by decide) (getChannel_lt mask _) (getChannel_lt mask _)
  · rw [blFbGetPixel_eq fits hdepth hbuffer hx hy, blFbGetPixel_eq fits hdepth hbuffer hx hy]
    exact halter.confined.colorAt hinside hx hout

theorem background_between_small :
    let m' := blitBackground smallFb 0 0 4 4 fun _ => 0
    getChannel smallInfo.red (blFbGetPixel smallFb m' 1 1) ≤ 0xf ∧
      blFbGetPixel smallFb m' 5 1 = blFbGetPixel smallFb (fun _ => 0) 5 1 := by
  have hmasks : smallInfo.MasksApart := by
    constructor <;>
      simp [BlVideoInfo.fields, BlVideoColorMask.field, BitFields.Field.Apart, smallInfo]
  obtain ⟨hin, hout⟩ := background_between smallFb (by decide) ⟨.inr (.inl rfl), rfl⟩ hmasks
    (by decide) ⟨0, 0, 4, 4⟩ ⟨by decide, by decide⟩ fun _ => 0
  have hred := (hin 1 1 (by simp [Rect.Covers]) smallInfo.red List.mem_cons_self).2
  exact ⟨hred.trans (by decide), hout 5 1 (by decide) (by decide) (by simp [Rect.Covers])⟩

end BootLoader.Video

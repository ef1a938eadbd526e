import BootLoader.Gui.Mirror
import BootLoader.Video.Backdrop

/-!
# Text on the screen (`core/gui/gui-app.c`)

The console with the glyphs that it draws: from the strings that are printed to the pixels of the
frame buffer.
-/

open ByteMemory

namespace BootLoader.Gui

open Raster Video

/-! ## The glyphs of a flush -/

/-- The calls of `bl_fb_blit_glyph` in the loop of `bl_gui_app_flush_page_buffers`, with the
position. -/
def flushGlyphs (size : ShellSize) (vector : Nat → Byte) (endPos : Nat) :
    Nat → Nat → List (Byte × Nat)
  | 0, _ => []
  | fuel + 1, pos =>
    if pos < endPos then
      (vector pos, pos) ::
        flushGlyphs size vector endPos fuel (skipLine size vector ((pos + 1) % 2 ^ 32))
    else []

def cleanGlyphs (size : ShellSize) : List (Byte × Nat) :=
  let pos := blGuiAppShellPos size ⟨0, 0⟩
  let endPos := blGuiAppShellPos size ⟨size.rows - 1, size.cols - 1⟩
  (List.range' pos (endPos - pos)).map fun pos => (space, pos)

def pageGlyphs (size : ShellSize) (gui : BlGui) : List (Byte × Nat) :=
  let page := gui.page gui.active
  let pos := blGuiAppShellPos size page.updatedLine
  let endPos := blGuiAppShellPos size page.currentLine
  (if gui.shouldScroll then cleanGlyphs size else []) ++
    flushGlyphs size page.vector endPos (endPos + 1) pos

/-! ## Drawing them -/

/-- Where the cell of a position is. -/
def cellRect (shell : Rect) (size : ShellSize) (pos : Nat) : Rect :=
  ⟨shell.x + pos % size.cols * blFontCharacterWidth,
    shell.y + pos / size.cols * blFontCharacterHeight, blFontCharacterWidth, blFontCharacterHeight⟩

def cellDrawing (shell : Rect) (size : ShellSize) (g : Byte × Nat) : Drawing :=
  .blitGlyph g.1 (cellRect shell size g.2).x (cellRect shell size g.2).y

def printCalls (shell : Rect) (size : ShellSize) (gui : BlGui) (s : List Byte) : List Drawing :=
  (pageGlyphs size (blGuiAppUpdatePages size s gui)).map (cellDrawing shell size)

/-- `bl_gui_app_print_str`. `prepared` is the variable `gui_prepared`. -/
def printStrOn (font : Nat → Nat → Byte) (background : Nat) (shell : Rect) (size : ShellSize)
    (prepared : Bool) (s : List Byte) : BlGui × BlFb × Mem → Option (BlGui × BlFb × Mem)
  | (gui, fb, m) => (blGuiAppPrintStr size gui s).map fun gui' =>
    (gui', runDrawings font background (printCalls shell size gui s ++
      if prepared then [.updateFromDoubleBuffer] else []) fb m)

def printAllOn (font : Nat → Nat → Byte) (background : Nat) (shell : Rect) (size : ShellSize)
    (prepared : Bool) : List (List Byte) → BlGui × BlFb × Mem → Option (BlGui × BlFb × Mem)
  | [], state => some state
  | s :: rest, state =>
    (printStrOn font background shell size prepared s state).bind
      (printAllOn font background shell size prepared rest)

/-- `BOOT_LOADER_PROLOGUE`. -/
def bootLoaderPrologue : List Byte :=
  [0x7e, 0x7e, 0x7e, 0x42, 0x6f, 0x6f, 0x74, 0x20, 0x4c, 0x6f, 0x61, 0x64, 0x65, 0x72, 0x20, 0x53,
    0x68, 0x65, 0x6c, 0x6c, 0x7e, 0x7e, 0x7e, newline]

/-- The strings of `bl_gui_app_print_prologue`. The `sizeof` counts the terminator. -/
def prologue (cols : Nat) : List (List Byte) :=
  [newline] :: List.replicate ((cols + 2 ^ 32 - 25) % 2 ^ 32 / 2) [space] ++ [bootLoaderPrologue]

/-- `none`: there is no room for a console. -/
def shellSize (shell : Rect) : Option ShellSize :=
  let rows := shell.h / blFontCharacterHeight
  let cols := shell.w / blFontCharacterWidth
  if h : 1 ≤ rows ∧ 2 ≤ cols ∧ (rows + 1) * cols < 2 ^ 32 then
    some ⟨rows, cols, h.1, h.2.1, h.2.2⟩
  else none

structure Console where
  background : Nat
  shell : Rect
  size : ShellSize
  gui : BlGui
  fb : BlFb
  m : Mem

/-- `bl_gui_app_setup`, where its own structure and the two pages are allocated; `old` is what the
pages held. -/
def blGuiAppSetup (font : Nat → Nat → Byte) (heapAlloc : Nat → Nat)
    (old : Bool → BlGuiShellContent) (fb : BlFb) (m : Mem) : Option Console :=
  match blBitmapSetBackground heapAlloc (some 0) fb m with
  | (.success, some background, fb, m) =>
    let (shell, m) := blBitmapBlitShellBackground fb m
    (shellSize shell).bind fun size =>
      let (fb, m) := blFbSwitchFromRenderer fb m
      (printAllOn font background shell size false (prologue size.cols)
        (start size old, fb, m)).map fun (gui, fb, m) =>
          let (fb, m) := blFbUpdateFromDoubleBuffer fb m
          ⟨background, shell, size, gui, fb, m⟩
  | _ => none

/-- What is printed once the GUI is prepared. -/
def Console.print (font : Nat → Nat → Byte) (strings : List (List Byte)) (console : Console) :
    Option Console :=
  (printAllOn font console.background console.shell console.size true strings
    (console.gui, console.fb, console.m)).map fun (gui, fb, m) => { console with gui, fb, m }

variable {size : ShellSize} {gui gui' : BlGui} {drawn : Nat → Nat → Option Byte}
  {vector : Nat → Byte} {page : BlGuiShellContent} {s : List Byte} {l l' : List (Byte × Nat)}

/-! ## The map of glyphs is what was drawn last -/

def drawnBy (size : ShellSize) (l : List (Byte × Nat)) (drawn : Nat → Nat → Option Byte) :
    Nat → Nat → Option Byte :=
  l.foldl (fun drawn g => blitGlyph size g.1 g.2 drawn) drawn

theorem flushFrom_glyphs {endPos fuel pos : Nat} {drawn' : Nat → Nat → Option Byte}
    (h : flushFrom size vector endPos fuel pos drawn = some drawn') :
    drawn' = drawnBy size (flushGlyphs size vector endPos fuel pos) drawn := by
  induction fuel generalizing pos drawn with
  | zero => exact nomatch h
  | succ fuel ih =>
    rw [flushFrom] at h
    rw [flushGlyphs]
    split_ifs at h ⊢ with hmore
    · exact ih h
    · exact (Option.some.inj h).symm

theorem clean_drawn (size : ShellSize) (gui : BlGui) :
    (blGuiAppCleanShellScreen size gui).drawn = drawnBy size (cleanGlyphs size) gui.drawn := by
  rw [drawnBy, cleanGlyphs, List.foldl_map]
  rfl

theorem flush_drawn (h : blGuiAppFlushPageBuffers size gui = some gui') :
    gui'.drawn = drawnBy size (pageGlyphs size gui) gui.drawn := by
  unfold blGuiAppFlushPageBuffers at h
  obtain ⟨drawn, hflush, rfl⟩ := Option.map_eq_some_iff.mp h
  rw [flushFrom_glyphs hflush, pageGlyphs, drawnBy, drawnBy, List.foldl_append]
  cases hscroll : gui.shouldScroll with
  | true =>
    simp only [if_true, clean_drawn, drawnBy]
    rfl
  | false =>
    simp only [Bool.false_eq_true, if_false]
    rfl

theorem update_drawn (size : ShellSize) (s : List Byte) (gui : BlGui) :
    (blGuiAppUpdatePages size s gui).drawn = gui.drawn := by
  have hnext : ∀ gui, (nextLine size gui).drawn = gui.drawn := fun gui => by
    unfold nextLine
    dsimp only
    split_ifs <;> rfl
  induction s generalizing gui with
  | nil => rfl
  | cons c s ih =>
    rw [blGuiAppUpdatePages]
    split_ifs
    · rfl
    · exact ih _
    · exact (ih _).trans (hnext gui)

/-! ## A glyph that cannot be seen comes to blank cells only -/

/-- `bl_fb_blit_glyph` draws it. -/
def Visible (c : Byte) : Prop := ¬ c.toInt < 0x20

instance (c : Byte) : Decidable (Visible c) := inferInstanceAs (Decidable (¬ _))

def Clear (size : ShellSize) : List (Byte × Nat) → (Nat → Nat → Option Byte) → Prop
  | [], _ => True
  | g :: rest, drawn =>
    (g.2 < size.cells ∧ (Visible g.1 ∨ Blank (glyph size drawn g.2))) ∧
      Clear size rest (blitGlyph size g.1 g.2 drawn)

theorem Clear.append (h : Clear size l drawn) (h' : Clear size l' (drawnBy size l drawn)) :
    Clear size (l ++ l') drawn := by
  induction l generalizing drawn with
  | nil => exact h'
  | cons g l ih => exact ⟨h.1, ih h.2 h'⟩

theorem cleanGlyphs_clear (size : ShellSize) (drawn : Nat → Nat → Option Byte) :
    Clear size (cleanGlyphs size) drawn := by
  have hspaces : ∀ (l : List Nat) drawn, (∀ pos ∈ l, pos < size.cells) →
      Clear size (l.map fun pos => (space, pos)) drawn := by
    intro l
    induction l with
    | nil => exact fun _ _ => trivial
    | cons pos l ih =>
      have hspace : Visible space := by decide
      exact fun drawn h => ⟨⟨h pos List.mem_cons_self, .inl hspace⟩,
        ih _ fun p hp => h p (List.mem_cons_of_mem _ hp)⟩
  have hstart : blGuiAppShellPos size ⟨0, 0⟩ = 0 := by simp [blGuiAppShellPos]
  unfold cleanGlyphs
  rw [hstart, size.endPos]
  refine hspaces _ drawn fun pos hpos => ?_
  have hin := (List.mem_range'_1.mp hpos).2
  omega

theorem flushGlyphs_clear (hlaid : Laid size page) {fuel pos : Nat}
    (hbehind : ∀ p, pos ≤ p → p < size.cells → Blank (glyph size drawn p)) :
    Clear size (flushGlyphs size page.vector (page.currentLine.pos size) fuel pos) drawn := by
  have hcur := hlaid.inside.pos_lt
  induction fuel generalizing pos drawn with
  | zero => trivial
  | succ fuel ih =>
    rw [flushGlyphs]
    split_ifs with hmore
    · have hcells := size.cells_add_cols
      rw [Nat.mod_eq_of_lt (show pos + 1 < 2 ^ 32 by omega)]
      obtain ⟨hskip, -, -⟩ := skipLine_spec hlaid (show pos + 1 < size.cells by omega)
      refine ⟨⟨show pos < size.cells by omega, .inr (hbehind pos le_rfl (by omega))⟩,
        ih fun p hp hin => ?_⟩
      rw [glyph_blit, if_neg (by omega)]
      exact hbehind p (by omega) hin
    · trivial

theorem Pending.clear (h : Pending size gui) : Clear size (pageGlyphs size gui) gui.drawn := by
  rw [pageGlyphs, h.laid.inside.shellPos, h.updated.shellPos]
  cases hscroll : gui.shouldScroll with
  | true =>
    refine (cleanGlyphs_clear size gui.drawn).append (flushGlyphs_clear h.laid fun p _ hp => ?_)
    have hclean := glyph_cleanShellScreen size gui p
    rw [clean_drawn] at hclean
    rw [hclean]
    split_ifs with hlt
    · exact .inr rfl
    · rw [show p = size.cells - 1 by omega]
      exact .inl h.lastCell
  | false => exact flushGlyphs_clear h.laid (h.drawn hscroll).behind

/-! ## The pixels of the cells -/

/-- A mode and a font with which text looks as it should. -/
structure Plain (info : BlVideoInfo) (font : Nat → Nat → Byte) : Prop where
  two : info.bytesPerPixel = 2
  white : blFbPrepareColor info 0xff 0xff 0xff 0xff < 2 ^ 16
  blank : ∀ j, font space.toNat j = 0

/-- White where the font has a bit, else the background. -/
def textColor (info : BlVideoInfo) (font : Nat → Nat → Byte) (c : Byte) (i j color : Nat) : Nat :=
  if Visible c ∧ (font c.toNat j).getLsbD (7 - i) then blFbPrepareColor info 0xff 0xff 0xff 0xff
  else color

variable {info : BlVideoInfo} {font : Nat → Nat → Byte} {shell : Rect} {bg back : Picture}
  {px py pos pos' : Nat} {c : Byte} {σ : Screens}

/-- A pixel of a cell, by the glyph that was drawn last. -/
def shownColor (info : BlVideoInfo) (font : Nat → Nat → Byte) (g : Option Byte) (i j color : Nat) :
    Nat :=
  match g with
  | none => color
  | some c => textColor info font c i j color

theorem shownColor_blank (h : Plain info font) {g : Option Byte} (hg : Blank g) (i j color : Nat) :
    shownColor info font g i j color = color := by
  rcases hg with rfl | rfl
  · rfl
  · refine if_neg fun hbit => ?_
    rw [h.blank] at hbit
    exact absurd hbit.2 (by simp)

theorem shownColor_invisible (hc : ¬ Visible c) (i j color : Nat) :
    shownColor info font (some c) i j color = color := if_neg fun h => hc h.1

theorem glyphColor_plain (h : Plain info font) (hc : Visible c) {r : Rect}
    (hp : r.Covers px py) {v : Nat} (hv : v ∈ bg px py) :
    glyphColor info font c bg r.x r.y px py =
      some (shownColor info font (some c) (px - r.x) (py - r.y) v) := by
  have hx : r.x + (px - r.x) = px := Nat.add_sub_cancel' hp.1
  have hnarrow : ¬ (info.bytesPerPixel = 2 ∧ 2 ^ 16 ≤ blFbPrepareColor info 0xff 0xff 0xff 0xff) :=
    fun hwide => absurd h.white (Nat.not_lt.mpr hwide.2)
  have hthree : info.bytesPerPixel ≠ 3 := by rw [h.two]; decide
  have hfour : info.bytesPerPixel ≠ 4 := by rw [h.two]; decide
  rw [glyphColor, if_neg hnarrow, if_neg hthree, if_neg hthree, if_neg hfour, hx]
  rw [shownColor, textColor]
  split_ifs with hbit hboth hboth
  · rfl
  · exact absurd ⟨hc, hbit⟩ hboth
  · exact absurd hboth.2 hbit
  · exact hv

/-- What the double buffer shows: the last glyph of every cell over the background. -/
structure Cells (info : BlVideoInfo) (font : Nat → Nat → Byte) (shell : Rect) (size : ShellSize)
    (bg : Picture) (drawn : Nat → Nat → Option Byte) (back : Picture) : Prop where
  inside : ∀ pos < size.cells, ∀ px py, (cellRect shell size pos).Covers px py → ∀ v ∈ bg px py,
    back px py = some (shownColor info font (glyph size drawn pos)
      (px - (cellRect shell size pos).x) (py - (cellRect shell size pos).y) v)
  outside : ∀ px py, (∀ pos < size.cells, ¬ (cellRect shell size pos).Covers px py) →
    ∀ v ∈ bg px py, back px py = some v

theorem cellRect_inj (h : (cellRect shell size pos).Covers px py)
    (h' : (cellRect shell size pos').Covers px py) : pos = pos' := by
  simp only [Rect.Covers, cellRect, blFontCharacterWidth, blFontCharacterHeight] at h h'
  have hcolumn : pos % size.cols = pos' % size.cols := by omega
  have hline : pos / size.cols = pos' / size.cols := by omega
  rw [← Nat.div_add_mod pos size.cols, ← Nat.div_add_mod pos' size.cols, hcolumn, hline]

/-- One glyph. -/
theorem Cells.blit (h : Cells info font shell size bg drawn back) (hplain : Plain info font)
    (hpos : pos < size.cells) (hclear : Visible c ∨ Blank (glyph size drawn pos)) :
    Cells info font shell size bg (blitGlyph size c pos drawn)
      (if Visible c then back.alter (cellRect shell size pos).Covers fun px py _ =>
        glyphColor info font c bg (cellRect shell size pos).x (cellRect shell size pos).y px py
      else back) := by
  split_ifs with hc
  · refine ⟨fun p hp px py hcovers v hv => ?_, fun px py hout v hv => ?_⟩
    · rw [glyph_blit, Picture.alter]
      by_cases heq : p = pos
      · subst heq
        rw [if_pos hcovers, if_pos rfl]
        exact glyphColor_plain hplain hc hcovers hv
      · rw [if_neg fun hold => heq (cellRect_inj hcovers hold), if_neg heq]
        exact h.inside p hp px py hcovers v hv
    · rw [Picture.alter, if_neg (hout pos hpos)]
      exact h.outside px py hout v hv
  · refine ⟨fun p hp px py hcovers v hv => ?_, h.outside⟩
    rw [glyph_blit, h.inside p hp px py hcovers v hv]
    split_ifs with heq
    · subst heq
      rw [shownColor_invisible hc, shownColor_blank hplain (hclear.resolve_left hc)]
    · rfl

/-! ## The pictures behind the console -/

/-- Text goes to the double buffer, over the backdrop that the renderer keeps. -/
structure Showing (info : BlVideoInfo) (font : Nat → Nat → Byte) (shell : Rect) (size : ShellSize)
    (drawn : Nat → Nat → Option Byte) (σ : Screens) : Prop where
  rendering : σ.rendering = false
  renderer : σ.renderer = backdrop info
  cells : Cells info font shell size (backdrop info) drawn σ.back
  synced : σ.Synced

theorem Showing.glyph (h : Showing info font shell size drawn σ) (hplain : Plain info font)
    (hpos : pos < size.cells) (hclear : Visible c ∨ Blank (Gui.glyph size drawn pos)) :
    Showing info font shell size (blitGlyph size c pos drawn)
      (σ.step info font (cellDrawing shell size (c, pos))) := by
  have hcells := h.cells.blit hplain hpos hclear
  rw [cellDrawing, Screens.step]
  by_cases hc : c.toInt < 0x20
  · rw [if_neg (show ¬ Visible c from fun hv => hv hc)] at hcells
    rw [if_pos hc]
    exact ⟨h.rendering, h.renderer, hcells, h.synced⟩
  · rw [if_pos (show Visible c from hc)] at hcells
    rw [if_neg hc]
    have hdraw : ∀ f, σ.draw (cellRect shell size pos).Covers f =
        { σ with back := σ.back.alter (cellRect shell size pos).Covers f } := fun f => by
      rw [Screens.draw, h.rendering]
      rfl
    have hsynced := h.synced.draw (r := cellRect shell size pos) (f := fun px py _ =>
      if σ.rendering then none
      else glyphColor info font c σ.renderer (cellRect shell size pos).x
        (cellRect shell size pos).y px py)
    refine ⟨?_, ?_, ?_, hsynced⟩
    · exact (congrArg Screens.rendering (hdraw _)).trans h.rendering
    · exact (congrArg Screens.renderer (hdraw _)).trans h.renderer
    · have hback := congrArg Screens.back (hdraw fun px py _ =>
        if σ.rendering then none
        else glyphColor info font c σ.renderer (cellRect shell size pos).x
          (cellRect shell size pos).y px py)
      rw [h.rendering, h.renderer] at hback
      change Cells info font shell size (backdrop info) _ (σ.draw _ _).back
      rw [h.rendering, h.renderer]
      exact hback ▸ hcells

theorem Showing.glyphs (h : Showing info font shell size drawn σ) (hplain : Plain info font)
    (hclear : Clear size l drawn) :
    Showing info font shell size (drawnBy size l drawn)
      ((l.map (cellDrawing shell size)).foldl (Screens.step info font) σ) := by
  induction l generalizing drawn σ with
  | nil => exact h
  | cons g l ih => exact ih (h.glyph hplain hclear.1.1 hclear.1.2) hclear.2

theorem Showing.update (h : Showing info font shell size drawn σ) :
    Showing info font shell size drawn (σ.step info font .updateFromDoubleBuffer) ∧
      (σ.step info font .updateFromDoubleBuffer).dirty = none := by
  obtain ⟨htarget, hdirty, hfront⟩ := @Screens.Synced.update info font σ h.synced
  have hsame : (σ.step info font .updateFromDoubleBuffer).rendering = σ.rendering ∧
      (σ.step info font .updateFromDoubleBuffer).renderer = σ.renderer ∧
      (σ.step info font .updateFromDoubleBuffer).back = σ.back := by
    rw [Screens.step]
    cases σ.dirty <;> exact ⟨rfl, rfl, rfl⟩
  refine ⟨⟨hsame.1.trans h.rendering, hsame.2.1.trans h.renderer, ?_, fun px py v hv => .inr ?_⟩,
    hdirty⟩
  · rw [hsame.2.2]
    exact h.cells
  · rw [htarget] at hv
    exact hfront px py v hv

theorem clear_inside (h : Clear size l drawn) : ∀ g ∈ l, g.2 < size.cells := by
  induction l generalizing drawn with
  | nil => exact fun g hg => absurd hg List.not_mem_nil
  | cons g l ih =>
    intro g' hg'
    rcases List.mem_cons.mp hg' with rfl | hg'
    · exact h.1.1
    · exact ih h.2 g' hg'

/-- All cells are inside the area. -/
structure Fits (info : BlVideoInfo) (shell : Rect) (size : ShellSize) : Prop where
  onScreen : OnScreen info shell
  rows : size.rows * blFontCharacterHeight ≤ shell.h
  cols : size.cols * blFontCharacterWidth ≤ shell.w

theorem Fits.cell (h : Fits info shell size) (hpos : pos < size.cells) :
    OnScreen info (cellRect shell size pos) := by
  obtain ⟨hscreen, hrows, hcols⟩ := h
  have hcolumn : (pos % size.cols + 1) * blFontCharacterWidth ≤ size.cols * blFontCharacterWidth :=
    Nat.mul_le_mul_right _ (Nat.mod_lt _ size.cols_pos)
  have hline : (pos / size.cols + 1) * blFontCharacterHeight ≤
      size.rows * blFontCharacterHeight :=
    Nat.mul_le_mul_right _ ((Nat.div_lt_iff_lt_mul size.cols_pos).mpr hpos)
  rw [Nat.succ_mul] at hcolumn hline
  unfold OnScreen at hscreen ⊢
  unfold cellRect
  dsimp only
  omega

/-! ## Printing -/

variable {fits : info.width * info.bytesPerPixel ≤ info.pitch} {renderer back : Nat}
  {prepared : Bool} {fb : BlFb} {m : Mem}

/-- The console between two calls. Once it is prepared every call ends with an update. -/
structure Live (info : BlVideoInfo) (fits : info.width * info.bytesPerPixel ≤ info.pitch)
    (font : Nat → Nat → Byte) (renderer back : Nat) (shell : Rect) (size : ShellSize)
    (prepared : Bool) (gui : BlGui) (fb : BlFb) (m : Mem) : Prop where
  flushed : Flushed size gui
  shows : ∃ σ, Showing info font shell size gui.drawn σ ∧ fb = σ.fb info renderer back ∧
    Shown (info.layout fits) renderer back info.frameBuffer σ m ∧
    (prepared = true → σ.dirty = none)

theorem Live.printStr (h : Live info fits font renderer back shell size prepared gui fb m)
    (hplain : Plain info font) (hdepth : info.DepthOk)
    (hsep : Separate (info.layout fits) renderer back info.frameBuffer)
    (hfits : Fits info shell size) (s : List Byte) :
    ∃ gui' fb' m', printStrOn font renderer shell size prepared s (gui, fb, m) =
        some (gui', fb', m') ∧
      Live info fits font renderer back shell size prepared gui' fb' m' := by
  obtain ⟨σ, hshowing, rfl, hshown, -⟩ := h.shows
  obtain ⟨gui', hprint, hflushed⟩ := h.flushed.printStr s
  have hclear := (h.flushed.pending.update s).clear
  have hdrawn : gui'.drawn =
      drawnBy size (pageGlyphs size (blGuiAppUpdatePages size s gui)) gui.drawn := by
    rw [flush_drawn hprint, update_drawn]
  rw [update_drawn] at hclear
  have htext := hshowing.glyphs hplain hclear
  rw [← hdrawn] at htext
  have hcalls : ∀ call ∈ printCalls shell size gui s ++
      (if prepared then [Drawing.updateFromDoubleBuffer] else []), call.Inside info := by
    intro call hcall
    rcases List.mem_append.mp hcall with hglyph | hupdate
    · obtain ⟨g, hg, rfl⟩ := List.mem_map.mp hglyph
      exact hfits.cell (clear_inside hclear g hg)
    · split_ifs at hupdate
      · obtain rfl := List.mem_singleton.mp hupdate
        trivial
      · cases hupdate
  obtain ⟨m', hrun, hshown'⟩ := drawings_shown info fits hdepth font renderer back hsep _ hcalls σ m
    hshown
  refine ⟨gui', _, m', ?_, hflushed, _, ?_, rfl, hshown', fun hprepared => ?_⟩
  · rw [printStrOn, hprint, Option.map_some, hrun]
  · rw [List.foldl_append]
    cases prepared with
    | true => exact htext.update.1
    | false => exact htext
  · rw [List.foldl_append, hprepared]
    exact htext.update.2

theorem Live.printAll (h : Live info fits font renderer back shell size prepared gui fb m)
    (hplain : Plain info font) (hdepth : info.DepthOk)
    (hsep : Separate (info.layout fits) renderer back info.frameBuffer)
    (hfits : Fits info shell size) (strings : List (List Byte)) :
    ∃ gui' fb' m', printAllOn font renderer shell size prepared strings (gui, fb, m) =
        some (gui', fb', m') ∧
      Live info fits font renderer back shell size prepared gui' fb' m' := by
  induction strings generalizing gui fb m with
  | nil => exact ⟨gui, fb, m, rfl, h⟩
  | cons s rest ih =>
    obtain ⟨gui₁, fb₁, m₁, hprint, h₁⟩ := h.printStr hplain hdepth hsep hfits s
    obtain ⟨gui₂, fb₂, m₂, hrest, h₂⟩ := ih h₁
    exact ⟨gui₂, fb₂, m₂, by rw [printAllOn, hprint]; exact hrest, h₂⟩

/-- The double buffer is prepared by the calls of `setupCalls`. -/
theorem setup_run (font : Nat → Nat → Byte) (renderer : Nat) (fb : BlFb) (m : Mem) :
    runDrawings font renderer (setupCalls fb.info) fb m =
      let background := blBitmapSetBackgroundImageDefault (blFbSetRenderPtr fb renderer) m
      blFbSwitchFromRenderer background.1
        (blBitmapBlitShellBackground background.1 background.2).2 := by
  have hinfo : (blFbSetRenderPtr fb renderer).info = fb.info := by
    unfold blFbSetRenderPtr
    split_ifs <;> rfl
  have hsame := (blBitmapSetBackgroundImageDefault_same (blFbSetRenderPtr fb renderer) m).1
  have htiles :=
    blBitmapSetBackgroundImageDefault_run font renderer (blFbSetRenderPtr fb renderer) m
  have hcalls : ∀ calls, runDrawings font renderer (Drawing.setRenderPtr :: calls ++
      [Drawing.blitBackground (shellRect fb.info), Drawing.switchFromRenderer]) fb m =
        let background := runDrawings font renderer calls (blFbSetRenderPtr fb renderer) m
        blFbSwitchFromRenderer background.1 (blitBackground background.1 (shellRect fb.info).x
          (shellRect fb.info).y (shellRect fb.info).w (shellRect fb.info).h background.2) := by
    intro calls
    rw [runDrawings, List.cons_append, List.foldl_cons, List.foldl_append]
    rfl
  rw [hinfo] at hsame htiles
  rw [setupCalls, hcalls, ← htiles]
  dsimp only
  rw [blBitmapBlitShellBackground_eq, hsame]

/-! ## From the start -/

theorem shellSize_fits (h : shellSize (shellRect info) = some size) :
    Fits info (shellRect info) size := by
  unfold shellSize at h
  dsimp only at h
  split_ifs at h
  obtain rfl := Option.some.inj h
  exact ⟨shellRect_onScreen info, Nat.div_mul_le_self _ _, Nat.div_mul_le_self _ _⟩

theorem backdrop_onScreen {v : Nat} (hv : v ∈ backdrop info px py) :
    px < info.width ∧ py < info.height := by
  have htiled : ∀ v ∈ tiled info (fun _ _ => none) px py, px < info.width ∧ py < info.height := by
    intro v hv
    unfold tiled at hv
    split_ifs at hv with hin
    · omega
    · cases hv
  rw [backdrop, Picture.alter] at hv
  split_ifs at hv
  · obtain ⟨c, hc, -⟩ := Option.map_eq_some_iff.mp hv
    exact htiled c hc
  · exact htiled v hv

/-- Nothing is drawn yet, and the backdrop is in both buffers. -/
theorem showing_setUp (h : SetUp info σ) :
    Showing info font shell size (fun _ _ => none) σ := by
  refine ⟨h.rendering, h.renderer, ⟨fun pos _ px py _ v hv => ?_, fun px py _ v hv => ?_⟩, h.synced⟩
  · obtain ⟨hx, hy⟩ := backdrop_onScreen hv
    exact (h.back px py hx hy).trans hv
  · obtain ⟨hx, hy⟩ := backdrop_onScreen hv
    exact (h.back px py hx hy).trans hv

theorem shownColor_shows {g : Option Byte} (hplain : Plain info font) (h : Shows g c)
    (i j color : Nat) :
    shownColor info font g i j color = textColor info font c i j color := by
  rcases h with rfl | ⟨rfl, hblank⟩
  · rfl
  · have hzero : ¬ Visible 0 := by decide
    rw [shownColor_blank hplain hblank]
    exact (shownColor_invisible hzero i j color).symm

/-- `bl_gui_app_setup` ends with a console that is prepared. -/
theorem blGuiAppSetup_live {video : Option (BlVideoInfo → BlStatus × BlVideoInfo)}
    {heapAlloc heapAlloc' : Nat → Nat} {fb₀ : BlFb}
    (hinit : blFbInit video heapAlloc fb₀ = (.success, fb))
    (fits : fb.info.width * fb.info.bytesPerPixel ≤ fb.info.pitch) (hdepth : fb.info.DepthOk)
    (hplain : Plain fb.info font) (hsize : shellSize (shellRect fb.info) = some size)
    (hsep : Separate (fb.info.layout fits) (heapAlloc' (bufferSize fb.info)) fb.doubleBuffer
      fb.info.frameBuffer) (old : Bool → BlGuiShellContent) (m : Mem) :
    ∃ gui fb' m', blGuiAppSetup font heapAlloc' old fb m =
        some ⟨heapAlloc' (bufferSize fb.info), shellRect fb.info, size, gui, fb', m'⟩ ∧
      Live fb.info fits font (heapAlloc' (bufferSize fb.info)) fb.doubleBuffer (shellRect fb.info)
        size true gui fb' m' := by
  have hfits := shellSize_fits hsize
  have hfresh : fb = Screens.fresh.fb fb.info (heapAlloc' (bufferSize fb.info)) fb.doubleBuffer :=
    (blFbInit_success hinit).1
  have hbackground : blBitmapSetBackground heapAlloc' (some 0) fb m =
      (.success, some (heapAlloc' (bufferSize fb.info)), blBitmapSetBackgroundImageDefault
        (blFbSetRenderPtr fb (heapAlloc' (bufferSize fb.info))) m) := if_neg hsep.renderer_ne
  rw [blGuiAppSetup, hbackground]
  generalize heapAlloc' (bufferSize fb.info) = renderer at hsep hfresh ⊢
  -- The backdrop.
  obtain ⟨m₁, hrun, hshown₁⟩ := drawings_shown fb.info fits hdepth font renderer fb.doubleBuffer
    hsep (setupCalls fb.info) (setup_inside fb.info) .fresh m (shown_fresh _ _ _ _ m)
  rw [← hfresh, setup_run] at hrun
  have hsetUp := setup_screens fb.info font
  generalize
    (setupCalls fb.info).foldl (Screens.step fb.info font) .fresh = σ₁ at hrun hshown₁ hsetUp
  have hlive₁ : Live fb.info fits font renderer fb.doubleBuffer (shellRect fb.info) size false
      (start size old) (σ₁.fb fb.info renderer fb.doubleBuffer) m₁ :=
    ⟨flushed_start size old, σ₁, showing_setUp hsetUp, rfl, hshown₁, nofun⟩
  -- The prologue, and the first update.
  obtain ⟨gui, fb₂, m₂, hprint, hlive₂⟩ :=
    hlive₁.printAll hplain hdepth hsep hfits (prologue size.cols)
  obtain ⟨σ₂, hshowing₂, rfl, hshown₂, -⟩ := hlive₂.shows
  obtain ⟨m₃, hupdate, hshown₃⟩ := @matches_updateFromDoubleBuffer fb.info fits renderer
    fb.doubleBuffer σ₂ m₂ font hsep hshown₂
  have hinfo : (blBitmapSetBackgroundImageDefault (blFbSetRenderPtr fb renderer) m).1.info =
      fb.info := by
    rw [(blBitmapSetBackgroundImageDefault_same _ m).1, blFbSetRenderPtr, if_pos hsep.renderer_ne]
  refine ⟨gui, _, m₃, ?_, hlive₂.flushed, _, hshowing₂.update.1, rfl, hshown₃,
    fun _ => hshowing₂.update.2⟩
  dsimp only at hrun ⊢
  rw [blBitmapBlitShellBackground_eq] at hrun ⊢
  dsimp only at hrun ⊢
  rw [hinfo] at hrun ⊢
  rw [hsize, Option.bind_some, hrun]
  dsimp only
  rw [hprint, Option.map_some]
  dsimp only
  rw [Drawing.run] at hupdate
  rw [hupdate]

theorem cell_in_shell (h : Fits info shell size) (hpos : pos < size.cells)
    (hp : (cellRect shell size pos).Covers px py) : shell.Covers px py := by
  obtain ⟨-, hrows, hcols⟩ := h
  have hcolumn : (pos % size.cols + 1) * blFontCharacterWidth ≤ size.cols * blFontCharacterWidth :=
    Nat.mul_le_mul_right _ (Nat.mod_lt _ size.cols_pos)
  have hline : (pos / size.cols + 1) * blFontCharacterHeight ≤
      size.rows * blFontCharacterHeight :=
    Nat.mul_le_mul_right _ ((Nat.div_lt_iff_lt_mul size.cols_pos).mpr hpos)
  rw [Nat.succ_mul] at hcolumn hline
  simp only [Rect.Covers, cellRect] at hp ⊢
  omega

/-- The frame buffer of a console that is prepared. -/
theorem Live.frameBuffer (h : Live info fits font renderer back shell size true gui fb m) {v : Nat}
    (hv : v ∈ backdrop info px py) :
    (∀ pos < size.cells, (cellRect shell size pos).Covers px py →
      pixelValue info m info.frameBuffer px py = shownColor info font (glyph size gui.drawn pos)
        (px - (cellRect shell size pos).x) (py - (cellRect shell size pos).y) v) ∧
    ((∀ pos < size.cells, ¬ (cellRect shell size pos).Covers px py) →
      pixelValue info m info.frameBuffer px py = v) := by
  obtain ⟨σ, hshowing, -, hshown, hclean⟩ := h.shows
  obtain ⟨hx, hy⟩ := backdrop_onScreen hv
  have htarget : σ.target = σ.back := by rw [Screens.target, hshowing.rendering]; rfl
  -- Nothing is left to be copied.
  have hfront : ∀ c ∈ σ.back px py, pixelValue info m info.frameBuffer px py = c := by
    intro c hc
    refine hshown.front px py hx hy c ((hshowing.synced px py c (htarget ▸ hc)).resolve_left ?_)
    rintro ⟨r, hr, -⟩
    rw [hclean rfl] at hr
    cases hr
  exact ⟨fun pos hpos hp => hfront _ (hshowing.cells.inside pos hpos px py hp v hv),
    fun hout => hfront _ (hshowing.cells.outside px py hout v hv)⟩

/-- **What was printed is on the screen**: every cell has the glyph of its character in the active
page, white over the backdrop, and around the cells there is the backdrop. -/
theorem text_on_screen (video : Option (BlVideoInfo → BlStatus × BlVideoInfo))
    (heapAlloc heapAlloc' : Nat → Nat) (fb₀ fb : BlFb)
    (hinit : blFbInit video heapAlloc fb₀ = (.success, fb))
    (fits : fb.info.width * fb.info.bytesPerPixel ≤ fb.info.pitch) (hdepth : fb.info.DepthOk)
    (font : Nat → Nat → Byte) (hplain : Plain fb.info font) (size : ShellSize)
    (hsize : shellSize (shellRect fb.info) = some size)
    (hsep : Separate (fb.info.layout fits) (heapAlloc' (bufferSize fb.info)) fb.doubleBuffer
      fb.info.frameBuffer)
    (old : Bool → BlGuiShellContent) (m : Mem) (strings : List (List Byte)) :
    ∃ console, (blGuiAppSetup font heapAlloc' old fb m).bind (Console.print font strings) =
        some console ∧ Mirrors size console.gui ∧
      (∀ line < size.rows, ∀ column < size.cols, ∀ i < 8, ∀ j < 16,
        ∀ v ∈ backdrop fb.info ((shellRect fb.info).x + column * 8 + i)
          ((shellRect fb.info).y + line * 16 + j),
        pixelValue fb.info console.m fb.info.frameBuffer ((shellRect fb.info).x + column * 8 + i)
            ((shellRect fb.info).y + line * 16 + j) =
          textColor fb.info font ((console.gui.page console.gui.active).vector
            (line * size.cols + column)) i j v) ∧
      ∀ px py, ¬ (shellRect fb.info).Covers px py → ∀ v ∈ backdrop fb.info px py,
        pixelValue fb.info console.m fb.info.frameBuffer px py = v := by
  have hfits := shellSize_fits hsize
  obtain ⟨gui, fb₁, m₁, hsetup, hlive⟩ :=
    blGuiAppSetup_live hinit fits hdepth hplain hsize hsep old m
  obtain ⟨gui', fb', m', hprint, hlive'⟩ := hlive.printAll hplain hdepth hsep hfits strings
  have hmirrors := hlive'.flushed.mirrors
  refine ⟨⟨heapAlloc' (bufferSize fb.info), shellRect fb.info, size, gui', fb', m'⟩, ?_, hmirrors,
    fun line hline column hcolumn i hi j hj v hv => ?_, fun px py hout v hv => ?_⟩
  · rw [hsetup, Option.bind_some, Console.print, hprint]
    rfl
  · have hpos : line * size.cols + column < size.cells :=
      @BlGuiShellLine.Inside.pos_lt size ⟨line, column⟩ ⟨hline, hcolumn⟩
    obtain ⟨hdiv, hmod⟩ := @cell_div_mod size line column hcolumn
    have hcovers : (cellRect (shellRect fb.info) size (line * size.cols + column)).Covers
        ((shellRect fb.info).x + column * 8 + i) ((shellRect fb.info).y + line * 16 + j) := by
      simp only [Rect.Covers, cellRect, hdiv, hmod, blFontCharacterWidth, blFontCharacterHeight]
      omega
    rw [(hlive'.frameBuffer hv).1 _ hpos hcovers]
    have hglyph : glyph size gui'.drawn (line * size.cols + column) = gui'.drawn line column := by
      rw [glyph, hdiv, hmod]
    rw [hglyph, shownColor_shows hplain (hmirrors.shows line hline column hcolumn)]
    simp only [cellRect, hdiv, hmod, blFontCharacterWidth, blFontCharacterHeight,
      Nat.add_sub_cancel_left]
  · exact (hlive'.frameBuffer hv).2 fun pos hpos hp => hout (cell_in_shell hfits hpos hp)

def xgaInfo : BlVideoInfo where
  width := 1024
  height := 768
  pitch := 2048
  frameBuffer := 0xe0000000
  bitsPerPixel := 16
  bytesPerPixel := 2
  red := ⟨11, 5⟩
  green := ⟨5, 6⟩
  blue := ⟨0, 5⟩
  reserved := ⟨0, 0⟩

def emptyPage : BlGuiShellContent := ⟨⟨0, 0⟩, ⟨0, 0⟩, fun _ => 0⟩

/-- Two lines on a red tile. -/
theorem text_on_screen_xga :
    ∃ console, (blGuiAppSetup (fun c _ => if c = 0x20 then 0 else 0x18) (fun _ => 0x2000000)
        (fun _ => emptyPage) (screen xgaInfo 0x1000000 noDirtyArea) fun _ => 0).bind
          (Console.print (fun c _ => if c = 0x20 then 0 else 0x18)
            [[0x48, 0x69, newline], [0x21]]) = some console ∧
      pixelValue xgaInfo console.m 0xe0000000 0 0 = 0xf800 := by
  obtain ⟨console, hrun, -, -, hout⟩ := text_on_screen (some fun _ => (.success, xgaInfo))
    (fun _ => 0x1000000) (fun _ => 0x2000000) (screen xgaInfo 0 noDirtyArea)
    (screen xgaInfo 0x1000000 noDirtyArea) rfl (by decide) ⟨.inr (.inl rfl), rfl⟩
    (fun c _ => if c = 0x20 then 0 else 0x18) ⟨rfl, by decide, fun _ => rfl⟩
    ⟨43, 115, by decide, by decide, by decide⟩ rfl (by constructor <;> decide) (fun _ => emptyPage)
    (fun _ => 0) [[0x48, 0x69, newline], [0x21]]
  exact ⟨console, hrun, hout 0 0 (by simp [Rect.Covers, shellRect, screen, xgaInfo]) _ rfl⟩

end BootLoader.Gui

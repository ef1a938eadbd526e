import BootLoader.Gui.Code

/-!
# The console mirrors its pages

A line is filled from the left, so the rest of a line behind a zero is zero and may be skipped; and
what lies behind the position that was drawn last is blank.
-/

open ByteMemory

namespace BootLoader.Gui

variable {size : ShellSize} {page : BlGuiShellContent} {gui : BlGui} {p q : Nat} {c : Byte}
  {drawn : Nat → Nat → Option Byte}

/-! ## Positions -/

def ShellSize.cells (size : ShellSize) : Nat := size.rows * size.cols

/-- The position without the bound of 32 bits. -/
def BlGuiShellLine.pos (size : ShellSize) (line : BlGuiShellLine) : Nat :=
  line.line * size.cols + line.column

structure BlGuiShellLine.Inside (size : ShellSize) (line : BlGuiShellLine) : Prop where
  line_lt : line.line < size.rows
  column_lt : line.column < size.cols

theorem ShellSize.cells_add_cols (size : ShellSize) : size.cells + size.cols < 2 ^ 32 := by
  have hfits := size.fits
  rw [Nat.succ_mul] at hfits
  exact hfits

theorem BlGuiShellLine.Inside.pos_lt {line : BlGuiShellLine} (h : line.Inside size) :
    line.pos size < size.cells := by
  have hle : (line.line + 1) * size.cols ≤ size.rows * size.cols :=
    Nat.mul_le_mul_right _ h.line_lt
  have hcolumn := h.column_lt
  rw [Nat.succ_mul] at hle
  unfold BlGuiShellLine.pos ShellSize.cells
  omega

theorem BlGuiShellLine.Inside.shellPos {line : BlGuiShellLine} (h : line.Inside size) :
    blGuiAppShellPos size line = line.pos size := by
  have hlt := h.pos_lt
  have hcells := size.cells_add_cols
  exact Nat.mod_eq_of_lt (show line.pos size < 2 ^ 32 by omega)

theorem ShellSize.cols_pos (size : ShellSize) : 0 < size.cols := by
  have := size.cols_ge
  omega

theorem cell_div_mod {line column : Nat} (h : column < size.cols) :
    (line * size.cols + column) / size.cols = line ∧
      (line * size.cols + column) % size.cols = column :=
  (Nat.div_mod_unique size.cols_pos).mpr ⟨by rw [Nat.mul_comm, Nat.add_comm], h⟩

/-- What lies between a position and the next line is on its line. -/
theorem sameLine (hle : q ≤ p) (hlt : p < q + (size.cols - q % size.cols)) :
    q / size.cols = p / size.cols := by
  have hmod := Nat.mod_lt q size.cols_pos
  have hq := Nat.div_add_mod q size.cols
  refine (Nat.div_eq_of_lt_le ?_ ?_).symm
  · rw [Nat.mul_comm]
    omega
  · rw [Nat.succ_mul, Nat.mul_comm]
    omega

/-! ## Pages -/

/-- A page is filled from the left in each line, and up to the current position. -/
structure Laid (size : ShellSize) (page : BlGuiShellContent) : Prop where
  inside : page.currentLine.Inside size
  filled : ∀ column < page.currentLine.column,
    page.vector (page.currentLine.line * size.cols + column) ≠ 0
  beyond : ∀ p, page.currentLine.pos size ≤ p → p < size.cells → page.vector p = 0
  lines : ∀ p q, p ≤ q → q < size.cells → p / size.cols = q / size.cols → page.vector p = 0 →
    page.vector q = 0

theorem laid_reset (size : ShellSize) (page : BlGuiShellContent) :
    Laid size (blBitmapResetPageVector size page) := by
  have hzero : ∀ p < size.cells, (blBitmapResetPageVector size page).vector p = 0 := by
    intro p hp
    refine if_pos ?_
    rw [Nat.succ_mul]
    exact Nat.lt_add_right _ hp
  have hrows := size.rows_pos
  exact ⟨⟨by simp only [blBitmapResetPageVector]; omega, size.cols_pos⟩,
    fun column h => absurd h (Nat.not_lt_zero column), fun p _ hp => hzero p hp,
    fun p q _ hq _ _ => hzero q hq⟩

/-- The page with one more character. -/
theorem Laid.store (h : Laid size page) (hroom : page.currentLine.column + 1 < size.cols)
    (hc : c ≠ 0) : Laid size { page with
      vector := Function.update page.vector (page.currentLine.pos size) c
      currentLine := { page.currentLine with column := page.currentLine.column + 1 } } := by
  have hother : ∀ p, p ≠ page.currentLine.pos size →
      Function.update page.vector (page.currentLine.pos size) c p = page.vector p :=
    fun p hp => Function.update_of_ne hp _ _
  have hline : page.currentLine.pos size / size.cols = page.currentLine.line :=
    (cell_div_mod h.inside.column_lt).1
  refine ⟨⟨h.inside.line_lt, hroom⟩, fun column hcolumn => ?_, fun p hle hp => ?_,
    fun p q hle hq hsame hzero => ?_⟩
  · dsimp only at hcolumn ⊢
    by_cases heq : column = page.currentLine.column
    · subst heq
      rw [← BlGuiShellLine.pos, Function.update_self]
      exact hc
    · rw [hother _ (by unfold BlGuiShellLine.pos; omega)]
      exact h.filled column (by omega)
  · unfold BlGuiShellLine.pos at hle
    dsimp only at hle ⊢
    rw [hother p (by unfold BlGuiShellLine.pos; omega)]
    exact h.beyond p (by unfold BlGuiShellLine.pos; omega) hp
  · dsimp only at hzero ⊢
    have hpne : p ≠ page.currentLine.pos size := by
      rintro rfl
      rw [Function.update_self] at hzero
      exact hc hzero
    rw [hother p hpne] at hzero
    by_cases hqeq : q = page.currentLine.pos size
    · exfalso
      subst hqeq
      rw [hline] at hsame
      have hmod := Nat.div_add_mod p size.cols
      rw [hsame, Nat.mul_comm] at hmod
      refine h.filled (p % size.cols) ?_ (by rw [hmod]; exact hzero)
      unfold BlGuiShellLine.pos at hle hpne
      omega
    · rw [hother q hqeq]
      exact h.lines p q hle hq hsame hzero

theorem Laid.newline (h : Laid size page) (hroom : page.currentLine.line + 1 < size.rows) :
    Laid size { page with currentLine := ⟨page.currentLine.line + 1, 0⟩ } := by
  have hcolumn := h.inside.column_lt
  refine ⟨⟨hroom, size.cols_pos⟩, fun column hc => absurd hc (Nat.not_lt_zero column),
    fun p hle hp => h.beyond p ?_ hp, h.lines⟩
  unfold BlGuiShellLine.pos at hle ⊢
  dsimp only at hle
  rw [Nat.succ_mul] at hle
  omega

/-! ## Cells -/

/-- The last glyph at a position. -/
def glyph (size : ShellSize) (drawn : Nat → Nat → Option Byte) (p : Nat) : Option Byte :=
  drawn (p / size.cols) (p % size.cols)

def Blank (g : Option Byte) : Prop := g = none ∨ g = some space

/-- The cell shows the character, and nothing or a blank where there is none. -/
def Shows (g : Option Byte) (c : Byte) : Prop := g = some c ∨ c = 0 ∧ Blank g

theorem glyph_blit (size : ShellSize) (c : Byte) (pos p : Nat)
    (drawn : Nat → Nat → Option Byte) :
    glyph size (blitGlyph size c pos drawn) p =
      if p = pos then some c else glyph size drawn p := by
  unfold glyph blitGlyph
  by_cases heq : p = pos
  · subst heq
    simp
  · have hne : ¬(p / size.cols = pos / size.cols ∧ p % size.cols = pos % size.cols) := by
      rintro ⟨hdiv, hmod⟩
      rw [← Nat.div_add_mod p size.cols, ← Nat.div_add_mod pos size.cols, hdiv, hmod] at heq
      exact heq rfl
    rw [if_neg hne, if_neg heq]

theorem glyph_clean (size : ShellSize) (n p : Nat) (drawn : Nat → Nat → Option Byte) :
    glyph size ((List.range' 0 n).foldl (fun drawn pos => blitGlyph size space pos drawn) drawn) p =
      if p < n then some space else glyph size drawn p := by
  induction n with
  | zero => simp
  | succ n ih =>
    rw [List.range'_1_concat, List.foldl_append, List.foldl_cons, List.foldl_nil, glyph_blit, ih,
      Nat.zero_add]
    split_ifs <;> first | rfl | omega

/-- What was drawn of a page up to a position, and that the rest is blank. -/
structure DrawnUpTo (size : ShellSize) (vector : Nat → Byte) (drawn : Nat → Nat → Option Byte)
    (pos : Nat) : Prop where
  before : ∀ p < pos, p < size.cells → Shows (glyph size drawn p) (vector p)
  behind : ∀ p, pos ≤ p → p < size.cells → Blank (glyph size drawn p)

/-! ## Between updating and flushing -/

/-- The active page is laid out, and drawn up to where the last flush ended, or not at all when the
pages were swapped. The last cell is never drawn. -/
structure Pending (size : ShellSize) (gui : BlGui) : Prop where
  laid : Laid size (gui.page gui.active)
  updated : (gui.page gui.active).updatedLine.Inside size
  updated_le : (gui.page gui.active).updatedLine.pos size ≤
    (gui.page gui.active).currentLine.pos size
  drawn : gui.shouldScroll = false → DrawnUpTo size (gui.page gui.active).vector gui.drawn
    ((gui.page gui.active).updatedLine.pos size)
  swapped : gui.shouldScroll = true → (gui.page gui.active).updatedLine.pos size = 0
  lastCell : glyph size gui.drawn (size.cells - 1) = none
  writes : ∀ w ∈ gui.writes, w.2 < size.cells

theorem storeChar_page (h : (gui.page gui.active).currentLine.Inside size) :
    (storeChar size gui c).page gui.active = { gui.page gui.active with
      vector := Function.update (gui.page gui.active).vector
        ((gui.page gui.active).currentLine.pos size) c
      currentLine := { (gui.page gui.active).currentLine with
        column := (gui.page gui.active).currentLine.column + 1 } } := by
  simp [storeChar, BlGui.setPage, h.shellPos]

/-- The page that is active on the next line. -/
theorem nextLine_page (size : ShellSize) (gui : BlGui) :
    (nextLine size gui).page (nextLine size gui).active =
      if (gui.page gui.active).currentLine.line + 1 = size.rows then
        blBitmapResetPageVector size (gui.page !gui.active)
      else { gui.page gui.active with
        currentLine := ⟨(gui.page gui.active).currentLine.line + 1, 0⟩ } := by
  unfold nextLine
  dsimp only
  split_ifs with hfull
  · simp [blGuiAppSwapPages, BlGui.setPage]
  · simp [BlGui.setPage]

theorem Pending.storeChar (h : Pending size gui) (hc : c ≠ 0)
    (hroom : (gui.page gui.active).currentLine.column + 1 < size.cols) :
    Pending size (storeChar size gui c) := by
  have hpage := @storeChar_page size gui c h.laid.inside
  have hle := h.updated_le
  constructor <;> try rw [show (Gui.storeChar size gui c).active = gui.active from rfl, hpage]
  · exact h.laid.store hroom hc
  · exact h.updated
  · exact hle.trans (Nat.le_succ _)
  · intro hscroll
    obtain ⟨hbefore, hbehind⟩ := h.drawn hscroll
    refine ⟨fun p (hp : p < (gui.page gui.active).updatedLine.pos size) hcells => ?_, hbehind⟩
    dsimp only
    rw [Function.update_of_ne (by omega)]
    exact hbefore p hp hcells
  · exact h.swapped
  · exact h.lastCell
  · intro w hw
    rcases List.mem_cons.mp hw with rfl | hw
    · dsimp only
      rw [h.laid.inside.shellPos]
      exact h.laid.inside.pos_lt
    · exact h.writes w hw

theorem Pending.nextLine (h : Pending size gui) : Pending size (nextLine size gui) := by
  have hpage := nextLine_page size gui
  by_cases hfull : (gui.page gui.active).currentLine.line + 1 = size.rows
  · rw [if_pos hfull] at hpage
    have hlaid := laid_reset size (gui.page !gui.active)
    have hscroll : (Gui.nextLine size gui).shouldScroll = true ∧
        (Gui.nextLine size gui).drawn = gui.drawn ∧
        (Gui.nextLine size gui).writes = gui.writes := by
      simp [Gui.nextLine, hfull, blGuiAppSwapPages, BlGui.setPage]
    constructor <;> try rw [hpage]
    · exact hlaid
    · exact hlaid.inside
    · exact le_rfl
    · exact fun hnot => absurd (hscroll.1.symm.trans hnot) (by decide)
    · intro _
      simp [blBitmapResetPageVector, BlGuiShellLine.pos]
    · rw [hscroll.2.1]
      exact h.lastCell
    · rw [hscroll.2.2]
      exact h.writes
  · rw [if_neg hfull] at hpage
    have hline := h.laid.inside.line_lt
    have hlaid := h.laid.newline (by omega)
    have hcolumn := h.laid.inside.column_lt
    have hsame : (Gui.nextLine size gui).shouldScroll = gui.shouldScroll ∧
        (Gui.nextLine size gui).drawn = gui.drawn ∧
        (Gui.nextLine size gui).writes = gui.writes := by
      simp [Gui.nextLine, hfull, BlGui.setPage]
    constructor <;> try rw [hpage]
    · exact hlaid
    · exact h.updated
    · refine h.updated_le.trans ?_
      unfold BlGuiShellLine.pos
      dsimp only
      rw [Nat.succ_mul]
      omega
    · rw [hsame.1, hsame.2.1]
      exact h.drawn
    · rw [hsame.1]
      exact h.swapped
    · rw [hsame.2.1]
      exact h.lastCell
    · rw [hsame.2.2]
      exact h.writes

theorem Pending.update (h : Pending size gui) (s : List Byte) :
    Pending size (blGuiAppUpdatePages size s gui) := by
  induction s generalizing gui with
  | nil => exact h
  | cons c s ih =>
    rw [blGuiAppUpdatePages]
    split_ifs with hend hroom
    · exact h
    · exact ih (h.storeChar hend hroom.1)
    · exact ih h.nextLine

/-! ## Flushing -/

/-- The rest of a line is blank where it is skipped. -/
theorem skipLine_spec (hlaid : Laid size page) (hp : p < size.cells) :
    p ≤ skipLine size page.vector p ∧ skipLine size page.vector p < 2 ^ 32 ∧
      ∀ q, p ≤ q → q < skipLine size page.vector p → q < size.cells → page.vector q = 0 := by
  have hcells := size.cells_add_cols
  have hmod := Nat.mod_lt p size.cols_pos
  unfold skipLine
  split_ifs with hzero
  · rw [Nat.mod_eq_of_lt (by omega)]
    refine ⟨by omega, by omega, fun q hle hlt hq => ?_⟩
    exact hlaid.lines p q hle hq (sameLine hle hlt) hzero
  · exact ⟨le_rfl, by omega, fun q hle hlt => absurd hlt (by omega)⟩

/-- What is left to draw lies between the position and the current one. -/
theorem flushFrom_spec (hlaid : Laid size page) {fuel pos : Nat}
    (hfuel : page.currentLine.pos size - pos < fuel)
    (hbefore : ∀ p < pos, p < size.cells → Shows (glyph size drawn p) (page.vector p))
    (hbehind : ∀ p, pos ≤ p ∨ page.currentLine.pos size ≤ p → p < size.cells →
      Blank (glyph size drawn p))
    (hlast : glyph size drawn (size.cells - 1) = none) :
    ∃ drawn', flushFrom size page.vector (page.currentLine.pos size) fuel pos drawn = some drawn' ∧
      DrawnUpTo size page.vector drawn' (page.currentLine.pos size) ∧
      glyph size drawn' (size.cells - 1) = none := by
  have hcur := hlaid.inside.pos_lt
  induction fuel generalizing pos drawn with
  | zero => exact absurd hfuel (Nat.not_lt_zero _)
  | succ fuel ih =>
    rw [flushFrom]
    split_ifs with hmore
    · have hcells := size.cells_add_cols
      rw [Nat.mod_eq_of_lt (show pos + 1 < 2 ^ 32 by omega)]
      obtain ⟨hskip, -, hzero⟩ := skipLine_spec hlaid (show pos + 1 < size.cells by omega)
      refine ih (by omega) (fun p hp hin => ?_) (fun p hp hin => ?_) ?_
      · rw [glyph_blit]
        split_ifs with heq
        · exact .inl (by rw [heq])
        · by_cases hlt : p < pos
          · exact hbefore p hlt hin
          · exact .inr ⟨hzero p (by omega) hp hin, hbehind p (.inl (by omega)) hin⟩
      · rw [glyph_blit, if_neg (by omega)]
        exact hbehind p (by omega) hin
      · rw [glyph_blit, if_neg (by omega)]
        exact hlast
    · exact ⟨drawn, rfl, ⟨fun p hp => hbefore p (by omega), fun p hp => hbehind p (.inr hp)⟩, hlast⟩

theorem ShellSize.endPos (size : ShellSize) :
    blGuiAppShellPos size ⟨size.rows - 1, size.cols - 1⟩ = size.cells - 1 := by
  have hrows := size.rows_pos
  have hcols := size.cols_pos
  have hinside : BlGuiShellLine.Inside size ⟨size.rows - 1, size.cols - 1⟩ :=
    ⟨by dsimp only; omega, by dsimp only; omega⟩
  obtain ⟨rows, hr⟩ := Nat.exists_eq_add_of_le' hrows
  rw [hinside.shellPos, BlGuiShellLine.pos, ShellSize.cells, hr, Nat.succ_mul]
  dsimp only
  rw [Nat.add_sub_cancel]
  omega

theorem glyph_cleanShellScreen (size : ShellSize) (gui : BlGui) (p : Nat) :
    glyph size (blGuiAppCleanShellScreen size gui).drawn p =
      if p < size.cells - 1 then some space else glyph size gui.drawn p := by
  have hstart : blGuiAppShellPos size ⟨0, 0⟩ = 0 := by simp [blGuiAppShellPos]
  unfold blGuiAppCleanShellScreen
  rw [hstart, size.endPos]
  exact glyph_clean size (size.cells - 1) p gui.drawn

/-- Line, column and writes are inside, nothing is left to draw, and each cell shows
its character. -/
structure Mirrors (size : ShellSize) (gui : BlGui) : Prop where
  line_lt : (gui.page gui.active).currentLine.line < size.rows
  column_lt : (gui.page gui.active).currentLine.column < size.cols
  writes : ∀ w ∈ gui.writes, w.2 < size.rows * size.cols
  updated : (gui.page gui.active).updatedLine = (gui.page gui.active).currentLine
  shows : ∀ line < size.rows, ∀ column < size.cols,
    Shows (gui.drawn line column) ((gui.page gui.active).vector (line * size.cols + column))

/-- Nothing is left to draw. -/
structure Flushed (size : ShellSize) (gui : BlGui) : Prop where
  pending : Pending size gui
  updated : (gui.page gui.active).updatedLine = (gui.page gui.active).currentLine
  scrolled : gui.shouldScroll = false

theorem Pending.flush (h : Pending size gui) :
    ∃ gui', blGuiAppFlushPageBuffers size gui = some gui' ∧ Flushed size gui' := by
  -- The scrolled screen is blank but for its last cell, on which nothing was drawn.
  obtain ⟨drawn, hscroll, hdrawn, hlast⟩ : ∃ drawn,
      (if gui.shouldScroll then blGuiAppCleanShellScreen size { gui with shouldScroll := false }
        else gui) = { gui with shouldScroll := false, drawn := drawn } ∧
      DrawnUpTo size (gui.page gui.active).vector drawn
        ((gui.page gui.active).updatedLine.pos size) ∧
      glyph size drawn (size.cells - 1) = none := by
    cases hs : gui.shouldScroll with
    | true =>
      have hclean := glyph_cleanShellScreen size { gui with shouldScroll := false }
      refine ⟨(blGuiAppCleanShellScreen size { gui with shouldScroll := false }).drawn, rfl,
        ⟨fun p hp => absurd hp (by rw [h.swapped hs]; omega), fun p _ hp => ?_⟩, ?_⟩
      · rw [hclean]
        split_ifs with hlt
        · exact .inr rfl
        · rw [show p = size.cells - 1 by omega]
          exact .inl h.lastCell
      · rw [hclean, if_neg (Nat.lt_irrefl _)]
        exact h.lastCell
    | false =>
      refine ⟨gui.drawn, ?_, h.drawn hs, h.lastCell⟩
      obtain ⟨shouldScroll, active, page, drawn, writes⟩ := gui
      subst hs
      rfl
  have hle := h.updated_le
  obtain ⟨drawn', hflush, hdrawn', hlast'⟩ := flushFrom_spec h.laid
    (show (gui.page gui.active).currentLine.pos size -
      (gui.page gui.active).updatedLine.pos size <
        (gui.page gui.active).currentLine.pos size + 1 by omega)
    hdrawn.before (fun p hp => hdrawn.behind p (by omega)) hlast
  unfold blGuiAppFlushPageBuffers
  rw [hscroll]
  dsimp only
  rw [h.laid.inside.shellPos, h.updated.shellPos, hflush]
  refine ⟨_, rfl, ?_, ?_, rfl⟩
  · have hlaid := h.laid
    constructor <;> simp only [BlGui.setPage, Function.update_self]
    · exact ⟨hlaid.inside, hlaid.filled, hlaid.beyond, hlaid.lines⟩
    · exact hlaid.inside
    · exact Nat.le_refl _
    · exact fun _ => hdrawn'
    · exact fun hs => absurd hs Bool.false_ne_true
    · exact hlast'
    · exact h.writes
  · simp only [BlGui.setPage, Function.update_self]

theorem Flushed.printStr (h : Flushed size gui) (s : List Byte) :
    ∃ gui', blGuiAppPrintStr size gui s = some gui' ∧ Flushed size gui' :=
  (h.pending.update s).flush

theorem flushed_start (size : ShellSize) (old : Bool → BlGuiShellContent) :
    Flushed size (start size old) := by
  have hlaid := fun page => laid_reset size page
  refine ⟨⟨hlaid _, (hlaid (old false)).inside, Nat.le_refl _, fun _ => ⟨?_, ?_⟩, ?_, rfl, ?_⟩,
    rfl, rfl⟩
  · intro p hp
    simp [start, blBitmapResetPageVector, BlGuiShellLine.pos] at hp
  · exact fun p _ _ => .inl rfl
  · exact fun hs => absurd hs Bool.false_ne_true
  · exact fun w hw => absurd hw List.not_mem_nil

/-- The strings are printed one after the other. -/
def printAll (size : ShellSize) : List (List Byte) → BlGui → Option BlGui
  | [], gui => some gui
  | s :: rest, gui => (blGuiAppPrintStr size gui s).bind (printAll size rest)

theorem Flushed.printAll (h : Flushed size gui) (strings : List (List Byte)) :
    ∃ gui', printAll size strings gui = some gui' ∧ Flushed size gui' := by
  induction strings generalizing gui with
  | nil => exact ⟨gui, rfl, h⟩
  | cons s rest ih =>
    obtain ⟨gui₁, hprint, h₁⟩ := h.printStr s
    obtain ⟨gui₂, hrest, h₂⟩ := ih h₁
    exact ⟨gui₂, by rw [Gui.printAll, hprint]; exact hrest, h₂⟩

theorem Flushed.mirrors (h : Flushed size gui) : Mirrors size gui := by
  have hlaid := h.pending.laid
  refine ⟨hlaid.inside.line_lt, hlaid.inside.column_lt, h.pending.writes, h.updated,
    fun line hline column hcolumn => ?_⟩
  have hinside : BlGuiShellLine.Inside size ⟨line, column⟩ := ⟨hline, hcolumn⟩
  have hp : line * size.cols + column < size.cells := hinside.pos_lt
  have hglyph : glyph size gui.drawn (line * size.cols + column) = gui.drawn line column := by
    unfold glyph
    rw [(cell_div_mod hcolumn).1, (cell_div_mod hcolumn).2]
  obtain ⟨hbefore, hbehind⟩ := h.pending.drawn h.scrolled
  rw [h.updated] at hbefore hbehind
  rw [← hglyph]
  rcases Nat.lt_or_ge (line * size.cols + column)
    ((gui.page gui.active).currentLine.pos size) with hlt | hge
  · exact hbefore _ hlt hp
  · exact .inr ⟨hlaid.beyond _ hge hp, hbehind _ hge hp⟩

/-- After any strings the screen shows the active page. -/
theorem console_mirrors_page (size : ShellSize) (old : Bool → BlGuiShellContent)
    (strings : List (List Byte)) :
    ∃ gui, printAll size strings (start size old) = some gui ∧ Mirrors size gui := by
  obtain ⟨gui, hprint, hflushed⟩ := (flushed_start size old).printAll strings
  exact ⟨gui, hprint, hflushed.mirrors⟩

end BootLoader.Gui

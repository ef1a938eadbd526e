import BootLoader.Lib.ByteMemory

/-!
# The text console (`core/gui/gui-app.c`, `bl_bitmap_reset_page_vector` of `core/gui/bitmap.c`)

Drawing is kept as the last glyph of each cell, and the places that `bl_gui_app_update_pages` writes
in a vector as a list.
-/

open ByteMemory

namespace BootLoader.Gui

/-- The size of the shell area in characters. There is memory for a vector of its size. -/
structure ShellSize where
  rows : Nat
  cols : Nat
  rows_pos : 1 ≤ rows
  cols_ge : 2 ≤ cols
  fits : (rows + 1) * cols < 2 ^ 32

structure BlGuiShellLine where
  line : Nat
  column : Nat

structure BlGuiShellContent where
  updatedLine : BlGuiShellLine
  currentLine : BlGuiShellLine
  vector : Nat → Byte

/-- `drawn` is the last glyph at a line and a column; `writes` are the places that were written,
with the number of the page. -/
structure BlGui where
  shouldScroll : Bool
  active : Bool
  page : Bool → BlGuiShellContent
  drawn : Nat → Nat → Option Byte
  writes : List (Bool × Nat)

def blGuiAppShellPos (size : ShellSize) (line : BlGuiShellLine) : Nat :=
  (line.line * size.cols + line.column) % 2 ^ 32

def blBitmapResetPageVector (size : ShellSize) (page : BlGuiShellContent) : BlGuiShellContent where
  updatedLine := ⟨0, 0⟩
  currentLine := ⟨0, 0⟩
  vector i := if i < (size.rows + 1) * size.cols then 0 else page.vector i

def BlGui.setPage (gui : BlGui) (i : Bool) (page : BlGuiShellContent) : BlGui :=
  { gui with page := Function.update gui.page i page }

def blGuiAppSwapPages (size : ShellSize) (gui : BlGui) : BlGui :=
  let gui := { gui with active := !gui.active }
  gui.setPage gui.active (blBitmapResetPageVector size (gui.page gui.active))

def newline : Byte := 0x0a
def space : Byte := 0x20

/-- The character goes into the vector. -/
def storeChar (size : ShellSize) (gui : BlGui) (c : Byte) : BlGui :=
  let page := gui.page gui.active
  let pos := blGuiAppShellPos size page.currentLine
  { gui.setPage gui.active { page with
      vector := Function.update page.vector pos c
      currentLine := { page.currentLine with column := page.currentLine.column + 1 } } with
    writes := (gui.active, pos) :: gui.writes }

/-- The next line, or the other page. -/
def nextLine (size : ShellSize) (gui : BlGui) : BlGui :=
  let page := gui.page gui.active
  let gui := gui.setPage gui.active
    { page with currentLine := ⟨page.currentLine.line + 1, 0⟩ }
  if page.currentLine.line + 1 = size.rows then
    blGuiAppSwapPages size { gui with shouldScroll := true }
  else gui

/-- The loop ends at the terminator. At the end of a line the character is dropped. -/
def blGuiAppUpdatePages (size : ShellSize) : List Byte → BlGui → BlGui
  | [], gui => gui
  | c :: s, gui =>
    if c = 0 then gui
    else if (gui.page gui.active).currentLine.column + 1 < size.cols ∧ c ≠ newline then
      blGuiAppUpdatePages size s (storeChar size gui c)
    else blGuiAppUpdatePages size s (nextLine size gui)

/-- `bl_fb_blit_glyph` at the cell of a position. -/
def blitGlyph (size : ShellSize) (c : Byte) (pos : Nat) (drawn : Nat → Nat → Option Byte) :
    Nat → Nat → Option Byte :=
  fun line column =>
    if line = pos / size.cols ∧ column = pos % size.cols then some c else drawn line column

/-- All cells but the last one, which is never written. -/
def blGuiAppCleanShellScreen (size : ShellSize) (gui : BlGui) : BlGui :=
  let pos := blGuiAppShellPos size ⟨0, 0⟩
  let endPos := blGuiAppShellPos size ⟨size.rows - 1, size.cols - 1⟩
  { gui with
    drawn := (List.range' pos (endPos - pos)).foldl
      (fun drawn pos => blitGlyph size space pos drawn) gui.drawn }

/-- Behind the last character of a line the rest of the line is skipped. -/
def skipLine (size : ShellSize) (vector : Nat → Byte) (pos : Nat) : Nat :=
  if vector pos = 0 then (pos + (size.cols - pos % size.cols)) % 2 ^ 32 else pos

/-- The loop of `bl_gui_app_flush_page_buffers`, for at most `fuel` glyphs. -/
def flushFrom (size : ShellSize) (vector : Nat → Byte) (endPos : Nat) :
    Nat → Nat → (Nat → Nat → Option Byte) → Option (Nat → Nat → Option Byte)
  | 0, _, _ => none
  | fuel + 1, pos, drawn =>
    if pos < endPos then
      flushFrom size vector endPos fuel (skipLine size vector ((pos + 1) % 2 ^ 32))
        (blitGlyph size (vector pos) pos drawn)
    else some drawn

/-- `none`: the loop does not end. -/
def blGuiAppFlushPageBuffers (size : ShellSize) (gui : BlGui) : Option BlGui :=
  let gui := if gui.shouldScroll then
      blGuiAppCleanShellScreen size { gui with shouldScroll := false }
    else gui
  let page := gui.page gui.active
  let pos := blGuiAppShellPos size page.updatedLine
  let endPos := blGuiAppShellPos size page.currentLine
  (flushFrom size page.vector endPos (endPos + 1) pos gui.drawn).map fun drawn =>
    { gui.setPage gui.active { page with updatedLine := page.currentLine } with drawn }

def blGuiAppPrintStr (size : ShellSize) (gui : BlGui) (s : List Byte) : Option BlGui :=
  blGuiAppFlushPageBuffers size (blGuiAppUpdatePages size s gui)

/-- Fresh pages over whatever the vectors held, and nothing drawn. -/
def start (size : ShellSize) (old : Bool → BlGuiShellContent) : BlGui where
  shouldScroll := false
  active := false
  page i := blBitmapResetPageVector size (old i)
  drawn _ _ := none
  writes := []

end BootLoader.Gui

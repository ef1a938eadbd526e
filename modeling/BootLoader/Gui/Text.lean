import BootLoader.Gui.Mirror
import BootLoader.Lib.TextRoll
import Mathlib.Data.List.Induction

/-!
# Lines that fill a row

The character that arrives at the last column moves to the next line and is not stored.
-/

open ByteMemory

namespace BootLoader.Gui

variable {size : ShellSize} {gui gui' : BlGui} {old : Bool → BlGuiShellContent}
  {t : TextRoll Byte} {text s : List Byte} {c : Byte} {cols : Nat}

/-! ## Text -/

def IsPrintable (c : Byte) : Prop := 0x20 ≤ c ∧ c ≤ 0x7e

def IsText (c : Byte) : Prop := c = newline ∨ IsPrintable c

instance (c : Byte) : Decidable (IsText c) := inferInstanceAs (Decidable (_ ∨ _ ∧ _))

/-- What a terminal with `cols` columns makes of a text. -/
def layOut (cols : Nat) (text : List Byte) : TextRoll Byte :=
  text.foldl (fun t c => if c = newline then t.newline else t.put cols c) .blank

/-- The active page reads like the rows since the last row that starts a page. -/
def ShowsText (size : ShellSize) (gui : BlGui) (t : TextRoll Byte) : Prop :=
  ∀ line < size.rows, ∀ column < size.cols,
    (gui.page gui.active).vector (line * size.cols + column) =
      (t.cell (t.row / size.rows * size.rows + line) column).getD 0

/-- After any calls, with the text that was printed by them. -/
inductive Reaches (size : ShellSize) (old : Bool → BlGuiShellContent) : List Byte → BlGui → Prop
  | start : Reaches size old [] (start size old)
  | update {text s : List Byte} {gui : BlGui} (h : Reaches size old text gui)
      (hs : ∀ c ∈ s, IsText c) : Reaches size old (text ++ s) (blGuiAppUpdatePages size s gui)
  | flush {text : List Byte} {gui gui' : BlGui} (h : Reaches size old text gui)
      (hflush : blGuiAppFlushPageBuffers size gui = some gui') : Reaches size old text gui'

def sinceNewline (text : List Byte) : Nat :=
  text.foldl (fun n c => if c = newline then 0 else n + 1) 0

/-- No line has enough characters to fill a row. -/
def ShortLines (cols : Nat) (text : List Byte) : Prop :=
  ∀ text', text' <+: text → sinceNewline text' < cols

theorem layOut_concat (cols : Nat) (text : List Byte) (c : Byte) :
    layOut cols (text ++ [c]) =
      if c = newline then (layOut cols text).newline else (layOut cols text).put cols c := by
  unfold layOut
  rw [List.foldl_append, List.foldl_cons, List.foldl_nil]

theorem sinceNewline_concat (text : List Byte) (c : Byte) :
    sinceNewline (text ++ [c]) = if c = newline then 0 else sinceNewline text + 1 := by
  unfold sinceNewline
  rw [List.foldl_append, List.foldl_cons, List.foldl_nil]

theorem ShortLines.before (h : ShortLines cols (text ++ s)) : ShortLines cols text :=
  fun _ hpre => h _ (hpre.trans (List.prefix_append _ _))

theorem shortLines_concat (h : ShortLines cols text) :
    ShortLines cols (text ++ [c]) ↔ sinceNewline (text ++ [c]) < cols := by
  refine ⟨fun hall => hall _ List.prefix_rfl, fun hlast text' hpre => ?_⟩
  rcases List.prefix_concat_iff.mp hpre with rfl | hbefore
  · exact hlast
  · exact h text' hbefore

theorem ShortLines.column (h : ShortLines cols text) :
    (layOut cols text).column = sinceNewline text := by
  induction text using List.reverseRecOn with
  | nil => rfl
  | append_singleton text c ih =>
    have hbefore := ih h.before
    rw [layOut_concat, sinceNewline_concat]
    split_ifs
    · rfl
    · rw [TextRoll.put, if_pos (by rw [hbefore]; exact h _ (List.prefix_append _ _)), hbefore]

theorem IsText.ne_zero (h : IsText c) : c ≠ 0 := by
  rintro rfl
  revert h
  decide

/-! ## One character -/

/-- The page is laid out like the roll, up to the same position. -/
structure Follows (size : ShellSize) (gui : BlGui) (t : TextRoll Byte) : Prop where
  laid : Laid size (gui.page gui.active)
  line : (gui.page gui.active).currentLine.line = t.row % size.rows
  column : (gui.page gui.active).currentLine.column = t.column
  shows : ShowsText size gui t
  clean : t.Clean

theorem page_row (size : ShellSize) (t : TextRoll Byte) (line : Nat) :
    t.row / size.rows * size.rows + line = t.row ↔ line = t.row % size.rows := by
  have hdiv := Nat.div_add_mod t.row size.rows
  rw [Nat.mul_comm] at hdiv
  omega

theorem Follows.store (h : Follows size gui t) (hc : c ≠ 0)
    (hroom : (gui.page gui.active).currentLine.column + 1 < size.cols) :
    Follows size (storeChar size gui c) (t.put size.cols c) := by
  have hpage := @storeChar_page size gui c h.laid.inside
  have hcolumn := h.column
  have hput : t.put size.cols c = ⟨t.row, t.column + 1, t.write t.row t.column c⟩ :=
    if_pos (by omega)
  have hclean := h.clean.put size.cols c
  rw [hput] at hclean ⊢
  have hshows : ∀ line < size.rows, ∀ column < size.cols,
      Function.update (gui.page gui.active).vector ((gui.page gui.active).currentLine.pos size) c
          (line * size.cols + column) =
        (t.write t.row t.column c (t.row / size.rows * size.rows + line) column).getD 0 := by
    intro line hline column hcol
    have hplace := page_row size t line
    rw [TextRoll.write_apply]
    by_cases hhere : line = t.row % size.rows ∧ column = t.column
    · have hpos : line * size.cols + column = (gui.page gui.active).currentLine.pos size := by
        unfold BlGuiShellLine.pos
        rw [h.line, h.column, hhere.1, hhere.2]
      rw [hpos, Function.update_self, if_pos ⟨hplace.mpr hhere.1, hhere.2⟩]
      rfl
    · have hpos : line * size.cols + column ≠ (gui.page gui.active).currentLine.pos size := by
        unfold BlGuiShellLine.pos
        intro hsame
        obtain ⟨hdiv, hmod⟩ := @cell_div_mod size line column hcol
        rw [hsame, (cell_div_mod h.laid.inside.column_lt).1, h.line] at hdiv
        rw [hsame, (cell_div_mod h.laid.inside.column_lt).2, h.column] at hmod
        exact hhere ⟨hdiv.symm, hmod.symm⟩
      rw [Function.update_of_ne hpos, if_neg fun hsame => hhere ⟨hplace.mp hsame.1, hsame.2⟩]
      exact h.shows line hline column hcol
  constructor
  · rw [show (storeChar size gui c).active = gui.active from rfl, hpage]
    exact h.laid.store hroom hc
  · rw [show (storeChar size gui c).active = gui.active from rfl, hpage]
    exact h.line
  · rw [show (storeChar size gui c).active = gui.active from rfl, hpage, ← hcolumn]
  · unfold ShowsText
    rw [show (storeChar size gui c).active = gui.active from rfl, hpage]
    exact hshows
  · exact hclean

theorem Follows.nextLine (h : Follows size gui t) : Follows size (nextLine size gui) t.newline := by
  have hpage := nextLine_page size gui
  have hrows := size.rows_pos
  have hline := h.line
  have hmod := Nat.mod_lt t.row hrows
  have hdiv := Nat.div_add_mod t.row size.rows
  have hclean := h.clean.newline
  by_cases hfull : (gui.page gui.active).currentLine.line + 1 = size.rows
  · rw [if_pos hfull] at hpage
    have hnext : t.row + 1 = (t.row / size.rows + 1) * size.rows := by
      rw [Nat.succ_mul, Nat.mul_comm]
      omega
    have hlaid := laid_reset size (gui.page !gui.active)
    refine ⟨by rw [hpage]; exact hlaid, ?_, by rw [hpage]; rfl, ?_, hclean⟩
    · rw [hpage, TextRoll.newline, hnext, Nat.mul_mod_left]
      rfl
    · intro line hline column hcol
      have hinside : BlGuiShellLine.Inside size ⟨line, column⟩ := ⟨hline, hcol⟩
      have hzero := hlaid.beyond (line * size.cols + column)
        (by simp [blBitmapResetPageVector, BlGuiShellLine.pos]) hinside.pos_lt
      unfold TextRoll.newline
      rw [hpage, hzero, h.clean _ _ (.inl ?_)]
      · rfl
      · dsimp only
        rw [hnext, Nat.mul_div_cancel _ hrows]
        omega
  · rw [if_neg hfull] at hpage
    have hlt := h.laid.inside.line_lt
    have hlaid := h.laid.newline (by omega)
    have hnext : (t.row + 1) / size.rows = t.row / size.rows ∧
        (t.row + 1) % size.rows = t.row % size.rows + 1 :=
      (Nat.div_mod_unique hrows).mpr ⟨by omega, by omega⟩
    refine ⟨by rw [hpage]; exact hlaid, ?_, by rw [hpage]; rfl, ?_, hclean⟩
    · rw [hpage, TextRoll.newline, hnext.2, ← hline]
    · unfold ShowsText TextRoll.newline
      rw [hpage, hnext.1]
      exact h.shows

/-- The character is lost: its cell was blank, and it stays blank or is on the other page. -/
theorem Follows.nextLine_loses (h : Follows size gui t) (hc : c ≠ 0)
    (hfull : (gui.page gui.active).currentLine.column + 1 = size.cols) :
    ¬ShowsText size (Gui.nextLine size gui) (t.put size.cols c) := by
  intro hshows
  have hcolumn := h.column
  have hline := Nat.mod_lt t.row size.rows_pos
  have hcell := hshows (t.row % size.rows) hline t.column (by omega)
  rw [TextRoll.put, if_pos (by omega)] at hcell
  dsimp only at hcell
  rw [TextRoll.write_apply, if_pos ⟨(page_row size t _).mpr rfl, rfl⟩, Option.getD_some] at hcell
  refine hc (hcell.symm.trans ?_)
  have hinside : BlGuiShellLine.Inside size ⟨t.row % size.rows, t.column⟩ :=
    ⟨hline, by dsimp only; omega⟩
  rw [nextLine_page]
  split_ifs
  · exact (laid_reset size _).beyond _ (by simp [blBitmapResetPageVector, BlGuiShellLine.pos])
      hinside.pos_lt
  · refine h.laid.beyond _ ?_ hinside.pos_lt
    unfold BlGuiShellLine.pos
    rw [h.line, h.column]

/-! ## Whole texts -/

theorem Follows.update (h : Follows size gui (layOut size.cols text)) (hs : ∀ c ∈ s, IsText c)
    (hshort : ShortLines size.cols (text ++ s)) :
    Follows size (blGuiAppUpdatePages size s gui) (layOut size.cols (text ++ s)) := by
  induction s generalizing text gui with
  | nil =>
    rw [List.append_nil]
    exact h
  | cons c s ih =>
    have hc := (hs c List.mem_cons_self).ne_zero
    have hrest : ∀ d ∈ s, IsText d := fun d hd => hs d (List.mem_cons_of_mem c hd)
    have hcolumn := h.column
    rw [hshort.before.column] at hcolumn
    rw [List.append_cons] at hshort ⊢
    have hroom := hshort.before _ List.prefix_rfl
    have hlaid := layOut_concat size.cols text c
    rw [sinceNewline_concat] at hroom
    rw [blGuiAppUpdatePages, if_neg hc]
    by_cases hnewline : c = newline
    · rw [if_pos hnewline] at hlaid
      rw [if_neg fun hstore => hstore.2 hnewline]
      exact ih (hlaid ▸ h.nextLine) hrest hshort
    · rw [if_neg hnewline] at hlaid hroom
      rw [if_pos ⟨by rw [hcolumn]; exact hroom, hnewline⟩]
      exact ih (hlaid ▸ h.store hc (by rw [hcolumn]; exact hroom)) hrest hshort

theorem flush_page (h : blGuiAppFlushPageBuffers size gui = some gui') :
    gui'.page gui'.active =
      { gui.page gui.active with updatedLine := (gui.page gui.active).currentLine } := by
  unfold blGuiAppFlushPageBuffers at h
  have hsame : (if gui.shouldScroll then
      blGuiAppCleanShellScreen size { gui with shouldScroll := false } else gui).page = gui.page ∧
      (if gui.shouldScroll then
        blGuiAppCleanShellScreen size { gui with shouldScroll := false } else gui).active =
      gui.active := by
    split_ifs
    · exact ⟨rfl, rfl⟩
    · exact ⟨rfl, rfl⟩
  obtain ⟨drawn, -, rfl⟩ := Option.map_eq_some_iff.mp h
  simp [BlGui.setPage, hsame.1, hsame.2]

theorem Follows.flush (h : Follows size gui t)
    (hflush : blGuiAppFlushPageBuffers size gui = some gui') : Follows size gui' t := by
  have hpage := flush_page hflush
  have hlaid := h.laid
  refine ⟨?_, ?_, ?_, ?_, h.clean⟩
  · rw [hpage]
    exact ⟨hlaid.inside, hlaid.filled, hlaid.beyond, hlaid.lines⟩
  · rw [hpage]
    exact h.line
  · rw [hpage]
    exact h.column
  · unfold ShowsText
    rw [hpage]
    exact h.shows

theorem follows_start (size : ShellSize) (old : Bool → BlGuiShellContent) :
    Follows size (start size old) (layOut size.cols []) := by
  have hlaid := laid_reset size (old false)
  refine ⟨hlaid, (Nat.zero_mod size.rows).symm, rfl, fun line hline column hcol => ?_,
    TextRoll.clean_blank⟩
  have hinside : BlGuiShellLine.Inside size ⟨line, column⟩ := ⟨hline, hcol⟩
  exact hlaid.beyond _ (by simp [blBitmapResetPageVector, BlGuiShellLine.pos]) hinside.pos_lt

theorem Reaches.follows (h : Reaches size old text gui) (hshort : ShortLines size.cols text) :
    Follows size gui (layOut size.cols text) := by
  induction h with
  | start => exact follows_start size old
  | update h hs ih => exact (ih hshort.before).update hs hshort
  | flush h hflush ih => exact (ih hshort).flush hflush

/-- Where a line fills a row, its last character is lost. -/
theorem long_line_loses (size : ShellSize) (old : Bool → BlGuiShellContent)
    (htext : ∀ c ∈ text, IsText c) (hlong : ¬ShortLines size.cols text) :
    ∃ text' gui, text' <+: text ∧ Reaches size old text' gui ∧
      ¬ShowsText size gui (layOut size.cols text') := by
  induction text using List.reverseRecOn with
  | nil =>
    refine absurd (fun text' hpre => ?_) hlong
    rw [List.prefix_nil.mp hpre]
    exact size.cols_pos
  | append_singleton text c ih =>
    have hbefore : ∀ d ∈ text, IsText d := fun d hd => htext d (List.mem_append_left _ hd)
    by_cases hshort : ShortLines size.cols text
    · -- The first line that fills a row ends here, and up to here the page follows the roll.
      have hc := htext c (List.mem_append_right _ List.mem_cons_self)
      have hreach : Reaches size old text (blGuiAppUpdatePages size text (start size old)) :=
        .update .start hbefore
      have hfollows := hreach.follows hshort
      have hcolumn := hfollows.column
      rw [hshort.column] at hcolumn
      have hlt := hfollows.laid.inside.column_lt
      rw [shortLines_concat hshort, sinceNewline_concat] at hlong
      split_ifs at hlong with hnewline
      · exact absurd size.cols_pos hlong
      have hone : ∀ d ∈ [c], IsText d := fun d hd => by
        rw [List.mem_singleton.mp hd]
        exact hc
      refine ⟨text ++ [c], _, List.prefix_rfl, hreach.update hone, ?_⟩
      rw [layOut_concat, if_neg hnewline, blGuiAppUpdatePages, if_neg hc.ne_zero,
        if_neg (fun hroom => hlong (hcolumn ▸ hroom.1))]
      exact hfollows.nextLine_loses hc.ne_zero (by omega)
    · obtain ⟨text', gui, hpre, hrest⟩ := ih hbefore hshort
      exact ⟨text', gui, hpre.trans (List.prefix_append _ _), hrest⟩

/-- **The console text is complete** at every point of a text exactly if no line fills a row. -/
theorem console_complete_iff (size : ShellSize) (old : Bool → BlGuiShellContent) (text : List Byte)
    (htext : ∀ c ∈ text, IsText c) :
    (∀ text' gui, text' <+: text → Reaches size old text' gui →
      ShowsText size gui (layOut size.cols text')) ↔ ShortLines size.cols text := by
  constructor
  · intro hall
    by_contra hlong
    obtain ⟨text', gui, hpre, hreach, hlost⟩ := long_line_loses size old htext hlong
    exact hlost (hall text' gui hpre hreach)
  · intro hshort text' gui hpre hreach
    exact (hreach.follows fun s hs => hshort s (hs.trans hpre)).shows

def smallShell : ShellSize := ⟨2, 3, by decide, by decide, by decide⟩

def noPages (_ : Bool) : BlGuiShellContent := ⟨⟨0, 0⟩, ⟨0, 0⟩, fun _ => 0⟩

theorem console_complete_small :
    (∀ text' gui, text' <+: [0x61, 0x62, 0x0a, 0x63] → Reaches smallShell noPages text' gui →
      ShowsText smallShell gui (layOut 3 text')) ↔ ShortLines 3 [0x61, 0x62, 0x0a, 0x63] :=
  console_complete_iff smallShell noPages [0x61, 0x62, 0x0a, 0x63] (by decide)

/-- Three characters for a row of three. -/
def threeLetters : List Byte := [0x61, 0x62, 0x63]

theorem threeLetters_not_complete :
    (∀ c ∈ threeLetters, IsText c) ∧
    Reaches smallShell noPages threeLetters
      (blGuiAppUpdatePages smallShell threeLetters (start smallShell noPages)) ∧
    ¬ShowsText smallShell
      (blGuiAppUpdatePages smallShell threeLetters (start smallShell noPages))
      (layOut smallShell.cols threeLetters) := by
  have htext : ∀ c ∈ threeLetters, IsText c := by decide
  refine ⟨htext, .update .start htext, fun hshows => ?_⟩
  exact absurd (hshows 0 (by decide) 2 (by decide)) (by decide)

end BootLoader.Gui

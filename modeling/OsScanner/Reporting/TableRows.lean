import Mathlib
import OsScanner.Reporting.Drawing
import OsScanner.Reporting.Wrapping

/-!
# The rows of a table

What a table draws is a sequence of pages, headers, rows and lines of its note. Rows are placed one
after the other; the position is the state, and a page begins where the next row would reach the
bottom margin.
-/

namespace OsScanner.Reporting

open Lib Lib.Check Lib.Pdf Storage

/-! ## What is drawn -/

/-- A row where it is drawn. -/
structure PlacedRow where
  index : Nat
  y : ℚ
  cells : List (List String)

inductive Block where
  | page
  | header (y : ℚ)
  | row (placed : PlacedRow)
  /-- A line of the note about the rows that are left out. -/
  | note (line : String) (y : ℚ)

def PlacedRow.shapes (table : Table) (placed : PlacedRow) : List Shape :=
  rowShapes table.widths placed.cells placed.index placed.y

def Block.ops (table : Table) : Block → List DrawOp
  | .page => [.page table.sectionName false]
  | .header y => (headerShapes table.headers table.widths y).map .shape
  | .row placed => (placed.shapes table).map .shape
  | .note line y => [.shape (.text line left y 8 false muted)]

def Block.placed? : Block → Option PlacedRow
  | .row placed => some placed
  | _ => none

def Block.line? : Block → Option String
  | .note line _ => some line
  | _ => none

/-- The rows among the blocks, in their order. -/
def placedRows (blocks : List Block) : List PlacedRow := blocks.filterMap Block.placed?

/-- The lines of the note among the blocks, in their order. -/
def noteLines (blocks : List Block) : List String := blocks.filterMap Block.line?

theorem placedRows_append (blocks more : List Block) :
    placedRows (blocks ++ more) = placedRows blocks ++ placedRows more := List.filterMap_append

theorem noteLines_append (blocks more : List Block) :
    noteLines (blocks ++ more) = noteLines blocks ++ noteLines more := List.filterMap_append

/-- These blocks are drawn from one layout to another. -/
def DrawsBlocks (table : Table) (blocks : List Block) (layout layout' : Layout) : Prop :=
  Draws (blocks.flatMap (Block.ops table)) layout layout'

theorem DrawsBlocks.nil {table : Table} {layout : Layout} : DrawsBlocks table [] layout layout := rfl

theorem DrawsBlocks.append {table : Table} {blocks more : List Block} {layout middle layout' : Layout}
    (h : DrawsBlocks table blocks layout middle) (hmore : DrawsBlocks table more middle layout') :
    DrawsBlocks table (blocks ++ more) layout layout' := by
  rw [DrawsBlocks, List.flatMap_append]
  exact Draws.append h hmore

theorem DrawsBlocks.one {table : Table} {block : Block} {layout layout' : Layout}
    (h : Draws (block.ops table) layout layout') : DrawsBlocks table [block] layout layout' := by
  rw [DrawsBlocks, List.flatMap_singleton]
  exact h

/-- Blocks that are pages and headers only. -/
def Bare (blocks : List Block) : Prop := placedRows blocks = [] ∧ noteLines blocks = []

theorem Bare.append {blocks more : List Block} (h : Bare blocks) (hmore : Bare more) :
    Bare (blocks ++ more) := by
  rw [Bare, placedRows_append, noteLines_append, h.1, h.2]
  exact hmore

/-! ## The limits stay -/

theorem limits_draw {shape : Shape} {canvas canvas' : Canvas} (h : canvas.draw shape = .ok canvas') :
    canvas'.limits = canvas.limits := by
  rw [Canvas.draw] at h
  split at h
  · cases h
  · obtain ⟨command, -, h⟩ := bind_eq_ok.mp h
    cases h
    rfl

theorem limits_newPage {title : String} {cover : Bool} {canvas canvas' : Canvas}
    (h : canvas.newPage title cover = .ok canvas') : canvas'.limits = canvas.limits := by
  rw [Canvas.newPage] at h
  split at h
  · cases h
  split at h
  · cases h
    rfl
  · obtain ⟨barred, hbar, h⟩ := bind_eq_ok.mp h
    obtain ⟨drawn, hdraw, h⟩ := bind_eq_ok.mp h
    cases h
    have hbarred := limits_draw hbar
    have hdrawn := limits_draw hdraw
    exact hdrawn.trans hbarred

theorem Draws.limits {ops : List DrawOp} : ∀ {layout layout' : Layout}, Draws ops layout layout' →
    layout'.limits = layout.limits := by
  have hops : ∀ {ops : List DrawOp} {canvas canvas' : Canvas},
      ops.foldlM Canvas.perform canvas = .ok canvas' → canvas'.limits = canvas.limits := by
    intro ops
    induction ops with
    | nil =>
      intro canvas canvas' h
      cases h
      rfl
    | cons op ops ih =>
      intro canvas canvas' h
      rw [List.foldlM_cons] at h
      obtain ⟨middle, hop, hrest⟩ := bind_eq_ok.mp h
      refine (ih hrest).trans ?_
      cases op with
      | page title cover => exact limits_newPage hop
      | shape shape => exact limits_draw hop
  intro layout layout' h
  exact hops h

/-! ## The header -/

/-- The header with room for it. -/
theorem draws_tableHeader_room {table : Table} {layout layout' : Layout}
    (hroom : bottom ≤ layout.y - 23) (h : layout.tableHeader table = .ok layout') :
    DrawsBlocks table [.header layout.y] layout layout' ∧ layout'.y = layout.y - 23 := by
  rw [Layout.tableHeader, bind_eq_ok] at h
  obtain ⟨ensured, hensure, h⟩ := h
  obtain ⟨drawn, hdrawn, h⟩ := bind_eq_ok.mp h
  cases h
  rw [Layout.ensure, if_neg (not_lt.mpr hroom)] at hensure
  cases hensure
  obtain ⟨hdraws, hy⟩ := Layout.draws_drawAll hdrawn
  refine ⟨DrawsBlocks.one (hdraws.moved _), ?_⟩
  rw [Layout.down, hy]

theorem draws_tableHeader {table : Table} {layout layout' : Layout}
    (h : layout.tableHeader table = .ok layout') :
    ∃ blocks, DrawsBlocks table blocks layout layout' ∧ Bare blocks := by
  rw [Layout.tableHeader, bind_eq_ok] at h
  obtain ⟨ensured, hensure, h⟩ := h
  obtain ⟨drawn, hdrawn, h⟩ := bind_eq_ok.mp h
  cases h
  have hheader : DrawsBlocks table [.header ensured.y] ensured (drawn.down 23) :=
    DrawsBlocks.one ((Layout.draws_drawAll hdrawn).1.moved _)
  obtain ⟨rfl, -⟩ | ⟨hpage, -⟩ := Layout.draws_ensure hensure
  · exact ⟨_, hheader, rfl, rfl⟩
  · have hfirst : DrawsBlocks table [.page] layout ensured := DrawsBlocks.one hpage
    exact ⟨_, hfirst.append hheader, rfl, rfl⟩

/-! ## Cells -/

theorem le_foldr_max {n : Nat} {l : List Nat} (h : n ∈ l) : n ≤ l.foldr max 0 := by
  induction l with
  | nil => cases h
  | cons m l ih =>
    rcases List.mem_cons.mp h with rfl | h
    · exact le_max_left _ _
    · exact (ih h).trans (le_max_right _ _)

theorem foldr_max_le {bound : Nat} {l : List Nat} (h : ∀ n ∈ l, n ≤ bound) : l.foldr max 0 ≤ bound := by
  induction l with
  | nil => exact Nat.zero_le _
  | cons m l ih =>
    rw [List.forall_mem_cons] at h
    exact max_le h.1 (ih h.2)

theorem length_cutLines_le (lines : List String) : (cutLines lines).length ≤ 18 := by
  rw [cutLines]
  split
  · simp
  next hshort => exact not_lt.mp hshort

theorem length_le_of_mem_shownCells {limits : PdfRenderLimits} {widths : List ℚ} {row : List String}
    {lines : List String} (h : lines ∈ shownCells limits widths row) : lines.length ≤ 18 := by
  rw [shownCells, List.mem_iff_getElem] at h
  obtain ⟨n, hn, rfl⟩ := h
  rw [List.getElem_zipWith]
  exact length_cutLines_le _

/-- A row fits on a page with its header. -/
theorem rowHeight_le {cells : List (List String)} (h : ∀ lines ∈ cells, lines.length ≤ 18) :
    rowHeight cells ≤ 170 := by
  have hlines : (cells.map List.length).foldr max 0 ≤ 18 :=
    foldr_max_le (List.forall_mem_map.mpr h)
  have hcast : (((cells.map List.length).foldr max 0 : Nat) : ℚ) ≤ 18 := by exact_mod_cast hlines
  rw [rowHeight]
  refine max_le (by norm_num) ?_
  linarith

/-- The lines of a cell are within the height of its row. -/
theorem lines_le_rowHeight {cells : List (List String)} {lines : List String} (h : lines ∈ cells) :
    (lines.length : ℚ) * 9 + 8 ≤ rowHeight cells := by
  have hlines : lines.length ≤ (cells.map List.length).foldr max 0 :=
    le_foldr_max (List.mem_map_of_mem h)
  have hcast : (lines.length : ℚ) ≤ (((cells.map List.length).foldr max 0 : Nat) : ℚ) := by
    exact_mod_cast hlines
  rw [rowHeight]
  refine le_max_of_le_right ?_
  linarith

theorem lowest_cellShapes {x y : ℚ} {lines : List String} {shape : Shape}
    (h : shape ∈ cellShapes x y lines) : y - lines.length * 9 ≤ shape.lowest := by
  rw [cellShapes, List.mem_map] at h
  obtain ⟨⟨line, n⟩, hline, rfl⟩ := h
  have hn : n < lines.length := by
    have hget := List.mk_mem_zipIdx_iff_getElem?.mp hline
    exact (List.getElem?_eq_some_iff.mp hget).1
  have hcast : (n : ℚ) + 1 ≤ lines.length := by exact_mod_cast hn
  show y - lines.length * 9 ≤ y - 7 - n * 9
  linarith

theorem lowest_rowTexts {y bound : ℚ} : ∀ {x : ℚ} {cells : List (List String × ℚ)},
    (∀ cell ∈ cells, bound ≤ y - cell.1.length * 9) →
      ∀ shape ∈ rowTexts y x cells, bound ≤ shape.lowest := by
  intro x cells
  induction cells generalizing x with
  | nil => exact fun _ _ h => nomatch h
  | cons cell cells ih =>
    intro hcells shape hshape
    rw [List.forall_mem_cons] at hcells
    obtain ⟨lines, width⟩ := cell
    rw [rowTexts, List.mem_append] at hshape
    rcases hshape with hshape | hshape
    · exact hcells.1.trans (lowest_cellShapes hshape)
    · exact ih hcells.2 shape hshape

/-- A row with room for it is above the bottom margin. -/
theorem lowest_rowShapes {table : Table} {placed : PlacedRow}
    (hroom : bottom ≤ placed.y - rowHeight placed.cells) :
    ∀ shape ∈ placed.shapes table, bottom ≤ shape.lowest := by
  intro shape hshape
  rw [PlacedRow.shapes, rowShapes, List.mem_append, List.mem_cons] at hshape
  rcases hshape with (rfl | hshape) | hshape
  · show bottom ≤ placed.y - rowHeight placed.cells + 5
    linarith
  · refine lowest_rowTexts (fun cell hcell => ?_) shape hshape
    have hlines := lines_le_rowHeight (List.of_mem_zip (show (cell.1, cell.2) ∈ _ from hcell)).1
    linarith
  · rw [List.mem_singleton.mp hshape]
    refine le_min ?_ ?_
    all_goals
      show bottom ≤ placed.y - rowHeight placed.cells + 5
      linarith

/-! ## Which texts a row draws -/

def Shape.value? : Shape → Option String
  | .text value .. => some value
  | _ => none

theorem values_cellShapes (x y : ℚ) (lines : List String) :
    (cellShapes x y lines).filterMap Shape.value? = lines := by
  rw [cellShapes, List.filterMap_map]
  show lines.zipIdx.filterMap (fun line => some line.1) = lines
  rw [List.filterMap_eq_map', List.zipIdx_map_fst]

theorem values_rowTexts (y : ℚ) : ∀ (x : ℚ) (cells : List (List String × ℚ)),
    (rowTexts y x cells).filterMap Shape.value? = cells.flatMap Prod.fst := by
  intro x cells
  induction cells generalizing x with
  | nil => rfl
  | cons cell cells ih =>
    obtain ⟨lines, width⟩ := cell
    rw [rowTexts, List.filterMap_append, values_cellShapes, ih, List.flatMap_cons]

/-- Every line of every cell is drawn, cell by cell. -/
theorem values_rowShapes {table : Table} {placed : PlacedRow}
    (hlength : placed.cells.length = table.widths.length) :
    (placed.shapes table).filterMap Shape.value? = placed.cells.flatten := by
  rw [PlacedRow.shapes, rowShapes, List.filterMap_append, List.filterMap_cons, values_rowTexts]
  show (placed.cells.zip table.widths).flatMap Prod.fst ++ [] = _
  rw [List.append_nil, List.flatMap_def, List.map_fst_zip hlength.le]

/-! ## Rows -/

/-- The cell shows all lines of its value, or the first ones and the mark that says so. -/
def Shows (limits : PdfRenderLimits) (cell : String × ℚ) (lines : List String) : Prop :=
  lines = wrappedLines limits cell.1 (cell.2 - 8) 7.2 ∨
    lines = (wrappedLines limits cell.1 (cell.2 - 8) 7.2).take 17 ++ [cutMark]

/-- A row that is drawn: its cells, with all of their lines, above the bottom margin. -/
structure RowDrawn (limits : PdfRenderLimits) (table : Table) (row : List String)
    (placed : PlacedRow) : Prop where
  length : row.length = table.widths.length
  cells : List.Forall₂ (Shows limits) (row.zip table.widths) placed.cells
  lines : (placed.shapes table).filterMap Shape.value? = placed.cells.flatten
  above : ∀ shape ∈ placed.shapes table, bottom ≤ shape.lowest

theorem shows_shownCells {limits : PdfRenderLimits} : ∀ {row : List String} {widths : List ℚ},
    List.Forall₂ (Shows limits) (row.zip widths) (shownCells limits widths row) := by
  intro row
  induction row with
  | nil => exact fun {widths} => List.Forall₂.nil
  | cons value row ih =>
    intro widths
    cases widths with
    | nil => exact List.Forall₂.nil
    | cons width widths =>
      refine List.Forall₂.cons ?_ ih
      show Shows limits (value, width) (cutLines (wrappedLines limits value (width - 8) 7.2))
      by_cases hlong : (wrappedLines limits value (width - 8) 7.2).length > 18
      · exact .inr (if_pos hlong)
      · exact .inl (if_neg hlong)

/-- Before a row there is room for it, on this page or on the next one. -/
theorem draws_roomForRow {table : Table} {height : ℚ} {layout layout' : Layout}
    (hheight : height ≤ 170) (h : layout.roomForRow table height = .ok layout') :
    (∃ blocks, DrawsBlocks table blocks layout layout' ∧ Bare blocks) ∧
      bottom ≤ layout'.y - height := by
  rw [Layout.roomForRow] at h
  split at h
  · obtain ⟨paged, hpage, h⟩ := bind_eq_ok.mp h
    obtain ⟨hdraws, hy⟩ := Layout.draws_newPage hpage
    rw [if_neg Bool.false_ne_true] at hy
    have hroom : bottom ≤ paged.y - 23 := by
      rw [hy]
      norm_num [bottom, pageHeight, top]
    obtain ⟨hheader, hy'⟩ := draws_tableHeader_room hroom h
    have hfirst : DrawsBlocks table [.page] layout paged := DrawsBlocks.one hdraws
    refine ⟨⟨_, hfirst.append hheader, rfl, rfl⟩, ?_⟩
    rw [hy', hy]
    norm_num [bottom, pageHeight, top]
    linarith
  next hroom =>
    cases h
    exact ⟨⟨[], .nil, rfl, rfl⟩, not_lt.mp hroom⟩

/-- One turn of the loop draws its row once, and nothing else but pages and headers. -/
theorem draws_tableRow {table : Table} {index : Nat} {row : List String} {layout layout' : Layout}
    (hwidths : table.headers.length = table.widths.length)
    (h : layout.tableRow table index row = .ok layout') :
    ∃ blocks placed, DrawsBlocks table blocks layout layout' ∧ placedRows blocks = [placed] ∧
      noteLines blocks = [] ∧ placed.index = index ∧ RowDrawn layout.limits table row placed := by
  rw [Layout.tableRow] at h
  split at h
  · cases h
  next hlength =>
    rw [not_not] at hlength
    obtain ⟨room, hroom, h⟩ := bind_eq_ok.mp h
    obtain ⟨drawn, hdrawn, h⟩ := bind_eq_ok.mp h
    cases h
    obtain ⟨⟨blocks, hblocks, hrows, hnote⟩, habove⟩ := draws_roomForRow
      (rowHeight_le fun lines hlines => length_le_of_mem_shownCells hlines) hroom
    let placed : PlacedRow := ⟨index, room.y, shownCells layout.limits table.widths row⟩
    have hrow : DrawsBlocks table [.row placed] room (drawn.down (rowHeight placed.cells)) :=
      DrawsBlocks.one ((Layout.draws_drawAll hdrawn).1.moved _)
    have hcells : placed.cells.length = table.widths.length := by
      show (List.zipWith _ row table.widths).length = _
      rw [List.length_zipWith, hlength, hwidths, min_self]
    refine ⟨blocks ++ [.row placed], placed, hblocks.append hrow, ?_, ?_, rfl, ?_⟩
    · rw [placedRows_append, hrows]
      rfl
    · rw [noteLines_append, hnote]
      rfl
    · exact
        { length := hlength.trans hwidths
          cells := shows_shownCells
          lines := values_rowShapes hcells
          above := lowest_rowShapes habove }

/-- The loop draws each of its rows once, in their order. -/
theorem draws_tableRows {table : Table} (hwidths : table.headers.length = table.widths.length) :
    ∀ {rows : List (List String)} {index : Nat} {layout layout' : Layout},
      Layout.tableRows table rows index layout = .ok layout' →
        ∃ blocks, DrawsBlocks table blocks layout layout' ∧ noteLines blocks = [] ∧
          (placedRows blocks).map PlacedRow.index = List.range' index rows.length ∧
          List.Forall₂ (RowDrawn layout.limits table) rows (placedRows blocks) := by
  intro rows
  induction rows with
  | nil =>
    intro index layout layout' h
    cases h
    exact ⟨[], .nil, rfl, rfl, .nil⟩
  | cons row rows ih =>
    intro index layout layout' h
    rw [Layout.tableRows, bind_eq_ok] at h
    obtain ⟨middle, hrow, hrest⟩ := h
    obtain ⟨blocks, placed, hblocks, hplaced, hnote, hindex, hdrawn⟩ := draws_tableRow hwidths hrow
    obtain ⟨more, hmore, hnote', hindices, hdrawn'⟩ := ih hrest
    rw [Draws.limits hblocks] at hdrawn'
    refine ⟨blocks ++ more, hblocks.append hmore, ?_, ?_, ?_⟩
    · rw [noteLines_append, hnote, hnote']
      rfl
    · rw [placedRows_append, hplaced, List.map_append, hindices, List.length_cons, List.range'_succ]
      show placed.index :: _ = _
      rw [hindex]
      rfl
    · rw [placedRows_append, hplaced]
      exact .cons hdrawn hdrawn'

/-! ## The note -/

theorem draws_noteLines {table : Table} : ∀ {lines : List String} {layout layout' : Layout},
    Layout.textLines table.sectionName 8 12 muted false lines layout = .ok layout' →
      ∃ blocks, DrawsBlocks table blocks layout layout' ∧ placedRows blocks = [] ∧
        noteLines blocks = lines := by
  intro lines
  induction lines with
  | nil =>
    intro layout layout' h
    cases h
    exact ⟨[], .nil, rfl, rfl⟩
  | cons line lines ih =>
    intro layout layout' h
    rw [Layout.textLines, bind_eq_ok] at h
    obtain ⟨ensured, hensure, h⟩ := h
    obtain ⟨drawn, hdraw, h⟩ := bind_eq_ok.mp h
    obtain ⟨blocks, hblocks, hrows, hnote⟩ := ih h
    have hline : DrawsBlocks table [.note line ensured.y] ensured (drawn.down 12) :=
      DrawsBlocks.one ((Layout.draws_draw hdraw).1.moved _)
    obtain ⟨rfl, -⟩ | ⟨hpage, -⟩ := Layout.draws_ensure hensure
    · exact ⟨_, hline.append hblocks, hrows, congrArg _ hnote⟩
    · have hfirst : DrawsBlocks table [.page] layout ensured := DrawsBlocks.one hpage
      exact ⟨_, (hfirst.append hline).append hblocks, hrows, congrArg _ hnote⟩

/-- What follows the number in the note. -/
def noteText : List Char :=
  (" additional records omitted from the PDF presentation; " ++
    "the canonical JSON contains the complete dataset.").toList

theorem collapse_word {word : List Char} (h : ∀ c ∈ word, isSpace c = false) (rest : List Char) :
    collapse false (word ++ rest) = word ++ collapse false rest := by
  induction word with
  | nil => rfl
  | cons c word ih =>
    rw [List.forall_mem_cons] at h
    rw [List.cons_append, collapse, h.1, if_neg Bool.false_ne_true, ih h.2, List.cons_append]

/-- Cleaning leaves a number with the text of the note as it is. -/
theorem tidied_note {digits : List Char} (hne : digits ≠ []) (hdigits : ∀ c ∈ digits, c.isDigit = true) :
    tidied (digits ++ noteText) = digits ++ noteText := by
  have hplain : ∀ c : Char, c.isDigit = true → isPdfControl c = false ∧ c ≠ '\r' ∧ c ≠ '\n' ∧
      isSpace c = false := by
    intro c hc
    simp only [Char.isDigit, Bool.and_eq_true, decide_eq_true_eq, ge_iff_le, UInt32.le_iff_toNat_le] at hc
    change 48 ≤ c.toNat ∧ c.toNat ≤ 57 at hc
    refine ⟨decide_eq_false (by omega), ?_, ?_, decide_eq_false (by omega)⟩
    · rintro rfl
      exact absurd hc.1 (by decide)
    · rintro rfl
      exact absurd hc.1 (by decide)
  have hshown : digits.map (fun c => if isPdfControl c then '?' else if c = '\r' ∨ c = '\n' then ' '
      else c) = digits := by
    refine (List.map_congr_left fun c hc => ?_).trans (List.map_id _)
    obtain ⟨hcontrol, hreturn, hfeed, -⟩ := hplain c (hdigits c hc)
    rw [hcontrol, if_neg Bool.false_ne_true, if_neg fun h => h.elim hreturn hfeed]
    rfl
  have hspace : ∀ c ∈ digits, isSpace c = false := fun c hc => (hplain c (hdigits c hc)).2.2.2
  have hnote : noteText.map (fun c => if isPdfControl c then '?' else if c = '\r' ∨ c = '\n' then ' '
      else c) = noteText ∧ collapse false noteText = noteText := by
    decide +kernel
  have hlast : IsWordText ['.'] := ⟨List.cons_ne_nil _ _, List.forall_mem_singleton.mpr (by decide)⟩
  have hsplit : noteText = noteText.dropLast ++ ['.'] := by decide +kernel
  obtain ⟨d, rest, rfl⟩ := List.exists_cons_of_ne_nil hne
  have hd : ¬ isSpace d = true := by
    rw [hspace d List.mem_cons_self]
    exact Bool.false_ne_true
  rw [tidied, List.map_append, hshown, hnote.1, collapse_word hspace, hnote.2,
    List.cons_append, List.dropWhile_cons_of_neg hd]
  have hkept := @rdropWhile_word (d :: rest ++ noteText.dropLast) ['.'] hlast
  rwa [List.append_assoc, ← hsplit] at hkept

theorem prefix_noteText : " additional".toList <+: noteText := by decide +kernel

/-- The note begins with its number, however short the cells are cut. -/
theorem announced (limits : PdfRenderLimits) {omitted : Nat} (h : (toString omitted).length ≤ 39) :
    (toString omitted ++ " additional").toList <+:
      (cleanText (Layout.omittedNote omitted) limits.maxCellCharacters).toList := by
  have hdigits : (toString omitted).toList = Nat.toDigits 10 omitted := Nat.toList_repr
  have hnote : (Layout.omittedNote omitted).toList = (toString omitted).toList ++ noteText := by
    rw [Layout.omittedNote, String.append_assoc, String.toList_append]
    exact congrArg _ rfl
  have hbegins : (toString omitted ++ " additional").toList <+: (toString omitted).toList ++ noteText := by
    obtain ⟨more, hmore⟩ := prefix_noteText
    rw [String.toList_append, ← hmore, ← List.append_assoc]
    exact List.prefix_append _ _
  have hlength : (toString omitted ++ " additional").toList.length ≤ 50 := by
    rw [String.length_toList, String.length_append]
    have hword : " additional".length = 11 := rfl
    omega
  have htidied : tidied (Layout.omittedNote omitted).toList = (toString omitted).toList ++ noteText := by
    rw [hnote, hdigits]
    exact tidied_note Nat.toDigits_ne_nil fun c hc =>
      Nat.isDigit_of_mem_toDigits (by decide) (by decide) hc
  have hlimit := limits.characters_range.1
  rw [cleanText, htidied]
  split
  · refine (List.prefix_take_iff.mpr ⟨hbegins, by omega⟩ : _ <+: List.take
      (limits.maxCellCharacters - 14) _).trans ?_
    rw [String.toList_append, String.toList_ofList]
    exact List.prefix_append _ _
  · rw [String.toList_ofList]
    exact hbegins

/-! ## Tables -/

/-- What is drawn of a table. -/
structure TableDrawn (table : Table) (blocks : List Block) (layout layout' : Layout) : Prop where
  draws : DrawsBlocks table blocks layout layout'
  /-- The rows that are drawn, each once, in their order. -/
  indices : (placedRows blocks).map PlacedRow.index = List.range (placedRows blocks).length
  rows : List.Forall₂ (RowDrawn layout.limits table)
    (table.rows.take layout.limits.maxRowsPerSection) (placedRows blocks)
  /-- The note is about the rows that are not drawn. -/
  note : noteLines blocks =
    if table.rows.length - (placedRows blocks).length = 0 then []
    else wrappedLines layout.limits (Layout.omittedNote (table.rows.length - (placedRows blocks).length))
      contentWidth 8

theorem tableDrawn_of_table {table : Table} {layout layout' : Layout}
    (h : layout.table table = .ok layout') : ∃ blocks, TableDrawn table blocks layout layout' := by
  rw [Layout.table] at h
  split at h
  · cases h
  next hcolumns =>
  split at h
  · cases h
  obtain ⟨headed, hheader, h⟩ := bind_eq_ok.mp h
  obtain ⟨rowed, hrows, h⟩ := bind_eq_ok.mp h
  rw [not_or, not_not] at hcolumns
  obtain ⟨blocks, hblocks, hbare, hbare'⟩ := draws_tableHeader hheader
  obtain ⟨more, hmore, hnote, hindices, hdrawn⟩ := draws_tableRows hcolumns.1 hrows
  rw [Draws.limits hblocks] at hdrawn
  have hlength := hdrawn.length_eq
  have hplaced : placedRows (blocks ++ more) = placedRows more := by
    rw [placedRows_append, hbare, List.nil_append]
  have hlines : noteLines (blocks ++ more) = [] := by
    rw [noteLines_append, hbare', hnote]
    rfl
  rw [hlength, ← List.range_eq_range'] at hindices
  dsimp only at h
  rw [hlength] at h
  split at h
  next hall =>
    cases h
    exact ⟨blocks ++ more,
      { draws := (hblocks.append hmore).moved _
        indices := by rw [hplaced, hindices]
        rows := hplaced ▸ hdrawn
        note := by rw [hlines, hplaced, if_pos hall] }⟩
  next hsome =>
    obtain ⟨noted, hnoted, h⟩ := bind_eq_ok.mp h
    obtain ⟨lined, hlined, hdone⟩ := bind_eq_ok.mp hnoted
    cases hdone
    cases h
    obtain ⟨notes, hnotes, hnone, htext⟩ := draws_noteLines hlined
    have hlimits := (Draws.limits hmore).trans (Draws.limits hblocks)
    rw [hlimits] at htext
    have hrows' : placedRows (blocks ++ more ++ notes) = placedRows more := by
      rw [placedRows_append, hplaced, hnone, List.append_nil]
    exact ⟨blocks ++ more ++ notes,
      { draws := ((hblocks.append hmore).append hnotes).moved _
        indices := by rw [hrows', hindices]
        rows := hrows' ▸ hdrawn
        note := by rw [noteLines_append, hlines, htext, hrows', if_neg hsome, List.nil_append] }⟩

/-- One row is shown, of the two that the table has. -/
def hostTable : Table where
  headers := ["Host", "Detail"]
  widths := [200, 323]
  rows := [["db-1", "listens on 5432"], ["db-2", "listens on 5432"]]
  sectionName := "Hosts"

def oneRowLimits : PdfRenderLimits where
  maxRowsPerSection := 1
  maxCellCharacters := 64
  pages_range := by decide
  rows_range := by decide
  characters_range := by decide

def hostLayout : Layout where
  limits := oneRowLimits
  page := some { sectionName := "Hosts" }
  y := 778

end OsScanner.Reporting

import Mathlib
import OsScanner.Reporting.Layout

/-!
# Tables of the PDF report

`table` of `_Layout`: a header, the rows that are shown with lines of wrapped text, page breaks with
the header again, and a note about the rows that are left out.
-/

namespace OsScanner.Reporting

open Lib Lib.Pdf Storage

/-- What `table` is called with. -/
structure Table where
  headers : List String
  widths : List ℚ
  rows : List (List String)
  sectionName : String

/-- `math.isclose(a, b, abs_tol=…)` -/
def isClose (a b tolerance : ℚ) : Bool :=
  decide (|a - b| ≤ max (1 / 10 ^ 9 * max |a| |b|) tolerance)

/-! ## The method -/

def cutMark : String := "...<complete value in canonical JSON>"

/-- `del lines[17:]` of a cell with more than 18 lines, and the mark that says so -/
def cutLines (lines : List String) : List String :=
  if lines.length > 18 then lines.take 17 ++ [cutMark] else lines

/-- The lines of the cells of a row. -/
def shownCells (limits : PdfRenderLimits) (widths : List ℚ) (row : List String) :
    List (List String) :=
  List.zipWith (fun value width => cutLines (wrappedLines limits value (width - 8) 7.2)) row widths

def rowHeight (cells : List (List String)) : ℚ :=
  max 19 ((cells.map List.length).foldr max 0 * 9 + 8)

def rowFill (index : Nat) : Color := if index % 2 = 0 then white else light

/-- The texts of a cell, line by line. -/
def cellShapes (x y : ℚ) (lines : List String) : List Shape :=
  lines.zipIdx.map fun line => .text line.1 x (y - 7 - line.2 * 9) 7.2 false ink

/-- The cells of a row, from left to right. -/
def rowTexts (y : ℚ) : ℚ → List (List String × ℚ) → List Shape
  | _, [] => []
  | x, (lines, width) :: cells => cellShapes x y lines ++ rowTexts y (x + width) cells

/-- What a row draws: its background, its cells, and the line below it. -/
def rowShapes (widths : List ℚ) (cells : List (List String)) (index : Nat) (y : ℚ) : List Shape :=
  let height := rowHeight cells
  .rect left (y - height + 5) contentWidth height (rowFill index) none ::
    rowTexts y (left + 4) (cells.zip widths) ++
    [.line left (y - height + 5) (left + contentWidth) (y - height + 5) border]

/-- The labels of the header, from left to right. -/
def headerTexts (y : ℚ) : ℚ → List (String × ℚ) → List Shape
  | _, [] => []
  | x, (label, width) :: cells =>
    .text label x (y - 8) 7 true white :: headerTexts y (x + width) cells

def headerShapes (headers : List String) (widths : List ℚ) (y : ℚ) : List Shape :=
  .rect left (y - 15) contentWidth 21 navy none :: headerTexts y (left + 4) (headers.zip widths)

namespace Layout

def drawAll (shapes : List Shape) (layout : Layout) : Except PdfError Layout :=
  shapes.foldlM (fun layout shape => layout.draw shape) layout

/-- `header()` -/
def tableHeader (table : Table) (layout : Layout) : Except PdfError Layout := do
  let layout ← layout.ensure 23 table.sectionName
  let layout ← layout.drawAll (headerShapes table.headers table.widths layout.y)
  .ok (layout.down 23)

/-- `if self.y - row_height < _BOTTOM: self.new_page(section); header()` -/
def roomForRow (table : Table) (height : ℚ) (layout : Layout) : Except PdfError Layout :=
  if layout.y - height < bottom then do
    let layout ← layout.newPage table.sectionName false
    layout.tableHeader table
  else .ok layout

/-- One turn of the loop over the rows. -/
def tableRow (table : Table) (index : Nat) (row : List String) (layout : Layout) :
    Except PdfError Layout :=
  if row.length ≠ table.headers.length then .error "PDF table row has the wrong number of cells"
  else do
    let cells := shownCells layout.limits table.widths row
    let layout ← layout.roomForRow table (rowHeight cells)
    let layout ← layout.drawAll (rowShapes table.widths cells index layout.y)
    .ok (layout.down (rowHeight cells))

/-- The loop over the rows, from this one on. -/
def tableRows (table : Table) : List (List String) → Nat → Layout → Except PdfError Layout
  | [], _, layout => .ok layout
  | row :: rows, index, layout => do
    let layout ← layout.tableRow table index row
    tableRows table rows (index + 1) layout

/-- The note about the rows that are left out. -/
def omittedNote (omitted : Nat) : String :=
  toString omitted ++ " additional records omitted from the PDF presentation; " ++
    "the canonical JSON contains the complete dataset."

/-- `table(headers, widths, rows, section=…)` -/
def table (table : Table) (layout : Layout) : Except PdfError Layout :=
  if table.headers.length ≠ table.widths.length ∨ table.headers = [] then
    .error "PDF table columns are inconsistent"
  else if isClose table.widths.sum contentWidth 0.2 = false then
    .error "PDF table widths must fill the content area"
  else do
    let shown := table.rows.take layout.limits.maxRowsPerSection
    let layout ← layout.tableHeader table
    let layout ← tableRows table shown 0 layout
    let omitted := table.rows.length - shown.length
    let layout ← if omitted = 0 then .ok layout
      else layout.paragraph (omittedNote omitted) table.sectionName contentWidth 8 12 muted false
    .ok (layout.down 8)

end Layout

end OsScanner.Reporting

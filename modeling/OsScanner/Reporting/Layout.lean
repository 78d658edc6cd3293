import Mathlib
import OsScanner.Reporting.PdfText

/-!
# The layout of the PDF report

`_Layout` of `app/reporting/pdf_report.py`. What is drawn on the pages is one thing, and where the next
thing goes another: an operation draws at a place of its own, and a method of the layout draws some
operations and moves on.
-/

namespace OsScanner.Reporting

open Lib Lib.Pdf Storage

/-! ## Constants -/

def pageWidth : ℚ := 595
def pageHeight : ℚ := 842
def left : ℚ := 36
def right : ℚ := 36
def top : ℚ := 54
def bottom : ℚ := 42
def contentWidth : ℚ := pageWidth - left - right

def navy : Color := ⟨0.075, 0.102, 0.180⟩
def ink : Color := ⟨0.105, 0.137, 0.208⟩
def muted : Color := ⟨0.35, 0.39, 0.48⟩
def purple : Color := ⟨0.42, 0.12, 0.96⟩
def light : Color := ⟨0.965, 0.972, 0.985⟩
def white : Color := ⟨1, 1, 1⟩
def border : Color := ⟨0.84, 0.86, 0.91⟩

/-- `PdfRenderLimits` -/
structure PdfRenderLimits where
  maxPages : Nat := 500
  maxRowsPerSection : Nat := 1000
  maxCellCharacters : Nat := 2048
  pages_range : 1 ≤ maxPages ∧ maxPages ≤ 2000
  rows_range : 1 ≤ maxRowsPerSection ∧ maxRowsPerSection ≤ 10000
  characters_range : 64 ≤ maxCellCharacters ∧ maxCellCharacters ≤ 16384

/-! ## Operations -/

/-- `_Page` -/
structure Page where
  commands : List String := []
  sectionName : String

/-- The pages: those that are finished, and the one that is drawn on. -/
structure Canvas where
  limits : PdfRenderLimits
  finished : List Page := []
  page : Option Page := none

def Canvas.pages (canvas : Canvas) : List Page := canvas.finished ++ canvas.page.toList

/-- What is drawn on a page. -/
inductive Shape where
  | rect (x y width height : ℚ) (fill : Color) (stroke : Option Color)
  | line (x1 y1 x2 y2 : ℚ) (color : Color)
  | text (value : String) (x y size : ℚ) (bold : Bool) (color : Color)

def rectCommand (x y width height : ℚ) (fill : Color) (stroke : Option Color) : String :=
  "q " ++ fill.text ++ " rg " ++ (stroke.elim "" fun color => color.text ++ " RG 0.5 w ") ++
    number x ++ " " ++ number y ++ " " ++ number width ++ " " ++ number height ++ " re " ++
    (if stroke.isSome then "B" else "f") ++ " Q"

def lineCommand (x1 y1 x2 y2 : ℚ) (color : Color) : String :=
  "q " ++ color.text ++ " RG 0.5 w " ++ number x1 ++ " " ++ number y1 ++ " m " ++ number x2 ++ " " ++
    number y2 ++ " l S Q"

/-- What stands before the literal of a text. -/
def textStart (x y size : ℚ) (bold : Bool) (color : Color) : String :=
  "BT /" ++ (if bold then "F2" else "F1") ++ " " ++ number size ++ " Tf " ++ color.text ++
    " rg 1 0 0 1 " ++ number x ++ " " ++ number y ++ " Tm "

/-- The command that `rect`, `line` or `text` appends. -/
def Shape.command : Shape → Except PdfError String
  | .rect x y width height fill stroke => .ok (rectCommand x y width height fill stroke)
  | .line x1 y1 x2 y2 color => .ok (lineCommand x1 y1 x2 y2 color)
  | .text value x y size bold color => do
    let literal ← pdfLiteral value
    .ok (textStart x y size bold color ++ literal ++ " Tj ET")

/-- The lowest point of a shape; the height of a rectangle is not negative. -/
def Shape.lowest : Shape → ℚ
  | .rect _ y _ _ _ _ => y
  | .line _ y1 _ y2 _ => min y1 y2
  | .text _ _ y _ _ _ => y

/-- `self._active().commands.append(…)` -/
def Canvas.draw (shape : Shape) (canvas : Canvas) : Except PdfError Canvas :=
  match canvas.page with
  | none => .error "a PDF page has not been initialized"
  | some page => do
    let command ← shape.command
    .ok { canvas with page := some { page with commands := page.commands ++ [command] } }

/-- The bar at the top of a page that is no cover. -/
def pageBar (title : String) : List Shape :=
  [.rect 0 (pageHeight - 35) pageWidth 35 navy none,
    .text title left (pageHeight - 23) 9 true white]

/-- What `new_page` does to the pages. -/
def Canvas.newPage (title : String) (cover : Bool) (canvas : Canvas) : Except PdfError Canvas :=
  if canvas.pages.length ≥ canvas.limits.maxPages then
    .error ("PDF exceeds " ++ toString canvas.limits.maxPages ++ " pages")
  else
    let title := cleanText title 128
    let canvas := { canvas with finished := canvas.pages, page := some { sectionName := title } }
    if cover then .ok canvas else (pageBar title).foldlM (fun canvas shape => canvas.draw shape) canvas

/-- What a method of the layout does to the pages. -/
inductive DrawOp where
  | page (title : String) (cover : Bool)
  | shape (shape : Shape)

def Canvas.perform (canvas : Canvas) : DrawOp → Except PdfError Canvas
  | .page title cover => canvas.newPage title cover
  | .shape shape => canvas.draw shape

/-! ## Methods -/

/-- `_Layout` -/
structure Layout extends Canvas where
  y : ℚ := 0

namespace Layout

/-- `new_page(section, cover=…)` -/
def newPage (title : String) (cover : Bool) (layout : Layout) : Except PdfError Layout := do
  let canvas ← layout.toCanvas.newPage title cover
  let y := pageHeight - top
  .ok { toCanvas := canvas, y := if cover then y else y - 10 }

/-- `rect(…)`, `line(…)` and `text(…)` -/
def draw (shape : Shape) (layout : Layout) : Except PdfError Layout := do
  let canvas ← layout.toCanvas.draw shape
  .ok { layout with toCanvas := canvas }

def down (distance : ℚ) (layout : Layout) : Layout := { layout with y := layout.y - distance }

/-- `ensure(height, section)` -/
def ensure (height : ℚ) (title : String) (layout : Layout) : Except PdfError Layout :=
  if layout.y - height < bottom then layout.newPage title false else .ok layout

/-- The loop of `paragraph`. -/
def textLines (title : String) (size leading : ℚ) (color : Color) (bold : Bool) :
    List String → Layout → Except PdfError Layout
  | [], layout => .ok layout
  | line :: lines, layout => do
    let layout ← layout.ensure leading title
    let layout ← layout.draw (.text line left layout.y size bold color)
    textLines title size leading color bold lines (layout.down leading)

end Layout

/-! ## Wrapping -/

/-- `max(8, int(width / max(1.0, size * 0.52)))` -/
def capacity (width size : ℚ) : Nat :=
  max 8 (Int.toNat (width / max 1 (size * 0.52)).floor)

/-- `[word[index : index + capacity] for index in range(0, len(word), capacity)]` -/
def fragments (capacity : Nat) (word : List Char) : List (List Char) :=
  (List.range ((word.length + capacity - 1) / capacity)).map fun index =>
    (word.drop (index * capacity)).take capacity

/-- `f"{line} {fragment}".strip()` -/
def joined (line fragment : List Char) : List Char :=
  ((line ++ ' ' :: fragment).dropWhile isSpace).rdropWhile isSpace

/-- The lines that the loop appends from some line on, and the last one. -/
def wrapFrom (capacity : Nat) (line : List Char) : List (List Char) → List (List Char)
  | [] => if line = [] then [] else [line]
  | fragment :: rest =>
    if line ≠ [] ∧ (joined line fragment).length > capacity then
      line :: wrapFrom capacity fragment rest
    else wrapFrom capacity (joined line fragment) rest

/-- `fragments or [""]`, for all words of the text -/
def allFragments (capacity : Nat) (text : List Char) : List (List Char) :=
  (text.splitOn ' ').flatMap fun word =>
    if fragments capacity word = [] then [[]] else fragments capacity word

/-- `wrapped_lines(value, width, size)` -/
def wrappedLines (limits : PdfRenderLimits) (value : String) (width size : ℚ) : List String :=
  let text := (cleanText value limits.maxCellCharacters).toList
  if text = [] then [""]
  else
    let lines := wrapFrom (capacity width size) [] (allFragments (capacity width size) text)
    if lines = [] then [""] else lines.map String.ofList

namespace Layout

/-- `paragraph(value, section=…, …)` -/
def paragraph (value title : String) (width : ℚ := contentWidth) (size : ℚ := 9) (leading : ℚ := 12)
    (color : Color := ink) (bold : Bool := false) (layout : Layout) : Except PdfError Layout := do
  let layout ← textLines title size leading color bold
    (wrappedLines layout.limits value width size) layout
  .ok (layout.down 3)

/-- `heading(title, section=…, level=…)` -/
def heading (title titleOfPage : String) (level : Nat := 1) (layout : Layout) :
    Except PdfError Layout := do
  let height : ℚ := if level = 1 then 31 else 23
  let layout ← layout.ensure height titleOfPage
  if level = 1 then
    let layout ← layout.draw (.rect left (layout.y - 4) 4 19 purple none)
    let layout ← layout.draw (.text title (left + 12) layout.y 16 true navy)
    .ok (layout.down height)
  else
    let layout ← layout.draw (.text title left layout.y 11 true navy)
    .ok (layout.down height)

/-- The loop of `key_values`. -/
def keyValueRows (title : String) : List (String × Option String) → Layout → Except PdfError Layout
  | [], layout => .ok layout
  | (label, value) :: rows, layout => do
    let layout ← layout.ensure 18 title
    let layout ← layout.draw (.text label left layout.y 8 true muted)
    let layout ← layout.draw (.text (display value) (left + 142) layout.y 8.5 false ink)
    keyValueRows title rows (layout.down 15)

/-- `key_values(rows, section=…)` -/
def keyValues (rows : List (String × Option String)) (title : String) (layout : Layout) :
    Except PdfError Layout := do
  let layout ← keyValueRows title rows layout
  .ok (layout.down 4)

end Layout

end OsScanner.Reporting

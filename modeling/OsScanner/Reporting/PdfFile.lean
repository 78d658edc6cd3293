import Mathlib
import OsScanner.Lib.Dict
import OsScanner.Reporting.Layout

/-!
# The file of the PDF report

`_pdf_bytes` of `app/reporting/pdf_report.py`: the pages become numbered objects, which are written
one after the other, followed by a table of their offsets.
-/

namespace OsScanner.Reporting

open Lib Lib.Pdf Storage

/-! ## What the file is made of -/

/-- What `_pdf_bytes` reads of the assessment. -/
structure ReportHeader where
  reportId : String
  /-- `generated_at.astimezone(UTC).strftime("D:%Y%m%d%H%M%SZ")` -/
  created : String

/-- `PdfBranding`, less what only the cover shows. -/
structure PdfBranding where
  productName : String
  organizationName : String
  reportTitle : String

/-- `text.encode("latin-1")` -/
def latin1 (text : String) : Except PdfError Bytes :=
  if text.toList.all fun c => decide (c.toNat < 256) then .ok (bytesOf text.toList)
  else .error "UnicodeEncodeError: ordinal not in range(256)"

/-- `text.encode("ascii")` of texts that only have digits and what is written below -/
def ascii (text : String) : Bytes := bytesOf text.toList

/-! ## Pages -/

def footerRule : String :=
  "q " ++ border.text ++ " RG 0.5 w " ++ number left ++ " 31 m " ++ number (pageWidth - right) ++
    " 31 l S Q"

/-- A text of the footer at this place. -/
def footerText (x : String) (value : String) (maximum : Nat) : Except PdfError String := do
  let literal ← pdfLiteral value maximum
  .ok ("BT /F1 7 Tf " ++ muted.text ++ " rg 1 0 0 1 " ++ x ++ " 18 Tm " ++ literal ++ " Tj ET")

def pageLabel (index count : Nat) : String :=
  "Page " ++ toString index ++ " of " ++ toString count

/-- The content stream of a page. -/
def pageStream (header : ReportHeader) (count index : Nat) (page : Page) : Except PdfError Bytes := do
  let report ← footerText (number left) header.reportId 128
  let label ← footerText "474" (pageLabel index count) 64
  latin1 (String.intercalate "\n" (page.commands ++ [footerRule, report, label]) ++ "\n")

def contentObject (stream : Bytes) : Bytes :=
  ascii ("<< /Length " ++ toString stream.length ++ " >>\nstream\n") ++ stream ++ ascii "endstream"

def pageObject (contentNumber : Nat) : Bytes :=
  ascii ("<< /Type /Page /Parent 2 0 R /MediaBox [0 0 595 842] " ++
    "/Resources << /Font << /F1 3 0 R /F2 4 0 R >> >> " ++
    "/Contents " ++ toString contentNumber ++ " 0 R >>")

/-- The loop over the pages: their objects, and the numbers of the page objects. -/
def pageObjects (header : ReportHeader) (count : Nat) : List Page → Nat → Nat →
    Except PdfError (List (Nat × Bytes) × List Nat)
  | [], _, _ => .ok ([], [])
  | page :: pages, index, next => do
    let stream ← pageStream header count index page
    let (objects, numbers) ← pageObjects header count pages (index + 1) (next + 2)
    .ok ((next + 1, contentObject stream) :: (next, pageObject (next + 1)) :: objects, next :: numbers)

/-! ## The other objects -/

def catalogObject : Bytes := ascii "<< /Type /Catalog /Pages 2 0 R >>"

def fontObject (name : String) : Bytes :=
  ascii ("<< /Type /Font /Subtype /Type1 /BaseFont /" ++ name ++ " /Encoding /WinAnsiEncoding >>")

def pagesObject (numbers : List Nat) : Bytes :=
  ascii ("<< /Type /Pages /Count " ++ toString numbers.length ++ " /Kids [" ++
    String.intercalate " " (numbers.map fun number => toString number ++ " 0 R") ++ "] >>")

def infoObject (header : ReportHeader) (branding : PdfBranding) : Except PdfError Bytes := do
  let title ← pdfLiteral branding.reportTitle 160
  let author ← pdfLiteral branding.organizationName 128
  let subject ← pdfLiteral "Canonical endpoint security assessment" 128
  let keywords ← pdfLiteral "endpoint security, inventory, vulnerability, compliance" 128
  let creator ← pdfLiteral branding.productName 128
  let created ← pdfLiteral header.created 64
  latin1 ("<< /Title " ++ title ++ " /Author " ++ author ++ " /Subject " ++ subject ++
    " /Keywords " ++ keywords ++ " /Creator " ++ creator ++ " /CreationDate " ++ created ++ " >>")

/-! ## Writing -/

/-- `%PDF-1.7` and four bytes that are no text -/
def fileHeader : Bytes := ascii "%PDF-1.7\n%" ++ [0xE2, 0xE3, 0xCF, 0xD3, 0x0A]

def objectText (number : Nat) (body : Bytes) : Bytes :=
  ascii (toString number ++ " 0 obj\n") ++ body ++ ascii "\nendobj\n"

/-- The loop over the numbers: the bytes so far, and the offsets. -/
def writeObjects (objects : List (Nat × Bytes)) : List Nat → Bytes → Except PdfError (Bytes × List Nat)
  | [], output => .ok (output, [])
  | number :: numbers, output =>
    match Assoc.lookup number objects with
    | none => .error "KeyError"
    | some body => do
      let (written, offsets) ← writeObjects objects numbers (output ++ objectText number body)
      .ok (written, output.length :: offsets)

/-- `f"{offset:010d} 00000 n \n"` -/
def xrefEntry (offset : Nat) : Bytes :=
  let digits := (toString offset).toList
  ascii (String.ofList (List.replicate (10 - digits.length) '0' ++ digits) ++ " 00000 n \n")

/-- The table of offsets and what follows it; `size` counts the free entry. -/
def fileEnd (size info : Nat) (documentId : String) (xref : Nat) (offsets : List Nat) : Bytes :=
  ascii ("xref\n0 " ++ toString size ++ "\n") ++ ascii "0000000000 65535 f \n" ++
    (offsets.map xrefEntry).flatten ++
    ascii ("trailer\n<< /Size " ++ toString size ++ " /Root 1 0 R /Info " ++ toString info ++
      " 0 R /ID [<" ++ documentId ++ "> <" ++ documentId ++ ">] >>\n" ++
      "startxref\n" ++ toString xref ++ "\n%%EOF\n")

/-- `_pdf_bytes(layout, report=…, branding=…, source_hash=…)` -/
def pdfBytes (sha256 : String → String) (layout : Layout) (header : ReportHeader)
    (branding : PdfBranding) (sourceHash : String) : Except PdfError Bytes :=
  if layout.pages = [] then .error "PDF has no pages"
  else do
    let count := layout.pages.length
    let (objects, numbers) ← pageObjects header count layout.pages 1 5
    let info := 5 + 2 * count
    let infoBody ← infoObject header branding
    let objects := [(1, catalogObject), (3, fontObject "Helvetica"), (4, fontObject "Helvetica-Bold")] ++
      objects ++ [(2, pagesObject numbers), (info, infoBody)]
    let last := (objects.map Prod.fst).foldl max 0
    let (output, offsets) ← writeObjects objects (List.range' 1 last) fileHeader
    .ok (output ++ fileEnd (offsets.length + 1) info
      (sha256 (sourceHash ++ ":" ++ header.reportId)) output.length offsets)

end OsScanner.Reporting

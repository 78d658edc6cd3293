import Mathlib
import OsScanner.Reporting.PdfFile

/-!
# How the content of the PDF report is read

A reader finds in a content stream the shapes of the page, with each text as one literal string that
is the cleaned text in Windows-1252. What is drawn is ASCII, so that there is a stream wherever the
encoding has the texts.
-/

namespace OsScanner.Reporting

open Lib Lib.Check Lib.Pdf Storage

/-- The commands of a page are those of some shapes. -/
def ShapesOf (page : Page) (shapes : List Shape) : Prop :=
  List.Forall₂ (fun shape command => shape.command = .ok command) shapes page.commands

/-! ## Reading a content stream -/

/-- Bytes that are no part of a literal string. -/
def others (text : String) : List Token := (bytesOf text.toList).map .other

/-- The literal string of a text: the cleaned text in Windows-1252. -/
def literalOf (value : String) (maximum : Nat := 16384) : Option Token :=
  ((cleanText value maximum).toList.mapM cp1252).map .literal

/-- Whatever follows the text, it is read as these tokens. -/
def Reads (text : String) (tokens : List Token) : Prop :=
  ∀ rest, lex (bytesOf text.toList ++ rest) = (lex rest).map (tokens ++ ·)

theorem Reads.append {text more : String} {tokens others : List Token} (h : Reads text tokens)
    (hmore : Reads more others) : Reads (text ++ more) (tokens ++ others) := by
  intro rest
  rw [String.toList_append, bytesOf_append, List.append_assoc, h, hmore, Option.map_map]
  congr 1
  funext tail
  exact (List.append_assoc _ _ _).symm

theorem reads_plain {text : String} (h : PlainText text) : Reads text (others text) :=
  fun rest => lex_plain h.bytes rest

theorem reads_literal {value text : String} {maximum : Nat}
    (h : pdfLiteral value maximum = .ok text) :
    ∃ token, literalOf value maximum = some token ∧ Reads text [token] := by
  obtain ⟨raw, hraw, hbytes⟩ := bytesOf_pdfLiteral h
  refine ⟨.literal raw, by rw [literalOf, hraw]; rfl, fun rest => ?_⟩
  rw [hbytes, lex_literal]
  rfl

theorem Reads.lex_eq {text : String} {tokens : List Token} (h : Reads text tokens) :
    lex (bytesOf text.toList) = some tokens := by
  have hend := h []
  rwa [List.append_nil, show lex [] = some [] from rfl, Option.map_some, List.append_nil] at hend

/-- How a shape is read: a text is one literal string, the rest is there as it was written. -/
def Shape.tokens : Shape → Option (List Token)
  | .rect x y width height fill stroke => some (others (rectCommand x y width height fill stroke))
  | .line x1 y1 x2 y2 color => some (others (lineCommand x1 y1 x2 y2 color))
  | .text value x y size bold color =>
    (literalOf value).map fun literal =>
      others (textStart x y size bold color) ++ [literal] ++ others " Tj ET"

theorem plainText_rectCommand (x y width height : ℚ) (fill : Color) (stroke : Option Color) :
    PlainText (rectCommand x y width height fill stroke) := by
  have hspace : PlainText " " := by simp [PlainText]
  have hstroke : PlainText (stroke.elim "" fun color => color.text ++ " RG 0.5 w ") := by
    cases stroke with
    | none => simp [PlainText]
    | some color =>
      show PlainText (color.text ++ " RG 0.5 w ")
      exact color.plainText_text.append (by simp [PlainText])
  have hend : PlainText (if stroke.isSome then "B" else "f") := by split <;> simp [PlainText]
  have hstart : PlainText ("q " ++ fill.text) := PlainText.append (by simp [PlainText]) fill.plainText_text
  have hcolors := (hstart.append (show PlainText " rg " by simp [PlainText])).append hstroke
  have hcorner := ((hcolors.append (plainText_number x)).append hspace).append (plainText_number y)
  have hsize := (((hcorner.append hspace).append (plainText_number width)).append hspace).append
    (plainText_number height)
  exact ((hsize.append (show PlainText " re " by simp [PlainText])).append hend).append
    (show PlainText " Q" by simp [PlainText])

theorem plainText_lineCommand (x1 y1 x2 y2 : ℚ) (color : Color) :
    PlainText (lineCommand x1 y1 x2 y2 color) := by
  have hspace : PlainText " " := by simp [PlainText]
  have hcolor : PlainText ("q " ++ color.text) := PlainText.append (by simp [PlainText]) color.plainText_text
  have hstart := (((hcolor.append (show PlainText " RG 0.5 w " by simp [PlainText])).append
    (plainText_number x1)).append hspace).append (plainText_number y1)
  have hend := (((hstart.append (show PlainText " m " by simp [PlainText])).append
    (plainText_number x2)).append hspace).append (plainText_number y2)
  exact hend.append (show PlainText " l S Q" by simp [PlainText])

theorem plainText_textStart (x y size : ℚ) (bold : Bool) (color : Color) :
    PlainText (textStart x y size bold color) := by
  have hspace : PlainText " " := by simp [PlainText]
  have hfont : PlainText ("BT /" ++ (if bold then "F2" else "F1")) := by
    cases bold <;> simp [PlainText]
  have hsize := ((hfont.append hspace).append (plainText_number size)).append
    (show PlainText " Tf " by simp [PlainText])
  have hcolor := (hsize.append color.plainText_text).append
    (show PlainText " rg 1 0 0 1 " by simp [PlainText])
  exact (((hcolor.append (plainText_number x)).append hspace).append (plainText_number y)).append
    (show PlainText " Tm " by simp [PlainText])

theorem reads_command {shape : Shape} {command : String} (h : shape.command = .ok command) :
    ∃ tokens, shape.tokens = some tokens ∧ Reads command tokens := by
  cases shape with
  | rect x y width height fill stroke =>
    cases h
    exact ⟨_, rfl, reads_plain (plainText_rectCommand x y width height fill stroke)⟩
  | line x1 y1 x2 y2 color =>
    cases h
    exact ⟨_, rfl, reads_plain (plainText_lineCommand x1 y1 x2 y2 color)⟩
  | text value x y size bold color =>
    rw [Shape.command, bind_eq_ok] at h
    obtain ⟨text, htext, h⟩ := h
    cases h
    obtain ⟨literal, hliteral, hreads⟩ := reads_literal htext
    refine ⟨others (textStart x y size bold color) ++ [literal] ++ others " Tj ET", ?_, ?_⟩
    · rw [Shape.tokens, hliteral]
      rfl
    · exact ((reads_plain (plainText_textStart x y size bold color)).append hreads).append
        (reads_plain (by simp [PlainText]))

/-! ## Reading a page -/

/-- What stands before the literal of a text of the footer. -/
def footerStart (x : String) : String := "BT /F1 7 Tf " ++ muted.text ++ " rg 1 0 0 1 " ++ x ++ " 18 Tm "

def footerTokens (x value : String) (maximum : Nat) : Option (List Token) :=
  (literalOf value maximum).map fun literal => others (footerStart x) ++ [literal] ++ others " Tj ET"

/-- How a page is read: its shapes and the footer, each followed by a line feed. -/
def pageTokens (header : ReportHeader) (count index : Nat) (shapes : List Shape) :
    Option (List Token) := do
  let drawn ← shapes.mapM Shape.tokens
  let report ← footerTokens (number left) header.reportId 128
  let label ← footerTokens "474" (pageLabel index count) 64
  some ((drawn ++ [others footerRule, report, label]).flatMap fun line => line ++ others "\n")

theorem plainText_footerStart {x : String} (h : PlainText x) : PlainText (footerStart x) := by
  have hcolor := PlainText.append (show PlainText "BT /F1 7 Tf " by simp [PlainText]) muted.plainText_text
  exact ((hcolor.append (show PlainText " rg 1 0 0 1 " by simp [PlainText])).append h).append
    (show PlainText " 18 Tm " by simp [PlainText])

theorem plainText_footerRule : PlainText footerRule := by
  have hcolor := PlainText.append (show PlainText "q " by simp [PlainText]) border.plainText_text
  have hstart := (hcolor.append (show PlainText " RG 0.5 w " by simp [PlainText])).append
    (plainText_number left)
  exact ((hstart.append (show PlainText " 31 m " by simp [PlainText])).append
    (plainText_number (pageWidth - right))).append (show PlainText " 31 l S Q" by simp [PlainText])

theorem reads_footerText {x value text : String} {maximum : Nat} (hx : PlainText x)
    (h : footerText x value maximum = .ok text) :
    ∃ tokens, footerTokens x value maximum = some tokens ∧ Reads text tokens := by
  rw [footerText, bind_eq_ok] at h
  obtain ⟨literal, hliteral, h⟩ := h
  cases h
  obtain ⟨token, htoken, hreads⟩ := reads_literal hliteral
  refine ⟨others (footerStart x) ++ [token] ++ others " Tj ET", by rw [footerTokens, htoken]; rfl, ?_⟩
  exact ((reads_plain (plainText_footerStart hx)).append hreads).append
    (reads_plain (by simp [PlainText]))

/-- Lines are read one after the other, each with its line feed. -/
theorem reads_lines {lines : List String} {tokens : List (List Token)}
    (h : List.Forall₂ Reads lines tokens) (hne : lines ≠ []) :
    Reads (String.intercalate "\n" lines ++ "\n") (tokens.flatMap fun line => line ++ others "\n") := by
  have hfeed : Reads "\n" (others "\n") := reads_plain (by simp [PlainText])
  induction h with
  | nil => exact absurd rfl hne
  | @cons line token lines tokens hline hlines ih =>
    rw [List.flatMap_cons]
    cases lines with
    | nil =>
      cases hlines
      rw [String.intercalate_singleton, List.flatMap_nil, List.append_nil]
      exact hline.append hfeed
    | cons second lines =>
      rw [String.intercalate_cons_cons, String.append_assoc]
      exact (hline.append hfeed).append (ih (List.cons_ne_nil _ _))

theorem latin1_eq_ok {text : String} {bytes : Bytes} (h : latin1 text = .ok bytes) :
    bytes = bytesOf text.toList := by
  rw [latin1] at h
  split at h
  · cases h
    rfl
  · cases h

theorem reads_commands {commands : List String} {shapes : List Shape}
    (h : List.Forall₂ (fun shape command => Shape.command shape = .ok command) shapes commands) :
    ∃ drawn, shapes.mapM Shape.tokens = some drawn ∧ List.Forall₂ Reads commands drawn := by
  induction h with
  | nil => exact ⟨[], rfl, .nil⟩
  | cons hcommand _ ih =>
    obtain ⟨drawn, hdrawn, hreads⟩ := ih
    obtain ⟨tokens, htokens, hfirst⟩ := reads_command hcommand
    refine ⟨tokens :: drawn, ?_, .cons hfirst hreads⟩
    rw [List.mapM_cons, htokens, hdrawn]
    rfl

/-- The stream of a page is read as its shapes and the footer. -/
theorem lex_pageStream {header : ReportHeader} {count index : Nat} {page : Page} {shapes : List Shape}
    {stream : Bytes} (hshapes : ShapesOf page shapes)
    (h : pageStream header count index page = .ok stream) :
    ∃ tokens, pageTokens header count index shapes = some tokens ∧ lex stream = some tokens := by
  rw [pageStream, bind_eq_ok] at h
  obtain ⟨report, hreport, h⟩ := h
  obtain ⟨label, hlabel, h⟩ := bind_eq_ok.mp h
  obtain ⟨drawn, hdrawn, hreads⟩ := reads_commands hshapes
  obtain ⟨reportTokens, hreportTokens, hreportReads⟩ := reads_footerText (plainText_number left) hreport
  obtain ⟨labelTokens, hlabelTokens, hlabelReads⟩ :=
    reads_footerText (show PlainText "474" by simp [PlainText]) hlabel
  refine ⟨(drawn ++ [others footerRule, reportTokens, labelTokens]).flatMap
    fun line => line ++ others "\n", ?_, ?_⟩
  · rw [pageTokens, hdrawn, hreportTokens, hlabelTokens]
    rfl
  · have hfooter : List.Forall₂ Reads [footerRule, report, label]
        [others footerRule, reportTokens, labelTokens] :=
      .cons (reads_plain plainText_footerRule) (.cons hreportReads (.cons hlabelReads .nil))
    rw [latin1_eq_ok h]
    exact (reads_lines (List.rel_append hreads hfooter) (by simp)).lex_eq

/-! ## The dictionary of the document -/

/-- How the dictionary of the document is read: its texts are literal strings. -/
def infoTokens (header : ReportHeader) (branding : PdfBranding) : Option (List Token) := do
  let title ← literalOf branding.reportTitle 160
  let author ← literalOf branding.organizationName 128
  let subject ← literalOf "Canonical endpoint security assessment" 128
  let keywords ← literalOf "endpoint security, inventory, vulnerability, compliance" 128
  let creator ← literalOf branding.productName 128
  let created ← literalOf header.created 64
  some (others "<< /Title " ++ [title] ++ others " /Author " ++ [author] ++ others " /Subject " ++
    [subject] ++ others " /Keywords " ++ [keywords] ++ others " /Creator " ++ [creator] ++
    others " /CreationDate " ++ [created] ++ others " >>")

theorem lex_infoObject {header : ReportHeader} {branding : PdfBranding} {info : Bytes}
    (h : infoObject header branding = .ok info) :
    ∃ tokens, infoTokens header branding = some tokens ∧ lex info = some tokens := by
  rw [infoObject, bind_eq_ok] at h
  obtain ⟨title, htitle, h⟩ := h
  obtain ⟨author, hauthor, h⟩ := bind_eq_ok.mp h
  obtain ⟨subject, hsubject, h⟩ := bind_eq_ok.mp h
  obtain ⟨keywords, hkeywords, h⟩ := bind_eq_ok.mp h
  obtain ⟨creator, hcreator, h⟩ := bind_eq_ok.mp h
  obtain ⟨created, hcreated, h⟩ := bind_eq_ok.mp h
  obtain ⟨_, htitle, title_reads⟩ := reads_literal htitle
  obtain ⟨_, hauthor, author_reads⟩ := reads_literal hauthor
  obtain ⟨_, hsubject, subject_reads⟩ := reads_literal hsubject
  obtain ⟨_, hkeywords, keywords_reads⟩ := reads_literal hkeywords
  obtain ⟨_, hcreator, creator_reads⟩ := reads_literal hcreator
  obtain ⟨_, hcreated, created_reads⟩ := reads_literal hcreated
  refine ⟨_, by rw [infoTokens, htitle, hauthor, hsubject, hkeywords, hcreator, hcreated]; rfl, ?_⟩
  have hstart := (reads_plain (show PlainText "<< /Title " by simp [PlainText])).append title_reads
  have hauthors := (hstart.append (reads_plain (show PlainText " /Author " by simp [PlainText]))).append
    author_reads
  have hsubjects := (hauthors.append
    (reads_plain (show PlainText " /Subject " by simp [PlainText]))).append subject_reads
  have hwords := (hsubjects.append
    (reads_plain (show PlainText " /Keywords " by simp [PlainText]))).append keywords_reads
  have hcreators := (hwords.append
    (reads_plain (show PlainText " /Creator " by simp [PlainText]))).append creator_reads
  have hdates := (hcreators.append
    (reads_plain (show PlainText " /CreationDate " by simp [PlainText]))).append created_reads
  rw [latin1_eq_ok h]
  exact (hdates.append (reads_plain (show PlainText " >>" by simp [PlainText]))).lex_eq

/-! ## Texts that the encoding has -/

/-- Windows-1252 has the cleaned text. -/
def Encodes (value : String) (maximum : Nat) : Prop := (literalOf value maximum).isSome = true

def Ascii (text : String) : Prop := ∀ c ∈ text.toList, c.toNat < 128

theorem Ascii.append {text more : String} (h : Ascii text) (hmore : Ascii more) :
    Ascii (text ++ more) := by
  rw [Ascii, String.toList_append]
  exact List.forall_mem_append.mpr ⟨h, hmore⟩

theorem PlainText.ascii {text : String} (h : PlainText text) : Ascii text := fun c hc => (h c hc).1

theorem mem_collapse {c : Char} : ∀ {text : List Char} {inSpace : Bool},
    c ∈ collapse inSpace text → c = ' ' ∨ c ∈ text := by
  intro text
  induction text with
  | nil => exact fun h => absurd h List.not_mem_nil
  | cons d rest ih =>
    intro inSpace h
    rw [collapse] at h
    split at h
    · split at h
      · exact (ih h).imp_right (List.mem_cons_of_mem _)
      · rcases List.mem_cons.mp h with rfl | h
        · exact .inl rfl
        · exact (ih h).imp_right (List.mem_cons_of_mem _)
    · rcases List.mem_cons.mp h with rfl | h
      · exact .inr List.mem_cons_self
      · exact (ih h).imp_right (List.mem_cons_of_mem _)

/-- Cleaning an ASCII text adds ASCII characters only. -/
theorem ascii_cleanText {value : String} (h : Ascii value) (maximum : Nat) :
    Ascii (cleanText value maximum) := by
  have htidied : ∀ c ∈ tidied value.toList, c.toNat < 128 := by
    intro c hc
    rw [tidied] at hc
    rcases mem_collapse (List.dropWhile_sublist _ |>.subset
      ((List.rdropWhile_prefix _ _).subset hc)) with rfl | hshown
    · decide
    · obtain ⟨d, hd, rfl⟩ := List.mem_map.mp hshown
      split
      · decide
      split
      · decide
      · exact h d hd
  rw [cleanText]
  split
  · refine Ascii.append (fun c hc => ?_) (by simp [Ascii])
    rw [String.toList_ofList] at hc
    exact htidied c (List.mem_of_mem_take hc)
  · rw [Ascii, String.toList_ofList]
    exact htidied

theorem encodes_ascii {value : String} (h : Ascii value) (maximum : Nat) : Encodes value maximum := by
  have hall : ∀ text : List Char, (∀ c ∈ text, c.toNat < 128) → (text.mapM cp1252).isSome = true := by
    intro text htext
    induction text with
    | nil => rfl
    | cons c rest ih =>
      rw [List.forall_mem_cons] at htext
      obtain ⟨raw, hraw⟩ := Option.isSome_iff_exists.mp (ih htext.2)
      rw [List.mapM_cons, cp1252, if_pos (.inl htext.1), hraw]
      rfl
  rw [Encodes, literalOf, Option.isSome_map]
  exact hall _ (ascii_cleanText h maximum)

/-- An escaped byte is written in ASCII. -/
theorem ascii_escaped (b : UInt8) : ∀ c ∈ escaped b, c.toNat < 128 := by
  have hb : b.toNat < 256 := b.toNat_lt
  have hchar : (Char.ofNat b.toNat).toNat = b.toNat := by
    rw [Char.toNat_ofNat, if_pos (Or.inl (by omega))]
  have hdigit : ∀ d : Nat, d < 8 → (Nat.digitChar d).toNat < 128 := fun d hd => by
    rw [Nat.toNat_digitChar_of_lt_ten (by omega)]
    omega
  rw [escaped]
  split
  next hspecial =>
    refine List.forall_mem_cons.mpr ⟨by decide, List.forall_mem_singleton.mpr ?_⟩
    rw [hchar]
    rcases hspecial with rfl | rfl | rfl <;> decide
  split
  · rw [octalText]
    simp only [List.forall_mem_cons]
    exact ⟨by decide, hdigit _ (by omega), hdigit _ (by omega), hdigit _ (by omega), List.forall_mem_nil _⟩
  next hprintable =>
    rw [not_or, UInt8.not_lt, UInt8.not_lt, UInt8.le_iff_toNat_le, UInt8.le_iff_toNat_le] at hprintable
    rw [List.forall_mem_singleton, hchar]
    exact lt_of_le_of_lt hprintable.2 (by decide)

theorem exists_pdfLiteral {value : String} {maximum : Nat} (h : Encodes value maximum) :
    ∃ text, pdfLiteral value maximum = .ok text := by
  rw [Encodes, literalOf, Option.isSome_map] at h
  obtain ⟨raw, hraw⟩ := Option.isSome_iff_exists.mp h
  refine ⟨String.ofList ('(' :: raw.flatMap escaped ++ [')']), ?_⟩
  rw [pdfLiteral, hraw]

theorem ascii_pdfLiteral {value text : String} {maximum : Nat}
    (h : pdfLiteral value maximum = .ok text) : Ascii text := by
  rw [pdfLiteral] at h
  split at h
  · cases h
  next raw _ =>
    cases h
    rw [Ascii, String.toList_ofList, List.cons_append, List.forall_mem_cons]
    refine ⟨by decide, List.forall_mem_append.mpr ⟨fun c hc => ?_, by simp⟩⟩
    obtain ⟨b, -, hc⟩ := List.mem_flatMap.mp hc
    exact ascii_escaped b c hc

theorem latin1_ascii {text : String} (h : Ascii text) : latin1 text = .ok (bytesOf text.toList) := by
  rw [latin1, if_pos]
  exact List.all_eq_true.mpr fun c hc => decide_eq_true (lt_trans (h c hc) (by decide))

theorem encodes_of_pdfLiteral {value text : String} {maximum : Nat}
    (h : pdfLiteral value maximum = .ok text) : Encodes value maximum := by
  obtain ⟨token, htoken, -⟩ := reads_literal h
  rw [Encodes, htoken]
  rfl

theorem ascii_command {shape : Shape} {command : String} (h : shape.command = .ok command) :
    Ascii command := by
  cases shape with
  | rect x y width height fill stroke =>
    cases h
    exact (plainText_rectCommand x y width height fill stroke).ascii
  | line x1 y1 x2 y2 color =>
    cases h
    exact (plainText_lineCommand x1 y1 x2 y2 color).ascii
  | text value x y size bold color =>
    rw [Shape.command, bind_eq_ok] at h
    obtain ⟨text, htext, h⟩ := h
    cases h
    exact ((plainText_textStart x y size bold color).ascii.append (ascii_pdfLiteral htext)).append
      (by simp [Ascii])

theorem ascii_intercalate {lines : List String} (h : ∀ line ∈ lines, Ascii line) :
    Ascii (String.intercalate "\n" lines) := by
  induction lines with
  | nil => simp [Ascii]
  | cons line lines ih =>
    rw [List.forall_mem_cons] at h
    cases lines with
    | nil =>
      rw [String.intercalate_singleton]
      exact h.1
    | cons second lines =>
      rw [String.intercalate_cons_cons]
      exact (h.1.append (by simp [Ascii])).append (ih h.2)

theorem exists_footerText {x value : String} {maximum : Nat} (hx : PlainText x)
    (h : Encodes value maximum) : ∃ text, footerText x value maximum = .ok text ∧ Ascii text := by
  obtain ⟨literal, hliteral⟩ := exists_pdfLiteral h
  refine ⟨footerStart x ++ literal ++ " Tj ET", by rw [footerText, hliteral]; rfl, ?_⟩
  exact ((plainText_footerStart hx).ascii.append (ascii_pdfLiteral hliteral)).append (by simp [Ascii])

theorem ascii_pageLabel (index count : Nat) : Ascii (pageLabel index count) :=
  (((show Ascii "Page " by simp [Ascii]).append (plainText_toString index).ascii).append
    (show Ascii " of " by simp [Ascii])).append (plainText_toString count).ascii

/-- The commands of shapes and the footer are ASCII, so that there is a stream of the page. -/
theorem exists_pageStream {header : ReportHeader} {page : Page} {shapes : List Shape}
    (hshapes : ShapesOf page shapes) (hid : Encodes header.reportId 128) (count index : Nat) :
    ∃ stream, pageStream header count index page = .ok stream := by
  obtain ⟨report, hreport, hreportAscii⟩ := exists_footerText (plainText_number left) hid
  obtain ⟨label, hlabel, hlabelAscii⟩ := exists_footerText (show PlainText "474" by simp [PlainText])
    (encodes_ascii (ascii_pageLabel index count) 64)
  have hlines : ∀ line ∈ page.commands ++ [footerRule, report, label], Ascii line := by
    refine List.forall_mem_append.mpr ⟨fun command hcommand => ?_, ?_⟩
    · obtain ⟨shape, -, hshape⟩ := exists_of_mem_right hshapes hcommand
      exact ascii_command hshape
    · exact List.forall_mem_cons.mpr ⟨plainText_footerRule.ascii, List.forall_mem_cons.mpr
        ⟨hreportAscii, List.forall_mem_singleton.mpr hlabelAscii⟩⟩
  rw [pageStream, hreport, hlabel]
  exact ⟨_, latin1_ascii ((ascii_intercalate hlines).append (by simp [Ascii]))⟩

theorem exists_infoObject_iff {header : ReportHeader} {branding : PdfBranding} :
    (∃ info, infoObject header branding = .ok info) ↔
      Encodes branding.reportTitle 160 ∧ Encodes branding.organizationName 128 ∧
        Encodes branding.productName 128 ∧ Encodes header.created 64 := by
  constructor
  · rintro ⟨info, h⟩
    rw [infoObject, bind_eq_ok] at h
    obtain ⟨title, htitle, h⟩ := h
    obtain ⟨author, hauthor, h⟩ := bind_eq_ok.mp h
    obtain ⟨subject, -, h⟩ := bind_eq_ok.mp h
    obtain ⟨keywords, -, h⟩ := bind_eq_ok.mp h
    obtain ⟨creator, hcreator, h⟩ := bind_eq_ok.mp h
    obtain ⟨created, hcreated, -⟩ := bind_eq_ok.mp h
    exact ⟨encodes_of_pdfLiteral htitle, encodes_of_pdfLiteral hauthor,
      encodes_of_pdfLiteral hcreator, encodes_of_pdfLiteral hcreated⟩
  · rintro ⟨htitle, hauthor, hcreator, hcreated⟩
    obtain ⟨title, htitle⟩ := exists_pdfLiteral htitle
    obtain ⟨author, hauthor⟩ := exists_pdfLiteral hauthor
    obtain ⟨subject, hsubject⟩ := exists_pdfLiteral (encodes_ascii
      (show Ascii "Canonical endpoint security assessment" by simp [Ascii]) 128)
    obtain ⟨keywords, hkeywords⟩ := exists_pdfLiteral (encodes_ascii
      (show Ascii "endpoint security, inventory, vulnerability, compliance" by simp [Ascii]) 128)
    obtain ⟨creator, hcreator⟩ := exists_pdfLiteral hcreator
    obtain ⟨created, hcreated⟩ := exists_pdfLiteral hcreated
    have hstart := (show Ascii "<< /Title " by simp [Ascii]).append (ascii_pdfLiteral htitle)
    have hauthors := (hstart.append (show Ascii " /Author " by simp [Ascii])).append
      (ascii_pdfLiteral hauthor)
    have hsubjects := (hauthors.append (show Ascii " /Subject " by simp [Ascii])).append
      (ascii_pdfLiteral hsubject)
    have hwords := (hsubjects.append (show Ascii " /Keywords " by simp [Ascii])).append
      (ascii_pdfLiteral hkeywords)
    have hcreators := (hwords.append (show Ascii " /Creator " by simp [Ascii])).append
      (ascii_pdfLiteral hcreator)
    have hwhole := ((hcreators.append (show Ascii " /CreationDate " by simp [Ascii])).append
      (ascii_pdfLiteral hcreated)).append (show Ascii " >>" by simp [Ascii])
    rw [infoObject]
    exact ⟨_, bind_eq_ok.mpr ⟨title, htitle, bind_eq_ok.mpr ⟨author, hauthor, bind_eq_ok.mpr
      ⟨subject, hsubject, bind_eq_ok.mpr ⟨keywords, hkeywords, bind_eq_ok.mpr ⟨creator, hcreator,
        bind_eq_ok.mpr ⟨created, hcreated, latin1_ascii hwhole⟩⟩⟩⟩⟩⟩⟩

end OsScanner.Reporting

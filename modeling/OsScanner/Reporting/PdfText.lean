import Mathlib
import OsScanner.Lib.PdfSyntax
import OsScanner.Storage.Texts
import OsScanner.Lib.Rounding

/-!
# Texts of the PDF report

`app/reporting/pdf_report.py`: what is shown is cleaned of control characters and runs of white space,
cut to a length, encoded as Windows-1252 and escaped. A text that the encoding does not have is
refused.
-/

namespace OsScanner.Reporting

open Lib Lib.Pdf Storage

/-- `PdfRenderError` or `PdfRenderLimitError`, with its message. -/
abbrev PdfError := String

/-! ## Cleaning -/

/-- `_CONTROL` -/
def isPdfControl (c : Char) : Bool :=
  decide (c.toNat ≤ 8 ∨ c.toNat = 11 ∨ c.toNat = 12 ∨ (14 ≤ c.toNat ∧ c.toNat ≤ 31) ∨ c.toNat = 127)

/-- `_SPACE.sub(" ", text)`, where the flag says that a space has just been written -/
def collapse : Bool → List Char → List Char
  | _, [] => []
  | inSpace, c :: rest =>
    if isSpace c then if inSpace then collapse true rest else ' ' :: collapse true rest
    else c :: collapse false rest

/-- The characters of `_clean_text` before they are cut. -/
def tidied (text : List Char) : List Char :=
  let shown := text.map fun c =>
    if isPdfControl c then '?' else if c = '\r' ∨ c = '\n' then ' ' else c
  ((collapse false shown).dropWhile isSpace).rdropWhile isSpace

/-- `_clean_text(value, maximum=…)` -/
def cleanText (value : String) (maximum : Nat) : String :=
  let text := tidied value.toList
  if text.length > maximum then String.ofList (text.take (maximum - 14)) ++ "...<truncated>"
  else String.ofList text

/-! ## Windows-1252 -/

/-- The characters that Windows-1252 has between 0x80 and 0x9F, with their bytes. -/
def cp1252Table : List (Nat × UInt8) :=
  [(0x20AC, 0x80), (0x201A, 0x82), (0x0192, 0x83), (0x201E, 0x84), (0x2026, 0x85), (0x2020, 0x86),
    (0x2021, 0x87), (0x02C6, 0x88), (0x2030, 0x89), (0x0160, 0x8A), (0x2039, 0x8B), (0x0152, 0x8C),
    (0x017D, 0x8E), (0x2018, 0x91), (0x2019, 0x92), (0x201C, 0x93), (0x201D, 0x94), (0x2022, 0x95),
    (0x2013, 0x96), (0x2014, 0x97), (0x02DC, 0x98), (0x2122, 0x99), (0x0161, 0x9A), (0x203A, 0x9B),
    (0x0153, 0x9C), (0x017E, 0x9E), (0x0178, 0x9F)]

/-- `character.encode("cp1252", errors="strict")`, absent where it raises. -/
def cp1252 (c : Char) : Option UInt8 :=
  if c.toNat < 0x80 ∨ (0xA0 ≤ c.toNat ∧ c.toNat ≤ 0xFF) then some (UInt8.ofNat c.toNat)
  else cp1252Table.lookup c.toNat

/-- The code points of a text that Windows-1252 does not have, in their order. -/
def unsupported (text : List Char) : List Nat :=
  ((text.filter fun c => (cp1252 c).isNone).map Char.toNat).toFinset.sort

/-- `f"U+{codepoint:04X}"` -/
def codepointText (codepoint : Nat) : String :=
  let digits := (Nat.toDigits 16 codepoint).map Char.toUpper
  "U+" ++ String.ofList (List.replicate (4 - digits.length) '0' ++ digits)

def unsupportedError (text : List Char) : PdfError :=
  let missing := unsupported text
  let shown := String.intercalate ", " ((missing.take 8).map codepointText)
  let encoded := if missing.length > 8 then shown ++ ", and " ++ toString (missing.length - 8) ++ " more"
    else shown
  "PDF body text contains characters unsupported by the built-in Windows-1252 font (" ++ encoded ++
    "); refusing to replace or omit source text"

/-! ## Literals -/

/-- `f"\\{byte:03o}"` -/
def octalText (b : UInt8) : List Char :=
  ['\\', Nat.digitChar (b.toNat / 64), Nat.digitChar (b.toNat / 8 % 8), Nat.digitChar (b.toNat % 8)]

/-- What the loop of `_pdf_literal` writes for a byte. -/
def escaped (b : UInt8) : List Char :=
  if b = 0x28 ∨ b = 0x29 ∨ b = 0x5C then ['\\', Char.ofNat b.toNat]
  else if b < 0x20 ∨ 0x7E < b then octalText b
  else [Char.ofNat b.toNat]

/-- `_pdf_literal(value, maximum=…)` -/
def pdfLiteral (value : String) (maximum : Nat := 16384) : Except PdfError String :=
  let cleaned := (cleanText value maximum).toList
  match cleaned.mapM cp1252 with
  | none => .error (unsupportedError cleaned)
  | some raw => .ok (String.ofList ('(' :: raw.flatMap escaped ++ [')']))

/-! ## Numbers -/

/-- `f"{value:.2f}"` of an exact number -/
def fixed2 (value : ℚ) : String :=
  let n := (roundEven (value * 100)).natAbs
  (if value < 0 then "-" else "") ++ toString (n / 100) ++ "." ++
    String.ofList [Nat.digitChar (n / 10 % 10), Nat.digitChar (n % 10)]

/-- `_number(value)` -/
def number (value : ℚ) : String :=
  String.ofList (((fixed2 value).toList.rdropWhile (· == '0')).rdropWhile (· == '.'))

structure Color where
  red : ℚ
  green : ℚ
  blue : ℚ

/-- `_color(value)` -/
def Color.text (color : Color) : String :=
  number color.red ++ " " ++ number color.green ++ " " ++ number color.blue

/-- `_display(value)`, of a text or nothing -/
def display : Option String → String
  | none => "Not observed"
  | some text => text

/-! ## Bytes of texts -/

/-- `text.encode("ascii")` and `text.encode("latin-1")` of the characters they have -/
def bytesOf (text : List Char) : Bytes := text.map fun c => UInt8.ofNat c.toNat

theorem bytesOf_append (text more : List Char) : bytesOf (text ++ more) = bytesOf text ++ bytesOf more :=
  List.map_append

theorem digitByte {d : Nat} (h : d < 8) :
    UInt8.ofNat (Nat.digitChar d).toNat = UInt8.ofNat (0x30 + d) := by
  rw [Nat.toNat_digitChar_of_lt_ten (by omega)]

theorem bytesOf_escaped (b : UInt8) : bytesOf (escaped b) = escape b := by
  have hb : b.toNat < 256 := b.toNat_lt
  have hchar : UInt8.ofNat (Char.ofNat b.toNat).toNat = b := by
    rw [Char.toNat_ofNat, if_pos (Or.inl (by omega)), UInt8.ofNat_toNat]
  rw [escaped, escape]
  split
  · show [_, UInt8.ofNat (Char.ofNat b.toNat).toNat] = _
    rw [hchar]
    rfl
  split
  · show [_, UInt8.ofNat (Nat.digitChar (b.toNat / 64)).toNat,
      UInt8.ofNat (Nat.digitChar (b.toNat / 8 % 8)).toNat,
      UInt8.ofNat (Nat.digitChar (b.toNat % 8)).toNat] = _
    rw [digitByte (show b.toNat / 64 < 8 by omega), digitByte (show b.toNat / 8 % 8 < 8 by omega),
      digitByte (show b.toNat % 8 < 8 by omega)]
    rfl
  · show [UInt8.ofNat (Char.ofNat b.toNat).toNat] = _
    rw [hchar]

/-- A literal is the cleaned text in Windows-1252, as a literal string of PDF. -/
theorem bytesOf_pdfLiteral {value text : String} {maximum : Nat}
    (h : pdfLiteral value maximum = .ok text) : ∃ raw,
      (cleanText value maximum).toList.mapM cp1252 = some raw ∧ bytesOf text.toList = literal raw := by
  rw [pdfLiteral] at h
  split at h
  · cases h
  next raw hraw =>
    cases h
    refine ⟨raw, hraw, ?_⟩
    have hbody : bytesOf (raw.flatMap escaped) = raw.flatMap escape := by
      rw [bytesOf, List.map_flatMap]
      exact List.flatMap_congr fun b _ => bytesOf_escaped b
    rw [String.toList_ofList, List.cons_append, bytesOf, List.map_cons, List.map_append]
    show _ :: (bytesOf (raw.flatMap escaped) ++ _) = _
    rw [hbody]
    rfl

/-! ## Texts without parentheses -/

/-- An ASCII text without parentheses. -/
def PlainText (text : String) : Prop := ∀ c ∈ text.toList, c.toNat < 128 ∧ c ≠ '(' ∧ c ≠ ')'

instance (text : String) : Decidable (PlainText text) :=
  List.decidableBAll (fun c : Char => c.toNat < 128 ∧ c ≠ '(' ∧ c ≠ ')') text.toList

theorem PlainText.append {text more : String} (h : PlainText text) (hmore : PlainText more) :
    PlainText (text ++ more) := by
  rw [PlainText, String.toList_append]
  exact List.forall_mem_append.mpr ⟨h, hmore⟩

/-- The bytes of such a text have no parentheses. -/
theorem PlainText.bytes {text : String} (h : PlainText text) : Plain (bytesOf text.toList) := by
  intro b hb
  obtain ⟨c, hc, rfl⟩ := List.mem_map.mp hb
  obtain ⟨hascii, hopen, hclose⟩ := h c hc
  have hbyte : (UInt8.ofNat c.toNat).toNat = c.toNat := by
    rw [UInt8.toNat_ofNat', Nat.mod_eq_of_lt (by omega)]
  constructor
  · intro heq
    rw [heq] at hbyte
    exact hopen (Char.toNat_inj.mp hbyte.symm)
  · intro heq
    rw [heq] at hbyte
    exact hclose (Char.toNat_inj.mp hbyte.symm)

theorem isDigit_plain {c : Char} (h : c.isDigit = true) : c.toNat < 128 ∧ c ≠ '(' ∧ c ≠ ')' := by
  simp only [Char.isDigit, Bool.and_eq_true, decide_eq_true_eq, ge_iff_le, UInt32.le_iff_toNat_le] at h
  change 48 ≤ c.toNat ∧ c.toNat ≤ 57 at h
  refine ⟨by omega, ?_, ?_⟩
  · rintro rfl
    exact absurd h.1 (by decide)
  · rintro rfl
    exact absurd h.1 (by decide)

theorem plainText_toString (n : Nat) : PlainText (toString n) := by
  intro c hc
  rw [show (toString n).toList = Nat.toDigits 10 n from Nat.toList_repr] at hc
  exact isDigit_plain (Nat.isDigit_of_mem_toDigits (by decide) (by decide) hc)

theorem plainText_fixed2 (value : ℚ) : PlainText (fixed2 value) := by
  have hdigits : ∀ n : Nat, PlainText (String.ofList [Nat.digitChar (n / 10 % 10), Nat.digitChar (n % 10)]) := by
    intro n c hc
    rw [String.toList_ofList] at hc
    rcases List.mem_pair.mp hc with rfl | rfl
    · exact isDigit_plain (by rw [Nat.isDigit_digitChar]; exact decide_eq_true (by omega))
    · exact isDigit_plain (by rw [Nat.isDigit_digitChar]; exact decide_eq_true (by omega))
  have hsign : PlainText (if value < 0 then "-" else "") := by
    split <;> simp [PlainText]
  exact ((hsign.append (plainText_toString _)).append (by simp [PlainText])).append (hdigits _)

theorem plainText_number (value : ℚ) : PlainText (number value) := by
  intro c hc
  rw [number, String.toList_ofList] at hc
  exact plainText_fixed2 value c ((List.rdropWhile_prefix _ _).subset
    ((List.rdropWhile_prefix _ _).subset hc))

theorem Color.plainText_text (color : Color) : PlainText color.text :=
  ((((plainText_number _).append (by simp [PlainText])).append (plainText_number _)).append
    (by simp [PlainText])).append (plainText_number _)

end OsScanner.Reporting

import Mathlib

/-!
# Literal strings and serial placement

The part of the syntax of PDF that a writer of content streams and of cross-reference tables relies
on. A literal string stands between parentheses; inside it a backslash escapes the next byte, or
begins up to three octal digits, and unescaped parentheses nest. A machine reads a stream byte by
byte; what stands outside literal strings is kept as it is.
-/

namespace OsScanner.Lib.Pdf

abbrev Bytes := List UInt8

/-! ## Reading -/

/-- Where the reader of a literal string is. -/
inductive Mode where
  | plain
  /-- After a backslash. -/
  | escape
  /-- After so many octal digits with this value. -/
  | octal (count value : Nat)
  /-- After a carriage return, which a line feed may follow. -/
  | carriage
  deriving DecidableEq, Repr

/-- What a byte of a literal string does: it ends the string, or the reader goes on. -/
inductive Step where
  | close (bytes : Bytes)
  | go (bytes : Bytes) (mode : Mode) (depth : Nat)

def isOctal (b : UInt8) : Bool := decide (0x30 ≤ b.toNat ∧ b.toNat ≤ 0x37)

/-- A byte that is not escaped. -/
def stepPlain (depth : Nat) (b : UInt8) : Step :=
  if b = 0x5C then .go [] .escape depth
  else if b = 0x28 then .go [b] .plain (depth + 1)
  else if b = 0x29 then if depth = 0 then .close [] else .go [b] .plain (depth - 1)
  else if b = 0x0D then .go [0x0A] .carriage depth
  else .go [b] .plain depth

/-- A byte after a backslash. -/
def stepEscape (depth : Nat) (b : UInt8) : Step :=
  if isOctal b then .go [] (.octal 1 (b.toNat - 0x30)) depth
  else if b = 0x6E then .go [0x0A] .plain depth
  else if b = 0x72 then .go [0x0D] .plain depth
  else if b = 0x74 then .go [0x09] .plain depth
  else if b = 0x62 then .go [0x08] .plain depth
  else if b = 0x66 then .go [0x0C] .plain depth
  else if b = 0x0A then .go [] .plain depth
  else if b = 0x0D then .go [] .carriage depth
  else .go [b] .plain depth

/-- The bytes go before those of the step. -/
def Step.after (bytes : Bytes) : Step → Step
  | .close more => .close (bytes ++ more)
  | .go more mode depth => .go (bytes ++ more) mode depth

def step (mode : Mode) (depth : Nat) (b : UInt8) : Step :=
  match mode with
  | .plain => stepPlain depth b
  | .escape => stepEscape depth b
  | .carriage => if b = 0x0A then .go [] .plain depth else stepPlain depth b
  | .octal count value =>
    if isOctal b then
      let value := 8 * value + (b.toNat - 0x30)
      if count = 2 then .go [UInt8.ofNat value] .plain depth else .go [] (.octal (count + 1) value) depth
    else (stepPlain depth b).after [UInt8.ofNat value]

/-- What a stream consists of. -/
inductive Token where
  /-- A byte outside literal strings. -/
  | other (b : UInt8)
  | literal (bytes : Bytes)
  deriving DecidableEq, Repr

/-- The reader outside a literal string, or inside one with what it has read of it. -/
inductive Reader where
  | outside
  | inside (mode : Mode) (depth : Nat) (bytes : Bytes)

/-- The tokens of a stream, absent where a parenthesis has no other. -/
def lexFrom : Reader → Bytes → Option (List Token)
  | .outside, [] => some []
  | .outside, b :: rest =>
    if b = 0x28 then lexFrom (.inside .plain 0 []) rest
    else if b = 0x29 then none
    else (lexFrom .outside rest).map (.other b :: ·)
  | .inside _ _ _, [] => none
  | .inside mode depth bytes, b :: rest =>
    match step mode depth b with
    | .close more => (lexFrom .outside rest).map (.literal (bytes ++ more) :: ·)
    | .go more mode depth => lexFrom (.inside mode depth (bytes ++ more)) rest

def lex (stream : Bytes) : Option (List Token) := lexFrom .outside stream

/-! ## Writing -/

/-- A byte as three octal digits. -/
def octalDigits (b : UInt8) : Bytes :=
  [UInt8.ofNat (0x30 + b.toNat / 64), UInt8.ofNat (0x30 + b.toNat / 8 % 8),
    UInt8.ofNat (0x30 + b.toNat % 8)]

/-- A byte as it is written in a literal string. -/
def escape (b : UInt8) : Bytes :=
  if b = 0x28 ∨ b = 0x29 ∨ b = 0x5C then [0x5C, b]
  else if b < 0x20 ∨ 0x7E < b then 0x5C :: octalDigits b
  else [b]

def literal (bytes : Bytes) : Bytes := 0x28 :: bytes.flatMap escape ++ [0x29]

/-! ## What is written is read -/

theorem octal_digit {d : Nat} (h : d < 8) : isOctal (UInt8.ofNat (0x30 + d)) = true ∧
    (UInt8.ofNat (0x30 + d)).toNat - 0x30 = d := by
  have hnat : (UInt8.ofNat (0x30 + d)).toNat = 0x30 + d := by
    rw [UInt8.toNat_ofNat', Nat.mod_eq_of_lt (by omega)]
  rw [isOctal, hnat, decide_eq_true_eq]
  omega

/-- Three octal digits after a backslash are one byte. -/
theorem lexFrom_octalDigits (b : UInt8) (bytes rest : Bytes) :
    lexFrom (.inside .plain 0 bytes) (0x5C :: octalDigits b ++ rest) =
      lexFrom (.inside .plain 0 (bytes ++ [b])) rest := by
  have hb : b.toNat < 256 := b.toNat_lt
  obtain ⟨hfirst, hvalue⟩ := octal_digit (show b.toNat / 64 < 8 by omega)
  obtain ⟨hsecond, hvalue'⟩ := octal_digit (Nat.mod_lt (b.toNat / 8) (show 0 < 8 by decide))
  obtain ⟨hthird, hvalue''⟩ := octal_digit (Nat.mod_lt b.toNat (show 0 < 8 by decide))
  have hsum : 8 * (8 * (b.toNat / 64) + b.toNat / 8 % 8) + b.toNat % 8 = b.toNat := by omega
  show lexFrom (.inside .escape 0 (bytes ++ [])) (octalDigits b ++ rest) = _
  rw [List.append_nil, octalDigits, List.cons_append, lexFrom, step, stepEscape, if_pos hfirst, hvalue]
  dsimp only
  rw [List.append_nil, List.cons_append, lexFrom, step, if_pos hsecond, hvalue']
  dsimp only
  rw [if_neg (show ¬ 1 = 2 by decide)]
  dsimp only
  rw [List.append_nil, List.cons_append, lexFrom, step, if_pos hthird, hvalue'']
  dsimp only
  rw [if_pos rfl]
  dsimp only
  rw [hsum, UInt8.ofNat_toNat, List.nil_append]

/-- A byte is read as it was written. -/
theorem lexFrom_escape (b : UInt8) (bytes rest : Bytes) :
    lexFrom (.inside .plain 0 bytes) (escape b ++ rest) =
      lexFrom (.inside .plain 0 (bytes ++ [b])) rest := by
  rw [escape]
  split
  next hspecial =>
    show lexFrom (.inside .escape 0 (bytes ++ [])) (b :: rest) = _
    rw [List.append_nil]
    rcases hspecial with rfl | rfl | rfl <;> rfl
  next hspecial =>
    split
    · exact lexFrom_octalDigits b bytes rest
    next hprintable =>
      rw [not_or, not_or] at hspecial
      rw [not_or, UInt8.not_lt] at hprintable
      have hreturn : b ≠ 0x0D := by
        rintro rfl
        exact absurd hprintable.1 (by decide)
      rw [List.singleton_append, lexFrom, step, stepPlain, if_neg hspecial.2.2, if_neg hspecial.1,
        if_neg hspecial.2.1, if_neg hreturn]

/-- The body of a literal string ends at its own parenthesis, and gives its own bytes. -/
theorem lexFrom_body (bytes : Bytes) : ∀ before rest : Bytes,
    lexFrom (.inside .plain 0 before) (bytes.flatMap escape ++ 0x29 :: rest) =
      (lexFrom .outside rest).map (.literal (before ++ bytes) :: ·) := by
  induction bytes with
  | nil =>
    intro before rest
    rw [List.flatMap_nil, List.nil_append, lexFrom]
    simp [step, stepPlain]
  | cons b bytes ih =>
    intro before rest
    rw [List.flatMap_cons, List.append_assoc, lexFrom_escape, ih, List.append_assoc,
      List.singleton_append]

/-- A literal string is one token, whatever follows it. -/
theorem lex_literal (bytes rest : Bytes) :
    lex (literal bytes ++ rest) = (lex rest).map (.literal bytes :: ·) := by
  have hbody := lexFrom_body bytes [] rest
  rw [List.nil_append] at hbody
  show lexFrom (.inside .plain 0 []) (bytes.flatMap escape ++ [0x29] ++ rest) = _
  rw [List.append_assoc, List.singleton_append, hbody]
  rfl

/-- No parenthesis is among the bytes. -/
def Plain (bytes : Bytes) : Prop := ∀ b ∈ bytes, b ≠ 0x28 ∧ b ≠ 0x29

theorem Plain.append {bytes more : Bytes} (h : Plain bytes) (hmore : Plain more) :
    Plain (bytes ++ more) := List.forall_mem_append.mpr ⟨h, hmore⟩

/-- Bytes without parentheses are tokens of their own. -/
theorem lex_plain {bytes : Bytes} (h : Plain bytes) (rest : Bytes) :
    lex (bytes ++ rest) = (lex rest).map (bytes.map .other ++ ·) := by
  induction bytes with
  | nil =>
    show lex rest = (lex rest).map id
    rw [Option.map_id, id]
  | cons b bytes ih =>
    rw [Plain, List.forall_mem_cons] at h
    rw [List.cons_append, lex, lexFrom, if_neg h.1.1, if_neg h.1.2]
    show (lex (bytes ++ rest)).map _ = _
    rw [ih h.2, Option.map_map]
    rfl

/-! ## Placing items one after the other -/

/-- Where each item begins when the first one begins at `base`. -/
def offsets (base : Nat) : List Bytes → List Nat
  | [] => []
  | item :: items => base :: offsets (base + item.length) items

@[simp] theorem length_offsets (items : List Bytes) : ∀ base, (offsets base items).length = items.length := by
  induction items with
  | nil => exact fun _ => rfl
  | cons item items ih => exact fun base => congrArg Nat.succ (ih _)

/-- At the offset of an item the item is found. -/
theorem prefix_drop_offsets {items : List Bytes} : ∀ {base n offset : Nat} {item before after : Bytes},
    before.length = base → items[n]? = some item → (offsets base items)[n]? = some offset →
      item <+: (before ++ items.flatten ++ after).drop offset := by
  induction items with
  | nil =>
    intro base n offset item before after _ hitem _
    cases hitem
  | cons first items ih =>
    intro base n offset item before after hbase hitem hoffset
    cases n with
    | zero =>
      cases hitem
      cases hoffset
      rw [List.append_assoc, List.drop_append_of_le_length hbase.ge, ← hbase, List.drop_length,
        List.nil_append, List.flatten_cons, List.append_assoc]
      exact List.prefix_append _ _
    | succ n =>
      have hlength : (before ++ first).length = base + first.length := by
        rw [List.length_append, hbase]
      have hfound := @ih _ n offset item (before ++ first) after hlength hitem hoffset
      rwa [List.append_assoc before first] at hfound

end OsScanner.Lib.Pdf

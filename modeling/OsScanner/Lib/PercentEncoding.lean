import Mathlib

/-!
# Percent-decoding

A text is decoded by replacing each escape by its byte and reading the bytes as UTF-8. What stands
between two escapes stays. So a character that belongs to no escape splits the decoding: what is
before it and what is after it are decoded apart. Decoding twice decodes what the first decoding
has brought together, and still leaves such a character where it was.
-/

namespace OsScanner.Lib.Percent

/-! ## UTF-8 -/

/-- A character of the text, or a byte that an escape stands for. -/
inductive Piece where
  | char (c : Char)
  | byte (b : Nat)
  deriving DecidableEq, Repr

/-- What is left to read of a character: how many bytes, the range of the next one, and the bits
read so far. -/
structure Pending where
  owed : Nat
  low : Nat
  high : Nat
  bits : Nat

/-- Between two characters. -/
def Pending.none : Pending := ⟨0, 0, 0, 0⟩

/-- After the first byte of a character of two or more bytes. -/
def lead (b : Nat) : Option Pending :=
  if 0xC2 ≤ b ∧ b ≤ 0xDF then some ⟨1, 0x80, 0xBF, b - 0xC0⟩
  else if b = 0xE0 then some ⟨2, 0xA0, 0xBF, 0⟩
  else if b = 0xED then some ⟨2, 0x80, 0x9F, 0xD⟩
  else if 0xE1 ≤ b ∧ b ≤ 0xEF then some ⟨2, 0x80, 0xBF, b - 0xE0⟩
  else if b = 0xF0 then some ⟨3, 0x90, 0xBF, 0⟩
  else if b = 0xF4 then some ⟨3, 0x80, 0x8F, 4⟩
  else if 0xF1 ≤ b ∧ b ≤ 0xF3 then some ⟨3, 0x80, 0xBF, b - 0xF0⟩
  else Option.none

/-- The text that the pieces make. A byte sequence ends where a character of the text stands. -/
def decodeUtf8 : Pending → List Piece → Option (List Char)
  | pending, [] => if pending.owed = 0 then some [] else none
  | pending, .char c :: rest =>
    if pending.owed = 0 then (decodeUtf8 .none rest).map (c :: ·) else none
  | pending, .byte b :: rest =>
    if pending.owed = 0 then
      if b < 0x80 then (decodeUtf8 .none rest).map (Char.ofNat b :: ·)
      else
        match lead b with
        | some next => decodeUtf8 next rest
        | none => none
    else if pending.low ≤ b ∧ b ≤ pending.high then
      if pending.owed = 1 then
        (decodeUtf8 .none rest).map (Char.ofNat (pending.bits * 64 + (b - 0x80)) :: ·)
      else decodeUtf8 ⟨pending.owed - 1, 0x80, 0xBF, pending.bits * 64 + (b - 0x80)⟩ rest
    else none

/-- A character of the text splits what is decoded. -/
theorem decodeUtf8_append_char {pending : Pending} {a b : List Piece} {c : Char} :
    decodeUtf8 pending (a ++ .char c :: b) =
      (decodeUtf8 pending a).bind fun x => (decodeUtf8 .none b).map fun y => x ++ c :: y := by
  induction a generalizing pending with
  | nil =>
    simp only [List.nil_append, decodeUtf8]
    split <;> simp
  | cons piece a ih =>
    cases piece with
    | char d =>
      simp only [List.cons_append, decodeUtf8]
      split
      · rw [ih]
        cases decodeUtf8 .none a <;> simp [Function.comp_def]
      · rfl
    | byte d =>
      simp only [List.cons_append, decodeUtf8]
      split
      · split
        · rw [ih]
          cases decodeUtf8 .none a <;> simp [Function.comp_def]
        · cases lead d with
          | none => rfl
          | some next => exact ih
      · split
        · split
          · rw [ih]
            cases decodeUtf8 .none a <;> simp [Function.comp_def]
          · exact ih
        · rfl

/-- Without bytes nothing changes. -/
theorem decodeUtf8_chars (text : List Char) :
    decodeUtf8 .none (text.map .char) = some text := by
  induction text with
  | nil => rfl
  | cons c text ih =>
    rw [List.map_cons, decodeUtf8, ih]
    rfl

/-! ## Escapes -/

def hexValue (c : Char) : Option Nat :=
  if '0' ≤ c ∧ c ≤ '9' then some (c.toNat - 48)
  else if 'A' ≤ c ∧ c ≤ 'F' then some (c.toNat - 55)
  else if 'a' ≤ c ∧ c ≤ 'f' then some (c.toNat - 87)
  else none

/-- The byte of two hexadecimal digits. -/
def byteOf (a b : Char) : Option Nat := (hexValue a).bind fun x => (hexValue b).map fun y => 16 * x + y

/-- The text with its escapes replaced. A percent sign without two digits stands for itself. -/
def pieces : List Char → List Piece
  | '%' :: a :: b :: rest =>
    match byteOf a b with
    | some byte => .byte byte :: pieces rest
    | none => .char '%' :: pieces (a :: b :: rest)
  | c :: rest => .char c :: pieces rest
  | [] => []

/-- `unquote(value, errors="strict")` -/
def unquote (value : List Char) : Option (List Char) := decodeUtf8 .none (pieces value)

/-- The character can be no part of an escape. -/
def IsPlain (c : Char) : Prop := c ≠ '%' ∧ hexValue c = none

instance (c : Char) : Decidable (IsPlain c) := inferInstanceAs (Decidable (_ ∧ _))

/-- The characters before the digits and behind the letters are plain. -/
theorem isPlain_of_toNat {c : Char} (h : c.toNat < 37 ∨ 102 < c.toNat) : IsPlain c := by
  constructor
  · rintro rfl
    exact absurd h (by decide)
  · have hrange : ∀ low high : Char, 37 ≤ low.toNat → high.toNat ≤ 102 → ¬ (low ≤ c ∧ c ≤ high) := by
      rintro low high hlow hhigh ⟨hlc, hch⟩
      have hlc' : low.toNat ≤ c.toNat := hlc
      have hch' : c.toNat ≤ high.toNat := hch
      omega
    rw [hexValue, if_neg (hrange '0' '9' (by decide) (by decide)),
      if_neg (hrange 'A' 'F' (by decide) (by decide)),
      if_neg (hrange 'a' 'f' (by decide) (by decide))]

theorem byteOf_eq_none {a b : Char} (h : hexValue a = none ∨ hexValue b = none) :
    byteOf a b = none := by
  rw [byteOf]
  rcases h with h | h
  · rw [h]
    rfl
  · rw [h]
    cases hexValue a <;> rfl

theorem pieces_cons_of_ne {c : Char} (hc : c ≠ '%') (rest : List Char) :
    pieces (c :: rest) = .char c :: pieces rest := by
  rw [pieces]
  intro a b rest' h
  exact absurd h hc

/-- A percent sign without two digits behind it. -/
theorem pieces_percent {rest : List Char} (h : ∀ a b rest', rest = a :: b :: rest' → byteOf a b = none) :
    pieces ('%' :: rest) = .char '%' :: pieces rest := by
  match rest with
  | [] => rfl
  | [_] => rfl
  | a :: b :: rest => rw [pieces, h a b rest rfl]

/-- A plain character splits the text into two that are read apart. -/
theorem pieces_append_plain {a b : List Char} {c : Char} (hc : IsPlain c) :
    pieces (a ++ c :: b) = pieces a ++ .char c :: pieces b := by
  fun_induction pieces a with
  | case1 x y rest byte hbyte ih =>
    simp only [List.cons_append, pieces, hbyte, ih]
  | case2 x y rest hbyte ih =>
    simp only [List.cons_append, pieces, hbyte] at ih ⊢
    rw [ih]
  | case3 d rest hnot ih =>
    rw [List.cons_append, List.cons_append, ← ih]
    by_cases hd : d = '%'
    · subst hd
      -- at most one character stands between the percent sign and the plain one
      refine pieces_percent fun x y rest' heq => byteOf_eq_none ?_
      match rest, hnot with
      | [], _ =>
        cases heq
        exact Or.inl hc.2
      | [z], _ =>
        cases heq
        exact Or.inr hc.2
      | z :: w :: rest, hnot => exact absurd rfl (hnot z w rest rfl)
    · exact pieces_cons_of_ne hd _
  | case4 => exact pieces_cons_of_ne hc.1 b

theorem unquote_append_plain {a b : List Char} {c : Char} (hc : IsPlain c) :
    unquote (a ++ c :: b) =
      (unquote a).bind fun x => (unquote b).map fun y => x ++ c :: y := by
  rw [unquote, pieces_append_plain hc, decodeUtf8_append_char]
  rfl

theorem unquote_cons_plain {b : List Char} {c : Char} (hc : IsPlain c) :
    unquote (c :: b) = (unquote b).map (c :: ·) := by
  have h := @unquote_append_plain [] b c hc
  rw [List.nil_append] at h
  rw [h]
  rfl

/-- What is decoded around a plain character. -/
theorem unquote_append_eq_some {a b decoded : List Char} {c : Char} (hc : IsPlain c)
    (h : unquote (a ++ c :: b) = some decoded) :
    ∃ x y, unquote a = some x ∧ unquote b = some y ∧ decoded = x ++ c :: y := by
  rw [unquote_append_plain hc, Option.bind_eq_some_iff] at h
  obtain ⟨x, hx, h⟩ := h
  obtain ⟨y, hy, rfl⟩ := Option.map_eq_some_iff.mp h
  exact ⟨x, y, hx, hy, rfl⟩

/-- A text without percent signs is decoded as it is. -/
theorem unquote_of_not_mem {value : List Char} (h : '%' ∉ value) : unquote value = some value := by
  have hpieces : pieces value = value.map .char := by
    induction value with
    | nil => rfl
    | cons c value ih =>
      rw [pieces_cons_of_ne (fun heq => h (heq ▸ List.mem_cons_self)),
        ih fun hmem => h (List.mem_cons_of_mem _ hmem), List.map_cons]
  rw [unquote, hpieces, decodeUtf8_chars]

/-! ## Decoding again and again -/

/-- The text after this number of decodings. -/
def unquoteTimes : Nat → List Char → Option (List Char)
  | 0, value => some value
  | k + 1, value => (unquote value).bind (unquoteTimes k)

theorem unquoteTimes_of_fixed {value : List Char} (h : unquote value = some value) (k : Nat) :
    unquoteTimes k value = some value := by
  induction k with
  | zero => rfl
  | succ k ih =>
    rw [unquoteTimes, h]
    exact ih

/-- What holds of the text that one decoding makes, when it holds of the text, holds of every later
one. -/
theorem unquoteTimes_invariant {P : List Char → Prop}
    (hstep : ∀ {value decoded}, unquote value = some decoded → P value → P decoded) {k : Nat}
    {value decoded : List Char} (h : unquoteTimes k value = some decoded) (hvalue : P value) :
    P decoded := by
  induction k generalizing value with
  | zero =>
    cases h
    exact hvalue
  | succ k ih =>
    obtain ⟨next, hnext, h⟩ := Option.bind_eq_some_iff.mp h
    exact ih h (hstep hnext hvalue)

/-- What holds of a text when it holds of its decoding, holds of every earlier one. -/
theorem unquoteTimes_backward {P : List Char → Prop}
    (hstep : ∀ {value decoded}, unquote value = some decoded → P decoded → P value) {k : Nat}
    {value decoded : List Char} (h : unquoteTimes k value = some decoded) (hdecoded : P decoded) :
    P value := by
  induction k generalizing value with
  | zero =>
    cases h
    exact hdecoded
  | succ k ih =>
    obtain ⟨next, hnext, h⟩ := Option.bind_eq_some_iff.mp h
    exact hstep hnext (ih h)

/-- However often a text is decoded, what is around a plain character is decoded apart. -/
theorem unquoteTimes_append_plain {a b : List Char} {c : Char} (hc : IsPlain c) (k : Nat) :
    unquoteTimes k (a ++ c :: b) =
      (unquoteTimes k a).bind fun x => (unquoteTimes k b).map fun y => x ++ c :: y := by
  induction k generalizing a b with
  | zero => rfl
  | succ k ih =>
    simp only [unquoteTimes]
    rw [unquote_append_plain hc]
    cases unquote a with
    | none => rfl
    | some x =>
      cases unquote b with
      | none => simp
      | some y =>
        show unquoteTimes k (x ++ c :: y) = _
        rw [ih]
        rfl

/-! ## What decoding cannot remove -/

/-- A plain character of the text is one of the decoded text. -/
theorem mem_unquote {value decoded : List Char} {c : Char} (hc : IsPlain c)
    (h : unquote value = some decoded) (hmem : c ∈ value) : c ∈ decoded := by
  obtain ⟨a, b, rfl⟩ := List.append_of_mem hmem
  obtain ⟨x, y, -, -, rfl⟩ := unquote_append_eq_some hc h
  simp

/-- A prefix of plain characters stays. -/
theorem prefix_unquote {start value decoded : List Char} (hstart : ∀ c ∈ start, IsPlain c)
    (h : unquote value = some decoded) (hstart : start <+: value) : start <+: decoded := by
  obtain ⟨rest, rfl⟩ := hstart
  induction start generalizing decoded with
  | nil => exact List.nil_prefix
  | cons c start ih =>
    rw [List.cons_append, unquote_cons_plain (hstart c List.mem_cons_self)] at h
    obtain ⟨later, hlater, rfl⟩ := Option.map_eq_some_iff.mp h
    refine List.cons_prefix_cons.mpr ⟨rfl, ih (fun d hd => ?_) hlater⟩
    exact hstart d (List.mem_cons_of_mem _ hd)

/-- A segment of plain characters stays a segment. -/
theorem mem_splitOn_unquote {value decoded segment : List Char} {separator : Char}
    (hseparator : IsPlain separator) (hsegment : unquote segment = some segment)
    (h : unquote value = some decoded) (hmem : segment ∈ value.splitOn separator)
    (hnot : separator ∉ segment) : segment ∈ decoded.splitOn separator := by
  induction hlength : value.length using Nat.strong_induction_on generalizing value decoded with
  | _ n ih =>
    by_cases hsep : separator ∈ value
    · obtain ⟨a, b, rfl, ha⟩ := List.eq_append_cons_of_mem hsep
      obtain ⟨x, y, hx, hy, rfl⟩ := unquote_append_eq_some hseparator h
      rw [List.splitOn_append_cons_self_of_not_mem ha] at hmem
      rw [List.splitOn_append_cons_self]
      rcases List.mem_cons.mp hmem with rfl | hmem
      · -- the first segment is decoded as it is
        rw [hsegment] at hx
        cases hx
        rw [List.splitOn_eq_singleton hnot]
        exact List.mem_append_left _ (List.mem_singleton.mpr rfl)
      · refine List.mem_append_right _ (ih b.length ?_ hy hmem rfl)
        rw [← hlength, List.length_append, List.length_cons]
        omega
    · rw [List.splitOn_eq_singleton hsep, List.mem_singleton] at hmem
      subst hmem
      rw [hsegment] at h
      cases h
      rw [List.splitOn_eq_singleton hnot]
      exact List.mem_singleton.mpr rfl

end OsScanner.Lib.Percent

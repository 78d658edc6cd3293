import Mathlib
import OsScanner.Json.Canonical

/-!
# The size of canonical JSON

`len(canonical_json(value).encode())` is a sum over the value. Sorting the keys of its objects
permutes the summands, so it can be read off the value as it is.
-/

namespace OsScanner.Json

/-! ## The size of a text -/

/-- `len(text.encode())` -/
def textSize (text : List Char) : Nat := (text.map Char.utf8Size).sum

@[simp] theorem textSize_nil : textSize [] = 0 := rfl

@[simp] theorem textSize_cons (c : Char) (text : List Char) :
    textSize (c :: text) = c.utf8Size + textSize text := rfl

@[simp] theorem textSize_append (a b : List Char) :
    textSize (a ++ b) = textSize a + textSize b := by
  rw [textSize, List.map_append, List.sum_append]
  rfl

theorem utf8ByteSize_ofList (text : List Char) :
    (String.ofList text).utf8ByteSize = textSize text := by
  induction text with
  | nil => rfl
  | cons c text ih =>
    have hcons : String.ofList (c :: text) = String.singleton c ++ String.ofList text := by
      rw [← String.toList_inj]
      simp
    rw [hcons, String.utf8ByteSize_append, String.utf8ByteSize_singleton, ih, textSize_cons]

/-- An ASCII character that is written as it is. -/
def IsPlain (c : Char) : Prop := 32 ≤ c.toNat ∧ c.toNat < 127 ∧ c ≠ '"' ∧ c ≠ '\\'

theorem textSize_escapeChar {c : Char} (h : IsPlain c) : textSize (escapeChar c) = 1 := by
  obtain ⟨hlow, hhigh, hquote, hslash⟩ := h
  have hcontrol : ∀ d : Char, d.toNat < 32 → c ≠ d := by
    rintro d hd rfl
    omega
  rw [escapeChar, if_neg hquote, if_neg hslash, if_neg (hcontrol _ (by decide)),
    if_neg (hcontrol _ (by decide)), if_neg (hcontrol _ (by decide)),
    if_neg (hcontrol _ (by decide)), if_neg (hcontrol _ (by decide)), if_neg (by omega),
    textSize_cons, textSize_nil, Nat.add_zero]
  exact Char.utf8Size_eq_one_iff.mpr (UInt32.le_iff_toNat_le.mpr (by show c.toNat ≤ 127; omega))

/-- A plain text is its characters and two quotes. -/
theorem textSize_stringRepr {s : String} (h : ∀ c ∈ s.toList, IsPlain c) :
    textSize (stringRepr s) = s.length + 2 := by
  have hchars : ∀ text : List Char, (∀ c ∈ text, IsPlain c) →
      textSize (text.flatMap escapeChar) = text.length := by
    intro text
    induction text with
    | nil => exact fun _ => rfl
    | cons c text ih =>
      intro htext
      rw [List.forall_mem_cons] at htext
      rw [List.flatMap_cons, textSize_append, textSize_escapeChar htext.1, ih htext.2,
        List.length_cons, Nat.add_comm]
  rw [stringRepr, textSize_cons, textSize_append, hchars _ h, String.length_toList]
  show 1 + (s.length + 1) = s.length + 2
  omega

/-! ## The size of a value -/

mutual

/-- The size of the text of a value: each item and each field has a comma, but for the last. -/
def size (rt : Runtime) : Json → Nat
  | .arr items => 2 + (sizeOfItems rt items - 1)
  | .obj fields => 2 + (sizeOfFields rt fields - 1)
  | .null => textSize (render rt .null)
  | .bool b => textSize (render rt (.bool b))
  | .int n => textSize (render rt (.int n))
  | .float f => textSize (render rt (.float f))
  | .str s => textSize (render rt (.str s))

def sizeOfItems (rt : Runtime) : List Json → Nat
  | [] => 0
  | v :: l => size rt v + 1 + sizeOfItems rt l

def sizeOfFields (rt : Runtime) : JsonObject → Nat
  | [] => 0
  | (k, v) :: l => textSize (stringRepr k) + 1 + size rt v + 1 + sizeOfFields rt l

end

variable {rt : Runtime}

theorem sizeOfFields_eq_sum (fields : JsonObject) : sizeOfFields rt fields =
    (fields.map fun e => textSize (stringRepr e.1) + 1 + size rt e.2 + 1).sum := by
  induction fields with
  | nil => rfl
  | cons e l ih => rw [sizeOfFields, ih, List.map_cons, List.sum_cons]

theorem sizeOfFields_perm {a b : JsonObject} (h : a.Perm b) :
    sizeOfFields rt a = sizeOfFields rt b := by
  rw [sizeOfFields_eq_sum, sizeOfFields_eq_sum]
  exact (h.map _).sum_eq

/-- Sorting the keys does not change the size. -/
theorem size_sortKeys (v : Json) : size rt (sortKeys v) = size rt v := by
  induction v with
  | arr items ih =>
    rw [sortKeys, size, size]
    congr 2
    induction items with
    | nil => rfl
    | cons v l ihl =>
      rw [List.forall_mem_cons] at ih
      rw [sortItems, sizeOfItems, sizeOfItems, ih.1, ihl ih.2]
  | obj fields ih =>
    rw [sortKeys, size, size, sizeOfFields_perm (List.perm_insertionSort keyLe _)]
    congr 2
    induction fields with
    | nil => rfl
    | cons e l ihl =>
      rw [List.forall_mem_cons] at ih
      rw [sortFields, sizeOfFields, sizeOfFields, ih.1, ihl ih.2]
  | _ => rfl

theorem textSize_renderItems {items : List Json}
    (ih : ∀ v ∈ items, textSize (render rt v) = size rt v) :
    textSize (renderItems rt [','] items) = sizeOfItems rt items ∧
      textSize (renderItems rt [] items) = sizeOfItems rt items - 1 := by
  induction items with
  | nil => exact ⟨rfl, rfl⟩
  | cons v l ihl =>
    rw [List.forall_mem_cons] at ih
    obtain ⟨hcomma, -⟩ := ihl ih.2
    have hone : textSize [','] = 1 := rfl
    simp only [renderItems, sizeOfItems, textSize_append, hcomma, ih.1, hone, textSize_nil]
    omega

theorem textSize_renderFields {fields : JsonObject}
    (ih : ∀ e ∈ fields, textSize (render rt e.2) = size rt e.2) :
    textSize (renderFields rt [','] fields) = sizeOfFields rt fields ∧
      textSize (renderFields rt [] fields) = sizeOfFields rt fields - 1 := by
  induction fields with
  | nil => exact ⟨rfl, rfl⟩
  | cons e l ihl =>
    obtain ⟨k, v⟩ := e
    rw [List.forall_mem_cons] at ih
    obtain ⟨hcomma, -⟩ := ihl ih.2
    have hone : textSize [','] = 1 := rfl
    have hcolon : Char.utf8Size ':' = 1 := rfl
    have hvalue := ih.1
    dsimp only at hvalue
    simp only [renderFields, sizeOfFields, textSize_append, textSize_cons, hcomma, hvalue, hone,
      hcolon, textSize_nil]
    omega

theorem textSize_render (v : Json) : textSize (render rt v) = size rt v := by
  induction v with
  | arr items ih =>
    rw [render, size, textSize_cons, textSize_append, (textSize_renderItems ih).2]
    show 1 + (_ + 1) = _
    omega
  | obj fields ih =>
    rw [render, size, textSize_cons, textSize_append, (textSize_renderFields ih).2]
    show 1 + (_ + 1) = _
    omega
  | _ => rfl

/-- `len(canonical_json(value).encode())` -/
theorem utf8ByteSize_canonicalJson (v : Json) : (canonicalJson rt v).utf8ByteSize = size rt v := by
  rw [canonicalJson, utf8ByteSize_ofList, textSize_render, size_sortKeys]

end OsScanner.Json

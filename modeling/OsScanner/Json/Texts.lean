import Mathlib
import OsScanner.Json.Canonical

/-!
# The texts of a value

The strings and the keys of a JSON value are all that a caller can put characters into: the printed
form of a value has the characters of its texts, and beside them visible ASCII.
-/

namespace OsScanner.Json

open Lib

/-! ## Texts -/

mutual

/-- The strings of a value and the keys of its objects. -/
def texts : Json → List String
  | .null | .bool _ | .int _ | .float _ => []
  | .str s => [s]
  | .arr items => textsOfItems items
  | .obj fields => textsOfFields fields

def textsOfItems : List Json → List String
  | [] => []
  | v :: l => texts v ++ textsOfItems l

def textsOfFields : JsonObject → List String
  | [] => []
  | (k, v) :: l => k :: (texts v ++ textsOfFields l)

end

theorem mem_textsOfItems {t : String} {items : List Json} :
    t ∈ textsOfItems items ↔ ∃ v ∈ items, t ∈ texts v := by
  induction items with
  | nil => simp [textsOfItems]
  | cons v l ih => simp [textsOfItems, ih]

theorem mem_textsOfFields {t : String} {fields : JsonObject} :
    t ∈ textsOfFields fields ↔ ∃ e ∈ fields, t = e.1 ∨ t ∈ texts e.2 := by
  induction fields with
  | nil => simp [textsOfFields]
  | cons e l ih => simp [textsOfFields, ih, or_assoc]

@[simp] theorem mem_texts_sortKeys {t : String} (v : Json) :
    t ∈ texts (sortKeys v) ↔ t ∈ texts v := by
  induction v with
  | arr items ih =>
    rw [sortKeys, sortItems_eq, texts, texts, mem_textsOfItems, mem_textsOfItems]
    constructor
    · rintro ⟨w, hw, ht⟩
      obtain ⟨v, hv, rfl⟩ := List.mem_map.mp hw
      exact ⟨v, hv, (ih v hv).mp ht⟩
    · rintro ⟨v, hv, ht⟩
      exact ⟨sortKeys v, List.mem_map.mpr ⟨v, hv, rfl⟩, (ih v hv).mpr ht⟩
  | obj fields ih =>
    rw [sortKeys, sortFields_eq, texts, texts, mem_textsOfFields, mem_textsOfFields]
    constructor
    · rintro ⟨w, hw, ht⟩
      obtain ⟨e, he, rfl⟩ := List.mem_map.mp ((List.mem_insertionSort _).mp hw)
      exact ⟨e, he, ht.imp id (ih e he).mp⟩
    · rintro ⟨e, he, ht⟩
      exact ⟨(e.1, sortKeys e.2),
        (List.mem_insertionSort _).mpr (List.mem_map.mpr ⟨e, he, rfl⟩), ht.imp id (ih e he).mpr⟩
  | _ => rfl

/-! ## Width and depth -/

/-- No list and no object is longer than `width`, and the value nests no deeper than `depth`. -/
inductive Bounded (width : Nat) : Nat → Json → Prop where
  | null {depth : Nat} : Bounded width depth .null
  | bool {depth : Nat} (b : Bool) : Bounded width depth (.bool b)
  | int {depth : Nat} (n : Int) : Bounded width depth (.int n)
  | float {depth : Nat} (f : PyFloat) : Bounded width depth (.float f)
  | str {depth : Nat} (s : String) : Bounded width depth (.str s)
  | arr {depth : Nat} {items : List Json} (hwidth : items.length ≤ width)
      (hitems : ∀ v ∈ items, Bounded width depth v) : Bounded width (depth + 1) (.arr items)
  | obj {depth : Nat} {fields : JsonObject} (hwidth : fields.length ≤ width)
      (hfields : ∀ e ∈ fields, Bounded width depth e.2) : Bounded width (depth + 1) (.obj fields)

theorem Bounded.mono {width width' : Nat} (hwidth : width ≤ width') {v : Json} {depth : Nat}
    (h : Bounded width depth v) : Bounded width' depth v := by
  induction h with
  | null => exact .null
  | bool b => exact .bool b
  | int n => exact .int n
  | float f => exact .float f
  | str s => exact .str s
  | arr hlength _ ih => exact .arr (hlength.trans hwidth) ih
  | obj hlength _ ih => exact .obj (hlength.trans hwidth) ih

/-! ## Printed characters -/

/-- Visible ASCII and the blank. -/
def visible (c : Char) : Bool := decide (32 ≤ c.toNat ∧ c.toNat < 127)

/-- A character stands for itself or is written with visible characters. -/
theorem escapeChar_or (c : Char) :
    (escapeChar c = [c] ∧ 32 ≤ c.toNat) ∨ (escapeChar c).all visible = true := by
  have hcontrol : ∀ n < 32, (escapeChar (Char.ofNat n)).all visible = true := by
    intro n hn
    interval_cases n <;> rfl
  by_cases hc : c.toNat < 32
  · have h := hcontrol c.toNat hc
    rw [Char.ofNat_toNat] at h
    exact Or.inr h
  by_cases hquote : c = '"'
  · exact Or.inr (by rw [hquote]; rfl)
  by_cases hslash : c = '\\'
  · exact Or.inr (by rw [hslash]; rfl)
  have hne : ∀ d : Char, d.toNat < 32 → c ≠ d := fun d hd h => hc (h ▸ hd)
  refine Or.inl ⟨?_, Nat.le_of_not_lt hc⟩
  rw [escapeChar, if_neg hquote, if_neg hslash, if_neg (hne '\n' (by decide)),
    if_neg (hne '\r' (by decide)), if_neg (hne '\t' (by decide)), if_neg (hne '\x08' (by decide)),
    if_neg (hne '\x0c' (by decide)), if_neg hc]

theorem visible_of_isNumberChar {c : Char} (h : isNumberChar c = true) : visible c = true := by
  simp only [isNumberChar, Bool.or_eq_true, beq_iff_eq] at h
  rcases h with (((hdigit | rfl) | rfl) | rfl) | rfl
  · have hrange : 48 ≤ c.toNat ∧ c.toNat ≤ 57 := by
      simpa [Char.isDigit, Char.le_def, UInt32.le_iff_toNat_le] using hdigit
    rw [visible, decide_eq_true_eq]
    omega
  all_goals rfl

section Printed

-- A property that no visible character violates.
variable {P : Char → Prop} (hvisible : ∀ c : Char, visible c = true → P c)
include hvisible

theorem forall_of_visible {l : List Char} (h : l.all visible = true) : ∀ c ∈ l, P c :=
  fun c hc => hvisible c (List.all_eq_true.mp h c hc)

theorem forall_stringRepr {s : String} (hs : ∀ c ∈ s.toList, 32 ≤ c.toNat → P c) :
    ∀ x ∈ stringRepr s, P x := by
  have hquote : P '"' := hvisible _ rfl
  intro x hx
  rcases List.mem_cons.mp hx with rfl | hx
  · exact hquote
  rcases List.mem_append.mp hx with hx | hx
  · obtain ⟨c, hc, hx⟩ := List.mem_flatMap.mp hx
    rcases escapeChar_or c with ⟨hself, hle⟩ | hescape
    · rw [hself, List.mem_singleton] at hx
      exact hx ▸ hs c hc hle
    · exact forall_of_visible hvisible hescape x hx
  · rw [List.mem_singleton.mp hx]
    exact hquote

/-- The printed form has no other characters than visible ones and those of its texts. -/
theorem forall_render (rt : Runtime) (v : Json) :
    (∀ t ∈ texts v, ∀ c ∈ t.toList, 32 ≤ c.toNat → P c) → ∀ x ∈ render rt v, P x := by
  have hcomma : ∀ c ∈ [','], P c := forall_of_visible hvisible rfl
  induction v with
  | null =>
    rw [render]
    exact fun _ => forall_of_visible hvisible rfl
  | bool b =>
    cases b <;> rw [render] <;> exact fun _ => forall_of_visible hvisible rfl
  | int n => exact fun _ c hc => hvisible c (visible_of_isNumberChar (intRepr_chars n c hc))
  | float f => exact fun _ c hc => hvisible c (visible_of_isNumberChar (rt.floatRepr_chars f c hc))
  | str s => exact fun h => forall_stringRepr hvisible (h s List.mem_cons_self)
  | arr items ih =>
    intro h
    -- The separator before an item is empty or a comma.
    have hitems : ∀ separator : List Char, (∀ c ∈ separator, P c) →
        ∀ x ∈ renderItems rt separator items, P x := by
      rw [texts] at h
      induction items with
      | nil => exact fun _ _ _ hx => absurd hx List.not_mem_nil
      | cons v l ihl =>
        intro separator hseparator x hx
        rw [List.forall_mem_cons] at ih
        rw [textsOfItems, List.forall_mem_append] at h
        rw [renderItems, List.mem_append, List.mem_append] at hx
        rcases hx with hx | hx | hx
        · exact hseparator x hx
        · exact ih.1 h.1 x hx
        · exact ihl ih.2 h.2 _ hcomma x hx
    intro x hx
    rw [render, List.mem_cons, List.mem_append, List.mem_singleton] at hx
    rcases hx with rfl | hx | rfl
    · exact hvisible _ rfl
    · exact hitems [] (List.forall_mem_nil _) x hx
    · exact hvisible _ rfl
  | obj fields ih =>
    intro h
    have hfields : ∀ separator : List Char, (∀ c ∈ separator, P c) →
        ∀ x ∈ renderFields rt separator fields, P x := by
      rw [texts] at h
      induction fields with
      | nil => exact fun _ _ _ hx => absurd hx List.not_mem_nil
      | cons e l ihl =>
        obtain ⟨k, v⟩ := e
        intro separator hseparator x hx
        rw [List.forall_mem_cons] at ih
        rw [textsOfFields, List.forall_mem_cons, List.forall_mem_append] at h
        rw [renderFields, List.mem_append, List.mem_append, List.mem_cons, List.mem_append] at hx
        rcases hx with hx | hx | rfl | hx | hx
        · exact hseparator x hx
        · exact forall_stringRepr hvisible h.1 x hx
        · exact hvisible _ rfl
        · exact ih.1 h.2.1 x hx
        · exact ihl ih.2 h.2.2 _ hcomma x hx
    intro x hx
    rw [render, List.mem_cons, List.mem_append, List.mem_singleton] at hx
    rcases hx with rfl | hx | rfl
    · exact hvisible _ rfl
    · exact hfields [] (List.forall_mem_nil _) x hx
    · exact hvisible _ rfl

theorem forall_canonicalJson (rt : Runtime) (v : Json)
    (h : ∀ t ∈ texts v, ∀ c ∈ t.toList, 32 ≤ c.toNat → P c) :
    ∀ c ∈ (canonicalJson rt v).toList, P c := by
  rw [canonicalJson, String.toList_ofList]
  exact forall_render hvisible rt (sortKeys v) fun t ht => h t ((mem_texts_sortKeys v).mp ht)

end Printed

/-- A value is printed on one line. -/
theorem canonicalJson_one_line (rt : Runtime) (v : Json) :
    ∀ c ∈ (canonicalJson rt v).toList, 32 ≤ c.toNat :=
  forall_canonicalJson (fun _ h => (of_decide_eq_true h).1) rt v fun _ _ _ _ h => h

end OsScanner.Json

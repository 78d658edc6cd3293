import Mathlib
import OsScanner.Json.Value
import OsScanner.Lib.Text
import OsScanner.Runtime

/-!
# Canonical JSON

`canonical_json`: `json.dumps` with sorted keys, no spaces and `ensure_ascii=False`. Endpoint
and cloud hash this text, so the question is when two values have the same one. The printer
is injective, so the text determines the value up to the order of the fields of its objects.
-/

namespace OsScanner

open Lib

namespace Json

/-! ## Sorting keys -/

/-- The order in which `sort_keys` writes the fields. -/
def keyLe (a b : String × Json) : Prop := a.1 ≤ b.1

instance : DecidableRel keyLe := fun a b => inferInstanceAs (Decidable (a.1 ≤ b.1))
instance : Std.Total keyLe := ⟨fun a b => le_total a.1 b.1⟩
instance : IsTrans (String × Json) keyLe := ⟨fun _ _ _ h₁ h₂ => le_trans h₁ h₂⟩

mutual

/-- The fields of every object in the order of their names. -/
def sortKeys : Json → Json
  | .arr items => .arr (sortItems items)
  | .obj fields => .obj ((sortFields fields).insertionSort keyLe)
  | v => v

def sortItems : List Json → List Json
  | [] => []
  | v :: l => sortKeys v :: sortItems l

def sortFields : JsonObject → JsonObject
  | [] => []
  | (k, v) :: l => (k, sortKeys v) :: sortFields l

end

theorem sortItems_eq (l : List Json) : sortItems l = l.map sortKeys := by
  induction l with
  | nil => rfl
  | cons v l ih => rw [sortItems, ih, List.map_cons]

theorem sortFields_eq (l : JsonObject) : sortFields l = l.map fun e => (e.1, sortKeys e.2) := by
  induction l with
  | nil => rfl
  | cons e l ih => rw [sortFields, ih, List.map_cons]

/-! ## Printing -/

/-- The escapes of `py_encode_basestring`. -/
def escapeChar (c : Char) : List Char :=
  if c = '"' then ['\\', '"']
  else if c = '\\' then ['\\', '\\']
  else if c = '\n' then ['\\', 'n']
  else if c = '\r' then ['\\', 'r']
  else if c = '\t' then ['\\', 't']
  else if c = '\x08' then ['\\', 'b']
  else if c = '\x0c' then ['\\', 'f']
  else if c.toNat < 32 then
    ['\\', 'u', '0', '0', Nat.digitChar (c.toNat / 16), Nat.digitChar (c.toNat % 16)]
  else [c]

/-- A quoted string. -/
def stringRepr (s : String) : List Char := '"' :: (s.toList.flatMap escapeChar ++ ['"'])

/-- `int.__repr__` -/
def intRepr (n : Int) : List Char :=
  (if n < 0 then ['-'] else []) ++ Nat.toDigits 10 n.natAbs

mutual

/-- `json.dumps(value, separators=(",", ":"), ensure_ascii=False)` -/
def render (rt : Runtime) : Json → List Char
  | .null => ['n', 'u', 'l', 'l']
  | .bool true => ['t', 'r', 'u', 'e']
  | .bool false => ['f', 'a', 'l', 's', 'e']
  | .int n => intRepr n
  | .float f => rt.floatRepr f
  | .str s => stringRepr s
  | .arr items => '[' :: (renderItems rt [] items ++ [']'])
  | .obj fields => '{' :: (renderFields rt [] fields ++ ['}'])

/-- The items, each after its separator: nothing before the first one, a comma after that. -/
def renderItems (rt : Runtime) (separator : List Char) : List Json → List Char
  | [] => []
  | v :: l => separator ++ (render rt v ++ renderItems rt [','] l)

def renderFields (rt : Runtime) (separator : List Char) : JsonObject → List Char
  | [] => []
  | (k, v) :: l => separator ++ (stringRepr k ++ ':' :: (render rt v ++ renderFields rt [','] l))

end

/-- `canonical_json(value)` -/
def canonicalJson (rt : Runtime) (v : Json) : String := String.ofList (render rt (sortKeys v))

/-- `sha256(canonical_json(value).encode("utf-8")).hexdigest()` -/
def canonicalSha256 (rt : Runtime) (v : Json) : String := rt.hashText (canonicalJson rt v)

example : canonicalJson Runtime.sample
    (.obj [("b", .arr [.int (-12), .bool true]), ("a", .str "x\"\n")]) =
      "\x7b\"a\":\"x\\\"\\n\",\"b\":[-12,true]\x7d" := by decide

/-! ## Strings are separated from what follows -/

/-- The value of a hexadecimal digit. -/
def hexValue (c : Char) : Nat := if c.isDigit then c.toNat - 48 else c.toNat - 87

/-- Read what stands after a backslash. -/
def readEscape : List Char → Option (Char × List Char)
  | 'n' :: r => some ('\n', r)
  | 'r' :: r => some ('\r', r)
  | 't' :: r => some ('\t', r)
  | 'b' :: r => some ('\x08', r)
  | 'f' :: r => some ('\x0c', r)
  | 'u' :: _ :: _ :: a :: b :: r => some (Char.ofNat (hexValue a * 16 + hexValue b), r)
  | c :: r => some (c, r)
  | [] => none

/-- Read one character of a string, or its closing quote. -/
def readChar : List Char → Option (Option Char × List Char)
  | [] => none
  | c :: r =>
    if c = '"' then some (none, r)
    else if c = '\\' then (readEscape r).map fun x => (some x.1, x.2)
    else some (some c, r)

theorem readChar_control (n : Nat) (hn : n < 32) (r : List Char) :
    readChar (escapeChar (Char.ofNat n) ++ r) = some (some (Char.ofNat n), r) := by
  interval_cases n <;> rfl

/-- Reading undoes the escape. -/
theorem readChar_escapeChar (c : Char) (r : List Char) :
    readChar (escapeChar c ++ r) = some (some c, r) := by
  by_cases hc : c.toNat < 32
  · have h := readChar_control c.toNat hc r
    rwa [Char.ofNat_toNat] at h
  · by_cases hq : c = '"'
    · subst hq; rfl
    · by_cases hb : c = '\\'
      · subst hb; rfl
      · have hself : escapeChar c = [c] := by
          have hne : ∀ d : Char, d.toNat < 32 → c ≠ d := fun d hd he => hc (he ▸ hd)
          simp only [escapeChar, hq, hb, hc, if_false, hne '\n' (by decide),
            hne '\r' (by decide), hne '\t' (by decide), hne '\x08' (by decide),
            hne '\x0c' (by decide)]
        rw [hself]
        simp [readChar, hq, hb]

theorem escape_append_inj {a b r s : List Char}
    (h : a.flatMap escapeChar ++ '"' :: r = b.flatMap escapeChar ++ '"' :: s) :
    a = b ∧ r = s := by
  have hquote : ∀ t, readChar ('"' :: t) = some (none, t) := fun t => rfl
  have hcons : ∀ (c : Char) (l t : List Char),
      readChar ((c :: l).flatMap escapeChar ++ t) = some (some c, l.flatMap escapeChar ++ t) := by
    intro c l t
    rw [List.flatMap_cons, List.append_assoc, readChar_escapeChar]
  induction a generalizing b with
  | nil =>
    cases b with
    | nil => simpa using h
    | cons d b =>
      have hr := congrArg readChar h
      rw [List.flatMap_nil, List.nil_append, hquote, hcons] at hr
      simp at hr
  | cons c a ih =>
    cases b with
    | nil =>
      have hr := congrArg readChar h
      rw [List.flatMap_nil, List.nil_append, hquote, hcons] at hr
      simp at hr
    | cons d b =>
      have hr := congrArg readChar h
      rw [hcons, hcons, Option.some.injEq, Prod.mk.injEq, Option.some.injEq] at hr
      obtain ⟨hab, hrs⟩ := ih hr.2
      exact ⟨by rw [hr.1, hab], hrs⟩

theorem stringRepr_append_inj {a b : String} {r s : List Char}
    (h : stringRepr a ++ r = stringRepr b ++ s) : a = b ∧ r = s := by
  simp only [stringRepr, List.cons_append, List.append_assoc, List.nil_append,
    List.cons.injEq, true_and] at h
  obtain ⟨hab, hrs⟩ := escape_append_inj h
  exact ⟨String.toList_inj.mp hab, hrs⟩

/-! ## Numbers are separated from what follows -/

theorem intRepr_chars (n : Int) : ∀ c ∈ intRepr n, isNumberChar c = true := by
  intro c hc
  rcases List.mem_append.mp hc with h | h
  · split at h
    · rw [List.mem_singleton.mp h]; decide
    · simp at h
  · exact Sample.isNumberChar_of_mem_toDigits h

theorem intRepr_no_point (n : Int) : '.' ∉ intRepr n ∧ 'e' ∉ intRepr n := by
  have hdigit : ∀ c : Char, c.isDigit = false → c ≠ '-' → c ∉ intRepr n := by
    intro c hd hm hc
    rcases List.mem_append.mp hc with h | h
    · split at h
      · exact hm (List.mem_singleton.mp h)
      · simp at h
    · rw [Nat.isDigit_of_mem_toDigits (by omega) (by omega) h] at hd
      cases hd
  exact ⟨hdigit '.' (by decide) (by decide), hdigit 'e' (by decide) (by decide)⟩

theorem minus_toDigits_ne (k l : Nat) : '-' :: Nat.toDigits 10 k ≠ Nat.toDigits 10 l := by
  intro h
  refine Sample.toDigits_append_head l [] ?_
  rw [List.append_nil, ← h, List.head?_cons]

theorem intRepr_injective : Function.Injective intRepr := by
  intro m n h
  unfold intRepr at h
  by_cases hm : m < 0 <;> by_cases hn : n < 0 <;> simp only [hm, hn, if_true, if_false] at h
  · have habs := Sample.toDigits_injective (List.append_cancel_left h)
    omega
  · exact absurd h (minus_toDigits_ne _ _)
  · exact absurd h.symm (minus_toDigits_ne _ _)
  · have habs := Sample.toDigits_injective (List.append_cancel_left h)
    omega

theorem intRepr_ne_floatRepr (rt : Runtime) (n : Int) (f : PyFloat) :
    intRepr n ≠ rt.floatRepr f := by
  intro h
  rcases rt.floatRepr_point f with hp | hp
  · exact (intRepr_no_point n).1 (h ▸ hp)
  · exact (intRepr_no_point n).2 (h ▸ hp)

/-! ## The first character tells the kind of a value -/

def charKind (c : Char) : Nat :=
  if isNumberChar c then 0
  else if c = 'n' then 1
  else if c = 't' then 2
  else if c = 'f' then 3
  else if c = '"' then 4
  else if c = '[' then 5
  else if c = '{' then 6
  else 7

def kind : Json → Nat
  | .int _ | .float _ => 0
  | .null => 1
  | .bool true => 2
  | .bool false => 3
  | .str _ => 4
  | .arr _ => 5
  | .obj _ => 6

theorem kind_lt (v : Json) : v.kind < 7 := by
  cases v with
  | bool b => cases b <;> decide
  | _ => simp [kind]

theorem intRepr_ne_nil (n : Int) : intRepr n ≠ [] := by
  intro h
  exact Nat.toDigits_ne_nil (List.append_eq_nil_iff.mp h).2

theorem floatRepr_ne_nil (rt : Runtime) (f : PyFloat) : rt.floatRepr f ≠ [] := by
  intro h
  rcases rt.floatRepr_point f with hp | hp <;> simp [h] at hp

theorem number_head {l : List Char} (hne : l ≠ []) (hl : ∀ c ∈ l, isNumberChar c = true) :
    ∃ c t, l = c :: t ∧ charKind c = 0 := by
  cases l with
  | nil => exact absurd rfl hne
  | cons c t => exact ⟨c, t, rfl, by rw [charKind, if_pos (hl c List.mem_cons_self)]⟩

theorem render_head (rt : Runtime) (v : Json) :
    ∃ c t, render rt v = c :: t ∧ charKind c = v.kind := by
  cases v with
  | null => exact ⟨_, _, rfl, by decide⟩
  | bool b => cases b <;> exact ⟨_, _, rfl, by decide⟩
  | int n => exact number_head (intRepr_ne_nil n) (intRepr_chars n)
  | float f => exact number_head (floatRepr_ne_nil rt f) (rt.floatRepr_chars f)
  | str s => exact ⟨'"', _, rfl, (by decide : charKind '"' = 4)⟩
  | arr items => exact ⟨'[', _, rfl, (by decide : charKind '[' = 5)⟩
  | obj fields => exact ⟨'{', _, rfl, (by decide : charKind '{' = 6)⟩

theorem kind_eq_of_append {rt : Runtime} {v w : Json} {r s : List Char}
    (h : render rt v ++ r = render rt w ++ s) : v.kind = w.kind := by
  obtain ⟨c, t, hv, hc⟩ := render_head rt v
  obtain ⟨d, u, hw, hd⟩ := render_head rt w
  rw [hv, hw, List.cons_append, List.cons_append, List.cons.injEq] at h
  rw [← hc, ← hd, h.1]

/-! ## Values are separated from what follows -/

/-- The printed value and what follows it determine both. -/
def Separates (rt : Runtime) (v : Json) : Prop :=
  ∀ w r s, Delimited isNumberChar r → Delimited isNumberChar s →
    render rt v ++ r = render rt w ++ s → v = w ∧ r = s

/-- The first item follows its bracket, the others a comma. -/
def IsSeparator (l : List Char) : Prop := l = [] ∨ l = [',']

theorem renderItems_head_ne {rt : Runtime} {sep t : List Char} (hsep : IsSeparator sep) (v : Json) :
    (sep ++ (render rt v ++ t)).head? ≠ some ']' := by
  rcases hsep with rfl | rfl
  · obtain ⟨c, u, hv, hc⟩ := render_head rt v
    rw [hv, List.nil_append, List.cons_append, List.head?_cons, ne_eq, Option.some.injEq]
    rintro rfl
    have hlt := kind_lt v
    rw [← hc] at hlt
    exact absurd hlt (by decide)
  · simp

theorem renderFields_head_ne {sep t : List Char} (hsep : IsSeparator sep) (k : String) :
    (sep ++ (stringRepr k ++ t)).head? ≠ some '}' := by
  rcases hsep with rfl | rfl <;> simp [stringRepr]

theorem delimited_renderItems (rt : Runtime) (l : List Json) (r : List Char) :
    Delimited isNumberChar (renderItems rt [','] l ++ ']' :: r) := by
  cases l with
  | nil => exact delimited_cons.mpr (by decide)
  | cons v l => exact delimited_cons.mpr (by decide)

theorem delimited_renderFields (rt : Runtime) (l : JsonObject) (r : List Char) :
    Delimited isNumberChar (renderFields rt [','] l ++ '}' :: r) := by
  cases l with
  | nil => exact delimited_cons.mpr (by decide)
  | cons e l => exact delimited_cons.mpr (by decide)

theorem renderItems_append_inj {rt : Runtime} {l : List Json} (ih : ∀ v ∈ l, Separates rt v) :
    ∀ {sep : List Char} {m : List Json} {r s : List Char}, IsSeparator sep →
      renderItems rt sep l ++ ']' :: r = renderItems rt sep m ++ ']' :: s → l = m ∧ r = s := by
  induction l with
  | nil =>
    intro sep m r s hsep h
    cases m with
    | nil => simpa [renderItems] using h
    | cons w m =>
      rw [renderItems, renderItems, List.append_assoc, List.append_assoc] at h
      exact absurd (congrArg List.head? h.symm) (renderItems_head_ne hsep w)
  | cons v l ihl =>
    intro sep m r s hsep h
    cases m with
    | nil =>
      rw [renderItems, renderItems, List.append_assoc, List.append_assoc] at h
      exact absurd (congrArg List.head? h) (renderItems_head_ne hsep v)
    | cons w m =>
      simp only [renderItems, List.append_assoc] at h
      obtain ⟨rfl, hrest⟩ := ih v List.mem_cons_self w _ _ (delimited_renderItems rt l r)
        (delimited_renderItems rt m s) (List.append_cancel_left h)
      obtain ⟨rfl, hrs⟩ := ihl (fun x hx => ih x (List.mem_cons_of_mem _ hx)) (Or.inr rfl) hrest
      exact ⟨rfl, hrs⟩

theorem renderFields_append_inj {rt : Runtime} {l : JsonObject}
    (ih : ∀ e ∈ l, Separates rt e.2) :
    ∀ {sep : List Char} {m : JsonObject} {r s : List Char}, IsSeparator sep →
      renderFields rt sep l ++ '}' :: r = renderFields rt sep m ++ '}' :: s → l = m ∧ r = s := by
  induction l with
  | nil =>
    intro sep m r s hsep h
    cases m with
    | nil => simpa [renderFields] using h
    | cons f m =>
      obtain ⟨k, w⟩ := f
      rw [renderFields, renderFields, List.append_assoc, List.append_assoc] at h
      exact absurd (congrArg List.head? h.symm) (renderFields_head_ne hsep k)
  | cons e l ihl =>
    intro sep m r s hsep h
    obtain ⟨k, v⟩ := e
    cases m with
    | nil =>
      rw [renderFields, renderFields, List.append_assoc, List.append_assoc] at h
      exact absurd (congrArg List.head? h) (renderFields_head_ne hsep k)
    | cons f m =>
      obtain ⟨k', w⟩ := f
      simp only [renderFields, List.append_assoc, List.cons_append] at h
      obtain ⟨rfl, hvalue⟩ := stringRepr_append_inj (List.append_cancel_left h)
      rw [List.cons.injEq] at hvalue
      obtain ⟨hvw, hrest⟩ := ih (k, v) List.mem_cons_self w _ _ (delimited_renderFields rt l r)
        (delimited_renderFields rt m s) hvalue.2
      obtain ⟨rfl, hrs⟩ := ihl (fun x hx => ih x (List.mem_cons_of_mem _ hx)) (Or.inr rfl) hrest
      exact ⟨by rw [← hvw], hrs⟩

theorem render_separates (rt : Runtime) (v : Json) : Separates rt v := by
  induction v with
  | null =>
    intro w r s _ _ h
    have hk := kind_eq_of_append h
    cases w with
    | null => exact ⟨rfl, List.append_cancel_left h⟩
    | bool b => cases b <;> cases hk
    | _ => cases hk
  | bool b =>
    intro w r s _ _ h
    have hk := kind_eq_of_append h
    cases w with
    | bool b' =>
      cases b <;> cases b'
      · exact ⟨rfl, List.append_cancel_left h⟩
      · cases hk
      · cases hk
      · exact ⟨rfl, List.append_cancel_left h⟩
    | _ => cases b <;> cases hk
  | int n =>
    intro w r s hr hs h
    have hk := kind_eq_of_append h
    cases w with
    | int m =>
      obtain ⟨hnm, hrs⟩ := token_append_inj (intRepr_chars n) (intRepr_chars m) hr hs h
      exact ⟨by rw [intRepr_injective hnm], hrs⟩
    | float f =>
      obtain ⟨hnf, _⟩ := token_append_inj (intRepr_chars n) (rt.floatRepr_chars f) hr hs h
      exact absurd hnf (intRepr_ne_floatRepr rt n f)
    | bool b => cases b <;> cases hk
    | _ => cases hk
  | float f =>
    intro w r s hr hs h
    have hk := kind_eq_of_append h
    cases w with
    | int n =>
      obtain ⟨hfn, _⟩ := token_append_inj (rt.floatRepr_chars f) (intRepr_chars n) hr hs h
      exact absurd hfn.symm (intRepr_ne_floatRepr rt n f)
    | float g =>
      obtain ⟨hfg, hrs⟩ := token_append_inj (rt.floatRepr_chars f) (rt.floatRepr_chars g) hr hs h
      exact ⟨by rw [rt.floatRepr_injective hfg], hrs⟩
    | bool b => cases b <;> cases hk
    | _ => cases hk
  | str a =>
    intro w r s _ _ h
    have hk := kind_eq_of_append h
    cases w with
    | str b =>
      obtain ⟨hab, hrs⟩ := stringRepr_append_inj h
      exact ⟨by rw [hab], hrs⟩
    | bool b => cases b <;> cases hk
    | _ => cases hk
  | arr items ih =>
    intro w r s _ _ h
    have hk := kind_eq_of_append h
    cases w with
    | arr items' =>
      simp only [render, List.cons_append, List.append_assoc, List.nil_append, List.cons.injEq,
        true_and] at h
      obtain ⟨hi, hrs⟩ := renderItems_append_inj ih (Or.inl rfl) h
      exact ⟨by rw [hi], hrs⟩
    | bool b => cases b <;> cases hk
    | _ => cases hk
  | obj fields ih =>
    intro w r s _ _ h
    have hk := kind_eq_of_append h
    cases w with
    | obj fields' =>
      simp only [render, List.cons_append, List.append_assoc, List.nil_append, List.cons.injEq,
        true_and] at h
      obtain ⟨hf, hrs⟩ := renderFields_append_inj ih (Or.inl rfl) h
      exact ⟨by rw [hf], hrs⟩
    | bool b => cases b <;> cases hk
    | _ => cases hk

/-- Different values have different texts. -/
theorem render_injective (rt : Runtime) : Function.Injective (render rt) := by
  intro v w h
  exact (render_separates rt v w [] [] (delimited_nil _) (delimited_nil _)
    (by rw [List.append_nil, List.append_nil, h])).1

/-- The canonical text determines a value up to the order of fields. -/
theorem canonicalJson_eq_iff (rt : Runtime) {v w : Json} :
    canonicalJson rt v = canonicalJson rt w ↔ sortKeys v = sortKeys w := by
  rw [canonicalJson, canonicalJson, String.ofList_inj]
  exact (render_injective rt).eq_iff

/-! ## Sorting twice -/

theorem pairwise_sortFields (fields : JsonObject) :
    (fields.insertionSort keyLe).Pairwise keyLe := List.pairwise_insertionSort _ _

@[simp] theorem sortKeys_sortKeys (v : Json) : sortKeys (sortKeys v) = sortKeys v := by
  induction v with
  | arr items ih =>
    rw [sortKeys, sortKeys, sortItems_eq, sortItems_eq, List.map_map]
    exact congrArg _ (List.map_congr_left ih)
  | obj fields ih =>
    have hfix : ∀ l : JsonObject, (∀ e ∈ l, sortKeys e.2 = e.2) → sortFields l = l := by
      intro l hl
      rw [sortFields_eq]
      conv_rhs => rw [← List.map_id l]
      exact List.map_congr_left fun e he => by rw [hl e he]; rfl
    rw [sortKeys, sortKeys, hfix, (pairwise_sortFields _).insertionSort_eq]
    intro e he
    rw [List.mem_insertionSort, sortFields_eq, List.mem_map] at he
    obtain ⟨e', he', rfl⟩ := he
    exact ih e' he'
  | _ => rfl

/-! ## Reading a sorted object -/

theorem lookup_orderedInsert (k : String) (e : String × Json) (l : JsonObject) :
    Assoc.lookup k (l.orderedInsert keyLe e) = if e.1 = k then some e.2 else Assoc.lookup k l := by
  induction l with
  | nil => simp [Assoc.lookup]
  | cons f l ih =>
    by_cases hle : keyLe e f
    · rw [List.orderedInsert_cons_of_le _ _ hle]
      simp [Assoc.lookup]
    · rw [List.orderedInsert_of_not_le _ _ hle]
      by_cases hf : f.1 = k
      · have hne : ¬ e.1 = k := by
          rintro rfl
          exact hle (le_of_eq hf.symm)
        simp [Assoc.lookup, hf, hne]
      · simp [Assoc.lookup, hf, ih]

theorem lookup_insertionSort (k : String) (l : JsonObject) :
    Assoc.lookup k (l.insertionSort keyLe) = Assoc.lookup k l := by
  induction l with
  | nil => rfl
  | cons e l ih => rw [List.insertionSort_cons, lookup_orderedInsert, ih]; rfl

theorem lookup_sortFields (k : String) (l : JsonObject) :
    Assoc.lookup k (sortFields l) = (Assoc.lookup k l).map sortKeys := by
  induction l with
  | nil => rfl
  | cons e l ih =>
    rw [sortFields]
    by_cases h : e.1 = k
    · simp [Assoc.lookup, h]
    · simp [Assoc.lookup, h, ih]

/-- Sorting the fields of an object does not change which field a name denotes. -/
theorem lookup_sortedFields (k : String) (l : JsonObject) :
    Assoc.lookup k ((sortFields l).insertionSort keyLe) = (Assoc.lookup k l).map sortKeys := by
  rw [lookup_insertionSort, lookup_sortFields]

end Json

end OsScanner

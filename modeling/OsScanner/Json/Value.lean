import Mathlib
import OsScanner.Lib.Dict

/-!
# JSON values

What `json.loads` returns: numbers are `int` or finite `float`, and an object is a `dict`, so
its fields keep their insertion order. Python compares these values by `==`, which is coarser
than their text: `1`, `1.0` and `True` are equal, and the order of the fields of an object is
irrelevant.
-/

namespace OsScanner

open Lib

/-! ## Numbers -/

/--
A finite binary64 number `± mantissa * 2 ^ exponent`. An odd mantissa makes the form unique;
the two zeros differ in their sign only.
-/
structure PyFloat where
  negative : Bool
  mantissa : Nat
  exponent : Int
  finite : (mantissa = 0 ∧ exponent = 0) ∨
    (mantissa % 2 = 1 ∧ mantissa < 2 ^ 53 ∧ -1074 ≤ exponent ∧ exponent + mantissa.log2 < 1024)
  deriving DecidableEq

namespace PyFloat

/-- The exact value of a float. -/
def value (f : PyFloat) : ℚ :=
  let magnitude : ℚ := match f.exponent with
    | .ofNat k => ((f.mantissa * 2 ^ k : Nat) : ℚ)
    | .negSucc k => mkRat f.mantissa (2 ^ (k + 1))
  if f.negative then -magnitude else magnitude

/-- `float(n)` for a small odd number or zero. -/
def ofOdd (n : Nat) (h : n = 0 ∨ n % 2 = 1 ∧ n < 2 ^ 53 ∧ n.log2 < 1024) : PyFloat :=
  ⟨false, n, 0, by
    rcases h with h | h
    · exact Or.inl ⟨h, rfl⟩
    · exact Or.inr ⟨h.1, h.2.1, by omega, by simpa using h.2.2⟩⟩

end PyFloat

/-! ## Values -/

/-- A JSON value. -/
inductive Json where
  | null
  | bool (b : Bool)
  | int (n : Int)
  | float (f : PyFloat)
  | str (s : String)
  | arr (items : List Json)
  | obj (fields : List (String × Json))

/-- `dict[str, Any]` -/
abbrev JsonObject := List (String × Json)

namespace Json

/-- Induction over a value: the hypotheses reach every item and every field. -/
@[elab_as_elim, induction_eliminator]
theorem induction {P : Json → Prop} (null : P .null) (bool : ∀ b, P (.bool b))
    (int : ∀ n, P (.int n)) (float : ∀ f, P (.float f)) (str : ∀ s, P (.str s))
    (arr : ∀ items, (∀ v ∈ items, P v) → P (.arr items))
    (obj : ∀ fields : JsonObject, (∀ e ∈ fields, P e.2) → P (.obj fields)) (v : Json) : P v :=
  Json.rec (motive_1 := P) (motive_2 := fun l => ∀ v ∈ l, P v)
    (motive_3 := fun l => ∀ e ∈ l, P e.2) (motive_4 := fun e => P e.2)
    null bool int float str arr obj
    (by simp) (fun _ _ hv hl => List.forall_mem_cons.mpr ⟨hv, hl⟩)
    (by simp) (fun _ _ he hl => List.forall_mem_cons.mpr ⟨he, hl⟩)
    (fun _ _ hv => hv) v

/-! ## Structural equality -/

mutual

/-- Equality of representations, fields in order. -/
def beq : Json → Json → Bool
  | .null, .null => true
  | .bool a, .bool b => a == b
  | .int a, .int b => decide (a = b)
  | .float a, .float b => decide (a = b)
  | .str a, .str b => decide (a = b)
  | .arr a, .arr b => beqItems a b
  | .obj a, .obj b => beqFields a b
  | _, _ => false

def beqItems : List Json → List Json → Bool
  | [], [] => true
  | v :: l, w :: m => beq v w && beqItems l m
  | _, _ => false

def beqFields : JsonObject → JsonObject → Bool
  | [], [] => true
  | (k, v) :: l, (k', w) :: m => decide (k = k') && beq v w && beqFields l m
  | _, _ => false

end

theorem beqItems_iff {l : List Json} (ih : ∀ v ∈ l, ∀ w, beq v w = true ↔ v = w) :
    ∀ m, beqItems l m = true ↔ l = m := by
  induction l with
  | nil => intro m; cases m <;> simp [beqItems]
  | cons v l ihl =>
    intro m
    cases m with
    | nil => simp [beqItems]
    | cons w m =>
      have hv := ih v List.mem_cons_self w
      have hl := ihl (fun x hx => ih x (List.mem_cons_of_mem _ hx)) m
      simp [beqItems, hv, hl]

theorem beqFields_iff {l : JsonObject} (ih : ∀ e ∈ l, ∀ w, beq e.2 w = true ↔ e.2 = w) :
    ∀ m, beqFields l m = true ↔ l = m := by
  induction l with
  | nil => intro m; cases m <;> simp [beqFields]
  | cons e l ihl =>
    intro m
    obtain ⟨k, v⟩ := e
    cases m with
    | nil => simp [beqFields]
    | cons e' m =>
      obtain ⟨k', w⟩ := e'
      have hv := ih (k, v) List.mem_cons_self w
      have hl := ihl (fun x hx => ih x (List.mem_cons_of_mem _ hx)) m
      simp only at hv
      simp [beqFields, hv, hl, and_assoc]

theorem beq_iff (v : Json) : ∀ w, beq v w = true ↔ v = w := by
  induction v with
  | null => intro w; cases w <;> simp [beq]
  | bool b => intro w; cases w <;> simp [beq]
  | int n => intro w; cases w <;> simp [beq]
  | float f => intro w; cases w <;> simp [beq]
  | str s => intro w; cases w <;> simp [beq]
  | arr items ih => intro w; cases w <;> simp [beq, beqItems_iff ih]
  | obj fields ih => intro w; cases w <;> simp [beq, beqFields_iff ih]

instance : DecidableEq Json := fun v w => decidable_of_iff _ (beq_iff v w)

/-! ## Python's `==` -/

/-- The number a value counts as in a comparison; booleans are `0` and `1`. -/
def number? : Json → Option ℚ
  | .bool b => some (if b then 1 else 0)
  | .int n => some n
  | .float f => some f.value
  | _ => none

mutual

/-- `v == w`. Two objects are equal when they have the same keys with equal values. -/
def pyEq : Json → Json → Bool
  | .null, .null => true
  | .str a, .str b => decide (a = b)
  | .arr a, .arr b => pyEqItems a b
  | .obj a, .obj b => decide (a.length = b.length) && pyEqFields a b
  | v, w => match v.number?, w.number? with
    | some x, some y => decide (x = y)
    | _, _ => false

def pyEqItems : List Json → List Json → Bool
  | [], [] => true
  | v :: l, w :: m => pyEq v w && pyEqItems l m
  | _, _ => false

/-- Every field of the first object is present in the second with an equal value. -/
def pyEqFields : JsonObject → JsonObject → Bool
  | [], _ => true
  | (k, v) :: l, m =>
    (match Assoc.lookup k m with
      | some w => pyEq v w
      | none => false) && pyEqFields l m

end

example : pyEq (.bool true) (.int 1) = true := by decide

example : pyEq (.obj [("a", .int 1), ("b", .null)]) (.obj [("b", .null), ("a", .int 1)]) = true := by
  decide

/-! ## Well-formed values -/

mutual

/-- No object has two fields with one name: the value is built from `dict`s. -/
def wellFormed : Json → Bool
  | .arr items => wellFormedItems items
  | .obj fields => decide (fields.map Prod.fst).Nodup && wellFormedFields fields
  | _ => true

def wellFormedItems : List Json → Bool
  | [] => true
  | v :: l => wellFormed v && wellFormedItems l

def wellFormedFields : JsonObject → Bool
  | [] => true
  | (_, v) :: l => wellFormed v && wellFormedFields l

end

theorem wellFormedItems_iff {l : List Json} :
    wellFormedItems l = true ↔ ∀ v ∈ l, v.wellFormed = true := by
  induction l with
  | nil => simp [wellFormedItems]
  | cons v l ih => simp [wellFormedItems, ih]

theorem wellFormedFields_iff {l : JsonObject} :
    wellFormedFields l = true ↔ ∀ e ∈ l, e.2.wellFormed = true := by
  induction l with
  | nil => simp [wellFormedFields]
  | cons e l ih => simp [wellFormedFields, ih]

theorem wellFormed_arr_iff {items : List Json} :
    (Json.arr items).wellFormed = true ↔ ∀ v ∈ items, v.wellFormed = true := by
  rw [wellFormed, wellFormedItems_iff]

theorem wellFormed_obj_iff {fields : JsonObject} :
    (Json.obj fields).wellFormed = true ↔
      (fields.map Prod.fst).Nodup ∧ ∀ e ∈ fields, e.2.wellFormed = true := by
  rw [wellFormed, Bool.and_eq_true, decide_eq_true_eq, wellFormedFields_iff]

/-! ## Reading documents -/

/-- `isinstance(value, dict)` -/
def asObject? : Json → Option JsonObject
  | .obj fields => some fields
  | _ => none

/-- `isinstance(value, str)` -/
def asString? : Json → Option String
  | .str s => some s
  | _ => none

/-- The JSON form of an optional string. -/
def ofOption : Option String → Json
  | some s => .str s
  | none => .null

end Json

/-- `document.get(name)`, with `None` for an absent field. -/
def JsonObject.get (document : JsonObject) (name : String) : Json :=
  (Assoc.lookup name document).getD .null

/-- `name in document` -/
def JsonObject.has (document : JsonObject) (name : String) : Bool :=
  (Assoc.lookup name document).isSome

/-- `document[name] = value` -/
def JsonObject.set (document : JsonObject) (name : String) (value : Json) : JsonObject :=
  Assoc.insert name value document

end OsScanner

import Mathlib
import OsScanner.Policies.EvidenceBounds
import OsScanner.Policies.Conditions

/-!
# The entries of the evidence

What becomes of the items of a collection on their way into a finding: a redaction that visits
20,000 values at most, a budget of 4,000 values for the evidence of all fields, and a redaction of
the finding. An item is there in the end as an object unless one of the limits is used up before it,
or the name of the field is that of a secret.
-/

namespace OsScanner.Policies

open Lib Cloud Security

variable {rt : Runtime} {py : Python}

/-! ## Redaction -/

theorem getElem?_redactItemsWalk {depth : Nat} {items : List Value} : ∀ {seen k : Nat},
    (redactItemsWalk rt py depth items seen).1[k]? = items[k]?.map fun item =>
      (redactWalk rt py depth false item (redactItemsWalk rt py depth (items.take k) seen).2).1 := by
  induction items with
  | nil =>
    intro seen k
    rfl
  | cons item items ih =>
    intro seen k
    cases k with
    | zero => rfl
    | succ k => exact ih

theorem take_redactItemsWalk {depth : Nat} {items : List Value} : ∀ {seen k : Nat},
    (redactItemsWalk rt py depth items seen).1.take k =
      (redactItemsWalk rt py depth (items.take k) seen).1 := by
  induction items with
  | nil =>
    intro seen k
    rw [List.take_nil]
    exact List.take_nil
  | cons item items ih =>
    intro seen k
    cases k with
    | zero => rfl
    | succ k => exact congrArg _ ih

/-- A mapping stays a mapping while there are values left to visit. -/
theorem isMapping_redactWalk {depth seen : Nat} (hdepth : depth ≤ 12) (item : Value) :
    (redactWalk rt py depth false item seen).1.isMapping = true ↔
      item.isMapping = true ∧ seen < 20000 := by
  rw [redactWalk.eq_def]
  dsimp only
  by_cases h : seen + 1 > 20000 ∨ depth > 12
  · rw [if_pos h]
    exact iff_of_false Bool.false_ne_true (by omega)
  · have hseen : seen < 20000 := by omega
    rw [if_neg h, if_neg Bool.false_ne_true]
    cases item <;> simp [Value.isMapping, hseen]

theorem sortKeysOfItems_eq (items : List Value) : sortKeysOfItems items = items.map sortKeys := by
  induction items with
  | nil => rfl
  | cons item items ih => rw [sortKeysOfItems, ih, List.map_cons]

@[simp] theorem isMapping_sortKeys (value : Value) : (sortKeys value).isMapping = value.isMapping := by
  cases value <;> rfl

/-! ## The budget -/

theorem isMapping_bound {depth budget : Nat} (hdepth : depth < 6) (value : Value) :
    (bound py depth value budget).1.isMapping = true ↔ value.isMapping = true ∧ budget ≠ 0 := by
  rw [bound.eq_def]
  dsimp only
  by_cases h : budget = 0 ∨ depth ≥ 6
  · rw [if_pos h]
    exact iff_of_false Bool.false_ne_true (by omega)
  · have hbudget : budget ≠ 0 := by omega
    rw [if_neg h]
    cases value with
    | obj fields =>
      dsimp only
      split <;> simp [Value.isMapping, hbudget]
    | _ => simp [Value.isMapping]

theorem boundItems_zero {depth left : Nat} (items : List Value) :
    boundItems py depth items left 0 = ([], 0) := by
  cases items with
  | nil => rfl
  | cons item items => rw [boundItems, if_pos (Or.inr rfl)]

theorem boundItems_cons {depth left budget : Nat} (hleft : left ≠ 0) (hbudget : budget ≠ 0)
    (item : Value) (items : List Value) : boundItems py depth (item :: items) left budget =
      ((bound py depth item budget).1 ::
          (boundItems py depth items (left - 1) (bound py depth item budget).2).1,
        (boundItems py depth items (left - 1) (bound py depth item budget).2).2) := by
  rw [boundItems, if_neg (by omega)]

/-- The entry of an item, if there is some budget when its turn comes. -/
theorem getElem?_boundItems {depth : Nat} {items : List Value} : ∀ {left budget k : Nat}, k < left →
    (boundItems py depth items left budget).1[k]? =
      if (boundItems py depth (items.take k) left budget).2 = 0 then none
      else items[k]?.map fun item =>
        (bound py depth item (boundItems py depth (items.take k) left budget).2).1 := by
  induction items with
  | nil =>
    intro left budget k hk
    rw [List.take_nil, List.getElem?_nil, Option.map_none, ite_self]
    rfl
  | cons item items ih =>
    intro left budget k hk
    by_cases hbudget : budget = 0
    · rw [hbudget, boundItems_zero, boundItems_zero, if_pos rfl]
      rfl
    · rw [boundItems_cons (by omega) hbudget]
      cases k with
      | zero => exact (if_neg hbudget).symm
      | succ k =>
        rw [List.take_succ_cons, boundItems_cons (by omega) hbudget]
        exact ih (by omega)

/-! ## Documents -/

open Normalization (isObject)

theorem getElem?_toJsonItems {items : List Value} : ∀ {js : List Json} {k : Nat},
    Value.toJsonItems items = some js → (js[k]? = none ∧ items[k]? = none) ∨
      ∃ j value, js[k]? = some j ∧ items[k]? = some value ∧ value.toJson? = some j := by
  induction items with
  | nil =>
    intro js k h
    cases h
    exact Or.inl ⟨rfl, rfl⟩
  | cons item items ih =>
    intro js k h
    obtain ⟨first, hfirst, h⟩ := Option.bind_eq_some_iff.mp h
    obtain ⟨rest, hrest, rfl⟩ := Option.map_eq_some_iff.mp h
    cases k with
    | zero => exact Or.inr ⟨first, item, rfl, rfl, hfirst⟩
    | succ k => exact ih hrest

theorem keys_toJsonFields {fields : Mapping} : ∀ {js : JsonObject},
    Value.toJsonFields fields = some js → js.map Prod.fst = fields.map Prod.fst := by
  induction fields with
  | nil =>
    intro js h
    cases h
    rfl
  | cons field fields ih =>
    intro js h
    obtain ⟨first, hfirst, h⟩ := Option.bind_eq_some_iff.mp h
    obtain ⟨rest, hrest, rfl⟩ := Option.map_eq_some_iff.mp h
    exact congrArg _ (ih hrest)

theorem lookup_toJsonFields {name : String} {fields : Mapping} : ∀ {js : JsonObject},
    Value.toJsonFields fields = some js →
      Assoc.lookup name js = (Assoc.lookup name fields).bind Value.toJson? := by
  induction fields with
  | nil =>
    intro js h
    cases h
    rfl
  | cons field fields ih =>
    intro js h
    obtain ⟨first, hfirst, h⟩ := Option.bind_eq_some_iff.mp h
    obtain ⟨rest, hrest, rfl⟩ := Option.map_eq_some_iff.mp h
    obtain ⟨key, value⟩ := field
    rw [Assoc.lookup, Assoc.lookup]
    split
    · exact hfirst.symm
    · exact ih hrest

theorem exists_lookup_toJsonFields {name : String} {fields : Mapping} {value : Value} :
    ∀ {js : JsonObject}, Value.toJsonFields fields = some js →
      Assoc.lookup name fields = some value → ∃ j, value.toJson? = some j ∧
        Assoc.lookup name js = some j := by
  induction fields with
  | nil =>
    intro js h hvalue
    cases hvalue
  | cons field fields ih =>
    intro js h hvalue
    obtain ⟨first, hfirst, h⟩ := Option.bind_eq_some_iff.mp h
    obtain ⟨rest, hrest, rfl⟩ := Option.map_eq_some_iff.mp h
    obtain ⟨key, value'⟩ := field
    rw [Assoc.lookup] at hvalue ⊢
    split at hvalue
    · next hkey =>
      cases hvalue
      exact ⟨first, hfirst, if_pos hkey⟩
    · next hkey =>
      rw [if_neg hkey]
      exact ih hrest hvalue

theorem isObject_toJson {value : Value} {j : Json} (h : value.toJson? = some j) :
    isObject j = value.isMapping := by
  cases value with
  | arr items =>
    obtain ⟨js, -, rfl⟩ := Option.map_eq_some_iff.mp h
    rfl
  | obj fields =>
    obtain ⟨js, -, rfl⟩ := Option.map_eq_some_iff.mp h
    rfl
  | nonFinite f => cases h
  | datetime t => cases h
  | date d => cases h
  | set items => cases h
  | _ =>
    cases h
    rfl

theorem isObject_redactTree {isWord : Char → Bool} (j : Json) :
    isObject (redactTree rt isWord false j) = isObject j := by
  cases j <;> rfl

end OsScanner.Policies

import Mathlib
import OsScanner.Policies.Conditions
import OsScanner.Policies.Totality

/-!
# Missing telemetry

A value arises from another one by losing fields and items, or by having them set to null. The
values that a path finds afterwards are what is left of values that it found before. A comparison
with a scalar that was false of a value stays false of what is left of it, and so does a tree of
such comparisons without negations. Equality with a list or an object looks at the items and keys
that are there, and can become true when some go.
-/

namespace OsScanner.Policies

open Lib Lib.Check

/-! ## What is left of a value -/

mutual

/-- The second value is the first one with fields set to null, or keys or items removed. -/
inductive Reduced : Value → Value → Prop where
  | same (value : Value) : Reduced value value
  | null (value : Value) : Reduced value .null
  | arr {items items' : List Value} : ReducedItems items items' → Reduced (.arr items) (.arr items')
  /-- The keys of a dict are distinct. -/
  | obj {fields fields' : Mapping} : (fields.map Prod.fst).Nodup → ReducedFields fields fields' →
    Reduced (.obj fields) (.obj fields')

inductive ReducedItems : List Value → List Value → Prop where
  | nil : ReducedItems [] []
  | remove {items items' : List Value} (value : Value) : ReducedItems items items' →
    ReducedItems (value :: items) items'
  | keep {value value' : Value} {items items' : List Value} : Reduced value value' →
    ReducedItems items items' → ReducedItems (value :: items) (value' :: items')

inductive ReducedFields : Mapping → Mapping → Prop where
  | nil : ReducedFields [] []
  | remove {fields fields' : Mapping} (key : String) (value : Value) : ReducedFields fields fields' →
    ReducedFields ((key, value) :: fields) fields'
  | keep {value value' : Value} {fields fields' : Mapping} (key : String) : Reduced value value' →
    ReducedFields fields fields' → ReducedFields ((key, value) :: fields) ((key, value') :: fields')

end

theorem ReducedItems.exists_of_mem {items items' : List Value} (h : ReducedItems items items')
    {value' : Value} (hmem : value' ∈ items') : ∃ value ∈ items, Reduced value value' := by
  induction items generalizing items' with
  | nil =>
    cases h
    cases hmem
  | cons value items ih =>
    have hrest : ∀ {rest : List Value}, ReducedItems items rest → value' ∈ rest →
        ∃ found ∈ value :: items, Reduced found value' := by
      intro rest hrest hmem
      obtain ⟨found, hfound, hreduced⟩ := ih hrest hmem
      exact ⟨found, List.mem_cons_of_mem _ hfound, hreduced⟩
    cases h with
    | remove _ h => exact hrest h hmem
    | keep hvalue h =>
      rcases List.mem_cons.mp hmem with rfl | hmem
      · exact ⟨value, List.mem_cons_self, hvalue⟩
      · exact hrest h hmem

theorem ReducedFields.exists_of_mem {fields fields' : Mapping} (h : ReducedFields fields fields')
    {key : String} {value' : Value} (hmem : (key, value') ∈ fields') :
    ∃ value, (key, value) ∈ fields ∧ Reduced value value' := by
  induction fields generalizing fields' with
  | nil =>
    cases h
    cases hmem
  | cons e fields ih =>
    have hrest : ∀ {rest : Mapping}, ReducedFields fields rest → (key, value') ∈ rest →
        ∃ value, (key, value) ∈ e :: fields ∧ Reduced value value' := by
      intro rest hrest hmem
      obtain ⟨value, hvalue, hreduced⟩ := ih hrest hmem
      exact ⟨value, List.mem_cons_of_mem _ hvalue, hreduced⟩
    cases h with
    | remove _ _ h => exact hrest h hmem
    | keep _ hvalue h =>
      rcases List.mem_cons.mp hmem with heq | hmem
      · cases heq
        exact ⟨_, List.mem_cons_self, hvalue⟩
      · exact hrest h hmem

/-- A value that is not null is left of one that was not null. -/
theorem Reduced.isNull {value value' : Value} (h : Reduced value value')
    (hvalue' : value'.isNull = false) : value.isNull = false := by
  cases h with
  | same => exact hvalue'
  | null => cases hvalue'
  | arr => rfl
  | obj => rfl

theorem Reduced.isMapping {value value' : Value} (h : Reduced value value')
    (hvalue' : value'.isMapping = true) : value.isMapping = true := by
  cases h with
  | same => exact hvalue'
  | null => cases hvalue'
  | arr => cases hvalue'
  | obj => rfl

/-! ## The values of a path -/

variable {rt : Runtime} {py : Python}

theorem value_walkItems (items : List Value) (path : List String) :
    (walkItems py items path).value = items.flatMap fun item => (walk py item path).value := by
  induction items with
  | nil => rfl
  | cons item items ih =>
    rw [walkItems, List.flatMap_cons, ← ih]
    rfl

theorem value_walkValues (fields : Mapping) (path : List String) :
    (walkValues py fields path).value = fields.flatMap fun e => (walk py e.2 path).value := by
  induction fields with
  | nil => rfl
  | cons e fields ih =>
    rw [walkValues, List.flatMap_cons, ← ih]
    rfl

theorem mem_walkKey {segment : String} {fields : Mapping} {path : List String} {found : Value}
    (h : found ∈ (walkKey py segment fields path).value) :
    ∃ value, (segment, value) ∈ fields ∧ found ∈ (walk py value path).value := by
  induction fields with
  | nil => cases h
  | cons e fields ih =>
    rw [walkKey] at h
    split at h
    · next heq => exact ⟨e.2, heq ▸ List.mem_cons_self, h⟩
    · obtain ⟨value, hmem, hfound⟩ := ih h
      exact ⟨value, List.mem_cons_of_mem _ hmem, hfound⟩

theorem walkKey_of_mem {segment : String} {fields : Mapping} {path : List String} {value : Value}
    (hnodup : (fields.map Prod.fst).Nodup) (h : (segment, value) ∈ fields) :
    walkKey py segment fields path = walk py value path := by
  induction fields with
  | nil => cases h
  | cons e fields ih =>
    rw [List.map_cons, List.nodup_cons] at hnodup
    rw [walkKey]
    rcases List.mem_cons.mp h with rfl | hmem
    · rw [if_pos rfl]
    · have hne : e.1 ≠ segment := by
        intro heq
        exact hnodup.1 (List.mem_map.mpr ⟨_, hmem, heq.symm⟩)
      rw [if_neg hne]
      exact ih hnodup.2 hmem

theorem value_walk_arr (items : List Value) (segment : String) (path : List String) :
    (walk py (.arr items) (segment :: path)).value =
      items.flatMap fun item => (walk py item (segment :: path)).value := by
  rw [← value_walkItems, walk]
  rfl

theorem value_walk_obj (fields : Mapping) (segment : String) (path : List String) :
    (walk py (.obj fields) (segment :: path)).value =
      if segment = "*" then (walkValues py fields path).value
      else (walkKey py segment fields path).value := by
  rw [walk]
  split <;> rfl

theorem value_walk_nil (value : Value) : (walk py value []).value = [value] := by
  rw [walk]
  rfl

/-- What a path finds in the second value is left of something that it finds in the first one. -/
theorem Reduced.walk {value value' : Value} (h : Reduced value value') {path : List String}
    {found' : Value} (hfound' : found' ∈ (Policies.walk py value' path).value) :
    ∃ found ∈ (Policies.walk py value path).value, Reduced found found' := by
  induction value using Value.induction generalizing value' path found' with
  | arr items ih =>
    rcases path with _ | ⟨segment, path⟩
    · rw [value_walk_nil] at hfound' ⊢
      rw [List.mem_singleton.mp hfound']
      exact ⟨_, List.mem_singleton_self _, h⟩
    · cases h with
      | same => exact ⟨found', hfound', .same _⟩
      | null => cases hfound'
      | arr h =>
        rw [value_walk_arr, List.mem_flatMap] at hfound'
        obtain ⟨item', hitem', hfound'⟩ := hfound'
        obtain ⟨item, hitem, hreduced⟩ := h.exists_of_mem hitem'
        obtain ⟨found, hfound, hleft⟩ := ih item hitem hreduced hfound'
        rw [value_walk_arr]
        exact ⟨found, List.mem_flatMap.mpr ⟨item, hitem, hfound⟩, hleft⟩
  | obj fields ih =>
    rcases path with _ | ⟨segment, path⟩
    · rw [value_walk_nil] at hfound' ⊢
      rw [List.mem_singleton.mp hfound']
      exact ⟨_, List.mem_singleton_self _, h⟩
    · cases h with
      | same => exact ⟨found', hfound', .same _⟩
      | null => cases hfound'
      | obj hnodup h =>
        rw [value_walk_obj] at hfound' ⊢
        split at hfound'
        · next hstar =>
          rw [value_walkValues, List.mem_flatMap] at hfound'
          obtain ⟨⟨key, field'⟩, hfield', hfound'⟩ := hfound'
          obtain ⟨field, hfield, hreduced⟩ := h.exists_of_mem hfield'
          obtain ⟨found, hfound, hleft⟩ := ih (key, field) hfield hreduced hfound'
          rw [if_pos hstar, value_walkValues]
          exact ⟨found, List.mem_flatMap.mpr ⟨(key, field), hfield, hfound⟩, hleft⟩
        · next hstar =>
          obtain ⟨field', hfield', hfound'⟩ := mem_walkKey hfound'
          obtain ⟨field, hfield, hreduced⟩ := h.exists_of_mem hfield'
          rw [if_neg hstar, walkKey_of_mem hnodup hfield]
          exact ih (segment, field) hfield hreduced hfound'
  | _ =>
    cases h with
    | same => exact ⟨found', hfound', .same _⟩
    | null =>
      rcases path with _ | ⟨segment, path⟩
      · rw [value_walk_nil] at hfound' ⊢
        rw [List.mem_singleton.mp hfound']
        exact ⟨_, List.mem_singleton_self _, .null _⟩
      · cases hfound'

/-- The items that `any_item` looks at are left of items that it looked at. -/
theorem Reduced.itemsOf {value value' : Value} (h : Reduced value value') {item' : Value}
    (hitem' : item' ∈ Policies.itemsOf [value']) (hmapping : item'.isMapping = true) :
    ∃ item ∈ Policies.itemsOf [value], Reduced item item' := by
  cases h with
  | same => exact ⟨item', hitem', .same _⟩
  | null =>
    rw [List.mem_singleton.mp hitem'] at hmapping
    cases hmapping
  | @arr items items' h =>
    have hmem : item' ∈ items' := by simpa [Policies.itemsOf] using hitem'
    obtain ⟨item, hitem, hreduced⟩ := h.exists_of_mem hmem
    exact ⟨item, by simpa [Policies.itemsOf] using hitem, hreduced⟩
  | obj hnodup h =>
    rw [List.mem_singleton.mp hitem']
    exact ⟨_, List.mem_singleton_self _, .obj hnodup h⟩

theorem mem_itemsOf {values : List Value} {item : Value} :
    item ∈ itemsOf values ↔ ∃ value ∈ values, item ∈ itemsOf [value] := by
  simp [itemsOf]

/-! ## Evaluations that return -/

variable (rt) in
/-- None of the operations raises, and this is the value. -/
def Returns {α : Type} (t : Evaluation py α) (value : α) : Prop :=
  (∀ operation ∈ t.effects, operation.error? rt = none) ∧ t.value = value

theorem returns_bind {α β : Type} {t : Evaluation py α} {f : α → Evaluation py β} {value : β} :
    Returns rt (t >>= f) value ↔ ∃ first, Returns rt t first ∧ Returns rt (f first) value := by
  simp only [Returns, Traced.effects_bind, Traced.value_bind, List.mem_append]
  constructor
  · rintro ⟨h, hvalue⟩
    exact ⟨t.value, ⟨fun op hop => h op (Or.inl hop), rfl⟩, fun op hop => h op (Or.inr hop), hvalue⟩
  · rintro ⟨first, ⟨hfirst, rfl⟩, h, hvalue⟩
    exact ⟨fun op hop => hop.elim (hfirst op) (h op), hvalue⟩

theorem returns_pure {α : Type} {value value' : α} :
    Returns rt (pure value : Evaluation py α) value' ↔ value = value' := by
  simp [Returns]

theorem returns_of_run {α : Type} {t : Evaluation py α} {value : α} {late : Nat → Bool}
    {budget : Budget} (h : t.run (perform rt late) budget = .ok value) : Returns rt t value := by
  obtain ⟨hrun, hvalue⟩ := Traced.run_eq_ok.mp h
  refine ⟨fun operation hoperation => ?_, hvalue⟩
  obtain ⟨budget₁, budget₂, hstep⟩ := Traced.step_of_run hrun hoperation
  cases operation with
  | consume => rfl
  | _ =>
    rw [perform] at hstep
    · split at hstep
      · cases hstep
      · assumption
    · simp

theorem returns_compare {comparison : Comparison} {expected : Json} {actual : Value} {value : Bool} :
    Returns rt (compare rt py comparison expected actual) value ↔
      comparison.outcome rt py actual expected = .ok value := by
  simp only [Returns, compare, List.mem_singleton, forall_eq, Operation.error?]
  cases comparison.outcome rt py actual expected with
  | error m => simp [errorOf]
  | ok b =>
    simp only [errorOf, true_and, Except.ok.injEq]
    exact Iff.rfl

/-- An `any` that is true has come to an element for which it is, and one that is false has looked
at all of them. -/
theorem returns_any {α : Type} {f : α → Evaluation py Bool} {xs : List α} :
    (Returns rt (Traced.any f xs) true → ∃ x ∈ xs, Returns rt (f x) true) ∧
      (Returns rt (Traced.any f xs) false → ∀ x ∈ xs, Returns rt (f x) false) := by
  induction xs with
  | nil => simp [Traced.any, returns_pure]
  | cons x xs ih =>
    simp only [Traced.any, returns_bind, List.mem_cons]
    constructor
    · rintro ⟨first, hfirst, h⟩
      cases first with
      | true => exact ⟨x, Or.inl rfl, hfirst⟩
      | false =>
        obtain ⟨y, hy, hreturns⟩ := ih.1 h
        exact ⟨y, Or.inr hy, hreturns⟩
    · rintro ⟨first, hfirst, h⟩ y hy
      cases first with
      | true => cases returns_pure.mp h
      | false =>
        rcases hy with rfl | hy
        · exact hfirst
        · exact ih.2 h y hy

theorem returns_matchesAll {conditions : List PolicyCondition} {data : Value} :
    (Returns rt (matchesAll rt py conditions data) true →
      ∀ condition ∈ conditions, Returns rt (matchesCondition rt py condition data) true) ∧
    (Returns rt (matchesAll rt py conditions data) false →
      ∃ condition ∈ conditions, Returns rt (matchesCondition rt py condition data) false) := by
  induction conditions with
  | nil => simp [matchesAll, returns_pure]
  | cons condition conditions ih =>
    simp only [matchesAll, returns_bind, List.mem_cons]
    constructor
    · rintro ⟨first, hfirst, h⟩ c hc
      cases first with
      | false => cases returns_pure.mp h
      | true =>
        rcases hc with rfl | hc
        · exact hfirst
        · exact ih.1 h c hc
    · rintro ⟨first, hfirst, h⟩
      cases first with
      | false => exact ⟨condition, Or.inl rfl, hfirst⟩
      | true =>
        obtain ⟨c, hc, hreturns⟩ := ih.2 h
        exact ⟨c, Or.inr hc, hreturns⟩

theorem returns_matchesAny {conditions : List PolicyCondition} {data : Value} :
    (Returns rt (matchesAny rt py conditions data) true →
      ∃ condition ∈ conditions, Returns rt (matchesCondition rt py condition data) true) ∧
    (Returns rt (matchesAny rt py conditions data) false →
      ∀ condition ∈ conditions, Returns rt (matchesCondition rt py condition data) false) := by
  induction conditions with
  | nil => simp [matchesAny, returns_pure]
  | cons condition conditions ih =>
    simp only [matchesAny, returns_bind, List.mem_cons]
    constructor
    · rintro ⟨first, hfirst, h⟩
      cases first with
      | true => exact ⟨condition, Or.inl rfl, hfirst⟩
      | false =>
        obtain ⟨c, hc, hreturns⟩ := ih.1 h
        exact ⟨c, Or.inr hc, hreturns⟩
    · rintro ⟨first, hfirst, h⟩ c hc
      cases first with
      | true => cases returns_pure.mp h
      | false =>
        rcases hc with rfl | hc
        · exact hfirst
        · exact ih.2 h c hc

/-! ## Comparisons with scalars -/

/-- Neither a list nor an object. -/
def isScalar : Json → Bool
  | .arr _ | .obj _ => false
  | _ => true

theorem pyEq_scalar {value expected : Json} (hvalue : isScalar value = false)
    (h : isScalar expected = true) : value.pyEq expected = false := by
  cases value with
  | arr items =>
    cases expected with
    | arr | obj => cases h
    | _ => rfl
  | obj fields =>
    cases expected with
    | arr | obj => cases h
    | _ => rfl
  | _ => cases hvalue

theorem equivalent_arr {items : List Value} {expected : Json} (h : isScalar expected = true) :
    equivalent py (.arr items) expected = .ok false := by
  have hjson : (Value.arr items).toJson?.any (fun value => value.pyEq expected) = false := by
    rw [Value.toJson?]
    cases Value.toJsonItems items with
    | none => rfl
    | some js => exact pyEq_scalar rfl h
  cases expected with
  | bool b => rfl
  | arr | obj => cases h
  | _ => exact congrArg Except.ok hjson

theorem equivalent_obj {fields : Mapping} {expected : Json} (h : isScalar expected = true) :
    equivalent py (.obj fields) expected = .ok false := by
  have hjson : (Value.obj fields).toJson?.any (fun value => value.pyEq expected) = false := by
    rw [Value.toJson?]
    cases Value.toJsonFields fields with
    | none => rfl
    | some js => exact pyEq_scalar rfl h
  cases expected with
  | bool b => rfl
  | arr | obj => cases h
  | _ => exact congrArg Except.ok hjson

theorem equivalent_null {expected : Json} (h : isScalar expected = true) (hnull : expected ≠ .null) :
    equivalent py .null expected = .ok false := by
  cases expected with
  | null => exact absurd rfl hnull
  | arr | obj => cases h
  | _ => rfl

/-- Equality with a scalar that was false stays false. -/
theorem Reduced.equivalent {value value' : Value} (h : Reduced value value') {expected : Json}
    (hscalar : isScalar expected = true) (hnull : expected ≠ .null ∨ value'.isNull = false)
    (hfalse : Policies.equivalent py value expected = .ok false) :
    Policies.equivalent py value' expected = .ok false := by
  cases h with
  | same => exact hfalse
  | null =>
    rcases hnull with hnull | hnull
    · exact equivalent_null hscalar hnull
    · cases hnull
  | arr => exact equivalent_arr hscalar
  | obj => exact equivalent_obj hscalar

theorem anyEquivalent_eq_false {items : List Value} {expected : Json} :
    anyEquivalent py expected items = .ok false ↔
      ∀ item ∈ items, equivalent py item expected = .ok false := by
  induction items with
  | nil => simp [anyEquivalent]
  | cons item items ih =>
    rw [anyEquivalent, bind_eq_ok, List.forall_mem_cons, ← ih]
    constructor
    · rintro ⟨found, hfound, h⟩
      cases found with
      | true => cases h
      | false => exact ⟨hfound, h⟩
    · rintro ⟨hfirst, hrest⟩
      exact ⟨false, hfirst, hrest⟩

theorem anyEquivalent_eq_true {items : List Value} {expected : Json}
    (h : anyEquivalent py expected items = .ok true) :
    ∃ item ∈ items, equivalent py item expected = .ok true := by
  induction items with
  | nil => cases h
  | cons item items ih =>
    rw [anyEquivalent, bind_eq_ok] at h
    obtain ⟨found, hfound, h⟩ := h
    cases found with
    | true => exact ⟨item, List.mem_cons_self, hfound⟩
    | false =>
      obtain ⟨x, hx, htrue⟩ := ih h
      exact ⟨x, List.mem_cons_of_mem _ hx, htrue⟩

/-- A comparison with this value can only become false when some of the telemetry goes. -/
def ConditionOperator.isPositiveOn : ConditionOperator → Json → Bool
  | .equals, value => isScalar value
  | .contains, value => isScalar value && !decide (value = .null)
  | .exists, _ | .greaterThan, _ | .lessThan, _ => true
  | .notEquals, _ | .notContains, _ | .notExists, _ => false

theorem Reduced.contains {value value' : Value} (h : Reduced value value') {expected : Json}
    (hscalar : isScalar expected = true) (hnull : expected ≠ .null)
    (hfalse : Policies.contains py value expected = .ok false) :
    Policies.contains py value' expected ≠ .ok true := by
  cases h with
  | same =>
    rw [hfalse]
    exact fun h => by cases h
  | null =>
    rw [show Policies.contains py .null expected = .ok false by cases expected <;> rfl]
    exact fun h => by cases h
  | @arr items items' h =>
    have heq : ∀ l, Policies.contains py (.arr l) expected = anyEquivalent py expected l := by
      intro l
      cases expected <;> rfl
    rw [heq] at hfalse ⊢
    intro htrue
    obtain ⟨item', hitem', hfound⟩ := anyEquivalent_eq_true htrue
    obtain ⟨item, hitem, hreduced⟩ := h.exists_of_mem hitem'
    have hitem := anyEquivalent_eq_false.mp hfalse item hitem
    rw [hreduced.equivalent hscalar (Or.inl hnull) hitem] at hfound
    cases hfound
  | @obj fields fields' _ h =>
    cases expected with
    | arr | obj => cases hscalar
    | str key =>
      -- a key that is left was there before
      intro htrue
      have hfields : fields.any (fun field => field.1 == key) = false := Except.ok.inj hfalse
      have hfields' : fields'.any (fun field => field.1 == key) = true := Except.ok.inj htrue
      obtain ⟨⟨key', value'⟩, hmem, hkey⟩ := List.any_eq_true.mp hfields'
      obtain ⟨value, hvalue, -⟩ := h.exists_of_mem hmem
      exact List.any_eq_false.mp hfields _ hvalue hkey
    | _ => exact fun h => by cases h

theorem Reduced.orderedCompare {value value' : Value} (h : Reduced value value') {greater : Bool}
    {expected : Json} (hnull : value'.isNull = false)
    (hfalse : Policies.orderedCompare rt py greater value expected = .ok false) :
    Policies.orderedCompare rt py greater value' expected = .ok false := by
  cases h with
  | same => exact hfalse
  | null => cases hnull
  | arr => cases expected <;> rfl
  | obj => cases expected <;> rfl

/-- What `leafMatches` says when there are values other than null. -/
def Comparison.of? : ConditionOperator → Option Comparison
  | .equals => some .equivalent
  | .contains => some .contains
  | .greaterThan => some .greater
  | .lessThan => some .less
  | _ => none

theorem any_of_nonempty {α : Type} (f : α → Evaluation py Bool) (xs : List α) [Decidable (xs = [])] :
    (if xs = [] then pure false else Traced.any f xs) = Traced.any f xs := by
  split
  · next h =>
    rw [h]
    rfl
  · rfl

theorem leafMatches_of_comparison {operator : ConditionOperator} {comparison : Comparison}
    (h : Comparison.of? operator = some comparison) (expected : Json) (values : List Value) :
    leafMatches rt py operator expected values =
      Traced.any (fun value => compare rt py comparison expected value)
        (values.filter fun value => !value.isNull) := by
  cases operator with
  | equals | contains | greaterThan | lessThan =>
    cases h
    exact any_of_nonempty _ _
  | _ => cases h

/-- What a comparison said of a value, it says of what is left of it, or it raises. -/
theorem Reduced.outcome {operator : ConditionOperator} {comparison : Comparison} {expected : Json}
    (hpositive : operator.isPositiveOn expected = true)
    (hcomparison : Comparison.of? operator = some comparison) {value value' : Value}
    (h : Reduced value value') (hnull : value'.isNull = false)
    (hfalse : comparison.outcome rt py value expected = .ok false) :
    comparison.outcome rt py value' expected ≠ .ok true := by
  cases operator with
  | equals =>
    cases hcomparison
    intro htrue
    have hstill := h.equivalent hpositive (Or.inr hnull) hfalse
    exact absurd (hstill.symm.trans htrue) (by simp)
  | contains =>
    cases hcomparison
    obtain ⟨hscalar, hexpected⟩ := Bool.and_eq_true_iff.mp hpositive
    exact h.contains hscalar (by simpa using hexpected) hfalse
  | greaterThan | lessThan =>
    cases hcomparison
    intro htrue
    have hstill := h.orderedCompare hnull hfalse
    exact absurd (hstill.symm.trans htrue) (by simp)
  | _ => cases hcomparison

/-- A comparison that was false of all values of a field is not true of any of those that are left. -/
theorem returns_leafMatches {operator : ConditionOperator} {expected : Json}
    (hpositive : operator.isPositiveOn expected = true) {values values' : List Value}
    (h : ∀ value' ∈ values', ∃ value ∈ values, Reduced value value')
    (hfalse : Returns rt (leafMatches rt py operator expected values) false) :
    ¬ Returns rt (leafMatches rt py operator expected values') true := by
  intro htrue
  rcases hcomparison : Comparison.of? operator with _ | comparison
  · -- only `exists` is left
    cases operator with
    | «exists» =>
      have hnone : (values.any fun value => !value.isNull) = false := returns_pure.mp hfalse
      obtain ⟨value', hvalue', hnull⟩ := List.any_eq_true.mp (returns_pure.mp htrue)
      obtain ⟨value, hvalue, hreduced⟩ := h value' hvalue'
      have hkept := hreduced.isNull (by simpa using hnull)
      exact List.any_eq_false.mp hnone value hvalue (by simp [hkept])
    | notEquals | notContains | notExists => cases hpositive
    | _ => cases hcomparison
  · rw [leafMatches_of_comparison hcomparison] at hfalse htrue
    obtain ⟨value', hvalue', hfound⟩ := returns_any.1 htrue
    obtain ⟨hvalue', hnull⟩ := List.mem_filter.mp hvalue'
    obtain ⟨value, hvalue, hreduced⟩ := h value' hvalue'
    have hnull' : value'.isNull = false := by simpa using hnull
    have hconcrete : value ∈ values.filter fun value => !value.isNull :=
      List.mem_filter.mpr ⟨hvalue, by simp [hreduced.isNull hnull']⟩
    have hold := returns_compare.mp (returns_any.2 hfalse value hconcrete)
    exact hreduced.outcome hpositive hcomparison hnull' hold (returns_compare.mp hfound)

/-! ## Trees of conditions -/

namespace PolicyCondition

mutual

/-- There is no negation, and no value that `equals` or `contains` compares as a whole. -/
def isPositive : PolicyCondition → Bool
  | .leaf operator _ value => operator.isPositiveOn value
  | .all conditions | .any conditions | .anyItem _ conditions => allPositive conditions

def allPositive : List PolicyCondition → Bool
  | [] => true
  | condition :: rest => isPositive condition && allPositive rest

end

theorem allPositive_iff {conditions : List PolicyCondition} :
    allPositive conditions = true ↔ ∀ condition ∈ conditions, condition.isPositive = true := by
  induction conditions with
  | nil => simp [allPositive]
  | cons condition conditions ih => simp [allPositive, ih]

end PolicyCondition

/-- A condition that was false of a value is not true of what is left of it. -/
theorem Reduced.matchesCondition {condition : PolicyCondition} (hpositive : condition.isPositive = true)
    {data data' : Value} (h : Reduced data data')
    (hfalse : Returns rt (Policies.matchesCondition rt py condition data) false) :
    ¬ Returns rt (Policies.matchesCondition rt py condition data') true := by
  intro htrue
  induction condition generalizing data data' with
  | leaf operator field value =>
    rw [Policies.matchesCondition, returns_bind] at hfalse htrue
    obtain ⟨_, -, hfalse⟩ := hfalse
    obtain ⟨_, -, htrue⟩ := htrue
    obtain ⟨values, ⟨-, rfl⟩, hfalse⟩ := returns_bind.mp hfalse
    obtain ⟨values', ⟨-, rfl⟩, htrue⟩ := returns_bind.mp htrue
    exact returns_leafMatches hpositive (fun value' hvalue' => h.walk hvalue') hfalse htrue
  | all conditions ih =>
    rw [Policies.matchesCondition, returns_bind] at hfalse htrue
    obtain ⟨_, -, hfalse⟩ := hfalse
    obtain ⟨_, -, htrue⟩ := htrue
    obtain ⟨condition, hmem, hfalse⟩ := returns_matchesAll.2 hfalse
    exact ih condition hmem (PolicyCondition.allPositive_iff.mp hpositive condition hmem) h hfalse
      (returns_matchesAll.1 htrue condition hmem)
  | any conditions ih =>
    rw [Policies.matchesCondition, returns_bind] at hfalse htrue
    obtain ⟨_, -, hfalse⟩ := hfalse
    obtain ⟨_, -, htrue⟩ := htrue
    obtain ⟨condition, hmem, htrue⟩ := returns_matchesAny.1 htrue
    exact ih condition hmem (PolicyCondition.allPositive_iff.mp hpositive condition hmem) h
      (returns_matchesAny.2 hfalse condition hmem) htrue
  | anyItem field conditions ih =>
    rw [Policies.matchesCondition, returns_bind] at hfalse htrue
    obtain ⟨_, -, hfalse⟩ := hfalse
    obtain ⟨_, -, htrue⟩ := htrue
    obtain ⟨values, ⟨-, rfl⟩, hfalse⟩ := returns_bind.mp hfalse
    obtain ⟨values', ⟨-, rfl⟩, htrue⟩ := returns_bind.mp htrue
    -- the item that is found now was there before, and was looked at
    obtain ⟨item', hitem', htrue⟩ := returns_any.1 htrue
    split at htrue
    · next hmapping =>
      obtain ⟨value', hvalue', hitem'⟩ := mem_itemsOf.mp hitem'
      obtain ⟨value, hvalue, hreduced⟩ := h.walk hvalue'
      obtain ⟨item, hitem, hleft⟩ := hreduced.itemsOf hitem' hmapping
      have hfalse := returns_any.2 hfalse item (mem_itemsOf.mpr ⟨value, hvalue, hitem⟩)
      rw [if_pos (hleft.isMapping hmapping)] at hfalse
      obtain ⟨condition, hmem, hfalse⟩ := returns_matchesAll.2 hfalse
      exact ih condition hmem (PolicyCondition.allPositive_iff.mp hpositive condition hmem) hleft
        hfalse (returns_matchesAll.1 htrue condition hmem)
    · cases returns_pure.mp htrue

/--
A tree that `_matches` does not find in a value is not found in what is left of the value, whatever
budgets and deadlines the two evaluations have.
-/
theorem missing_telemetry_never_matches {condition : PolicyCondition}
    (hpositive : condition.isPositive = true) {data data' : Value} (h : Reduced data data')
    {late late' : Nat → Bool} {budget budget' : Budget}
    (hfalse : (matchesCondition rt py condition data).run (perform rt late) budget = .ok false) :
    (matchesCondition rt py condition data').run (perform rt late') budget' ≠ .ok true :=
  fun htrue => h.matchesCondition hpositive (returns_of_run hfalse) (returns_of_run htrue)

/-- `os.family equals "LINUX"` -/
def familyIsLinux : PolicyCondition := .leaf .equals "os.family" (.str "LINUX")

theorem missing_telemetry_never_matches_familyIsLinux :
    (matchesCondition Runtime.sample samplePython familyIsLinux (.obj [("os", .obj [])])).run
      (perform Runtime.sample fun _ => false) ⟨1000000, 0⟩ ≠ .ok true :=
  @missing_telemetry_never_matches Runtime.sample samplePython familyIsLinux rfl
    (.obj [("os", .obj [("family", .str "MACOS")])]) (.obj [("os", .obj [])])
    (.obj (List.nodup_singleton _) (.keep _ (.obj (List.nodup_singleton _) (.remove _ _ .nil)) .nil))
    (fun _ => false) (fun _ => false) ⟨1000000, 0⟩ ⟨1000000, 0⟩ (by decide +kernel)

/-- `dns equals ["192.0.2.1"]` -/
def onlyResolver : PolicyCondition := .leaf .equals "dns" (.arr [.str "192.0.2.1"])

/-- The second of two resolvers is missing, and the rule on the first one matches. -/
theorem shorter_list_matches :
    let data := Value.obj [("dns", .arr [.str "192.0.2.1", .str "192.0.2.2"])]
    let data' := Value.obj [("dns", .arr [.str "192.0.2.1"])]
    Reduced data data' ∧
      (matchesCondition Runtime.sample samplePython onlyResolver data).run
        (perform Runtime.sample fun _ => false) ⟨1000000, 0⟩ = .ok false ∧
      (matchesCondition Runtime.sample samplePython onlyResolver data').run
        (perform Runtime.sample fun _ => false) ⟨1000000, 0⟩ = .ok true := by
  refine ⟨?_, by decide +kernel, by decide +kernel⟩
  exact .obj (List.nodup_singleton _) (.keep _ (.arr (.keep (.same _) (.remove _ .nil))) .nil)

end OsScanner.Policies

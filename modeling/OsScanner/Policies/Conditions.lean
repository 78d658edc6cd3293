import Mathlib
import OsScanner.Policies.Findings

/-!
# What conditions say

The value of an evaluation without its operations: when a condition is true of a value, and through
which `any_item` conditions on a field it is.
-/

namespace OsScanner.Policies

open Lib

variable (rt : Runtime) (py : Python)

/-- The condition is true of the value. -/
def holds (condition : PolicyCondition) (data : Value) : Bool :=
  (matchesCondition rt py condition data).value

def fieldValues (data : Value) (field : String) : List Value := (resolveValues py data field).value

/-- The item is one that `any_item` with these conditions looks for. -/
def satisfies (conditions : List PolicyCondition) (item : Value) : Bool :=
  item.isMapping && conditions.all fun condition => holds rt py condition item

variable {rt py} {conditions : List PolicyCondition} {data : Value}

theorem value_matchesAll : (matchesAll rt py conditions data).value =
    conditions.all fun condition => holds rt py condition data := by
  induction conditions with
  | nil => rfl
  | cons condition conditions ih =>
    rw [matchesAll, Traced.value_bind, List.all_cons, ← ih, holds]
    cases (matchesCondition rt py condition data).value <;> rfl

theorem value_matchesAny : (matchesAny rt py conditions data).value =
    conditions.any fun condition => holds rt py condition data := by
  induction conditions with
  | nil => rfl
  | cons condition conditions ih =>
    rw [matchesAny, Traced.value_bind, List.any_cons, ← ih, holds]
    cases (matchesCondition rt py condition data).value <;> rfl

@[simp] theorem holds_all : holds rt py (.all conditions) data =
    conditions.all fun condition => holds rt py condition data := value_matchesAll

@[simp] theorem holds_any : holds rt py (.any conditions) data =
    conditions.any fun condition => holds rt py condition data := value_matchesAny

theorem value_onMapping {t : Evaluation py Bool} {item : Value} :
    (if item.isMapping = true then t else pure false).value = (item.isMapping && t.value) := by
  cases item.isMapping <;> rfl

@[simp] theorem holds_anyItem {field : String} : holds rt py (.anyItem field conditions) data =
    (itemsOf (fieldValues py data field)).any (satisfies rt py conditions) := by
  have hvalue : holds rt py (.anyItem field conditions) data =
      (Traced.any (fun item => if item.isMapping = true then matchesAll rt py conditions item
        else pure false) (itemsOf (fieldValues py data field))).value := rfl
  rw [hvalue, Traced.value_any]
  congr 1
  funext item
  rw [value_onMapping, value_matchesAll, satisfies]

variable (rt py) in
/-- The condition is true through an `any_item` on the field, with these conditions on its items. -/
inductive Held (data : Value) (field : String) : PolicyCondition → List PolicyCondition → Prop where
  | here {conditions : List PolicyCondition} :
    holds rt py (.anyItem field conditions) data = true → Held data field (.anyItem field conditions)
      conditions
  | all {conditions items : List PolicyCondition} {condition : PolicyCondition} :
    holds rt py (.all conditions) data = true → condition ∈ conditions →
      Held data field condition items → Held data field (.all conditions) items
  | any {conditions items : List PolicyCondition} {condition : PolicyCondition} :
    holds rt py (.any conditions) data = true → condition ∈ conditions →
      Held data field condition items → Held data field (.any conditions) items

/-- A condition that is true through an `any_item` on a field finds values there. -/
theorem Held.values {field : String} {condition : PolicyCondition} {items : List PolicyCondition}
    (h : Held rt py data field condition items) : fieldValues py data field ≠ [] := by
  induction h with
  | here h =>
    intro hnil
    rw [holds_anyItem, hnil] at h
    cases h
  | all _ _ _ ih | any _ _ _ ih => exact ih

/-! ## The conditions on the items -/

theorem mem_relativeConditions {collection : String} {condition : PolicyCondition}
    (hcondition : condition ∈ conditions) {relative : PolicyCondition}
    (h : relativeCondition collection condition = some relative) :
    relative ∈ relativeConditions collection conditions := by
  induction conditions with
  | nil => cases hcondition
  | cons first conditions ih =>
    rw [relativeConditions, List.mem_append]
    rcases List.mem_cons.mp hcondition with rfl | hmem
    · left
      rw [h]
      exact List.mem_singleton_self _
    · exact Or.inr (ih hmem)

/-- A condition that is true through an `any_item` has something to say about the items. -/
theorem Held.relative {field : String} {condition : PolicyCondition} {items : List PolicyCondition}
    (h : Held rt py data field condition items) :
    ∃ relative, relativeCondition field condition = some relative := by
  induction h with
  | here _ => exact ⟨_, if_pos rfl⟩
  | all _ hmem _ ih | any _ hmem _ ih =>
    obtain ⟨relative, hrelative⟩ := ih
    have hne := List.ne_nil_of_mem (mem_relativeConditions hmem hrelative)
    rw [relativeCondition]
    split
    · next hnil => exact absurd hnil hne
    · exact ⟨_, rfl⟩
    · exact ⟨_, rfl⟩

end OsScanner.Policies

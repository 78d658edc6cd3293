import Mathlib
import OsScanner.Policies.Findings

/-!
# The size of the evidence

What `_bounded_evidence` returns nests six levels at most, so a finding never has evidence that is
too deep. The number of its nodes has no such bound: below the sixth level a mark stands for a value,
and marks are not counted.
-/

namespace OsScanner.Policies

open Lib Cloud Security

variable {rt : Runtime} {py : Python}

/-! ## Levels -/

/-- As a document the value nests at most this many levels. -/
def Within (levels : Nat) (value : Value) : Prop := ∀ j, value.toJson? = some j → height j ≤ levels

theorem height_le_of_toJsonItems {levels : Nat} {items : List Value} {js : List Json}
    (hitems : ∀ v ∈ items, Within levels v) (h : Value.toJsonItems items = some js) :
    heightOfItems js ≤ levels + 1 := by
  induction items generalizing js with
  | nil =>
    cases h
    exact Nat.zero_le _
  | cons v items ih =>
    rw [List.forall_mem_cons] at hitems
    obtain ⟨first, hfirst, h⟩ := Option.bind_eq_some_iff.mp h
    obtain ⟨rest, hrest, rfl⟩ := Option.map_eq_some_iff.mp h
    exact Nat.max_le.mpr ⟨Nat.succ_le_succ (hitems.1 first hfirst), ih hitems.2 hrest⟩

theorem height_le_of_toJsonFields {levels : Nat} {fields : Mapping} {js : JsonObject}
    (hfields : ∀ e ∈ fields, Within levels e.2) (h : Value.toJsonFields fields = some js) :
    heightOfFields js ≤ levels + 1 := by
  induction fields generalizing js with
  | nil =>
    cases h
    exact Nat.zero_le _
  | cons e fields ih =>
    rw [List.forall_mem_cons] at hfields
    obtain ⟨first, hfirst, h⟩ := Option.bind_eq_some_iff.mp h
    obtain ⟨rest, hrest, rfl⟩ := Option.map_eq_some_iff.mp h
    exact Nat.max_le.mpr ⟨Nat.succ_le_succ (hfields.1 first hfirst), ih hfields.2 hrest⟩

theorem within_arr {levels : Nat} {items : List Value} (h : ∀ v ∈ items, Within levels v) :
    Within (levels + 1) (.arr items) := by
  intro j hj
  obtain ⟨js, hjs, rfl⟩ := Option.map_eq_some_iff.mp hj
  exact height_le_of_toJsonItems h hjs

theorem within_obj {levels : Nat} {fields : Mapping} (h : ∀ e ∈ fields, Within levels e.2) :
    Within (levels + 1) (.obj fields) := by
  intro j hj
  obtain ⟨js, hjs, rfl⟩ := Option.map_eq_some_iff.mp hj
  exact height_le_of_toJsonFields h hjs

theorem within_str (levels : Nat) (text : String) : Within levels (.str text) := by
  intro j hj
  cases hj
  exact Nat.zero_le _

theorem mem_insert {name : String} {value : Value} {fields : Mapping} {e : String × Value}
    (h : e ∈ Assoc.insert name value fields) : e = (name, value) ∨ e ∈ fields := by
  induction fields with
  | nil =>
    rw [Assoc.insert, List.mem_singleton] at h
    exact Or.inl h
  | cons field fields ih =>
    rw [Assoc.insert] at h
    split at h
    · next hname =>
      rcases List.mem_cons.mp h with rfl | h
      · exact Or.inl (by rw [hname])
      · exact Or.inr (List.mem_cons_of_mem _ h)
    · rcases List.mem_cons.mp h with rfl | h
      · exact Or.inr List.mem_cons_self
      · exact (ih h).imp_right (List.mem_cons_of_mem _)

/-! ## What is kept of a value -/

/-- What a value becomes at this depth reaches the sixth level at most. -/
def KeptWithin (py : Python) (value : Value) : Prop :=
  ∀ depth budget, depth ≤ 6 → Within (6 - depth) (bound py depth value budget).1

theorem within_boundItems {items : List Value} (hitems : ∀ v ∈ items, KeptWithin py v) {depth : Nat}
    (hdepth : depth ≤ 6) : ∀ left budget,
      ∀ v ∈ (boundItems py depth items left budget).1, Within (6 - depth) v := by
  induction items with
  | nil =>
    intro left budget v hv
    cases hv
  | cons item items ih =>
    intro left budget v hv
    rw [List.forall_mem_cons] at hitems
    rw [boundItems] at hv
    split at hv
    · cases hv
    · rcases List.mem_cons.mp hv with rfl | hv
      · exact hitems.1 depth budget hdepth
      · exact ih hitems.2 _ _ v hv

theorem within_boundFields {fields : Mapping} (hfields : ∀ e ∈ fields, KeptWithin py e.2)
    {depth : Nat} (hdepth : depth ≤ 6) : ∀ left budget result,
      (∀ e ∈ result, Within (6 - depth) e.2) →
        ∀ e ∈ (boundFields py depth fields left budget result).1, Within (6 - depth) e.2 := by
  induction fields with
  | nil => exact fun _ _ _ hresult => hresult
  | cons field fields ih =>
    intro left budget result hresult
    rw [List.forall_mem_cons] at hfields
    rw [boundFields]
    split
    · exact hresult
    · refine ih hfields.2 _ _ _ fun e he => ?_
      rcases mem_insert he with heq | he
      · rw [heq]
        exact hfields.1 depth budget hdepth
      · exact hresult e he

theorem keptWithin (value : Value) : KeptWithin py value := by
  induction value with
  | arr items ih =>
    intro depth budget hdepth
    rw [bound]
    split
    · exact within_str _ _
    · next h =>
      rw [not_or, not_le] at h
      have hlevels : 6 - depth = 6 - (depth + 1) + 1 := by omega
      rw [hlevels]
      exact within_arr (within_boundItems ih (by omega) _ _)
  | obj fields ih =>
    intro depth budget hdepth
    rw [bound]
    split
    · exact within_str _ _
    · next h =>
      rw [not_or, not_le] at h
      have hlevels : 6 - depth = 6 - (depth + 1) + 1 := by omega
      have hfields := within_boundFields ih (by omega : depth + 1 ≤ 6) 64 (budget - 1) []
        fun e he => absurd he List.not_mem_nil
      rw [hlevels]
      dsimp only
      split
      · refine within_obj fun e he => ?_
        rcases mem_insert he with heq | he
        · rw [heq]
          intro j hj
          cases hj
          exact Nat.zero_le _
        · exact hfields e he
      · exact within_obj hfields
  | _ =>
    intro depth budget hdepth
    rw [bound]
    split
    · exact within_str _ _
    · intro j hj
      cases hj <;> exact Nat.zero_le _

/-! ## The evidence of a finding -/

theorem within_collectEvidence {rule : RuleFields} {data : Value} (fields : List String) :
    ∀ evidence : Mapping × Nat, (∀ e ∈ evidence.1, Within 6 e.2) →
      ∀ e ∈ (collectEvidence rt py rule data fields evidence).value.1, Within 6 e.2 := by
  induction fields with
  | nil => exact fun _ hevidence => hevidence
  | cons field fields ih =>
    intro evidence hevidence
    rw [collectEvidence, Traced.value_bind]
    cases (rawValue rt py rule data field).value with
    | none => exact ih evidence hevidence
    | some raw =>
      refine ih _ fun e he => ?_
      rcases mem_insert he with heq | he
      · rw [heq]
        exact keptWithin _ 0 _ (by omega)
      · exact hevidence e he

end OsScanner.Policies

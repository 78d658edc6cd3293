import Mathlib
import OsScanner.Json.Canonical

/-!
# Values with one canonical text

Values with the same canonical text are equal in Python's sense, so a value that was stored and
read back compares equal to the one that was written.
-/

namespace OsScanner.Json

open Lib

/-- Objects with one canonical text have the same fields. -/
theorem lookup_of_sortKeys_eq {a b : JsonObject} (h : sortKeys (.obj a) = sortKeys (.obj b))
    (name : String) : (Assoc.lookup name a).map sortKeys = (Assoc.lookup name b).map sortKeys := by
  rw [sortKeys, sortKeys, obj.injEq] at h
  rw [← lookup_sortedFields, h, lookup_sortedFields]

theorem length_of_sortKeys_eq {a b : JsonObject} (h : sortKeys (.obj a) = sortKeys (.obj b)) :
    a.length = b.length := by
  rw [sortKeys, sortKeys, obj.injEq] at h
  have hlength := congrArg List.length h
  rwa [List.length_insertionSort, List.length_insertionSort, sortFields_eq, sortFields_eq,
    List.length_map, List.length_map] at hlength

theorem pyEqItems_of_sortItems_eq {l : List Json} : ∀ {m : List Json},
    (∀ v ∈ l, ∀ w, sortKeys v = sortKeys w → pyEq v w = true) → sortItems l = sortItems m →
      pyEqItems l m = true := by
  induction l with
  | nil =>
    intro m _ h
    cases m with
    | nil => rfl
    | cons w m => cases h
  | cons v l ih =>
    intro m hv h
    cases m with
    | nil => cases h
    | cons w m =>
      rw [sortItems, sortItems, List.cons.injEq] at h
      rw [pyEqItems, hv v List.mem_cons_self w h.1,
        ih (fun x hx => hv x (List.mem_cons_of_mem _ hx)) h.2]
      rfl

theorem pyEqFields_of_forall {l m : JsonObject}
    (h : ∀ e ∈ l, ∃ w, Assoc.lookup e.1 m = some w ∧ pyEq e.2 w = true) : pyEqFields l m = true := by
  induction l with
  | nil => rfl
  | cons e l ih =>
    obtain ⟨w, hw, hpy⟩ := h e List.mem_cons_self
    rw [pyEqFields, hw, ih fun e' he' => h e' (List.mem_cons_of_mem _ he')]
    simpa using hpy

theorem pyEq_self_of_number {v : Json} {x : ℚ} (h : v.number? = some x) : pyEq v v = true := by
  cases v with
  | bool b => simp [pyEq, number?]
  | int n => simp [pyEq, number?]
  | float f => simp [pyEq, number?]
  | _ => cases h

/-- Values with one canonical text compare equal. -/
theorem pyEq_of_sortKeys_eq (v : Json) : v.wellFormed = true →
    ∀ w, sortKeys v = sortKeys w → pyEq v w = true := by
  induction v with
  | null => intro _ w h; cases w <;> first | rfl | cases h
  | bool b =>
    intro _ w h
    cases w <;> try cases h
    exact pyEq_self_of_number (x := if b then 1 else 0) rfl
  | int n =>
    intro _ w h
    cases w <;> try cases h
    exact pyEq_self_of_number (x := n) rfl
  | float f =>
    intro _ w h
    cases w <;> try cases h
    exact pyEq_self_of_number (x := f.value) rfl
  | str s =>
    intro _ w h
    cases w <;> try cases h
    exact decide_eq_true rfl
  | arr items ih =>
    intro hformed w h
    cases w <;> try cases h
    rw [sortKeys, sortKeys, arr.injEq] at h
    exact pyEqItems_of_sortItems_eq
      (fun v hv => ih v hv (wellFormed_arr_iff.mp hformed v hv)) h
  | obj fields ih =>
    intro hformed w h
    cases w <;> try cases h
    next fields' =>
      obtain ⟨hnodup, hvalues⟩ := wellFormed_obj_iff.mp hformed
      rw [pyEq, length_of_sortKeys_eq h, decide_eq_true rfl, Bool.true_and]
      refine pyEqFields_of_forall fun e he => ?_
      have hlookup := lookup_of_sortKeys_eq h e.1
      rw [Assoc.lookup_of_mem hnodup he, Option.map_some, eq_comm, Option.map_eq_some_iff] at hlookup
      obtain ⟨w, hw, hsame⟩ := hlookup
      exact ⟨w, hw, ih e he (hvalues e he) w hsame.symm⟩

/-! ## Objects -/

/-- Sorted fields with different names are in one order only. -/
theorem eq_of_perm_keyLe {a b : JsonObject} (h : a.Perm b) (hnodup : (a.map Prod.fst).Nodup) :
    a.insertionSort keyLe = b.insertionSort keyLe := by
  refine List.Perm.eq_of_pairwise (fun e e' he he' hle hge => ?_) (pairwise_sortFields a)
    (pairwise_sortFields b)
    ((List.perm_insertionSort _ _).trans (h.trans (List.perm_insertionSort _ _).symm))
  rw [List.mem_insertionSort] at he he'
  exact List.inj_on_of_nodup_map hnodup he (h.mem_iff.mpr he') (le_antisymm hle hge)

theorem nodup_sortFields {a : JsonObject} (h : (a.map Prod.fst).Nodup) :
    ((sortFields a).map Prod.fst).Nodup := by
  rw [sortFields_eq, List.map_map]
  exact h

/-- Two dictionaries have one canonical text when they have the same fields, with one text each. -/
theorem sortKeys_obj_eq {a b : JsonObject} (ha : (a.map Prod.fst).Nodup)
    (hb : (b.map Prod.fst).Nodup)
    (h : ∀ name, (Assoc.lookup name a).map sortKeys = (Assoc.lookup name b).map sortKeys) :
    sortKeys (.obj a) = sortKeys (.obj b) := by
  rw [sortKeys, sortKeys, obj.injEq]
  refine eq_of_perm_keyLe ?_ (nodup_sortFields ha)
  refine (List.perm_ext_iff_of_nodup (nodup_sortFields ha).of_map (nodup_sortFields hb).of_map).mpr ?_
  rintro ⟨name, value⟩
  have hmem : ∀ {c : JsonObject}, (c.map Prod.fst).Nodup →
      ((name, value) ∈ sortFields c ↔ (Assoc.lookup name c).map sortKeys = some value) := by
    intro c hc
    rw [← lookup_sortFields]
    exact ⟨Assoc.lookup_of_mem (nodup_sortFields hc), Assoc.mem_of_lookup⟩
  rw [hmem ha, hmem hb, h]

theorem wellFormed_sortKeys {v : Json} : v.wellFormed = true → (sortKeys v).wellFormed = true := by
  induction v with
  | arr items ih =>
    intro h
    rw [sortKeys, wellFormed_arr_iff, sortItems_eq]
    intro w hw
    obtain ⟨v, hv, rfl⟩ := List.mem_map.mp hw
    exact ih v hv (wellFormed_arr_iff.mp h v hv)
  | obj fields ih =>
    intro h
    obtain ⟨hnodup, hvalues⟩ := wellFormed_obj_iff.mp h
    rw [sortKeys, wellFormed_obj_iff]
    constructor
    · have hperm := (List.perm_insertionSort keyLe (sortFields fields)).map Prod.fst
      exact hperm.nodup_iff.mpr (nodup_sortFields hnodup)
    · intro e he
      rw [List.mem_insertionSort, sortFields_eq] at he
      obtain ⟨e', he', rfl⟩ := List.mem_map.mp he
      exact ih e' he' (hvalues e' he')
  | _ => exact id

end OsScanner.Json

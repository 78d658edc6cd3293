import Mathlib
import OsScanner.Lib.Dict

/-!
# Merged dictionaries

`{**first, **second}`: the entries of the first dictionary in their order, those of the second one
assigned after them. Where both have a key, the second one counts.
-/

namespace OsScanner.Lib

universe u v w

namespace Assoc

variable {κ : Type u} {α : Type v} {β : Type w} [DecidableEq κ]

/-- `{**first, **second}` -/
def merge (first second : List (κ × α)) : List (κ × α) :=
  second.foldl (fun entries e => insert e.1 e.2 entries) first

@[simp] theorem merge_nil (first : List (κ × α)) : merge first [] = first := rfl

@[simp] theorem merge_cons (first : List (κ × α)) (e : κ × α) (second : List (κ × α)) :
    merge first (e :: second) = merge (insert e.1 e.2 first) second := rfl

/-! ## Entries -/

theorem mem_insert {k : κ} {v : α} {e : κ × α} : ∀ {l : List (κ × α)},
    e ∈ insert k v l → e = (k, v) ∨ e ∈ l
  | [], h => Or.inl (List.mem_singleton.mp h)
  | (k₁, v₁) :: l, h => by
    rw [insert] at h
    split at h
    · next hk =>
      rcases List.mem_cons.mp h with h | h
      · exact Or.inl (by rw [h, hk])
      · exact Or.inr (List.mem_cons_of_mem _ h)
    · rcases List.mem_cons.mp h with h | h
      · exact Or.inr (List.mem_cons.mpr (Or.inl h))
      · exact (mem_insert h).imp id (List.mem_cons_of_mem _)

theorem length_insert_le (k : κ) (v : α) : ∀ l : List (κ × α),
    (insert k v l).length ≤ l.length + 1
  | [] => le_refl _
  | (k₁, v₁) :: l => by
    rw [insert]
    split
    · exact Nat.le_succ _
    · exact Nat.succ_le_succ (length_insert_le k v l)

/-- What holds of the entries of both holds of the merged ones. -/
theorem forall_mem_merge {P : κ × α → Prop} {second : List (κ × α)} : ∀ {first : List (κ × α)},
    (∀ e ∈ first, P e) → (∀ e ∈ second, P e) → ∀ e ∈ merge first second, P e := by
  induction second with
  | nil => exact fun h _ => h
  | cons entry second ih =>
    intro first hfirst hsecond
    rw [List.forall_mem_cons] at hsecond
    refine ih (fun e he => ?_) hsecond.2
    rcases mem_insert he with rfl | he
    · exact hsecond.1
    · exact hfirst e he

theorem length_merge_le (second : List (κ × α)) : ∀ first : List (κ × α),
    (merge first second).length ≤ first.length + second.length := by
  induction second with
  | nil => exact fun first => le_refl _
  | cons entry second ih =>
    intro first
    have hinsert := length_insert_le entry.1 entry.2 first
    have hmerge := ih (insert entry.1 entry.2 first)
    rw [merge_cons, List.length_cons]
    omega

theorem nodup_merge {second : List (κ × α)} : ∀ {first : List (κ × α)},
    (first.map Prod.fst).Nodup → ((merge first second).map Prod.fst).Nodup := by
  induction second with
  | nil => exact fun h => h
  | cons entry second ih => exact fun h => ih (nodup_insert entry.1 entry.2 h)

/-! ## Values changed key by key -/

theorem insert_map (f : κ → α → β) (k : κ) (v : α) : ∀ l : List (κ × α),
    insert k (f k v) (l.map fun e => (e.1, f e.1 e.2)) =
      (insert k v l).map fun e => (e.1, f e.1 e.2)
  | [] => rfl
  | (k₁, v₁) :: l => by
    rw [List.map_cons, insert, insert]
    split
    · next hk =>
      subst hk
      rfl
    · rw [insert_map f k v l, List.map_cons]

/-- A change of the values that depends on their keys passes through a merge. -/
theorem merge_map (f : κ → α → β) (second : List (κ × α)) : ∀ first : List (κ × α),
    merge (first.map fun e => (e.1, f e.1 e.2)) (second.map fun e => (e.1, f e.1 e.2)) =
      (merge first second).map fun e => (e.1, f e.1 e.2) := by
  induction second with
  | nil => exact fun first => rfl
  | cons entry second ih =>
    intro first
    rw [List.map_cons, merge_cons, insert_map, ih, merge_cons]

end Assoc

end OsScanner.Lib

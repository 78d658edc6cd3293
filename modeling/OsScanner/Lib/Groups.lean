import Mathlib
import OsScanner.Lib.Dict

/-!
# Groups and smallest elements

Grouping a list by a key keeps the order within each group. The groups in the order of their
keys are a partition of the list.

The smallest elements of a set are a prefix of its sorted list. To keep the smallest elements of
every part of a union loses none of the smallest elements of the union.
-/

namespace OsScanner.Lib

/-! ## Groups -/

section Groups

variable {α κ : Type} [DecidableEq κ]

/-- `grouped[key(x)].append(x)` for every element. -/
def groupBy (key : α → κ) (xs : List α) : Dict κ (List α) :=
  xs.foldl (fun d x => d.set (key x) ((d.get? (key x)).getD [] ++ [x])) ∅

variable {key : α → κ} {xs : List α}

theorem get?_groupBy (key : α → κ) (xs : List α) (k : κ) : (groupBy key xs).get? k =
    if xs.filter (fun x => decide (key x = k)) = [] then none
    else some (xs.filter fun x => decide (key x = k)) := by
  induction xs using List.reverseRecOn with
  | nil => rfl
  | append_singleton xs x ih =>
    rw [groupBy, List.foldl_append]
    show ((groupBy key xs).set (key x) (((groupBy key xs).get? (key x)).getD [] ++ [x])).get? k = _
    rw [Dict.get?_set, List.filter_append]
    by_cases hk : key x = k
    · subst hk
      have hlast : [x].filter (fun y => decide (key y = key x)) = [x] := by simp
      rw [if_pos rfl, ih, hlast, if_neg (by simp : ¬ (_ ++ [x] = []))]
      split
      · next h => rw [h]; rfl
      · rfl
    · have hlast : [x].filter (fun y => decide (key y = k)) = [] := by simp [hk]
      rw [if_neg hk, ih, hlast, List.append_nil]

/-- `[group for _, group in sorted(grouped.items())]` -/
def sortedGroups [LinearOrder κ] (key : α → κ) (xs : List α) : List (List α) :=
  ((groupBy key xs).entries.insertionSort fun a b => a.1 ≤ b.1).map Prod.snd

theorem mem_sortedGroups {κ : Type} [LinearOrder κ] {key : α → κ} {group : List α} :
    group ∈ sortedGroups key xs ↔
      ∃ k, group = xs.filter (fun x => decide (key x = k)) ∧ group ≠ [] := by
  rw [sortedGroups, List.mem_map]
  constructor
  · rintro ⟨⟨k, group⟩, hmem, rfl⟩
    have hget := Dict.mem_entries_iff.mp ((List.mem_insertionSort _).mp hmem)
    rw [get?_groupBy] at hget
    split at hget
    · cases hget
    · next hne =>
      cases hget
      exact ⟨k, rfl, hne⟩
  · rintro ⟨k, rfl, hne⟩
    refine ⟨(k, _), (List.mem_insertionSort _).mpr (Dict.mem_entries_iff.mpr ?_), rfl⟩
    rw [get?_groupBy, if_neg hne]

/-- Two elements are in one group exactly when they have one key. -/
theorem together_sortedGroups {κ : Type} [LinearOrder κ] {key : α → κ} {x y : α} (hx : x ∈ xs)
    (hy : y ∈ xs) : (∃ group ∈ sortedGroups key xs, x ∈ group ∧ y ∈ group) ↔ key x = key y := by
  constructor
  · rintro ⟨group, hgroup, hx, hy⟩
    obtain ⟨k, rfl, -⟩ := mem_sortedGroups.mp hgroup
    have hkx := of_decide_eq_true (List.mem_filter.mp hx).2
    have hky := of_decide_eq_true (List.mem_filter.mp hy).2
    exact hkx.trans hky.symm
  · intro h
    have hmem : x ∈ xs.filter fun z => decide (key z = key x) :=
      List.mem_filter.mpr ⟨hx, decide_eq_true rfl⟩
    refine ⟨_, mem_sortedGroups.mpr ⟨key x, rfl, List.ne_nil_of_mem hmem⟩, hmem, ?_⟩
    exact List.mem_filter.mpr ⟨hy, decide_eq_true h.symm⟩

/-- There are no more groups than elements. -/
theorem length_sortedGroups_le {κ : Type} [LinearOrder κ] (key : α → κ) (xs : List α) :
    (sortedGroups key xs).length ≤ xs.length := by
  have hkeys : (groupBy key xs).entries.map Prod.fst ⊆ xs.map key := by
    intro k hk
    obtain ⟨⟨k', group⟩, hmem, rfl⟩ := List.mem_map.mp hk
    have hget := Dict.mem_entries_iff.mp hmem
    rw [get?_groupBy] at hget
    split at hget
    · cases hget
    · next hne =>
      obtain ⟨x, hx⟩ := List.exists_mem_of_ne_nil _ hne
      obtain ⟨hx, hkey⟩ := List.mem_filter.mp hx
      exact List.mem_map.mpr ⟨x, hx, of_decide_eq_true hkey⟩
  have hlength := ((groupBy key xs).nodup.subperm hkeys).length_le
  rw [sortedGroups, List.length_map, List.length_insertionSort]
  simpa using hlength

/-- No group occurs twice. -/
theorem nodup_sortedGroups {κ : Type} [LinearOrder κ] (key : α → κ) (xs : List α) :
    (sortedGroups key xs).Nodup := by
  have hkeys : ((groupBy key xs).entries.insertionSort fun a b => a.1 ≤ b.1).Nodup :=
    (List.perm_insertionSort _ _).nodup_iff.mpr (groupBy key xs).nodup.of_map
  refine (List.nodup_map_iff_inj_on hkeys).mpr ?_
  rintro ⟨k, group⟩ hmem ⟨k', group'⟩ hmem' (rfl : group = group')
  have hget := Dict.mem_entries_iff.mp ((List.mem_insertionSort _).mp hmem)
  have hget' := Dict.mem_entries_iff.mp ((List.mem_insertionSort _).mp hmem')
  rw [get?_groupBy] at hget hget'
  split at hget
  · cases hget
  · next hne =>
    cases hget
    split at hget'
    · cases hget'
    · obtain ⟨x, hx⟩ := List.exists_mem_of_ne_nil _ hne
      have hk : key x = k := of_decide_eq_true (List.mem_filter.mp hx).2
      have hx' : x ∈ xs.filter fun z => decide (key z = k') := by
        rw [Option.some.inj hget']
        exact hx
      have hk' : key x = k' := of_decide_eq_true (List.mem_filter.mp hx').2
      rw [← hk, ← hk']

end Groups

/-! ## Smallest elements -/

section Smallest

variable {α : Type} [LinearOrder α]

/-- `sorted(s)[:n]` -/
def smallest (n : Nat) (s : Finset α) : List α := s.sort.take n

theorem mem_take_of_pairwise {l : List α} (hl : l.Pairwise (· < ·)) {n : Nat} {x : α} :
    x ∈ l.take n ↔ x ∈ l ∧ (l.filter fun y => decide (y < x)).length < n := by
  induction l generalizing n with
  | nil => simp
  | cons a l ih =>
    rw [List.pairwise_cons] at hl
    cases n with
    | zero => simp
    | succ n =>
      rw [List.take_succ_cons, List.mem_cons, ih hl.2, List.mem_cons, List.filter_cons]
      by_cases hx : x = a
      · subst hx
        have hnone : l.filter (fun y => decide (y < x)) = [] := by
          rw [List.filter_eq_nil_iff]
          intro y hy
          simpa using (hl.1 y hy).le
        simp [hnone]
      · constructor
        · rintro (rfl | ⟨hmem, hlen⟩)
          · exact absurd rfl hx
          · rw [if_pos (decide_eq_true (hl.1 x hmem)), List.length_cons]
            exact ⟨Or.inr hmem, by omega⟩
        · rintro ⟨rfl | hmem, hlen⟩
          · exact absurd rfl hx
          · rw [if_pos (decide_eq_true (hl.1 x hmem)), List.length_cons] at hlen
            exact Or.inr ⟨hmem, by omega⟩

theorem pairwise_smallest (n : Nat) (s : Finset α) : (smallest n s).Pairwise (· < ·) :=
  (Finset.sortedLT_sort s).pairwise.sublist (List.take_sublist _ _)

theorem length_smallest (n : Nat) (s : Finset α) : (smallest n s).length = min n s.card := by
  rw [smallest, List.length_take, Finset.length_sort]

/-- The elements that have less than `n` smaller ones. -/
theorem mem_smallest {n : Nat} {s : Finset α} {x : α} :
    x ∈ smallest n s ↔ x ∈ s ∧ (s.filter (· < x)).card < n := by
  have hcard : (s.sort.filter fun y => decide (y < x)).length = (s.filter (· < x)).card := by
    have hnodup : (s.sort.filter fun y => decide (y < x)).Nodup :=
      (s.sort_nodup (· ≤ ·)).filter _
    rw [← List.toFinset_card_of_nodup hnodup]
    congr 1
    ext y
    simp
  rw [smallest, mem_take_of_pairwise (Finset.sortedLT_sort s).pairwise, Finset.mem_sort, hcard]

/-- A subset with the smallest elements has the same smallest elements. -/
theorem smallest_eq_of_subset {n : Nat} {s t : Finset α} (hsub : t ⊆ s)
    (hkeep : ∀ x ∈ smallest n s, x ∈ t) : smallest n t = smallest n s := by
  have hmem : ∀ x, x ∈ smallest n t ↔ x ∈ smallest n s := by
    intro x
    constructor
    · intro hx
      rw [mem_smallest] at hx
      refine mem_smallest.mpr ⟨hsub hx.1, ?_⟩
      by_contra hmany
      -- The smallest elements of `s` are then all below `x`, and there are `n` of them in `t`.
      have hbelow : (smallest n s).toFinset ⊆ t.filter (· < x) := by
        intro z hz
        rw [List.mem_toFinset] at hz
        refine Finset.mem_filter.mpr ⟨hkeep z hz, ?_⟩
        by_contra hge
        have hfewer := (mem_smallest.mp hz).2
        have hle : (s.filter (· < x)).card ≤ (s.filter (· < z)).card :=
          Finset.card_le_card fun y hy => by
            rw [Finset.mem_filter] at hy ⊢
            exact ⟨hy.1, lt_of_lt_of_le hy.2 (not_lt.mp hge)⟩
        omega
      have hcard := Finset.card_le_card hbelow
      rw [List.toFinset_card_of_nodup (pairwise_smallest n s).nodup, length_smallest] at hcard
      have hall : (s.filter (· < x)).card ≤ s.card := Finset.card_filter_le _ _
      have hlt := hx.2
      omega
    · intro hx
      refine mem_smallest.mpr ⟨hkeep x hx, lt_of_le_of_lt ?_ (mem_smallest.mp hx).2⟩
      exact Finset.card_le_card (Finset.filter_subset_filter _ hsub)
  have hperm : (smallest n t).Perm (smallest n s) :=
    (List.perm_ext_iff_of_nodup (pairwise_smallest n t).nodup (pairwise_smallest n s).nodup).mpr hmem
  exact hperm.eq_of_pairwise' (pairwise_smallest n t) (pairwise_smallest n s)

/-- What is among the smallest of a set is among the smallest of every part that has it. -/
theorem mem_smallest_of_subset {n : Nat} {s t : Finset α} (hsub : t ⊆ s) {x : α} (hx : x ∈ t)
    (h : x ∈ smallest n s) : x ∈ smallest n t :=
  mem_smallest.mpr ⟨hx, lt_of_le_of_lt (Finset.card_le_card (Finset.filter_subset_filter _ hsub))
    (mem_smallest.mp h).2⟩

end Smallest

end OsScanner.Lib

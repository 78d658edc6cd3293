import Mathlib
import OsScanner.Lib.Dict

/-!
# Union-find

Indices with a parent each, where no parent is greater than its child. `find` follows the parents
up to a root and halves the path on its way, `union` puts the greater of two roots under the
smaller one. A root stands for its class, and the classes are those of the equivalence that the
unions generate.

`linkAll` is how the structure is used: items that have a key in common are united, and a
dictionary holds for each key the first item that had it.
-/

namespace OsScanner.Lib

open Relation

/-- Indices with their parents. A root is its own parent. -/
structure Forest where
  parent : Nat → Nat
  le : ∀ i, parent i ≤ i

namespace Forest

/-- `list(range(n))`: every index is a root. -/
def discrete : Forest := ⟨id, fun _ => le_rfl⟩

/-- `parents[i] = j` -/
def link (f : Forest) (i j : Nat) (h : j ≤ i) : Forest where
  parent := Function.update f.parent i j
  le k := by
    by_cases hk : k = i
    · subst hk
      simpa using h
    · rw [Function.update_of_ne hk]
      exact f.le k

/-- What following the parents ends in. -/
def root (f : Forest) (i : Nat) : Nat :=
  if f.parent i = i then i else f.root (f.parent i)
termination_by i
decreasing_by exact lt_of_le_of_ne (f.le i) ‹_›

/-- `parents[parents[index]]` -/
def grandparent (f : Forest) (i : Nat) : Nat := f.parent (f.parent i)

theorem grandparent_le (f : Forest) (i : Nat) : f.grandparent i ≤ i :=
  (f.le _).trans (f.le i)

theorem grandparent_lt {f : Forest} {i : Nat} (h : f.parent i ≠ i) : f.grandparent i < i :=
  lt_of_le_of_lt (f.le _) (lt_of_le_of_ne (f.le i) h)

/-- The root of an index, and the forest with the path to it halved. -/
def find (f : Forest) (i : Nat) : Nat × Forest :=
  if f.parent i = i then (i, f)
  else (f.link i (f.grandparent i) (f.grandparent_le i)).find (f.grandparent i)
termination_by i
decreasing_by exact grandparent_lt ‹_›

/-- The greater of the two roots gets the smaller one for its parent. -/
def union (f : Forest) (left right : Nat) : Forest :=
  let leftRoot := f.find left
  let rightRoot := leftRoot.2.find right
  if leftRoot.1 ≠ rightRoot.1 then
    rightRoot.2.link (max leftRoot.1 rightRoot.1) (min leftRoot.1 rightRoot.1) min_le_max
  else rightRoot.2

/-! ## Roots -/

variable {f : Forest} {i j : Nat}

theorem root_of_parent (h : f.parent i = i) : f.root i = i := by
  rw [root, if_pos h]

theorem root_parent (f : Forest) (i : Nat) : f.root (f.parent i) = f.root i := by
  by_cases h : f.parent i = i
  · rw [h]
  · rw [root.eq_1 f i, if_neg h]

theorem parent_root (f : Forest) (i : Nat) : f.parent (f.root i) = f.root i := by
  induction i using Nat.strongRecOn with
  | ind i ih =>
    by_cases h : f.parent i = i
    · rw [root_of_parent h, h]
    · rw [← root_parent]
      exact ih _ (lt_of_le_of_ne (f.le i) h)

@[simp] theorem root_discrete (i : Nat) : discrete.root i = i := root_of_parent rfl

@[simp] theorem root_root (f : Forest) (i : Nat) : f.root (f.root i) = f.root i :=
  root_of_parent (f.parent_root i)

theorem root_le (f : Forest) (i : Nat) : f.root i ≤ i := by
  induction i using Nat.strongRecOn with
  | ind i ih =>
    by_cases h : f.parent i = i
    · rw [root_of_parent h]
    · rw [← root_parent]
      exact (ih _ (lt_of_le_of_ne (f.le i) h)).trans (f.le i)

theorem parent_link_self (f : Forest) (h : j ≤ i) : (f.link i j h).parent i = j :=
  Function.update_self _ _ _

theorem parent_link_ne {k : Nat} (f : Forest) (h : j ≤ i) (hk : k ≠ i) :
    (f.link i j h).parent k = f.parent k := Function.update_of_ne hk _ _

/-- A shortcut to an ancestor leaves every root where it is. -/
theorem root_shortcut (hlt : j < i) (hsame : f.root j = f.root i) (k : Nat) :
    (f.link i j hlt.le).root k = f.root k := by
  induction k using Nat.strongRecOn with
  | ind k ih =>
    by_cases hk : k = i
    · subst hk
      rw [← root_parent, parent_link_self, ih j hlt, hsame]
    · by_cases hroot : f.parent k = k
      · rw [root_of_parent hroot, root_of_parent (by rw [parent_link_ne f _ hk, hroot])]
      · rw [← root_parent, parent_link_ne f _ hk, ih _ (lt_of_le_of_ne (f.le k) hroot), root_parent]

/-- A root under another root takes its class along. -/
theorem root_graft (hlt : j < i) (hi : f.parent i = i) (hj : f.parent j = j) (k : Nat) :
    (f.link i j hlt.le).root k = if f.root k = i then j else f.root k := by
  induction k using Nat.strongRecOn with
  | ind k ih =>
    by_cases hk : k = i
    · subst hk
      rw [← root_parent, parent_link_self, ih j hlt, root_of_parent hj, root_of_parent hi,
        if_pos rfl, if_neg hlt.ne]
    · by_cases hroot : f.parent k = k
      · rw [root_of_parent hroot, if_neg hk, root_of_parent (by rw [parent_link_ne f _ hk, hroot])]
      · rw [← root_parent, parent_link_ne f _ hk, ih _ (lt_of_le_of_ne (f.le k) hroot), root_parent]

theorem find_eq (f : Forest) (i : Nat) :
    (f.find i).1 = f.root i ∧ ∀ k, (f.find i).2.root k = f.root k := by
  induction i using Nat.strongRecOn generalizing f with
  | ind i ih =>
    unfold find
    split
    · next h => exact ⟨(root_of_parent h).symm, fun _ => rfl⟩
    · next h =>
      have hsame : f.root (f.grandparent i) = f.root i := by
        rw [grandparent, root_parent, root_parent]
      have hshort := root_shortcut (grandparent_lt h) hsame
      obtain ⟨hfind, hroots⟩ :=
        ih _ (grandparent_lt h) (f.link i (f.grandparent i) (f.grandparent_le i))
      exact ⟨by rw [hfind, hshort, hsame], fun k => by rw [hroots, hshort]⟩

/-- After a union the two classes have the smaller of their roots. -/
theorem root_union (f : Forest) (left right k : Nat) :
    (f.union left right).root k = if f.root k = f.root left ∨ f.root k = f.root right then
      min (f.root left) (f.root right) else f.root k := by
  obtain ⟨hleft, hroots⟩ := f.find_eq left
  obtain ⟨hright, hroots'⟩ := (f.find left).2.find_eq right
  have hsame : ∀ x, ((f.find left).2.find right).2.root x = f.root x := fun x => by
    rw [hroots', hroots]
  have hleft' : (f.find left).1 = f.root left := hleft
  have hright' : ((f.find left).2.find right).1 = f.root right := by rw [hright, hroots]
  have hparent : ∀ x, ((f.find left).2.find right).2.parent (f.root x) = f.root x := fun x => by
    have h := parent_root ((f.find left).2.find right).2 x
    rwa [hsame] at h
  unfold union
  dsimp only
  simp only [hleft', hright']
  by_cases heq : f.root left = f.root right
  · rw [if_neg (not_not.mpr heq), hsame, heq, min_self]
    split
    · next h => exact h.elim id id
    · rfl
  · rw [if_pos heq]
    rcases lt_or_gt_of_ne heq with hlt | hlt
    · simp only [max_eq_right hlt.le, min_eq_left hlt.le]
      rw [root_graft hlt (hparent right) (hparent left), hsame]
      split <;> split <;> simp_all
    · simp only [max_eq_left hlt.le, min_eq_right hlt.le]
      rw [root_graft hlt (hparent left) (hparent right), hsame]
      split <;> split <;> simp_all

/-! ## Classes -/

/-- The two indices have one root. -/
def Same (f : Forest) (i j : Nat) : Prop := f.root i = f.root j

theorem same_equivalence (f : Forest) : Equivalence f.Same :=
  ⟨fun _ => rfl, fun h => h.symm, fun h h' => h.trans h'⟩

@[simp] theorem same_discrete {i j : Nat} : discrete.Same i j ↔ i = j := by
  rw [Same, root_discrete, root_discrete]

theorem Same.union {i j : Nat} (h : f.Same i j) (left right : Nat) :
    (f.union left right).Same i j := by
  rw [Same, root_union, root_union, show f.root i = f.root j from h]

theorem same_union_self (f : Forest) (left right : Nat) : (f.union left right).Same left right := by
  rw [Same, root_union, root_union, if_pos (Or.inl rfl), if_pos (Or.inr rfl)]

theorem same_union {i j left right : Nat} (h : (f.union left right).Same i j) :
    f.Same i j ∨ (f.Same i left ∧ f.Same j right) ∨ (f.Same i right ∧ f.Same j left) := by
  rw [Same, root_union, root_union] at h
  simp only [Same]
  rcases le_total (f.root left) (f.root right) with hle | hle
  · rw [min_eq_left hle] at h
    split at h <;> split at h <;> grind
  · rw [min_eq_right hle] at h
    split at h <;> split at h <;> grind

end Forest

/-! ## Items with a key in common -/

section Keys

variable {κ : Type} [DecidableEq κ]

/-- The two items have a key in common. -/
def Share (pairs : List (Nat × κ)) (i j : Nat) : Prop := ∃ k, (i, k) ∈ pairs ∧ (j, k) ∈ pairs

/-- One pair: the first item with the key is remembered, a later one is united with it. -/
def visitKey (acc : Dict κ Nat × Forest) (e : Nat × κ) : Dict κ Nat × Forest :=
  match acc.1.get? e.2 with
  | none => (acc.1.set e.2 e.1, acc.2)
  | some previous => (acc.1, acc.2.union e.1 previous)

/-- All pairs, one after the other. -/
def linkAll (pairs : List (Nat × κ)) : Dict κ Nat × Forest := pairs.foldl visitKey (∅, .discrete)

/-- What holds after some pairs: the keys that were seen, and the classes. -/
structure Linked (pairs : List (Nat × κ)) (acc : Dict κ Nat × Forest) : Prop where
  seen : ∀ k i, acc.1.get? k = some i → (i, k) ∈ pairs
  known : ∀ e ∈ pairs, ∃ i, acc.1.get? e.2 = some i
  classes : ∀ i j, acc.2.Same i j ↔ EqvGen (Share pairs) i j

theorem linked_nil : Linked ([] : List (Nat × κ)) (∅, .discrete) where
  seen k i h := by cases h
  known e h := by cases h
  classes i j := by
    rw [Forest.same_discrete]
    constructor
    · rintro rfl
      exact EqvGen.refl i
    · intro h
      induction h with
      | rel _ _ h => obtain ⟨k, h, -⟩ := h; cases h
      | refl => rfl
      | symm _ _ _ ih => exact ih.symm
      | trans _ _ _ _ _ ih ih' => exact ih.trans ih'

omit [DecidableEq κ] in
theorem share_append {pairs : List (Nat × κ)} (e : Nat × κ) {i j : Nat} (h : Share pairs i j) :
    Share (pairs ++ [e]) i j := by
  obtain ⟨k, hi, hj⟩ := h
  exact ⟨k, List.mem_append_left _ hi, List.mem_append_left _ hj⟩

/-- A class of more pairs is a class, once the forest joins all that share a key. -/
theorem same_of_eqvGen {f : Forest} {R : Nat → Nat → Prop} (h : ∀ i j, R i j → f.Same i j)
    {i j : Nat} (hij : EqvGen R i j) : f.Same i j := by
  have hmono : EqvGen R ≤ EqvGen f.Same := EqvGen.mono h
  exact f.same_equivalence.eqvGen_iff.mp (hmono i j hij)

theorem Linked.visit {pairs : List (Nat × κ)} {acc : Dict κ Nat × Forest} (h : Linked pairs acc)
    (e : Nat × κ) : Linked (pairs ++ [e]) (visitKey acc e) := by
  obtain ⟨i, k⟩ := e
  have hgrow : ∀ x y, acc.2.Same x y → EqvGen (Share (pairs ++ [(i, k)])) x y := fun x y hxy =>
    EqvGen.mono (fun _ _ => share_append (i, k)) _ _ ((h.classes x y).mp hxy)
  unfold visitKey
  cases hget : acc.1.get? k with
  | none =>
    have hnew : ∀ j, (j, k) ∉ pairs := fun j hj => by
      obtain ⟨x, hx⟩ := h.known _ hj
      rw [hget] at hx
      cases hx
    refine ⟨?_, ?_, fun x y => ⟨hgrow x y, fun hxy => same_of_eqvGen ?_ hxy⟩⟩
    · intro k' j hj
      rw [Dict.get?_set] at hj
      split at hj
      · next heq =>
        cases hj
        subst heq
        exact List.mem_append_right _ List.mem_cons_self
      · exact List.mem_append_left _ (h.seen k' j hj)
    · intro e' he'
      rw [Dict.get?_set]
      split
      · exact ⟨i, rfl⟩
      · next hne =>
        rcases List.mem_append.mp he' with he' | he'
        · exact h.known e' he'
        · rw [List.mem_singleton.mp he'] at hne
          exact absurd rfl hne
    · -- Nothing had the new key, so it joins its item with itself only.
      rintro x y ⟨k', hx, hy⟩
      rcases List.mem_append.mp hx with hx | hx <;> rcases List.mem_append.mp hy with hy | hy
      · exact (h.classes x y).mpr (EqvGen.rel _ _ ⟨k', hx, hy⟩)
      · cases List.mem_singleton.mp hy
        exact absurd hx (hnew x)
      · cases List.mem_singleton.mp hx
        exact absurd hy (hnew y)
      · cases List.mem_singleton.mp hx
        cases List.mem_singleton.mp hy
        exact rfl
  | some p =>
    have hp := h.seen k p hget
    have hjoin : ∀ j, (j, k) ∈ pairs → (acc.2.union i p).Same i j := fun j hj =>
      (acc.2.same_union_self i p).trans
        (((h.classes p j).mpr (EqvGen.rel _ _ ⟨k, hp, hj⟩)).union i p)
    have hedge : EqvGen (Share (pairs ++ [(i, k)])) i p := EqvGen.rel _ _
      ⟨k, List.mem_append_right _ List.mem_cons_self, List.mem_append_left _ hp⟩
    refine ⟨fun k' j hj => List.mem_append_left _ (h.seen k' j hj), ?_, fun x y => ⟨?_, ?_⟩⟩
    · intro e' he'
      rcases List.mem_append.mp he' with he' | he'
      · exact h.known e' he'
      · rw [List.mem_singleton.mp he']
        exact ⟨p, hget⟩
    · intro hxy
      rcases Forest.same_union hxy with hxy | ⟨hx, hy⟩ | ⟨hx, hy⟩
      · exact hgrow x y hxy
      · exact ((hgrow x i hx).trans _ _ _ hedge).trans _ _ _ ((hgrow y p hy).symm _ _)
      · exact ((hgrow x p hx).trans _ _ _ (hedge.symm _ _)).trans _ _ _ ((hgrow y i hy).symm _ _)
    · refine same_of_eqvGen ?_
      rintro x y ⟨k', hx, hy⟩
      rcases List.mem_append.mp hx with hx | hx <;> rcases List.mem_append.mp hy with hy | hy
      · exact ((h.classes x y).mpr (EqvGen.rel _ _ ⟨k', hx, hy⟩)).union i p
      · cases List.mem_singleton.mp hy
        exact (hjoin x hx).symm
      · cases List.mem_singleton.mp hx
        exact hjoin y hy
      · cases List.mem_singleton.mp hx
        cases List.mem_singleton.mp hy
        exact rfl

/-- The classes are the chains of items that have a key in common with the next. -/
theorem linked_linkAll (pairs : List (Nat × κ)) : Linked pairs (linkAll pairs) := by
  induction pairs using List.reverseRecOn with
  | nil => exact linked_nil
  | append_singleton pairs e ih =>
    rw [linkAll, List.foldl_append]
    exact ih.visit e

end Keys

end OsScanner.Lib

import Mathlib

/-!
# Insertion-ordered dictionaries

Python's `dict`: at most one value for a key, iterated in the order in which the keys were
first inserted. Assigning to a key that is present replaces its value in place; deleting it
and assigning again moves it to the end.

The structure carries the proof that no key occurs twice, so `values` and `items` never show
a stale entry.
-/

namespace OsScanner.Lib

universe u v

/-! ## Association lists -/

namespace Assoc

variable {κ : Type u} {α : Type v} [DecidableEq κ]

/-- The value of the first entry with this key. -/
def lookup (k : κ) : List (κ × α) → Option α
  | [] => none
  | (k', v) :: rest => if k' = k then some v else lookup k rest

/-- Replace the value of a key in place, or append a new entry. -/
def insert (k : κ) (v : α) : List (κ × α) → List (κ × α)
  | [] => [(k, v)]
  | (k', v') :: rest => if k' = k then (k', v) :: rest else (k', v') :: insert k v rest

@[simp] theorem lookup_nil (k : κ) : lookup k ([] : List (κ × α)) = none := rfl

@[simp] theorem lookup_cons_self (k : κ) (v : α) (l : List (κ × α)) :
    lookup k ((k, v) :: l) = some v := by
  simp [lookup]

theorem lookup_cons_ne {k k' : κ} (h : k' ≠ k) (v : α) (l : List (κ × α)) :
    lookup k ((k', v) :: l) = lookup k l := by
  simp [lookup, h]

theorem lookup_append (k : κ) (l l' : List (κ × α)) :
    lookup k (l ++ l') = (lookup k l).or (lookup k l') := by
  induction l with
  | nil => rfl
  | cons e l ih =>
    obtain ⟨k', v⟩ := e
    by_cases hk : k' = k
    · subst hk
      rw [List.cons_append, lookup_cons_self, lookup_cons_self, Option.some_or]
    · rw [List.cons_append, lookup_cons_ne hk, lookup_cons_ne hk, ih]

theorem mem_of_lookup {k : κ} {v : α} : ∀ {l : List (κ × α)}, lookup k l = some v → (k, v) ∈ l
  | [], h => by simp at h
  | (k', v') :: l, h => by
    by_cases hk : k' = k
    · subst hk
      rw [lookup_cons_self, Option.some.injEq] at h
      simp [h]
    · rw [lookup_cons_ne hk] at h
      exact List.mem_cons_of_mem _ (mem_of_lookup h)

theorem lookup_of_mem {k : κ} {v : α} : ∀ {l : List (κ × α)}, (l.map Prod.fst).Nodup →
    (k, v) ∈ l → lookup k l = some v
  | [], _, h => by simp at h
  | (k', v') :: l, hnd, h => by
    rw [List.map_cons, List.nodup_cons] at hnd
    rcases List.mem_cons.mp h with he | he
    · cases he; simp
    · have hm : k ∈ l.map Prod.fst := List.mem_map.mpr ⟨(k, v), he, rfl⟩
      have hk : k' ≠ k := fun hc => hnd.1 (hc ▸ hm)
      rw [lookup_cons_ne hk]
      exact lookup_of_mem hnd.2 he

theorem lookup_eq_none_iff {k : κ} : ∀ {l : List (κ × α)},
    lookup k l = none ↔ k ∉ l.map Prod.fst
  | [] => by simp
  | (k', v') :: l => by
    by_cases hk : k' = k
    · subst hk; simp
    · rw [lookup_cons_ne hk, lookup_eq_none_iff (l := l)]
      simp [Ne.symm hk]

theorem lookup_isSome_iff {k : κ} {l : List (κ × α)} :
    (lookup k l).isSome ↔ k ∈ l.map Prod.fst := by
  rw [Option.isSome_iff_ne_none, ne_eq, lookup_eq_none_iff, not_not]

theorem lookup_insert (k k' : κ) (v : α) : ∀ l : List (κ × α),
    lookup k' (insert k v l) = if k = k' then some v else lookup k' l
  | [] => by simp [insert, lookup]
  | (k₁, v₁) :: l => by
    by_cases h1 : k₁ = k
    · subst h1
      by_cases h2 : k₁ = k' <;> simp [insert, lookup, h2]
    · have hc : insert k v ((k₁, v₁) :: l) = (k₁, v₁) :: insert k v l := by
        rw [insert, if_neg h1]
      rw [hc]
      by_cases h2 : k₁ = k'
      · have hk : ¬ k = k' := fun h => h1 (h2.trans h.symm)
        subst h2
        rw [if_neg hk, lookup_cons_self, lookup_cons_self]
      · rw [lookup_cons_ne h2, lookup_cons_ne h2, lookup_insert k k' v l]

theorem keys_insert_mem {k : κ} (v : α) : ∀ {l : List (κ × α)}, k ∈ l.map Prod.fst →
    (insert k v l).map Prod.fst = l.map Prod.fst
  | [], h => by simp at h
  | (k₁, v₁) :: l, h => by
    by_cases h1 : k₁ = k
    · simp [insert, h1]
    · have hm : k ∈ l.map Prod.fst := by
        rcases List.mem_cons.mp h with he | he
        · exact absurd he.symm h1
        · exact he
      simp only [insert, h1, if_false, List.map_cons]
      rw [keys_insert_mem v hm]

theorem insert_not_mem {k : κ} (v : α) : ∀ {l : List (κ × α)}, k ∉ l.map Prod.fst →
    insert k v l = l ++ [(k, v)]
  | [], _ => rfl
  | (k₁, v₁) :: l, h => by
    have h1 : k₁ ≠ k := fun hc => h (by simp [hc])
    have h2 : k ∉ l.map Prod.fst := fun hc => h (by simp [List.mem_cons_of_mem _ hc])
    simp only [insert, h1, if_false, List.cons_append]
    rw [insert_not_mem v h2]

theorem nodup_insert (k : κ) (v : α) {l : List (κ × α)} (h : (l.map Prod.fst).Nodup) :
    ((insert k v l).map Prod.fst).Nodup := by
  by_cases hk : k ∈ l.map Prod.fst
  · rw [keys_insert_mem v hk]; exact h
  · rw [insert_not_mem v hk, List.map_append]
    exact List.nodup_append.mpr ⟨h, by simp, by
      intro a ha b hb
      have hb' : b = k := by simpa using hb
      exact fun he => hk (hb' ▸ he ▸ ha)⟩

/-- Remove the entry of a key. -/
def erase (k : κ) (l : List (κ × α)) : List (κ × α) := l.filter (fun e => decide (e.1 ≠ k))

theorem nodup_erase (k : κ) {l : List (κ × α)} (h : (l.map Prod.fst).Nodup) :
    ((erase k l).map Prod.fst).Nodup :=
  h.sublist (List.filter_sublist.map Prod.fst)

theorem lookup_erase (k k' : κ) : ∀ l : List (κ × α),
    lookup k' (erase k l) = if k = k' then none else lookup k' l
  | [] => by simp [erase]
  | (k₁, v₁) :: l => by
    have ih := lookup_erase k k' l
    by_cases h1 : k₁ = k
    · have he : erase k ((k₁, v₁) :: l) = erase k l := by simp [erase, h1]
      rw [he, ih]
      by_cases h2 : k = k'
      · simp [h2]
      · rw [if_neg h2, if_neg h2, lookup_cons_ne (fun hc => h2 (h1 ▸ hc))]
    · have he : erase k ((k₁, v₁) :: l) = (k₁, v₁) :: erase k l := by simp [erase, h1]
      rw [he]
      by_cases h2 : k₁ = k'
      · subst h2
        simp [Ne.symm h1]
      · rw [lookup_cons_ne h2, lookup_cons_ne h2, ih]

end Assoc

/-! ## Dictionaries -/

/-- A `dict`: its entries in insertion order. -/
structure Dict (κ : Type u) (α : Type v) where
  entries : List (κ × α)
  nodup : (entries.map Prod.fst).Nodup
  deriving DecidableEq

namespace Dict

variable {κ : Type u} {α : Type v} [DecidableEq κ]

/-- `{}` -/
def empty : Dict κ α := ⟨[], List.nodup_nil⟩

instance : EmptyCollection (Dict κ α) := ⟨empty⟩
instance : Inhabited (Dict κ α) := ⟨empty⟩

/-- `d.get(k)` -/
def get? (d : Dict κ α) (k : κ) : Option α := Assoc.lookup k d.entries

/-- `k in d` -/
def contains (d : Dict κ α) (k : κ) : Bool := (d.get? k).isSome

/-- `d[k] = v` -/
def set (d : Dict κ α) (k : κ) (v : α) : Dict κ α :=
  ⟨Assoc.insert k v d.entries, Assoc.nodup_insert k v d.nodup⟩

/-- `d.pop(k, None)` -/
def erase (d : Dict κ α) (k : κ) : Dict κ α :=
  ⟨Assoc.erase k d.entries, Assoc.nodup_erase k d.nodup⟩

/-- `d.values()` -/
def values (d : Dict κ α) : List α := d.entries.map Prod.snd

omit [DecidableEq κ] in
@[simp] theorem entries_empty : (∅ : Dict κ α).entries = [] := rfl

omit [DecidableEq κ] in
@[simp] theorem values_empty : (∅ : Dict κ α).values = [] := rfl

@[simp] theorem get?_empty (k : κ) : (∅ : Dict κ α).get? k = none := rfl

theorem get?_set (d : Dict κ α) (k k' : κ) (v : α) :
    (d.set k v).get? k' = if k = k' then some v else d.get? k' := Assoc.lookup_insert k k' v _

@[simp] theorem get?_set_self (d : Dict κ α) (k : κ) (v : α) : (d.set k v).get? k = some v := by
  simp [get?_set]

theorem get?_set_ne {k k' : κ} (h : k ≠ k') (d : Dict κ α) (v : α) :
    (d.set k v).get? k' = d.get? k' := by
  simp [get?_set, h]

theorem get?_erase (d : Dict κ α) (k k' : κ) :
    (d.erase k).get? k' = if k = k' then none else d.get? k' := Assoc.lookup_erase k k' _

theorem contains_iff {d : Dict κ α} {k : κ} : d.contains k = true ↔ ∃ v, d.get? k = some v :=
  Option.isSome_iff_exists

theorem contains_eq_false {d : Dict κ α} {k : κ} : d.contains k = false ↔ d.get? k = none := by
  simp [contains]

theorem mem_entries_iff {d : Dict κ α} {k : κ} {v : α} :
    (k, v) ∈ d.entries ↔ d.get? k = some v :=
  ⟨Assoc.lookup_of_mem d.nodup, Assoc.mem_of_lookup⟩

theorem mem_values_iff {d : Dict κ α} {v : α} : v ∈ d.values ↔ ∃ k, d.get? k = some v := by
  simp only [values, List.mem_map, Prod.exists, exists_eq_right]
  exact exists_congr fun k => mem_entries_iff

theorem mem_values_of_get? {d : Dict κ α} {k : κ} {v : α} (h : d.get? k = some v) :
    v ∈ d.values := mem_values_iff.mpr ⟨k, h⟩

/-- What a predicate says of every value after an assignment. -/
theorem forall_values_set {d : Dict κ α} {k : κ} {v : α} {P : κ → α → Prop}
    (hv : P k v) (hd : ∀ k' v', k' ≠ k → d.get? k' = some v' → P k' v') :
    ∀ k' v', (d.set k v).get? k' = some v' → P k' v' := by
  intro k' v' h
  rw [get?_set] at h
  by_cases hk : k = k'
  · rw [if_pos hk, Option.some.injEq] at h
    exact hk ▸ h ▸ hv
  · rw [if_neg hk] at h
    exact hd k' v' (Ne.symm hk) h

/-- A dictionary whose values know their keys has one value for each of them. -/
theorem map_values_eq_keys {d : Dict κ α} {key : α → κ}
    (h : ∀ k v, d.get? k = some v → key v = k) : d.values.map key = d.entries.map Prod.fst := by
  rw [values, List.map_map]
  exact List.map_congr_left fun e he => h e.1 e.2 (mem_entries_iff.mp he)

theorem nodup_map_values {d : Dict κ α} {key : α → κ}
    (h : ∀ k v, d.get? k = some v → key v = k) : (d.values.map key).Nodup := by
  rw [map_values_eq_keys h]
  exact d.nodup

/-! ### Changing every value -/

/-- `{k: f(v) for k, v in d.items()}` -/
def mapValues (f : α → α) (d : Dict κ α) : Dict κ α where
  entries := d.entries.map fun e => (e.1, f e.2)
  nodup := by
    rw [List.map_map]
    exact d.nodup

@[simp] theorem get?_mapValues (f : α → α) (d : Dict κ α) (k : κ) :
    (d.mapValues f).get? k = (d.get? k).map f := by
  rw [get?, get?]
  show Assoc.lookup k (d.entries.map fun e => (e.1, f e.2)) = _
  induction d.entries with
  | nil => rfl
  | cons e entries ih =>
    by_cases h : e.1 = k
    · simp [Assoc.lookup, h]
    · simp [Assoc.lookup, h, ih]

/-! ### Assignments in a loop -/

variable {β : Type*}

/-- `for x in l: d[key(x)] = value(x)` -/
def setAll (key : β → κ) (value : β → α) (l : List β) (d : Dict κ α) : Dict κ α :=
  l.foldl (fun acc x => acc.set (key x) (value x)) d

@[simp] theorem setAll_nil (key : β → κ) (value : β → α) (d : Dict κ α) :
    setAll key value [] d = d := rfl

@[simp] theorem setAll_cons (key : β → κ) (value : β → α) (x : β) (l : List β) (d : Dict κ α) :
    setAll key value (x :: l) d = setAll key value l (d.set (key x) (value x)) := rfl

theorem get?_setAll_not_mem {key : β → κ} {value : β → α} {k : κ} {l : List β}
    (h : ∀ x ∈ l, key x ≠ k) (d : Dict κ α) : (setAll key value l d).get? k = d.get? k := by
  induction l generalizing d with
  | nil => rfl
  | cons x l ih =>
    rw [setAll_cons, ih (fun y hy => h y (List.mem_cons_of_mem _ hy)),
      get?_set_ne (h x List.mem_cons_self)]

theorem get?_setAll_mem {key : β → κ} {value : β → α} {l : List β} (hnd : (l.map key).Nodup)
    {x : β} (hx : x ∈ l) (d : Dict κ α) :
    (setAll key value l d).get? (key x) = some (value x) := by
  induction l generalizing d with
  | nil => cases hx
  | cons y l ih =>
    rw [List.map_cons, List.nodup_cons] at hnd
    rw [setAll_cons]
    rcases List.mem_cons.mp hx with rfl | hx
    · rw [get?_setAll_not_mem fun z hz hzx => hnd.1 (List.mem_map.mpr ⟨z, hz, hzx⟩),
        get?_set_self]
    · exact ih hnd.2 hx _

variable {key : β → κ} {value : β → α}

theorem length_le_length_set (d : Dict κ α) (k : κ) (v : α) :
    d.values.length ≤ (d.set k v).values.length := by
  rw [values, values, List.length_map, List.length_map]
  show d.entries.length ≤ (Assoc.insert k v d.entries).length
  induction d.entries with
  | nil => simp
  | cons e entries ih =>
    obtain ⟨k', v'⟩ := e
    rw [Assoc.insert]
    split
    · rfl
    · simpa using ih

theorem length_le_length_setAll (l : List β) (d : Dict κ α) :
    d.values.length ≤ (setAll key value l d).values.length := by
  induction l generalizing d with
  | nil => rfl
  | cons x l ih => exact (length_le_length_set d _ _).trans (ih _)

/-- What a key has after the loop comes from the loop or was there. -/
theorem get?_setAll_eq_some {l : List β} {d : Dict κ α} {k : κ} {v : α}
    (h : (setAll key value l d).get? k = some v) :
    (∃ x ∈ l, key x = k ∧ value x = v) ∨ d.get? k = some v := by
  induction l generalizing d with
  | nil => exact Or.inr h
  | cons x l ih =>
    obtain ⟨y, hy, hkv⟩ | hset := ih h
    · exact Or.inl ⟨y, List.mem_cons_of_mem _ hy, hkv⟩
    · rw [get?_set] at hset
      split at hset
      · next hk => exact Or.inl ⟨x, List.mem_cons_self, hk, Option.some.inj hset⟩
      · exact Or.inr hset

theorem mem_keys_setAll {l : List β} {d : Dict κ α} {k : κ} :
    k ∈ (setAll key value l d).entries.map Prod.fst ↔
      k ∈ l.map key ∨ k ∈ d.entries.map Prod.fst := by
  induction l generalizing d with
  | nil => simp
  | cons x l ih =>
    have hset : k ∈ (d.set (key x) (value x)).entries.map Prod.fst ↔
        k = key x ∨ k ∈ d.entries.map Prod.fst := by
      rw [← Assoc.lookup_isSome_iff, ← Assoc.lookup_isSome_iff]
      show ((d.set (key x) (value x)).get? k).isSome ↔ k = key x ∨ (d.get? k).isSome
      rw [get?_set]
      by_cases hk : key x = k
      · simp [hk]
      · simp [hk, Ne.symm hk]
    rw [setAll_cons, ih, hset, List.map_cons, List.mem_cons]
    tauto

end Dict

end OsScanner.Lib

import Mathlib
import OsScanner.Lib.Dict

/-!
# Tables with an automatic key

A table whose rows are numbered in the order of their insertion and whose numbers are never
used twice, as with SQLite's `INTEGER PRIMARY KEY AUTOINCREMENT`. The structure carries both
facts. A table is read through `get?`: what each statement does is said by what it does to
`get?`.
-/

namespace OsScanner.Lib

universe u

/-- The rows in the order of their keys, and the key that the next row gets. -/
structure Table (α : Type u) where
  rows : List (Nat × α)
  nextId : Nat
  sorted : (rows.map Prod.fst).Pairwise (· < ·)
  below : ∀ e ∈ rows, e.1 < nextId

namespace Table

variable {α : Type u}

/-- A new table: the first row gets key 1. -/
def empty : Table α := ⟨[], 1, by simp, by simp⟩

instance : EmptyCollection (Table α) := ⟨empty⟩
instance : Inhabited (Table α) := ⟨empty⟩

/-- The row with this key. -/
def get? (t : Table α) (id : Nat) : Option α := Assoc.lookup id t.rows

/-- `INSERT INTO t VALUES (…)` -/
def insert (t : Table α) (row : α) : Table α where
  rows := t.rows ++ [(t.nextId, row)]
  nextId := t.nextId + 1
  sorted := by
    rw [List.map_append, List.pairwise_append]
    refine ⟨t.sorted, by simp, ?_⟩
    simp only [List.mem_map, List.map_cons, List.map_nil, List.mem_singleton]
    rintro _ ⟨e, he, rfl⟩ _ rfl
    exact t.below e he
  below := by
    simp only [List.mem_append, List.mem_singleton]
    rintro e (he | rfl)
    · exact Nat.lt_succ_of_lt (t.below e he)
    · exact Nat.lt_succ_self _

/-- `UPDATE t SET …`: every row may change, no key does. -/
def update (t : Table α) (f : Nat → α → α) : Table α where
  rows := t.rows.map fun e => (e.1, f e.1 e.2)
  nextId := t.nextId
  sorted := by
    rw [List.map_map]
    exact t.sorted
  below := by
    simp only [List.mem_map]
    rintro _ ⟨e, he, rfl⟩
    exact t.below e he

/-- `UPDATE t SET … WHERE id = ?` -/
def modify (t : Table α) (id : Nat) (f : α → α) : Table α :=
  t.update fun id' row => if id' = id then f row else row

/-- `DELETE FROM t WHERE …` -/
def delete (t : Table α) (p : Nat → α → Bool) : Table α where
  rows := t.rows.filter fun e => !p e.1 e.2
  nextId := t.nextId
  sorted := t.sorted.sublist (List.filter_sublist.map Prod.fst)
  below := fun e he => t.below e (List.mem_of_mem_filter he)

/-- `SELECT * FROM t WHERE …`, in the order of the keys. -/
def select (t : Table α) (p : Nat → α → Bool) : List (Nat × α) := t.rows.filter fun e => p e.1 e.2

/-- `SELECT * FROM t WHERE … ORDER BY id LIMIT 1` -/
def first? (t : Table α) (p : Nat → α → Bool) : Option (Nat × α) := (t.select p).head?

/-- `SELECT * FROM t WHERE … ORDER BY id DESC LIMIT 1` -/
def last? (t : Table α) (p : Nat → α → Bool) : Option (Nat × α) := (t.select p).getLast?

/-! ## Reading a table -/

theorem nodup (t : Table α) : (t.rows.map Prod.fst).Nodup := t.sorted.imp ne_of_lt

theorem mem_rows_iff {t : Table α} {id : Nat} {row : α} :
    (id, row) ∈ t.rows ↔ t.get? id = some row :=
  ⟨Assoc.lookup_of_mem t.nodup, Assoc.mem_of_lookup⟩

@[simp] theorem get?_empty (id : Nat) : (∅ : Table α).get? id = none := rfl

theorem lt_nextId {t : Table α} {id : Nat} {row : α} (h : t.get? id = some row) : id < t.nextId :=
  t.below _ (mem_rows_iff.mpr h)

theorem get?_nextId (t : Table α) : t.get? t.nextId = none := by
  cases h : t.get? t.nextId with
  | none => rfl
  | some row => exact absurd (lt_nextId h) (lt_irrefl _)

/-- Two tables with the same content under every key read the same. -/
theorem get?_eq_iff {t t' : Table α} {id id' : Nat}
    (h : ∀ row, t.get? id = some row ↔ t'.get? id' = some row) : t.get? id = t'.get? id' :=
  Option.ext h

theorem get?_insert (t : Table α) (row : α) (id : Nat) :
    (t.insert row).get? id = if id = t.nextId then some row else t.get? id := by
  refine Option.ext fun r => ?_
  rw [← mem_rows_iff]
  unfold insert
  simp only [List.mem_append, List.mem_singleton, Prod.mk.injEq, mem_rows_iff]
  split
  · rename_i h
    subst h
    simp [get?_nextId, eq_comm]
  · rename_i h
    simp [h]

@[simp] theorem get?_insert_self (t : Table α) (row : α) :
    (t.insert row).get? t.nextId = some row := by
  simp [get?_insert]

theorem get?_insert_of_some {t : Table α} {row r : α} {id : Nat} (h : t.get? id = some r) :
    (t.insert row).get? id = some r := by
  rw [get?_insert, if_neg (lt_nextId h).ne, h]

@[simp] theorem get?_update (t : Table α) (f : Nat → α → α) (id : Nat) :
    (t.update f).get? id = (t.get? id).map (f id) := by
  refine Option.ext fun r => ?_
  rw [← mem_rows_iff, Option.map_eq_some_iff]
  unfold update
  simp only [List.mem_map, Prod.mk.injEq, Prod.exists, mem_rows_iff]
  constructor
  · rintro ⟨_, row, h, rfl, rfl⟩
    exact ⟨row, h, rfl⟩
  · rintro ⟨row, h, rfl⟩
    exact ⟨id, row, h, rfl, rfl⟩

theorem update_eq_self {t : Table α} {f : Nat → α → α} (h : ∀ id row, t.get? id = some row →
    f id row = row) : t.update f = t := by
  have hrows : (t.rows.map fun e => (e.1, f e.1 e.2)) = t.rows := by
    conv_rhs => rw [← List.map_id t.rows]
    exact List.map_congr_left fun e he => by rw [h e.1 e.2 (mem_rows_iff.mp he)]; rfl
  cases t
  simp only [update, mk.injEq, and_true]
  exact hrows

theorem get?_modify (t : Table α) (id id' : Nat) (f : α → α) :
    (t.modify id f).get? id' = if id' = id then (t.get? id').map f else t.get? id' := by
  rw [modify, get?_update]
  split
  · rfl
  · simp

theorem get?_delete {t : Table α} {p : Nat → α → Bool} {id : Nat} {row : α} :
    (t.delete p).get? id = some row ↔ t.get? id = some row ∧ p id row = false := by
  rw [← mem_rows_iff, ← mem_rows_iff]
  unfold delete
  simp

@[simp] theorem nextId_update (t : Table α) (f : Nat → α → α) : (t.update f).nextId = t.nextId := rfl

@[simp] theorem nextId_modify (t : Table α) (id : Nat) (f : α → α) :
    (t.modify id f).nextId = t.nextId := rfl

@[simp] theorem nextId_delete (t : Table α) (p : Nat → α → Bool) : (t.delete p).nextId = t.nextId :=
  rfl

@[simp] theorem nextId_insert (t : Table α) (row : α) : (t.insert row).nextId = t.nextId + 1 := rfl

/-! ## Queries -/

theorem mem_select {t : Table α} {p : Nat → α → Bool} {id : Nat} {row : α} :
    (id, row) ∈ t.select p ↔ t.get? id = some row ∧ p id row = true := by
  rw [select, List.mem_filter, mem_rows_iff]

theorem sorted_select (t : Table α) (p : Nat → α → Bool) :
    ((t.select p).map Prod.fst).Pairwise (· < ·) :=
  t.sorted.sublist (List.filter_sublist.map Prod.fst)

theorem first?_eq_some {t : Table α} {p : Nat → α → Bool} {id : Nat} {row : α}
    (h : t.first? p = some (id, row)) : t.get? id = some row ∧ p id row = true :=
  mem_select.mp (List.mem_of_mem_head? h)

theorem first?_eq_none {t : Table α} {p : Nat → α → Bool} :
    t.first? p = none ↔ ∀ id row, t.get? id = some row → p id row = false := by
  rw [first?, List.head?_eq_none_iff, List.eq_nil_iff_forall_not_mem]
  simp only [Prod.forall, mem_select, not_and, Bool.not_eq_true]

theorem last?_eq_none {t : Table α} {p : Nat → α → Bool} :
    t.last? p = none ↔ ∀ id row, t.get? id = some row → p id row = false := by
  rw [last?, List.getLast?_eq_none_iff, List.eq_nil_iff_forall_not_mem]
  simp only [Prod.forall, mem_select, not_and, Bool.not_eq_true]

theorem last?_eq_some {t : Table α} {p : Nat → α → Bool} {id : Nat} {row : α}
    (h : t.last? p = some (id, row)) : t.get? id = some row ∧ p id row = true :=
  mem_select.mp (List.mem_of_getLast? h)

/-- A row that was just inserted is the last of the rows it is among. -/
theorem last?_insert {t : Table α} {p : Nat → α → Bool} {row : α} (h : p t.nextId row = true) :
    (t.insert row).last? p = some (t.nextId, row) := by
  rw [last?, select]
  show ((t.rows ++ [(t.nextId, row)]).filter fun e => p e.1 e.2).getLast? = _
  rw [List.filter_append, List.filter_singleton, h, cond_true, List.getLast?_concat]

/-- The last row of a query has the greatest key. -/
theorem le_of_last? {t : Table α} {p : Nat → α → Bool} {id id' : Nat} {row row' : α}
    (h : t.last? p = some (id, row)) (h' : t.get? id' = some row') (hp : p id' row' = true) :
    id' ≤ id := by
  obtain ⟨init, hinit⟩ := List.getLast?_eq_some_iff.mp h
  have hmem : (id', row') ∈ init ++ [(id, row)] := hinit ▸ mem_select.mpr ⟨h', hp⟩
  have hsorted := t.sorted_select p
  rw [hinit, List.map_append, List.pairwise_append] at hsorted
  rcases List.mem_append.mp hmem with hm | hm
  · exact (hsorted.2.2 id' (List.mem_map.mpr ⟨_, hm, rfl⟩) id (by simp)).le
  · rw [List.mem_singleton, Prod.mk.injEq] at hm
    exact hm.1.le

end Table

/-! ## Stable sorting

A query with an order sorts its rows, and rows of the same rank keep their order; so what it
shows of some of the rows does not depend on the others.
-/

section Sorting

variable {α : Type u} {r : α → α → Prop} [DecidableRel r] {p : α → Bool}

/-- Inserting a row and dropping some of the others commute. -/
theorem filter_orderedInsert [IsTrans α r] (a : α) {l : List α} (hsorted : l.Pairwise r) :
    (l.orderedInsert r a).filter p =
      if p a then (l.filter p).orderedInsert r a else l.filter p := by
  induction l with
  | nil => by_cases hp : p a <;> simp [hp]
  | cons b l ih =>
    rw [List.pairwise_cons] at hsorted
    by_cases hle : r a b
    · rw [List.orderedInsert_cons_of_le r l hle]
      by_cases hp : p a
      · rw [List.filter_cons_of_pos hp, if_pos hp]
        -- What is left of the rows that `a` goes before is behind it too.
        have hfront : ∀ c ∈ (b :: l).filter p, r a c := by
          intro c hc
          rcases List.mem_cons.mp (List.mem_of_mem_filter hc) with rfl | hmem
          · exact hle
          · exact IsTrans.trans _ _ _ hle (hsorted.1 c hmem)
        cases hrest : (b :: l).filter p with
        | nil => rfl
        | cons c rest =>
          rw [hrest] at hfront
          rw [List.orderedInsert_cons_of_le r rest (hfront c List.mem_cons_self)]
      · rw [List.filter_cons_of_neg hp, if_neg hp]
    · rw [List.orderedInsert_of_not_le r l hle]
      by_cases hb : p b
      · rw [List.filter_cons_of_pos hb, ih hsorted.2, List.filter_cons_of_pos hb]
        by_cases hp : p a
        · rw [if_pos hp, if_pos hp, List.orderedInsert_of_not_le r _ hle]
        · rw [if_neg hp, if_neg hp]
      · rw [List.filter_cons_of_neg hb, ih hsorted.2, List.filter_cons_of_neg hb]

theorem filter_insertionSort [IsTrans α r] [Std.Total r] (l : List α) :
    (l.insertionSort r).filter p = (l.filter p).insertionSort r := by
  induction l with
  | nil => rfl
  | cons a l ih =>
    rw [List.insertionSort_cons, filter_orderedInsert a (List.pairwise_insertionSort r l), ih]
    by_cases hp : p a
    · rw [if_pos hp, List.filter_cons_of_pos hp, List.insertionSort_cons]
    · rw [if_neg hp, List.filter_cons_of_neg hp]

end Sorting

end OsScanner.Lib

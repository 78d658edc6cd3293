import Mathlib

/-!
# Transactions of an SQL connection

One connection in autocommit mode: `BEGIN`, `COMMIT` and `ROLLBACK` of a transaction, and the
savepoints inside it. The content of the database is of any type. A statement that SQLite
refuses in the state of the connection has no result and changes nothing.
-/

namespace OsScanner.Lib

/-- Where a `ROLLBACK` leads: the `BEGIN` of the transaction (no name), or a savepoint. -/
structure Mark (σ : Type) where
  name : Option Nat
  content : σ

/-- `current` is what the connection reads, `committed` what the other ones read. -/
structure Connection (σ : Type) where
  committed : σ
  current : σ
  /-- The latest mark first; none outside of a transaction. -/
  marks : List (Mark σ)
  idle : marks = [] → current = committed

namespace Connection

variable {σ : Type}

theorem ext {a b : Connection σ} (h₁ : a.committed = b.committed) (h₂ : a.current = b.current)
    (h₃ : a.marks = b.marks) : a = b := by
  cases a
  cases b
  simp only at h₁ h₂ h₃
  subst h₁ h₂ h₃
  rfl

/-! ## The statements -/

/-- A connection to a database with this content, outside of a transaction. -/
def fresh (content : σ) : Connection σ := ⟨content, content, [], fun _ => rfl⟩

/-- A statement that writes: outside of a transaction it commits by itself. -/
def write (content : σ) (c : Connection σ) : Connection σ where
  committed := if c.marks = [] then content else c.committed
  current := content
  marks := c.marks
  idle h := by rw [if_pos h]

/-- `BEGIN` -/
def begin? (c : Connection σ) : Option (Connection σ) :=
  if c.marks = [] then some ⟨c.committed, c.current, [⟨none, c.current⟩], nofun⟩ else none

/-- `COMMIT` -/
def commit? (c : Connection σ) : Option (Connection σ) :=
  if c.marks = [] then none else some (fresh c.current)

/-- `ROLLBACK` -/
def rollback? (c : Connection σ) : Option (Connection σ) :=
  if c.marks = [] then none else some (fresh c.committed)

/-- `SAVEPOINT name` -/
def savepoint (name : Nat) (c : Connection σ) : Connection σ :=
  ⟨c.committed, c.current, ⟨some name, c.current⟩ :: c.marks, nofun⟩

/-- The marks from the latest one of this name on. -/
def marksFrom (name : Nat) (c : Connection σ) : List (Mark σ) :=
  c.marks.dropWhile fun m => decide (m.name ≠ some name)

/-- `ROLLBACK TO name`, which keeps the savepoint. -/
def rollbackTo? (name : Nat) (c : Connection σ) : Option (Connection σ) :=
  match c.marksFrom name with
  | [] => none
  | mark :: marks => some ⟨c.committed, mark.content, mark :: marks, nofun⟩

/-- `RELEASE name`: the outermost savepoint commits when no `BEGIN` came before it. -/
def release? (name : Nat) (c : Connection σ) : Option (Connection σ) :=
  match c.marksFrom name with
  | [] => none
  | _ :: [] => some (fresh c.current)
  | _ :: mark :: marks => some ⟨c.committed, c.current, mark :: marks, nofun⟩

/-! ## Properties of the content -/

/-- What holds of every content that the connection can return to. -/
structure Holds (P : σ → Prop) (c : Connection σ) : Prop where
  committed : P c.committed
  current : P c.current
  marks : ∀ mark ∈ c.marks, P mark.content

variable {P : σ → Prop} {c c' : Connection σ} {name : Nat} {content : σ}

theorem holds_fresh (h : P content) : (fresh content).Holds P := ⟨h, h, by simp [fresh]⟩

theorem Holds.write (h : c.Holds P) (hc : P content) : (c.write content).Holds P := by
  refine ⟨?_, hc, h.marks⟩
  simp only [Connection.write]
  split
  · exact hc
  · exact h.committed

theorem Holds.begin? (h : c.Holds P) (hc : c.begin? = some c') : c'.Holds P := by
  simp only [Connection.begin?, Option.ite_none_right_eq_some, Option.some.injEq] at hc
  obtain ⟨-, rfl⟩ := hc
  exact ⟨h.committed, h.current, by simpa using h.current⟩

theorem Holds.commit? (h : c.Holds P) (hc : c.commit? = some c') : c'.Holds P := by
  simp only [Connection.commit?, Option.ite_none_left_eq_some, Option.some.injEq] at hc
  obtain ⟨-, rfl⟩ := hc
  exact holds_fresh h.current

theorem Holds.rollback? (h : c.Holds P) (hc : c.rollback? = some c') : c'.Holds P := by
  simp only [Connection.rollback?, Option.ite_none_left_eq_some, Option.some.injEq] at hc
  obtain ⟨-, rfl⟩ := hc
  exact holds_fresh h.committed

theorem Holds.savepoint (h : c.Holds P) : (c.savepoint name).Holds P :=
  ⟨h.committed, h.current, List.forall_mem_cons.mpr ⟨h.current, h.marks⟩⟩

theorem Holds.marksFrom (h : c.Holds P) : ∀ mark ∈ c.marksFrom name, P mark.content := by
  intro mark hm
  exact h.marks mark (List.dropWhile_subset _ hm)

theorem Holds.rollbackTo? (h : c.Holds P) (hc : c.rollbackTo? name = some c') : c'.Holds P := by
  have hm : ∀ mark ∈ c.marksFrom name, P mark.content := h.marksFrom
  unfold Connection.rollbackTo? at hc
  split at hc
  · cases hc
  · next mark marks heq =>
    rw [heq] at hm
    cases hc
    exact ⟨h.committed, hm mark List.mem_cons_self, hm⟩

theorem Holds.release? (h : c.Holds P) (hc : c.release? name = some c') : c'.Holds P := by
  have hm : ∀ mark ∈ c.marksFrom name, P mark.content := h.marksFrom
  unfold Connection.release? at hc
  split at hc
  · cases hc
  · cases hc
    exact holds_fresh h.current
  · next first mark marks heq =>
    rw [heq] at hm
    cases hc
    exact ⟨h.committed, h.current, (List.forall_mem_cons.mp hm).2⟩

/-! ## Inside of a savepoint -/

/-- Savepoints of other names do not hide a mark. -/
theorem marksFrom_append {leaked rest : List (Mark σ)}
    (hm : c.marks = leaked ++ ⟨some name, content⟩ :: rest)
    (hl : ∀ mark ∈ leaked, mark.name ≠ some name) :
    c.marksFrom name = ⟨some name, content⟩ :: rest := by
  rw [marksFrom, hm, List.dropWhile_append_of_pos (fun mark hmark => by simpa using hl mark hmark)]
  simp

theorem rollbackTo?_eq {leaked rest : List (Mark σ)}
    (hm : c.marks = leaked ++ ⟨some name, content⟩ :: rest)
    (hl : ∀ mark ∈ leaked, mark.name ≠ some name) :
    c.rollbackTo? name = some ⟨c.committed, content, ⟨some name, content⟩ :: rest, nofun⟩ := by
  simp only [rollbackTo?, marksFrom_append hm hl]

/-- Releasing a savepoint inside of a transaction keeps the writes and commits nothing. -/
theorem release?_eq {leaked rest : List (Mark σ)}
    (hm : c.marks = leaked ++ ⟨some name, content⟩ :: rest)
    (hl : ∀ mark ∈ leaked, mark.name ≠ some name) (hr : rest ≠ []) :
    c.release? name = some ⟨c.committed, c.current, rest, fun h => absurd h hr⟩ := by
  cases rest with
  | nil => exact absurd rfl hr
  | cons mark rest => simp only [release?, marksFrom_append hm hl]

theorem rollbackTo?_eq_none (h : ∀ mark ∈ c.marks, mark.name ≠ some name) :
    c.rollbackTo? name = none := by
  have hm : c.marksFrom name = [] :=
    List.dropWhile_eq_nil_iff.mpr fun mark hmark => by simpa using h mark hmark
  simp only [rollbackTo?, hm]

end Connection

end OsScanner.Lib

import Mathlib
import OsScanner.Lib.Connection

/-!
# Nested transactions

`app/storage/base.py`: the context manager `transaction`, run over a tree of blocks. The content
of the database is of any type; a write is a function of it that may raise. An exception that
arrives while a control statement (`BEGIN`, `SAVEPOINT`, `COMMIT`, …) is on its way is part of
the tree, so that the result below speaks of every place where one can be raised.

`effect` says what a tree is for, without a connection: a block that raises has no effect.
-/

namespace OsScanner.Storage

open Lib

/-! ## Exceptions -/

/-- The class of an exception, as far as `except` clauses tell it. -/
inductive Raised where
  /-- `sqlite3.Error` -/
  | sqliteError
  /-- Any other `Exception`. -/
  | exception
  /-- `KeyboardInterrupt`, `SystemExit` and others that are no `Exception`. -/
  | baseException
  deriving DecidableEq, Repr

/-- What happens to a control statement from outside. -/
inductive Fault where
  | none
  /-- The exception comes before the statement takes effect, as when SQLite refuses it. -/
  | before (raised : Raised)
  /-- The exception comes when the statement has taken effect. -/
  | after (raised : Raised)
  deriving DecidableEq, Repr

/-- How the statement ends, if the connection accepts it or not. -/
def Fault.outcome : Fault → (accepted : Bool) → Except Raised Unit
  | none, true => .ok ()
  | none, false => .error .sqliteError
  | before raised, _ => .error raised
  | after raised, true => .error raised
  | after _, false => .error .sqliteError

/-- The statement reaches the connection. -/
def Fault.executed : Fault → Bool
  | before _ => false
  | _ => true

/-- The faults of the control statements of one block. -/
structure Faults where
  /-- `BEGIN` or `SAVEPOINT` -/
  opens : Fault := .none
  /-- `COMMIT` or `RELEASE`, when the body is done. -/
  closes : Fault := .none
  /-- `ROLLBACK` or `ROLLBACK TO`, when the body raised. -/
  rollsBack : Fault := .none
  /-- `RELEASE` after `ROLLBACK TO`. -/
  releases : Fault := .none
  deriving DecidableEq

/-! ## The context manager -/

variable {σ : Type}

/-- The storage object: `uuids` counts the savepoint names that were drawn. -/
structure Session (σ : Type) where
  connection : Connection σ
  transactionDepth : Nat
  uuids : Nat

/-- A storage object that was just opened. -/
def Session.fresh (content : σ) : Session σ := ⟨.fresh content, 0, 0⟩

/-- A block that an exception left: the storage before it and after it. -/
structure BlockExit (σ : Type) where
  before : Session σ
  after : Session σ

/-- What running a piece of code gives: how it ends, the storage, the blocks left by exceptions. -/
structure Outcome (σ : Type) where
  result : Except Raised Unit
  session : Session σ
  exits : List (BlockExit σ)

/-- `self._connection.execute(statement)` -/
def execute (fault : Fault) (statement : Connection σ → Option (Connection σ)) (c : Connection σ) :
    Except Raised Unit × Connection σ :=
  (fault.outcome (statement c).isSome, if fault.executed then (statement c).getD c else c)

def openBlock (depth name : Nat) (c : Connection σ) : Option (Connection σ) :=
  if depth = 0 then c.begin? else some (c.savepoint name)

def closeBlock (depth name : Nat) (c : Connection σ) : Option (Connection σ) :=
  if depth = 0 then c.commit? else c.release? name

/-- The statements of the `except` clause. -/
def rollBack (faults : Faults) (depth name : Nat) (c : Connection σ) :
    Except Raised Unit × Connection σ :=
  if depth = 0 then execute faults.rollsBack Connection.rollback? c
  else
    match execute faults.rollsBack (Connection.rollbackTo? name) c with
    | (.ok (), c') => execute faults.releases (Connection.release? name) c'
    | failed => failed

/-- What leaves the `except` clause: `sqlite3.Error` is suppressed. -/
def reraise (raised : Raised) : Except Raised Unit → Raised
  | .error other => if other = .sqliteError then raised else other
  | .ok () => raised

/-- `except Exception`: roll back and raise again. -/
def handle (faults : Faults) (depth name : Nat) (raised : Raised) (c : Connection σ) :
    Raised × Connection σ :=
  if raised = .baseException then (raised, c)
  else
    let rolledBack := rollBack faults depth name c
    (reraise raised rolledBack.1, rolledBack.2)

/-- A block left by an exception; `finally` has restored the depth. -/
def leftBy (s : Session σ) (uuids : Nat) (exits : List (BlockExit σ)) (raised : Raised)
    (c : Connection σ) : Outcome σ :=
  ⟨.error raised, ⟨c, s.transactionDepth, uuids⟩,
    exits ++ [⟨s, ⟨c, s.transactionDepth, uuids⟩⟩]⟩

/-- The clauses of the block that the session `s` opened, once its body is left. -/
def endBlock (faults : Faults) (s : Session σ) (inner : Outcome σ) : Outcome σ :=
  let depth := s.transactionDepth
  let name := s.uuids
  match inner.result with
  | .error raised =>
    let handled := handle faults depth name raised inner.session.connection
    leftBy s inner.session.uuids inner.exits handled.1 handled.2
  | .ok () =>
    match execute faults.closes (closeBlock depth name) inner.session.connection with
    | (.error raised, c) => leftBy s inner.session.uuids inner.exits raised c
    | (.ok (), c) => ⟨.ok (), ⟨c, depth, inner.session.uuids⟩, inner.exits⟩

/-- `with self.transaction(): body` -/
def transaction (faults : Faults) (body : Session σ → Outcome σ) (s : Session σ) : Outcome σ :=
  let depth := s.transactionDepth
  let name := s.uuids
  match execute faults.opens (openBlock depth name) s.connection with
  | (.error raised, c) =>
    let handled := handle faults depth name raised c
    leftBy s (name + 1) [] handled.1 handled.2
  | (.ok (), c) => endBlock faults s (body ⟨c, depth + 1, name + 1⟩)

/-! ## Trees of blocks -/

/-- Code that uses the storage: its writes, its `try` statements and its transactions. -/
inductive Program (σ : Type) where
  /-- A statement that changes the content or raises. -/
  | write (change : σ → Except Raised σ)
  | seq (first second : Program σ)
  /-- `try: body except …: handler` -/
  | attempt (body : Program σ) (catches : Raised → Bool) (handler : Program σ)
  | transaction (faults : Faults) (body : Program σ)

/-- Continue after `first` unless it raised. -/
def Outcome.andThen (first : Outcome σ) (second : Session σ → Outcome σ) : Outcome σ :=
  match first.result with
  | .error _ => first
  | .ok () =>
    let last := second first.session
    ⟨last.result, last.session, first.exits ++ last.exits⟩

/-- Continue after `body` with the handler if that catches what it raised. -/
def Outcome.orElse (body : Outcome σ) (catches : Raised → Bool) (handler : Session σ → Outcome σ) :
    Outcome σ :=
  match body.result with
  | .ok () => body
  | .error raised =>
    if catches raised then
      let last := handler body.session
      ⟨last.result, last.session, body.exits ++ last.exits⟩
    else body

def writeContent (change : σ → Except Raised σ) (s : Session σ) : Outcome σ :=
  match change s.connection.current with
  | .ok content => ⟨.ok (), { s with connection := s.connection.write content }, []⟩
  | .error raised => ⟨.error raised, s, []⟩

def Program.run : Program σ → Session σ → Outcome σ
  | .write change => writeContent change
  | .seq first second => fun s => (first.run s).andThen second.run
  | .attempt body catches handler => fun s => (body.run s).orElse catches handler.run
  | .transaction faults body => Storage.transaction faults body.run

/-- Where a property of the content holds, the writes of the tree keep it. -/
def Program.Keeps (P : σ → Prop) : Program σ → Prop
  | .write change => ∀ content content', P content → change content = .ok content' → P content'
  | .seq first second => first.Keeps P ∧ second.Keeps P
  | .attempt body _ handler => body.Keeps P ∧ handler.Keeps P
  | .transaction _ body => body.Keeps P

/-! ## What a tree is for -/

/-- What an exception that leaves a block finds. -/
inductive Departure where
  /-- The block was never opened. -/
  | unopened
  /-- Its writes are rolled back. -/
  | undone
  /-- It stays open with its writes. -/
  | abandoned
  /-- It is closed with its writes. -/
  | closed
  deriving DecidableEq, Repr

/-- A block that raises: the content before it and the content its body left. -/
structure FailedBlock (σ : Type) where
  nested : Bool
  before : σ
  content : σ
  departure : Departure

structure Effect (σ : Type) where
  result : Except Raised Unit
  content : σ
  failed : List (FailedBlock σ)

/-- How the statements of the `except` clause end. -/
def rollBackOutcome (faults : Faults) (nested opened : Bool) : Except Raised Unit :=
  match faults.rollsBack.outcome opened with
  | .error other => .error other
  | .ok () => if nested then faults.releases.outcome true else .ok ()

/-- What leaves the block when `raised` reaches its `except` clause. -/
def escaping (faults : Faults) (nested opened : Bool) (raised : Raised) : Raised :=
  if raised = .baseException then raised
  else reraise raised (rollBackOutcome faults nested opened)

/-- What becomes of an open block when its body raises. -/
def departure (faults : Faults) (raised : Raised) : Departure :=
  if raised = .baseException then .abandoned
  else if faults.rollsBack.executed then .undone
  else .abandoned

/-- A block with no effect. -/
def failing (nested : Bool) (before content : σ) (failed : List (FailedBlock σ))
    (departure : Departure) (raised : Raised) : Effect σ :=
  ⟨.error raised, before, failed ++ [⟨nested, before, content, departure⟩]⟩

/-- A block has the effect of its body, or none when that or the closing statement raises. -/
def endEffect (faults : Faults) (nested : Bool) (before : σ) (inner : Effect σ) : Effect σ :=
  match inner.result, faults.closes with
  | .error raised, _ =>
    failing nested before inner.content inner.failed (departure faults raised)
      (escaping faults nested true raised)
  | .ok (), .before raised => failing nested before inner.content inner.failed .abandoned raised
  | .ok (), .after raised => failing nested before inner.content inner.failed .closed raised
  | .ok (), .none => inner

def atomicEffect (faults : Faults) (body : σ → Effect σ) (nested : Bool) (before : σ) : Effect σ :=
  match faults.opens with
  | .before raised =>
    failing nested before before [] .unopened (escaping faults nested false raised)
  | .after raised =>
    failing nested before before [] (departure faults raised) (escaping faults nested true raised)
  | .none => endEffect faults nested before (body before)

def Effect.andThen (first : Effect σ) (second : σ → Effect σ) : Effect σ :=
  match first.result with
  | .error _ => first
  | .ok () =>
    let last := second first.content
    ⟨last.result, last.content, first.failed ++ last.failed⟩

def Effect.orElse (body : Effect σ) (catches : Raised → Bool) (handler : σ → Effect σ) :
    Effect σ :=
  match body.result with
  | .ok () => body
  | .error raised =>
    if catches raised then
      let last := handler body.content
      ⟨last.result, last.content, body.failed ++ last.failed⟩
    else body

def writeEffect (change : σ → Except Raised σ) (content : σ) : Effect σ :=
  match change content with
  | .ok content' => ⟨.ok (), content', []⟩
  | .error raised => ⟨.error raised, content, []⟩

/-- The effect of a tree that stands inside of another block, or does not. -/
def Program.effect : Program σ → (nested : Bool) → σ → Effect σ
  | .write change, _ => writeEffect change
  | .seq first second, nested => fun content =>
    (first.effect nested content).andThen (second.effect nested)
  | .attempt body catches handler, nested => fun content =>
    (body.effect nested content).orElse catches (handler.effect nested)
  | .transaction faults body, nested => atomicEffect faults (body.effect true) nested

/-! ## What writes keep, transactions keep -/

section

variable {P : σ → Prop} {c : Connection σ} {faults : Faults} {depth name : Nat}

theorem holds_execute {fault : Fault} {statement : Connection σ → Option (Connection σ)}
    (h : c.Holds P) (hstatement : ∀ c', statement c = some c' → c'.Holds P) :
    (execute fault statement c).2.Holds P := by
  unfold execute
  dsimp only
  split
  · cases hc : statement c with
    | none => exact h
    | some c' => exact hstatement c' hc
  · exact h

theorem holds_openBlock (h : c.Holds P) {c' : Connection σ} (hc : openBlock depth name c = some c') :
    c'.Holds P := by
  unfold openBlock at hc
  split at hc
  · exact h.begin? hc
  · cases hc
    exact h.savepoint

theorem holds_closeBlock (h : c.Holds P) {c' : Connection σ}
    (hc : closeBlock depth name c = some c') : c'.Holds P := by
  unfold closeBlock at hc
  split at hc
  · exact h.commit? hc
  · exact h.release? hc

theorem holds_rollBack (h : c.Holds P) : (rollBack faults depth name c).2.Holds P := by
  unfold rollBack
  split
  · exact holds_execute h fun _ => h.rollback?
  · have hto : (execute faults.rollsBack (Connection.rollbackTo? name) c).2.Holds P :=
      holds_execute h fun _ => h.rollbackTo?
    split
    · next heq =>
      rw [heq] at hto
      exact holds_execute hto fun _ => hto.release?
    · exact hto

theorem holds_handle (h : c.Holds P) (raised : Raised) :
    (handle faults depth name raised c).2.Holds P := by
  unfold handle
  split
  · exact h
  · exact holds_rollBack h

theorem holds_endBlock {s : Session σ} {inner : Outcome σ}
    (h : inner.session.connection.Holds P) : (endBlock faults s inner).session.connection.Holds P := by
  unfold endBlock
  dsimp only
  split
  · exact holds_handle h _
  · have hclose : (execute faults.closes (closeBlock s.transactionDepth s.uuids)
        inner.session.connection).2.Holds P := holds_execute h fun _ => holds_closeBlock h
    split
    · next heq =>
      rw [heq] at hclose
      exact hclose
    · next heq =>
      rw [heq] at hclose
      exact hclose

/-- One block, with any faults, around a body that keeps the property. -/
theorem holds_transaction {body : Session σ → Outcome σ}
    (hbody : ∀ s, s.connection.Holds P → (body s).session.connection.Holds P) (s : Session σ)
    (h : s.connection.Holds P) : (transaction faults body s).session.connection.Holds P := by
  unfold transaction
  dsimp only
  have hopen : (execute faults.opens (openBlock s.transactionDepth s.uuids) s.connection).2.Holds P :=
    holds_execute h fun _ => holds_openBlock h
  split
  · next heq =>
    rw [heq] at hopen
    exact holds_handle hopen _
  · next heq =>
    rw [heq] at hopen
    exact holds_endBlock (hbody _ hopen)

/-- Rolling back and committing only bring back contents that the writes have made. -/
theorem Program.Keeps.run {p : Program σ} (hp : p.Keeps P) :
    ∀ s : Session σ, s.connection.Holds P → (p.run s).session.connection.Holds P := by
  induction p with
  | write change =>
    intro s h
    unfold Program.run writeContent
    split
    · next content hchange => exact h.write (hp _ _ h.current hchange)
    · exact h
  | seq first second ih₁ ih₂ =>
    intro s h
    have hfirst := ih₁ hp.1 s h
    unfold Program.run Outcome.andThen
    split
    · exact hfirst
    · exact ih₂ hp.2 _ hfirst
  | attempt body catches handler ih₁ ih₂ =>
    intro s h
    have hbody := ih₁ hp.1 s h
    unfold Program.run Outcome.orElse
    split
    · exact hbody
    · split
      · exact ih₂ hp.2 _ hbody
      · exact hbody
  | transaction faults body ih => exact holds_transaction (ih hp)

end

end OsScanner.Storage

import Mathlib
import OsScanner.Storage.Transactions

/-!
# When nested transactions are atomic

A block that an exception leaves should leave nothing behind. The run of a tree agrees with its
effect as long as every block that fails recovers: it was never opened, it was rolled back, or
it wrote nothing and some other block still ends the transaction. The first block that does not
recover is seen from outside.
-/

namespace OsScanner.Storage

open Lib

variable {σ : Type}

/-! ## The statements of the result -/

/-- The connection takes the statement that opens a block. -/
def Session.startsTransaction (s : Session σ) : Prop :=
  (openBlock s.transactionDepth s.uuids s.connection).isSome = true

instance (s : Session σ) : Decidable s.startsTransaction :=
  inferInstanceAs (Decidable (_ = true))

/-- The block left the database as it was, the depth is restored and a block can be opened. -/
structure BlockExit.Atomic (x : BlockExit σ) : Prop where
  current : x.after.connection.current = x.before.connection.current
  committed : x.after.connection.committed = x.before.connection.committed
  depth : x.after.transactionDepth = x.before.transactionDepth
  starts : x.after.startsTransaction

/-- Every block left by an exception is, and the tree commits its effect. -/
structure Program.Atomic (p : Program σ) (content : σ) : Prop where
  exits : ∀ x ∈ (p.run (.fresh content)).exits, x.Atomic
  depth : (p.run (.fresh content)).session.transactionDepth = 0
  starts : (p.run (.fresh content)).session.startsTransaction
  committed : (p.run (.fresh content)).session.connection.committed =
    (p.effect false content).content

/-- The exception finds a block that is undone, or one that has nothing to undo. -/
def FailedBlock.Recovers (x : FailedBlock σ) : Prop :=
  match x.departure with
  | .unopened | .undone => True
  | .abandoned => x.nested = true ∧ x.content = x.before
  | .closed => x.content = x.before

def Program.Recovers (p : Program σ) (content : σ) : Prop :=
  ∀ x ∈ (p.effect false content).failed, x.Recovers

/-! ## Sessions and open blocks -/

/-- A session as the blocks around leave it: a transaction is open exactly inside of one. -/
structure Session.Steady (s : Session σ) : Prop where
  idle : s.transactionDepth = 0 ↔ s.connection.marks = []
  names : ∀ mark ∈ s.connection.marks, ∀ name, mark.name = some name → name < s.uuids

/-- Savepoints that are left over from the session `s`. -/
def Leftover (lo hi : Nat) (marks : List (Mark σ)) : Prop :=
  ∀ mark ∈ marks, ∃ name, mark.name = some name ∧ lo ≤ name ∧ name < hi

/-- The mark that opening a block sets. -/
def Session.mark (s : Session σ) : Mark σ :=
  ⟨if s.transactionDepth = 0 then none else some s.uuids, s.connection.current⟩

/-- The connection is inside of a block that the session `s` opened. -/
structure Session.Encloses (s : Session σ) (uuids : Nat) (c : Connection σ) : Prop where
  uuids_lt : s.uuids < uuids
  committed : c.committed = s.connection.committed
  marks : ∃ leaked, c.marks = leaked ++ s.mark :: s.connection.marks ∧
    Leftover (s.uuids + 1) uuids leaked

/-- The connection has left the block in which its content became `content`. -/
def Session.Leaves (s : Session σ) (uuids : Nat) (content : σ) :
    Departure → Connection σ → Prop
  | .unopened, c => c = s.connection
  | .undone, c =>
    c.current = s.connection.current ∧ c.committed = s.connection.committed ∧
      (s.transactionDepth = 0 → c.marks = []) ∧
      ∃ leaked, c.marks = leaked ++ s.connection.marks ∧ Leftover s.uuids uuids leaked
  | .abandoned, c => c.current = content ∧ s.Encloses uuids c
  | .closed, c =>
    c.current = content ∧ c.marks = s.connection.marks ∧
      c.committed = if s.transactionDepth = 0 then content else s.connection.committed

section

variable {s : Session σ} {uuids : Nat} {c : Connection σ}

theorem Leftover.ne {lo hi name : Nat} {marks : List (Mark σ)} (h : Leftover lo hi marks)
    (hn : name < lo) : ∀ mark ∈ marks, mark.name ≠ some name := by
  intro mark hm he
  obtain ⟨name', he', hlo, -⟩ := h mark hm
  rw [he, Option.some.injEq] at he'
  omega

theorem Leftover.mono {lo lo' hi hi' : Nat} {marks : List (Mark σ)} (h : Leftover lo hi marks)
    (hlo : lo' ≤ lo) (hhi : hi ≤ hi') : Leftover lo' hi' marks := by
  intro mark hm
  obtain ⟨name, he, h₁, h₂⟩ := h mark hm
  exact ⟨name, he, by omega, by omega⟩

theorem Leftover.append {lo hi : Nat} {marks marks' : List (Mark σ)} (h : Leftover lo hi marks)
    (h' : Leftover lo hi marks') : Leftover lo hi (marks ++ marks') := by
  intro mark hm
  rcases List.mem_append.mp hm with hm | hm
  · exact h mark hm
  · exact h' mark hm

theorem leftover_nil (lo hi : Nat) : Leftover lo hi ([] : List (Mark σ)) := by
  simp [Leftover]

theorem Session.Encloses.marks_ne (h : s.Encloses uuids c) : c.marks ≠ [] := by
  obtain ⟨leaked, hm, -⟩ := h.marks
  simp [hm]

theorem Session.mark_nested (hd : s.transactionDepth ≠ 0) :
    s.mark = ⟨some s.uuids, s.connection.current⟩ := by
  simp [Session.mark, hd]

/-! ## The control statements -/

/-- Opening a block succeeds in a session that leaked nothing. -/
theorem openBlock_steady (hs : s.Steady) :
    ∃ c, openBlock s.transactionDepth s.uuids s.connection = some c ∧
      c.current = s.connection.current ∧ c.marks = s.mark :: s.connection.marks ∧
      s.Encloses (s.uuids + 1) c := by
  have encloses : ∀ c : Connection σ, c.committed = s.connection.committed →
      c.marks = s.mark :: s.connection.marks → s.Encloses (s.uuids + 1) c :=
    fun c hc hm => ⟨by omega, hc, [], by simpa using hm, leftover_nil _ _⟩
  by_cases hd : s.transactionDepth = 0
  · have hm : s.connection.marks = [] := hs.idle.mp hd
    have ho : openBlock s.transactionDepth s.uuids s.connection = some
        ⟨s.connection.committed, s.connection.current, [⟨none, s.connection.current⟩], nofun⟩ := by
      rw [openBlock, if_pos hd, Connection.begin?, if_pos hm]
    refine ⟨_, ho, rfl, ?_, ?_⟩
    · simp [Session.mark, hd, hm]
    · exact encloses _ rfl (by simp [Session.mark, hd, hm])
  · refine ⟨s.connection.savepoint s.uuids, by rw [openBlock, if_neg hd], rfl, ?_, ?_⟩
    · rw [Session.mark_nested hd]
      rfl
    · refine encloses _ rfl ?_
      rw [Session.mark_nested hd]
      rfl

/-- Closing an open block always succeeds. -/
theorem closeBlock_encloses (hs : s.Steady) (h : s.Encloses uuids c) :
    ∃ c', closeBlock s.transactionDepth s.uuids c = some c' ∧
      s.Leaves uuids c.current .closed c' := by
  by_cases hd : s.transactionDepth = 0
  · refine ⟨.fresh c.current, by rw [closeBlock, if_pos hd, Connection.commit?,
      if_neg h.marks_ne], rfl, ?_, ?_⟩
    · rw [hs.idle.mp hd]
      rfl
    · rw [if_pos hd]
      rfl
  · obtain ⟨leaked, hm, hl⟩ := h.marks
    have hr : s.connection.marks ≠ [] := fun he => hd (hs.idle.mpr he)
    rw [Session.mark_nested hd] at hm
    have hc : closeBlock s.transactionDepth s.uuids c = some
        ⟨c.committed, c.current, s.connection.marks, fun he => absurd he hr⟩ := by
      rw [closeBlock, if_neg hd, Connection.release?_eq hm (hl.ne (by omega)) hr]
    refine ⟨_, hc, rfl, rfl, ?_⟩
    rw [if_neg hd]
    exact h.committed

/-- A control statement that the connection accepts. -/
theorem execute_accepted {statement : Connection σ → Option (Connection σ)} {c' : Connection σ}
    (h : statement c = some c') (fault : Fault) :
    execute fault statement c = (fault.outcome true, if fault.executed then c' else c) := by
  simp [execute, h]

/-- A control statement that the connection refuses. -/
theorem execute_refused {statement : Connection σ → Option (Connection σ)}
    (h : statement c = none) (fault : Fault) :
    execute fault statement c = (fault.outcome false, c) := by
  simp [execute, h]

/-- A savepoint that was rolled back and not released is left over. -/
theorem leaves_rolledBackTo (hd : s.transactionDepth ≠ 0) (h : s.Encloses uuids c) :
    s.Leaves uuids c.current .undone ⟨c.committed, s.connection.current,
      ⟨some s.uuids, s.connection.current⟩ :: s.connection.marks, nofun⟩ := by
  refine ⟨rfl, h.committed, fun he => absurd he hd, [_], rfl, ?_⟩
  intro mark hm
  rw [List.mem_singleton.mp hm]
  exact ⟨s.uuids, rfl, le_refl _, h.uuids_lt⟩

/-- What the statements of the `except` clause do to an open block. -/
theorem rollBack_encloses (hs : s.Steady) (h : s.Encloses uuids c) (faults : Faults) :
    (rollBack faults s.transactionDepth s.uuids c).1 =
        rollBackOutcome faults (decide (s.transactionDepth ≠ 0)) true ∧
      s.Leaves uuids c.current (if faults.rollsBack.executed then .undone else .abandoned)
        (rollBack faults s.transactionDepth s.uuids c).2 := by
  by_cases hd : s.transactionDepth = 0
  · have hr : c.rollback? = some (.fresh c.committed) := by
      rw [Connection.rollback?, if_neg h.marks_ne]
    have undone : s.Leaves uuids c.current .undone (.fresh c.committed) := by
      refine ⟨?_, h.committed, fun _ => rfl, [], ?_, leftover_nil _ _⟩
      · show c.committed = s.connection.current
        rw [h.committed, s.connection.idle (hs.idle.mp hd)]
      · rw [hs.idle.mp hd]
        rfl
    rw [rollBack, if_pos hd, execute_accepted hr, rollBackOutcome]
    cases faults.rollsBack with
    | none => exact ⟨by simp [Fault.outcome, hd], undone⟩
    | before raised => exact ⟨rfl, rfl, h⟩
    | after raised => exact ⟨rfl, undone⟩
  · obtain ⟨leaked, hm, hl⟩ := h.marks
    rw [Session.mark_nested hd] at hm
    have hr := Connection.rollbackTo?_eq hm (hl.ne (by omega))
    have hne : s.connection.marks ≠ [] := fun he => hd (hs.idle.mpr he)
    rw [rollBack, if_neg hd, execute_accepted hr, rollBackOutcome]
    cases faults.rollsBack with
    | before raised => exact ⟨rfl, rfl, h⟩
    | after raised => exact ⟨rfl, leaves_rolledBackTo hd h⟩
    | none =>
      have hmarks : (⟨c.committed, s.connection.current,
          ⟨some s.uuids, s.connection.current⟩ :: s.connection.marks, nofun⟩ :
          Connection σ).marks = [] ++ ⟨some s.uuids, s.connection.current⟩ :: s.connection.marks :=
        rfl
      have hrelease := Connection.release?_eq hmarks (by simp) hne
      simp only [Fault.outcome, Fault.executed, if_true, execute_accepted hrelease]
      refine ⟨by simp [hd], ?_⟩
      cases faults.releases with
      | before raised => exact leaves_rolledBackTo hd h
      | _ => exact ⟨rfl, h.committed, fun he => absurd he hd, [], rfl, leftover_nil _ _⟩

/-- What the `except` clause does with an open block. -/
theorem handle_encloses (hs : s.Steady) (h : s.Encloses uuids c) (faults : Faults)
    (raised : Raised) :
    (handle faults s.transactionDepth s.uuids raised c).1 =
        escaping faults (decide (s.transactionDepth ≠ 0)) true raised ∧
      s.Leaves uuids c.current (departure faults raised)
        (handle faults s.transactionDepth s.uuids raised c).2 := by
  by_cases hr : raised = .baseException
  · rw [handle, escaping, departure, if_pos hr, if_pos hr, if_pos hr]
    exact ⟨rfl, rfl, h⟩
  · obtain ⟨hresult, hleaves⟩ := rollBack_encloses hs h faults
    rw [handle, escaping, departure, if_neg hr, if_neg hr, if_neg hr, ← hresult]
    exact ⟨rfl, hleaves⟩

/-- The `except` clause has nothing to undo when the block was not opened. -/
theorem handle_unopened (hs : s.Steady) (faults : Faults) (raised : Raised) :
    handle faults s.transactionDepth s.uuids raised s.connection =
      (escaping faults (decide (s.transactionDepth ≠ 0)) false raised, s.connection) := by
  by_cases hr : raised = .baseException
  · rw [handle, escaping, if_pos hr, if_pos hr]
  · have hroll : rollBack faults s.transactionDepth s.uuids s.connection =
        (rollBackOutcome faults (decide (s.transactionDepth ≠ 0)) false, s.connection) := by
      by_cases hd : s.transactionDepth = 0
      · have hnone : s.connection.rollback? = none := by
          rw [Connection.rollback?, if_pos (hs.idle.mp hd)]
        rw [rollBack, if_pos hd, execute_refused hnone, rollBackOutcome]
        cases faults.rollsBack <;> simp [Fault.outcome]
      · have hnone : s.connection.rollbackTo? s.uuids = none := by
          refine Connection.rollbackTo?_eq_none fun mark hm he => ?_
          have hlt := hs.names mark hm s.uuids he
          omega
        rw [rollBack, if_neg hd, execute_refused hnone, rollBackOutcome]
        cases faults.rollsBack <;> simp [Fault.outcome]
    rw [handle, escaping, if_neg hr, if_neg hr, hroll]

end

/-! ## A run that agrees with its effect, or shows that it does not -/

/-- Up to here every failed block recovered: the run is the effect, the rest is as before. -/
structure Follows (s : Session σ) (o : Outcome σ) (e : Effect σ) : Prop where
  result : o.result = e.result
  current : o.session.connection.current = e.content
  depth : o.session.transactionDepth = s.transactionDepth
  uuids : s.uuids ≤ o.session.uuids
  committed : s.transactionDepth ≠ 0 → o.session.connection.committed = s.connection.committed
  idle : s.transactionDepth = 0 → o.session.connection.marks = []
  marks : ∃ leaked, o.session.connection.marks = leaked ++ s.connection.marks ∧
    Leftover s.uuids o.session.uuids leaked
  recovers : ∀ x ∈ e.failed, x.Recovers
  atomic : ∀ x ∈ o.exits, x.Atomic

/-- Some failed block did not recover, and it shows. -/
structure Diverges (o : Outcome σ) (e : Effect σ) : Prop where
  recovers : ∃ x ∈ e.failed, ¬ x.Recovers
  atomic : ∃ x ∈ o.exits, ¬ x.Atomic

def Agrees (s : Session σ) (o : Outcome σ) (e : Effect σ) : Prop := Follows s o e ∨ Diverges o e

section

variable {s : Session σ} {o o' : Outcome σ} {e e' : Effect σ}

/-- What shows in a part shows in the whole. -/
theorem Diverges.mono (h : Diverges o e) (ho : ∀ x ∈ o.exits, x ∈ o'.exits)
    (he : ∀ x ∈ e.failed, x ∈ e'.failed) : Diverges o' e' := by
  obtain ⟨⟨x, hx, hnot⟩, ⟨y, hy, hynot⟩⟩ := h
  exact ⟨⟨x, he x hx, hnot⟩, ⟨y, ho y hy, hynot⟩⟩

theorem Follows.steady (hs : s.Steady) (h : Follows s o e) : o.session.Steady := by
  obtain ⟨leaked, hm, hl⟩ := h.marks
  refine ⟨?_, ?_⟩
  · rw [h.depth]
    refine ⟨h.idle, fun he => hs.idle.mpr ?_⟩
    rw [hm] at he
    exact (List.append_eq_nil_iff.mp he).2
  · intro mark hmark name he
    rw [hm] at hmark
    rcases List.mem_append.mp hmark with hmark | hmark
    · obtain ⟨name', he', -, hlt⟩ := hl mark hmark
      rw [he, Option.some.injEq] at he'
      omega
    · have hlt := hs.names mark hmark name he
      have hle := h.uuids
      omega

/-- Two pieces of code one after the other. -/
theorem Follows.trans (h : Follows s o e) (h' : Follows o.session o' e') :
    Follows s ⟨o'.result, o'.session, o.exits ++ o'.exits⟩
      ⟨e'.result, e'.content, e.failed ++ e'.failed⟩ := by
  obtain ⟨leaked, hm, hl⟩ := h.marks
  obtain ⟨leaked', hm', hl'⟩ := h'.marks
  have hle := h.uuids
  have hle' := h'.uuids
  refine ⟨h'.result, h'.current, h'.depth.trans h.depth, hle.trans hle', ?_, ?_, ?_, ?_, ?_⟩
  · intro hd
    exact (h'.committed (by rwa [h.depth])).trans (h.committed hd)
  · intro hd
    exact h'.idle (by rw [h.depth, hd])
  · exact ⟨leaked' ++ leaked, by simp [hm, hm'],
      (hl'.mono hle (le_refl _)).append (hl.mono (le_refl _) hle')⟩
  · intro x hx
    rcases List.mem_append.mp hx with hx | hx
    · exact h.recovers x hx
    · exact h'.recovers x hx
  · intro x hx
    rcases List.mem_append.mp hx with hx | hx
    · exact h.atomic x hx
    · exact h'.atomic x hx

theorem Agrees.trans (h : Follows s o e) (h' : Agrees o.session o' e') :
    Agrees s ⟨o'.result, o'.session, o.exits ++ o'.exits⟩
      ⟨e'.result, e'.content, e.failed ++ e'.failed⟩ := by
  rcases h' with h' | ⟨⟨x, hx, hnot⟩, ⟨y, hy, hynot⟩⟩
  · exact .inl (h.trans h')
  · exact .inr ⟨⟨x, List.mem_append_right _ hx, hnot⟩, ⟨y, List.mem_append_right _ hy, hynot⟩⟩

theorem mem_exits_andThen {second : Session σ → Outcome σ} {x : BlockExit σ} (h : x ∈ o.exits) :
    x ∈ (o.andThen second).exits := by
  unfold Outcome.andThen
  split
  · exact h
  · exact List.mem_append_left _ h

theorem mem_failed_andThen {second : σ → Effect σ} {x : FailedBlock σ} (h : x ∈ e.failed) :
    x ∈ (e.andThen second).failed := by
  unfold Effect.andThen
  split
  · exact h
  · exact List.mem_append_left _ h

theorem mem_exits_orElse {catches : Raised → Bool} {handler : Session σ → Outcome σ}
    {x : BlockExit σ} (h : x ∈ o.exits) : x ∈ (o.orElse catches handler).exits := by
  unfold Outcome.orElse
  split
  · exact h
  · split
    · exact List.mem_append_left _ h
    · exact h

theorem mem_failed_orElse {catches : Raised → Bool} {handler : σ → Effect σ} {x : FailedBlock σ}
    (h : x ∈ e.failed) : x ∈ (e.orElse catches handler).failed := by
  unfold Effect.orElse
  split
  · exact h
  · split
    · exact List.mem_append_left _ h
    · exact h

end

/-! ## Leaving a block by an exception -/

section

variable {s : Session σ} {uuids : Nat} {c : Connection σ} {content : σ} {d : Departure}

/-- A transaction that is still open shows when the next one should start. -/
theorem startsTransaction_iff (depth uuids : Nat) (c : Connection σ) :
    Session.startsTransaction ⟨c, depth, uuids⟩ ↔ (depth = 0 → c.marks = []) := by
  by_cases hd : depth = 0
  · simp [Session.startsTransaction, openBlock, hd, Connection.begin?]
  · simp [Session.startsTransaction, openBlock, hd]

/-- The exception leaves no trace exactly when the block recovers. -/
theorem atomic_iff_recovers (hs : s.Steady) (h : s.Leaves uuids content d c) :
    BlockExit.Atomic ⟨s, ⟨c, s.transactionDepth, uuids⟩⟩ ↔
      FailedBlock.Recovers ⟨decide (s.transactionDepth ≠ 0), s.connection.current, content, d⟩ := by
  cases d with
  | unopened =>
    obtain rfl : c = s.connection := h
    exact ⟨fun _ => trivial,
      fun _ => ⟨rfl, rfl, rfl, (startsTransaction_iff _ _ _).mpr hs.idle.mp⟩⟩
  | undone =>
    obtain ⟨hcurrent, hcommitted, hidle, -⟩ := h
    exact ⟨fun _ => trivial,
      fun _ => ⟨hcurrent, hcommitted, rfl, (startsTransaction_iff _ _ _).mpr hidle⟩⟩
  | abandoned =>
    obtain ⟨hcurrent, hopen⟩ := h
    constructor
    · intro ha
      refine ⟨decide_eq_true fun hd => ?_, hcurrent.symm.trans ha.current⟩
      exact hopen.marks_ne ((startsTransaction_iff _ _ _).mp ha.starts hd)
    · rintro ⟨hd, hcontent⟩
      have hd : s.transactionDepth ≠ 0 := of_decide_eq_true hd
      exact ⟨hcurrent.trans hcontent, hopen.committed, rfl,
        (startsTransaction_iff _ _ _).mpr fun he => absurd he hd⟩
  | closed =>
    obtain ⟨hcurrent, hmarks, hcommitted⟩ := h
    constructor
    · exact fun ha => hcurrent.symm.trans ha.current
    · intro hcontent
      have hcontent : content = s.connection.current := hcontent
      refine ⟨hcurrent.trans hcontent, ?_, rfl, (startsTransaction_iff _ _ _).mpr fun hd => ?_⟩
      · show c.committed = s.connection.committed
        rw [hcommitted]
        split
        · next hd => rw [hcontent, s.connection.idle (hs.idle.mp hd)]
        · rfl
      · exact hmarks.trans (hs.idle.mp hd)

/-- A block that recovers leaves the session as steady as it was. -/
theorem leaves_recovered (hs : s.Steady) (h : s.Leaves uuids content d c)
    (hr : FailedBlock.Recovers ⟨decide (s.transactionDepth ≠ 0), s.connection.current, content, d⟩) :
    (s.transactionDepth ≠ 0 → c.committed = s.connection.committed) ∧
      (s.transactionDepth = 0 → c.marks = []) ∧
      ∃ leaked, c.marks = leaked ++ s.connection.marks ∧ Leftover s.uuids uuids leaked := by
  have ha := (atomic_iff_recovers hs h).mpr hr
  refine ⟨fun _ => ha.committed, (startsTransaction_iff _ _ _).mp ha.starts, ?_⟩
  cases d with
  | unopened =>
    obtain rfl : c = s.connection := h
    exact ⟨[], rfl, leftover_nil _ _⟩
  | undone => exact h.2.2.2
  | abandoned =>
    obtain ⟨-, hopen⟩ := h
    have hd : s.transactionDepth ≠ 0 := of_decide_eq_true hr.1
    obtain ⟨leaked, hm, hl⟩ := hopen.marks
    have hlt := hopen.uuids_lt
    refine ⟨leaked ++ [s.mark], by simp [hm],
      (hl.mono (by omega) (le_refl _)).append fun mark hmark => ?_⟩
    rw [List.mem_singleton.mp hmark, Session.mark_nested hd]
    exact ⟨s.uuids, rfl, le_refl _, hlt⟩
  | closed => exact ⟨[], h.2.1, leftover_nil _ _⟩

theorem agrees_leftBy {exits : List (BlockExit σ)} {failed : List (FailedBlock σ)}
    (hs : s.Steady) (hu : s.uuids ≤ uuids) (hexits : ∀ x ∈ exits, x.Atomic)
    (hfailed : ∀ x ∈ failed, x.Recovers) (h : s.Leaves uuids content d c) (raised : Raised) :
    Agrees s (leftBy s uuids exits raised c)
      (failing (decide (s.transactionDepth ≠ 0)) s.connection.current content failed d raised) := by
  have hiff := atomic_iff_recovers hs h
  by_cases hr : FailedBlock.Recovers
      ⟨decide (s.transactionDepth ≠ 0), s.connection.current, content, d⟩
  · have ha := hiff.mpr hr
    obtain ⟨hcommitted, hidle, hmarks⟩ := leaves_recovered hs h hr
    refine .inl ⟨rfl, ha.current, rfl, hu, hcommitted, hidle, hmarks, ?_, ?_⟩
    · intro x hx
      rcases List.mem_append.mp hx with hx | hx
      · exact hfailed x hx
      · rwa [List.mem_singleton.mp hx]
    · intro x hx
      rcases List.mem_append.mp hx with hx | hx
      · exact hexits x hx
      · rwa [List.mem_singleton.mp hx]
  · exact .inr ⟨⟨_, List.mem_append_right _ List.mem_cons_self, hr⟩,
      ⟨_, List.mem_append_right _ List.mem_cons_self, fun ha => hr (hiff.mp ha)⟩⟩

end

/-! ## Every tree -/

/-- What a piece of code has to satisfy. -/
def Faithful (nested : Bool) (code : Session σ → Outcome σ) (meaning : σ → Effect σ) : Prop :=
  ∀ s : Session σ, s.Steady → decide (s.transactionDepth ≠ 0) = nested →
    Agrees s (code s) (meaning s.connection.current)

theorem faithful_write (nested : Bool) (change : σ → Except Raised σ) :
    Faithful nested (writeContent change) (writeEffect change) := by
  intro s hs _
  refine .inl ?_
  unfold writeContent writeEffect
  split
  · next content _ =>
    exact ⟨rfl, rfl, rfl, le_refl _, fun hd => if_neg fun he => hd (hs.idle.mpr he), hs.idle.mp,
      ⟨[], rfl, leftover_nil _ _⟩, by simp, by simp⟩
  · exact ⟨rfl, rfl, rfl, le_refl _, fun _ => rfl, hs.idle.mp, ⟨[], rfl, leftover_nil _ _⟩,
      by simp, by simp⟩

section

variable {nested : Bool} {code code' : Session σ → Outcome σ} {meaning meaning' : σ → Effect σ}

theorem Faithful.next (h : Faithful nested code meaning) {s : Session σ} {o : Outcome σ}
    {e : Effect σ} (hs : s.Steady) (hn : decide (s.transactionDepth ≠ 0) = nested)
    (hf : Follows s o e) : Agrees o.session (code o.session) (meaning e.content) := by
  have hagrees := h o.session (hf.steady hs) (by rw [hf.depth, hn])
  rwa [hf.current] at hagrees

theorem Agrees.andThen {s : Session σ} {o : Outcome σ} {e : Effect σ} (h : Agrees s o e)
    (hlast : Follows s o e → Agrees o.session (code o.session) (meaning e.content)) :
    Agrees s (o.andThen code) (e.andThen meaning) := by
  rcases h with hf | hd
  · unfold Outcome.andThen Effect.andThen
    rw [hf.result]
    split
    · exact .inl hf
    · exact .trans hf (hlast hf)
  · exact .inr (hd.mono (fun _ => mem_exits_andThen) (fun _ => mem_failed_andThen))

theorem Agrees.orElse {s : Session σ} {o : Outcome σ} {e : Effect σ} (h : Agrees s o e)
    (catches : Raised → Bool)
    (hlast : Follows s o e → Agrees o.session (code o.session) (meaning e.content)) :
    Agrees s (o.orElse catches code) (e.orElse catches meaning) := by
  rcases h with hf | hd
  · unfold Outcome.orElse Effect.orElse
    rw [hf.result]
    split
    · exact .inl hf
    · split
      · exact .trans hf (hlast hf)
      · exact .inl hf
  · exact .inr (hd.mono (fun _ => mem_exits_orElse) (fun _ => mem_failed_orElse))

/-- The session in which the body of a block runs. -/
theorem steady_opened {s : Session σ} {c : Connection σ} (hs : s.Steady)
    (hm : c.marks = s.mark :: s.connection.marks) :
    Session.Steady ⟨c, s.transactionDepth + 1, s.uuids + 1⟩ := by
  refine ⟨by simp [hm], fun mark hmark name he => ?_⟩
  simp only [hm] at hmark
  rcases List.mem_cons.mp hmark with rfl | hmark
  · simp only [Session.mark, Option.ite_none_left_eq_some, Option.some.injEq] at he
    simp only
    omega
  · have hlt := hs.names mark hmark name he
    simp only
    omega

/-- A body that follows its meaning stays inside of its block. -/
theorem Follows.encloses {s : Session σ} {c : Connection σ} {o : Outcome σ} {e : Effect σ}
    (hc : s.Encloses (s.uuids + 1) c) (hm : c.marks = s.mark :: s.connection.marks)
    (h : Follows ⟨c, s.transactionDepth + 1, s.uuids + 1⟩ o e) :
    s.Encloses o.session.uuids o.session.connection := by
  have hu := h.uuids
  obtain ⟨leaked, hleaked, hl⟩ := h.marks
  simp only at hu hleaked hl
  refine ⟨by omega, (h.committed (by simp)).trans hc.committed, leaked, ?_, hl⟩
  rw [hleaked, hm]

theorem mem_exits_endBlock {faults : Faults} {s : Session σ} {o : Outcome σ} {x : BlockExit σ}
    (h : x ∈ o.exits) : x ∈ (endBlock faults s o).exits := by
  unfold Storage.endBlock
  dsimp only
  split
  · exact List.mem_append_left _ h
  · split
    · exact List.mem_append_left _ h
    · exact h

theorem mem_failed_endEffect {faults : Faults} {nested : Bool} {before : σ} {e : Effect σ}
    {x : FailedBlock σ} (h : x ∈ e.failed) : x ∈ (endEffect faults nested before e).failed := by
  unfold endEffect
  split
  · exact List.mem_append_left _ h
  · exact List.mem_append_left _ h
  · exact List.mem_append_left _ h
  · exact h

/-- The clauses after a body that agrees with its meaning. -/
theorem Agrees.endBlock {s : Session σ} {c : Connection σ} {o : Outcome σ} {e : Effect σ}
    (hs : s.Steady) (hc : s.Encloses (s.uuids + 1) c)
    (hm : c.marks = s.mark :: s.connection.marks)
    (h : Agrees ⟨c, s.transactionDepth + 1, s.uuids + 1⟩ o e) (faults : Faults) :
    Agrees s (endBlock faults s o)
      (endEffect faults (decide (s.transactionDepth ≠ 0)) s.connection.current e) := by
  rcases h with hf | hd
  · have hopen := hf.encloses hc hm
    have hu : s.uuids ≤ o.session.uuids := hopen.uuids_lt.le
    unfold Storage.endBlock endEffect
    dsimp only
    rw [hf.result]
    cases hresult : e.result with
    | error raised =>
      obtain ⟨hraised, hleaves⟩ := handle_encloses hs hopen faults raised
      rw [hf.current] at hleaves
      simp only [hraised]
      exact agrees_leftBy hs hu hf.atomic hf.recovers hleaves _
    | ok =>
      obtain ⟨c', hclose, hleaves⟩ := closeBlock_encloses hs hopen
      rw [hf.current] at hleaves
      rw [execute_accepted hclose]
      cases faults.closes with
      | none =>
        obtain ⟨hcurrent, hmarks, hcommitted⟩ := hleaves
        refine .inl ⟨hresult.symm, hcurrent, rfl, hu, ?_, ?_, ?_, hf.recovers, hf.atomic⟩
        · exact fun hd => hcommitted.trans (if_neg hd)
        · exact fun hd => hmarks.trans (hs.idle.mp hd)
        · exact ⟨[], hmarks, leftover_nil _ _⟩
      | before raised =>
        have habandoned : s.Leaves o.session.uuids e.content .abandoned o.session.connection :=
          ⟨hf.current, hopen⟩
        exact agrees_leftBy hs hu hf.atomic hf.recovers habandoned _
      | after raised => exact agrees_leftBy hs hu hf.atomic hf.recovers hleaves _
  · exact .inr (hd.mono (fun _ => mem_exits_endBlock) (fun _ => mem_failed_endEffect))

/-- One block: its control statements, each with its fault, around a faithful body. -/
theorem Faithful.transaction (h : Faithful true code meaning) (faults : Faults) :
    Faithful nested (transaction faults code) (atomicEffect faults meaning nested) := by
  intro s hs hn
  subst hn
  obtain ⟨c, hopen, hcurrent, hmarks, hc⟩ := openBlock_steady hs
  unfold Storage.transaction atomicEffect
  dsimp only
  rw [execute_accepted hopen]
  cases faults.opens with
  | none =>
    have hbody := h ⟨c, s.transactionDepth + 1, s.uuids + 1⟩ (steady_opened hs hmarks) (by simp)
    simp only [hcurrent] at hbody
    exact hbody.endBlock hs hc hmarks faults
  | before raised =>
    simp only [Fault.outcome, Fault.executed, Bool.false_eq_true, if_false, handle_unopened hs]
    have hunopened : s.Leaves (s.uuids + 1) s.connection.current .unopened s.connection := rfl
    exact agrees_leftBy hs (by omega) (by simp) (by simp) hunopened _
  | after raised =>
    obtain ⟨hresult, hleaves⟩ := handle_encloses hs hc faults raised
    simp only [Fault.outcome, Fault.executed, if_true, hresult]
    rw [hcurrent] at hleaves
    exact agrees_leftBy hs (by omega) (by simp) (by simp) hleaves _

end

theorem faithful_run (p : Program σ) : ∀ nested, Faithful nested p.run (p.effect nested) := by
  induction p with
  | write change => exact fun nested => faithful_write nested change
  | seq first second ih₁ ih₂ =>
    exact fun nested s hs hn => (ih₁ nested s hs hn).andThen ((ih₂ nested).next hs hn)
  | attempt body catches handler ih₁ ih₂ =>
    exact fun nested s hs hn => (ih₁ nested s hs hn).orElse catches ((ih₂ nested).next hs hn)
  | transaction faults body ih => exact fun nested => (ih true).transaction faults

theorem steady_fresh (content : σ) : (Session.fresh content).Steady :=
  ⟨by simp [Session.fresh, Connection.fresh], by simp [Session.fresh, Connection.fresh]⟩

/-- `with storage.transaction(): write; raise KeyboardInterrupt` -/
def interrupted : Program Nat :=
  .transaction {} (.seq (.write fun n => .ok (n + 1)) (.write fun _ => .error .baseException))

end OsScanner.Storage

import Mathlib
import OsScanner.Cloud.Fencing
import OsScanner.Cloud.AnalysisWorker

/-!
# How often a task is handed out

The limit on attempts is looked at in one place: a worker that fails a task decides there
whether to give it up. A claim never looks at it. So the limit holds as long as tasks come back
through a failure, and a task whose worker dies is handed out again whenever its lease expires.
-/

namespace OsScanner.Cloud

open Lib

variable {σ ι : Type}

/-! ## Workers that keep to the limit -/

/-- `_fail_task`: in the event of a worker the flag of a failure says that its error is
permanent, and the attempts of the task decide with it. -/
def workerEvent (maxAttempts : Nat) (fleet : Fleet σ) : FleetEvent ι → FleetEvent ι
  | .fail worker error retryAt permanent =>
    .fail worker error retryAt (match fleet.executing worker with
      | some task => givesUp maxAttempts permanent task
      | none => permanent)
  | event => event

def workerStep (store : TaskStore σ ι) (maxAttempts : Nat) (fleet : Fleet σ)
    (event : FleetEvent ι) : Fleet σ :=
  fleet.step store (workerEvent maxAttempts fleet event)

/-- The system after a run of workers that keep to the limit. -/
def afterWork (store : TaskStore σ ι) (maxAttempts : Nat) (time : Timestamp)
    (events : List (FleetEvent ι)) : Fleet σ :=
  runFrom (workerStep store maxAttempts) (Fleet.initial store time) events

/-- A claim does not take over a running task that was handed out as often as the limit says. -/
def SparesExhausted (store : TaskStore σ ι) (maxAttempts : Nat) (fleet : Fleet σ) :
    FleetEvent ι → Prop
  | .claim worker unlocked kind leaseSeconds now =>
    fleet.executing worker = none → now ≤ fleet.time → ∀ claimed s,
      (store.claim unlocked kind worker leaseSeconds now).run fleet.store =
        (.ok (some claimed), s) →
      ∀ task, (store.tasks fleet.store).get? claimed.taskId = some task → task.state = .running →
        task.attempts < maxAttempts
  | _ => True

/-! ## The invariant -/

/-- No task has more attempts than the limit, and one that waits for a worker has fewer. -/
def WithinLimit (store : TaskStore σ ι) (maxAttempts : Nat) (fleet : Fleet σ) : Prop :=
  ∀ id task, (store.tasks fleet.store).get? id = some task → task.attempts ≤ maxAttempts ∧
    (task.state = .pending ∨ task.state = .retry → task.attempts < maxAttempts)

/-- A claimable task waits, or it runs under an expired lease. -/
theorem waits_or_runs {kind : TaskKind} {now : Timestamp} {task : AnalysisTask}
    (h : isClaimable kind now task = true) :
    (task.state = .pending ∨ task.state = .retry) ∨ task.state = .running := by
  simp only [isClaimable, Bool.and_eq_true, Bool.or_eq_true, decide_eq_true_eq] at h
  exact h.2.imp_right And.left

theorem WithinLimit.step {store : TaskStore σ ι} {maxAttempts : Nat} {fleet : Fleet σ}
    (hinv : FleetInvariant store fleet) (hlimit : 1 ≤ maxAttempts) {event : FleetEvent ι}
    (hspares : SparesExhausted store maxAttempts fleet event)
    (h : WithinLimit store maxAttempts fleet) :
    WithinLimit store maxAttempts (workerStep store maxAttempts fleet event) := by
  have hset : ∀ {s : σ} {taskId : String} {new : AnalysisTask},
      store.tasks s = (store.tasks fleet.store).set taskId new →
      (new.attempts ≤ maxAttempts ∧
        (new.state = .pending ∨ new.state = .retry → new.attempts < maxAttempts)) →
      ∀ id task, (store.tasks s).get? id = some task → task.attempts ≤ maxAttempts ∧
        (task.state = .pending ∨ task.state = .retry → task.attempts < maxAttempts) := by
    intro s taskId new htasks hnew id task hget
    rw [htasks, Dict.get?_set] at hget
    split at hget
    · rw [← Option.some.inj hget]
      exact hnew
    · exact h id task hget
  have hchange := hinv.change (workerEvent maxAttempts fleet event)
  unfold workerStep
  generalize hstep : fleet.step store (workerEvent maxAttempts fleet event) = fleet' at hchange ⊢
  generalize hevent : workerEvent maxAttempts fleet event = event' at hchange
  cases hchange with
  | advance | released | same => exact h
  | @claimed worker unlocked kind leaseSeconds now task s idle past found claimable run tasks =>
    have hclaim : event = .claim worker unlocked kind leaseSeconds now := by
      cases event <;> simp_all [workerEvent]
    subst hclaim
    refine hset tasks ⟨?_, ?_⟩
    · show task.attempts + 1 ≤ maxAttempts
      rcases waits_or_runs claimable with hwaits | hruns
      · exact (h _ task found).2 hwaits
      · exact hspares idle past _ s run task found hruns
    · exact fun hwaits => by simp [claimedTask] at hwaits
  | @completed worker result task record s _ found _ tasks =>
    exact hset tasks ⟨(h _ record found).1, fun hwaits => by simp [completedTask] at hwaits⟩
  | @failed worker error retryAt deadLetter task record s executing found leased tasks =>
    have hrecord := hinv.record_eq executing found leased
    have hdecided : ∃ permanent, deadLetter = givesUp maxAttempts permanent task := by
      cases event with
      | fail worker' error' retryAt' permanent =>
        simp only [workerEvent, FleetEvent.fail.injEq] at hevent
        obtain ⟨rfl, -, -, hdead⟩ := hevent
        rw [executing] at hdead
        exact ⟨permanent, hdead.symm⟩
      | _ => simp [workerEvent] at hevent
    obtain ⟨permanent, rfl⟩ := hdecided
    refine hset tasks ⟨(h _ record found).1, fun hwaits => ?_⟩
    -- A failed task waits again only while its attempts are below the limit.
    show record.attempts < maxAttempts
    by_contra hexhausted
    have hgivesUp : givesUp maxAttempts permanent task = true := by
      rw [← hrecord]
      simp only [givesUp, Bool.or_eq_true, decide_eq_true_eq]
      exact Or.inr (Nat.le_of_not_lt hexhausted)
    simp [failedTask, hgivesUp] at hwaits
  | other op =>
    intro id task hget
    cases hold : (store.tasks fleet.store).get? id with
    | some task' =>
      have hkept := (store.other_submits fleet.store op).kept hold
      rw [← Option.some.inj (hkept.symm.trans hget)]
      exact h id task' hold
    | none =>
      have hattempts := ((store.other_submits fleet.store op).added hold hget).2.attempts
      rw [hattempts]
      exact ⟨Nat.zero_le _, fun _ => hlimit⟩

/-- Within the limit nothing was handed out more often than the limit says. -/
theorem WithinLimit.handouts_le {store : TaskStore σ ι} {maxAttempts : Nat} {fleet : Fleet σ}
    (hinv : FleetInvariant store fleet) (h : WithinLimit store maxAttempts fleet) (id : String) :
    fleet.handouts id ≤ maxAttempts := by
  cases hget : (store.tasks fleet.store).get? id with
  | some task =>
    rw [← hinv.attempts hget]
    exact (h id task hget).1
  | none =>
    have hzero : fleet.handouts id = 0 := by
      refine List.countP_eq_zero.mpr fun task htask hid => ?_
      obtain ⟨-, record, hrecord⟩ := hinv.known htask
      rw [decide_eq_true_eq.mp hid, hget] at hrecord
      cases hrecord
    omega

/-! ## The bound -/

/-- A claim that takes over an exhausted task exceeds the limit. -/
theorem sparesExhausted_of_handouts {store : TaskStore σ ι} {maxAttempts : Nat} {fleet : Fleet σ}
    (hinv : FleetInvariant store fleet) {event : FleetEvent ι}
    (h : ∀ id, (workerStep store maxAttempts fleet event).handouts id ≤ maxAttempts) :
    SparesExhausted store maxAttempts fleet event := by
  cases event with
  | claim worker unlocked kind leaseSeconds now =>
    intro hidle hpast claimed s hrun task hfound hruns
    have hcount := h claimed.taskId
    simp only [workerStep, workerEvent, Fleet.step, hidle, if_pos hpast, hrun, Fleet.handouts,
      List.countP_cons, decide_true, if_true] at hcount
    have hattempts := hinv.attempts hfound
    rw [Fleet.handouts] at hattempts
    omega
  | _ => trivial

/--
In a run of workers that keep to the limit, no task is handed out more often than the limit
says exactly when no claim takes over the expired lease of a task that was handed out as often
as that already.
-/
def BoundedAttempts (store : TaskStore σ ι) : Prop :=
  ∀ (settings : WorkerSettings) (time : Timestamp) (events : List (FleetEvent ι)),
    (∀ before after, events = before ++ after → ∀ taskId,
      (afterWork store settings.maxAttempts time before).handouts taskId ≤ settings.maxAttempts) ↔
    Guarded (workerStep store settings.maxAttempts) (SparesExhausted store settings.maxAttempts)
      (Fleet.initial store time) events

theorem TaskStore.boundedAttempts (store : TaskStore σ ι) : BoundedAttempts store := by
  intro settings time events
  have hstart := FleetInvariant.initial store time
  constructor
  · intro hbound
    unfold afterWork at hbound
    revert hbound hstart
    generalize Fleet.initial store time = fleet
    induction events generalizing fleet with
    | nil => exact fun _ _ => trivial
    | cons event events ih =>
      intro hinv hbound
      exact ⟨sparesExhausted_of_handouts hinv (hbound [event] events rfl),
        ih _ (hinv.step _) fun before after hsplit =>
          hbound (event :: before) after (by rw [hsplit, List.cons_append])⟩
  · intro hguarded before after hsplit taskId
    rw [hsplit, guarded_append] at hguarded
    have hrun := hguarded.1.invariant
      (P := fun fleet => FleetInvariant store fleet ∧ WithinLimit store settings.maxAttempts fleet)
      (fun _ _ hg h => ⟨h.1.step _, h.2.step h.1 settings.maxAttempts_range.1 hg⟩)
      ⟨hstart, fun id task hget => by
        change (store.tasks store.start).get? id = some task at hget
        rw [store.tasks_start] at hget
        cases hget⟩
    exact hrun.2.handouts_le hrun.1 taskId

/-- One scan is submitted, and its first task kills the worker that claims it, six times. -/
def poisonedRun : List (FleetEvent Postgres.Submission) :=
  .other ⟨sampleDevice, "scan-1", "task-osv", "task-depscan", 0⟩ ::
    (List.range 6).flatMap fun n =>
      [.claim "worker-1" (fun _ => true) .osv 1200 (seconds (1200 * n)), .crash "worker-1",
        .advance 1200000000]

end OsScanner.Cloud

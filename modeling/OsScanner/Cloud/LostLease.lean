import Mathlib
import OsScanner.Cloud.Answers
import OsScanner.Cloud.AnalysisWorker

/-!
# A worker whose lease is taken over

`_process` hands every exception to `_fail_task`, and `_fail_task` calls the repository under
the same lease. A worker that finds its lease gone when it completes a task, or when it fails
it, is refused there, and nothing in `run_once` catches that refusal.
-/

namespace OsScanner.Cloud

open Lib

/-! ## Losing a lease -/

/-- The task is there, and this worker may not report on it. -/
def Lost (workerId taskId : String) (repo : InMemoryRepository) : Prop :=
  ∃ record, repo.tasks.get? taskId = some record ∧ ¬ record.Leased workerId

/-- The task is there, and this worker may report on it. -/
def Keeps (workerId taskId : String) (repo : InMemoryRepository) : Prop :=
  ∃ record, repo.tasks.get? taskId = some record ∧ record.Leased workerId

/-- The worker in whose name a call on tasks is made. -/
def Call.worker : Call → Option String
  | .scan (.claimAnalysisTask _ workerId _ _) => some workerId
  | .scan (.completeAnalysisTask _ workerId _ _) => some workerId
  | .scan (.failAnalysisTask _ workerId _ _ _ _) => some workerId
  | _ => none

/-- The call hands the task out to its worker. -/
def TakesOver (rt : Runtime) (taskId : String) (repo : InMemoryRepository) (call : Call) : Prop :=
  ∃ task, call.answer rt repo = .ok (.task (some task)) ∧ task.taskId = taskId

theorem worker_none {call : Call} (h : call.isTaskCall = true) : call.worker ≠ none := by
  unfold Call.isTaskCall at h
  split at h
  · exact fun hnone => by cases hnone
  · exact fun hnone => by cases hnone
  · exact fun hnone => by cases hnone
  · cases h

/-- What a call leaves of the record of a task: a record, and a lease of its own worker only. -/
theorem Call.task_step (rt : Runtime) {repo : InMemoryRepository} {taskId : String} {record : AnalysisTask} (hfound : repo.tasks.get? taskId = some record)
    (call : Call) : ∃ record', (call.step rt repo).tasks.get? taskId = some record' ∧
      (record' = record ∨ record'.leasedBy = none ∨
        (record'.leasedBy = call.worker ∧ call.worker ≠ none)) := by
  by_cases htask : call.isTaskCall = true
  · have hset : ∀ {taskId' : String} {new : AnalysisTask} {tasks : Dict String AnalysisTask},
        tasks = repo.tasks.set taskId' new →
        (new.leasedBy = none ∨ (new.leasedBy = call.worker ∧ call.worker ≠ none)) →
        ∃ record', tasks.get? taskId = some record' ∧ (record' = record ∨
          record'.leasedBy = none ∨ (record'.leasedBy = call.worker ∧ call.worker ≠ none)) := by
      rintro taskId' new tasks rfl hnew
      rw [Dict.get?_set]
      split
      · exact ⟨new, rfl, Or.inr hnew⟩
      · exact ⟨record, hfound, Or.inl rfl⟩
    have hsame : ∃ record', repo.tasks.get? taskId = some record' ∧ (record' = record ∨
        record'.leasedBy = none ∨ (record'.leasedBy = call.worker ∧ call.worker ≠ none)) :=
      ⟨record, hfound, Or.inl rfl⟩
    cases call with
    | identity call => cases htask
    | scan call =>
      cases call with
      | claimAnalysisTask =>
        rcases claimAnalysisTask_effect (Prod.mk.eta).symm with
          ⟨h, -⟩ | ⟨_, _, -, -, rfl, -, h⟩ <;> rw [Call.step, ScanCall.step, h]
        · exact hsame
        · exact hset rfl (Or.inr ⟨rfl, worker_none htask⟩)
      | completeAnalysisTask =>
        rcases completeAnalysisTask_effect (Prod.mk.eta).symm with
          ⟨h, -⟩ | ⟨_, -, -, h⟩ <;> rw [Call.step, ScanCall.step, h]
        · exact hsame
        · exact hset rfl (Or.inl rfl)
      | failAnalysisTask =>
        rcases failAnalysisTask_effect (Prod.mk.eta).symm with
          ⟨h, -⟩ | ⟨_, -, -, h⟩ <;> rw [Call.step, ScanCall.step, h]
        · exact hsame
        · exact hset rfl (Or.inl rfl)
      | _ => cases htask
  · rw [Bool.not_eq_true] at htask
    exact ⟨record, (Call.submits rt repo htask).kept hfound, Or.inl rfl⟩

/-- While others call, a lost lease stays lost. -/
theorem Lost.run {rt : Runtime} {workerId taskId : String} {calls : List Call}
    {repo : InMemoryRepository} (hothers : ∀ call ∈ calls, call.worker ≠ some workerId) (h : Lost workerId taskId repo) :
    Lost workerId taskId (runFrom (Call.step rt) repo calls) := by
  induction calls generalizing repo with
  | nil => exact h
  | cons call calls ih =>
    rw [List.forall_mem_cons] at hothers
    refine ih hothers.2 ?_
    obtain ⟨record, hfound, hnot⟩ := h
    obtain ⟨record', hfound', hrecord'⟩ := Call.task_step rt hfound call
    refine ⟨record', hfound', fun hleased => ?_⟩
    rcases hrecord' with rfl | hnone | ⟨howner, -⟩
    · exact hnot hleased
    · rw [hleased.2] at hnone
      cases hnone
    · exact hothers.1 (howner.symm.trans hleased.2)

/-- A claim of another worker takes the lease away. -/
theorem lost_of_takesOver {rt : Runtime} {workerId taskId : String} {repo : InMemoryRepository}
    {call : Call} (hother : call.worker ≠ some workerId) (h : TakesOver rt taskId repo call) :
    Lost workerId taskId (call.step rt repo) := by
  obtain ⟨task, hanswer, hid⟩ := h
  cases call with
  | identity call => cases call <;> simp [Call.answer, Call.method, IdentityCall.method,
      run_map_fst, map_eq_ok, Answer.grant, Answer.credential] at hanswer
  | scan call =>
    cases call with
    | claimAnalysisTask kind other leaseSeconds now =>
      have hrun : ((claimAnalysisTask kind other leaseSeconds now).run repo).1 =
          .ok (some task) := by
        rw [Call.answer, Call.method, ScanCall.method, run_map_fst, map_eq_ok] at hanswer
        obtain ⟨result, hresult, htask⟩ := hanswer
        rw [hresult, Answer.task.inj htask]
      rcases claimAnalysisTask_effect (Prod.mk.eta).symm with
        ⟨-, hnone | ⟨e, he⟩⟩ | ⟨old, claimed, -, -, hclaimed, hok, h⟩
      · rw [hnone] at hrun
        cases hrun
      · rw [he] at hrun
        cases hrun
      · have hsame : claimed = task := Option.some.inj (Except.ok.inj (hok.symm.trans hrun))
        have holdId : old.taskId = taskId := by rw [← hid, ← hsame, hclaimed]
        refine ⟨claimed, ?_, fun hleased => ?_⟩
        · rw [Call.step, ScanCall.step, h, holdId]
          exact Dict.get?_set_self _ _ _
        · have howner := hleased.2
          rw [hclaimed] at howner
          exact hother howner
    | _ => simp [Call.answer, Call.method, ScanCall.method, run_map_fst, map_eq_ok,
        Answer.scan] at hanswer

theorem keeps_or_lost_run {rt : Runtime} {workerId taskId : String} {calls : List Call}
    {repo : InMemoryRepository} (h : Keeps workerId taskId repo) :
    Keeps workerId taskId (runFrom (Call.step rt) repo calls) ∨
      Lost workerId taskId (runFrom (Call.step rt) repo calls) := by
  have hrun : ∃ record, (runFrom (Call.step rt) repo calls).tasks.get? taskId = some record :=
    @run_invariant _ _ (Call.step rt) (fun repo => ∃ record, repo.tasks.get? taskId = some record)
      (fun _ call h => by
        obtain ⟨record, hfound⟩ := h
        obtain ⟨record', hfound', -⟩ := Call.task_step rt hfound call
        exact ⟨record', hfound'⟩) _ _ ⟨h.choose, h.choose_spec.1⟩
  obtain ⟨record, hfound⟩ := hrun
  by_cases hleased : record.Leased workerId
  · exact Or.inl ⟨record, hfound, hleased⟩
  · exact Or.inr ⟨record, hfound, hleased⟩

theorem Lost.not_keeps {workerId taskId : String} {repo : InMemoryRepository}
    (h : Lost workerId taskId repo) : ¬ Keeps workerId taskId repo := by
  rintro ⟨record, hfound, hleased⟩
  obtain ⟨record', hfound', hnot⟩ := h
  rw [hfound] at hfound'
  exact hnot (Option.some.inj hfound' ▸ hleased)

/-! ## The turns of a worker -/

/-- The world after a turn in which the worker only reads. -/
def World.passed (rt : Runtime) (world : World) : World :=
  { world with repo := world.met rt, turns := world.turns.tail }

/-- The repository at the first call that the worker makes under its lease. -/
def World.fenced (rt : Runtime) (world : World) : InMemoryRepository := (world.passed rt).met rt

/-- The worker's own calls are refused: this is what `run_once` raises. -/
def conflict : WorkerError :=
  .repository ⟨.stateConflict, "analysis task is not leased by this worker"⟩

section Worker

variable {Input : Type} {rt : Runtime} {settings : WorkerSettings} {engine : AnalysisEngine Input}

theorem run_onRepository {α : Type} (method : Turn → RepositoryMethod α) (world : World) :
    (onRepository rt method).run world =
      (((method world.turn).run (world.met rt)).1.mapError .repository,
        { world with
          repo := ((method world.turn).run (world.met rt)).2
          turns := world.turns.tail }) := rfl

theorem run_onRepository_reading {α : Type} (f : InMemoryRepository → α) (world : World) :
    (onRepository rt fun _ => .reading fun repo => .ok (f repo)).run world =
      (.ok (f (world.met rt)), world.passed rt) := rfl

/-- A handler that is not caught raises no conflict. -/
theorem not_conflict_of_not_caught {e : WorkerError} (h : e.isCaught = false) :
    e.isStateConflict = false := by
  cases e with
  | repository error =>
    cases hkind : error.kind <;>
      simp [WorkerError.isCaught, WorkerError.isStateConflict, RepositoryError.isStateConflict,
        hkind] at h ⊢
  | _ => rfl

/-- The result of a method is no conflict. -/
def NoConflict {α : Type} (result : Except WorkerError α) : Prop :=
  ∀ e, result = .error e → e.isStateConflict = false

theorem noConflict_ok {α : Type} (a : α) : NoConflict (.ok a : Except WorkerError α) :=
  fun _ h => by cases h

theorem noConflict_bind {α β : Type} {m : WorkerMethod α} {f : α → WorkerMethod β} {world : World}
    (hm : NoConflict (m.run world).1)
    (hf : ∀ a world', m.run world = (.ok a, world') → NoConflict ((f a).run world').1) :
    NoConflict ((m >>= f).run world).1 := by
  rw [Method.run_bind]
  rcases hrun : m.run world with ⟨e | a, world'⟩
  · rw [hrun] at hm
    exact fun e' he' => hm e' (by cases he'; rfl)
  · exact hf a world' hrun

theorem noConflict_rescue {α : Type} {m : WorkerMethod α} {handler : WorkerError → WorkerMethod α}
    {world : World} (h : ∀ e world', NoConflict ((handler e).run world').1) :
    NoConflict ((m.rescue handler).run world).1 := by
  rcases hrun : m.run world with ⟨e | a, world'⟩
  · rw [Method.run_rescue_error handler hrun]
    exact h e world'
  · rw [Method.run_rescue_ok handler hrun]
    exact noConflict_ok a

/-- Recording that a report could not be built is refused only for an unknown scan. -/
theorem noConflict_finalizeScanReportFailure (scanId error : String) (world : World) :
    NoConflict ((onRepository rt fun turn => finalizeScanReportFailure rt scanId error turn.now
      turn.now turn.now).run world).1 := by
  intro e he
  rw [run_onRepository] at he
  simp only [finalizeScanReportFailure, Method.run_reading_bind] at he
  split at he
  · rename_i record _
    cases hreport : record.finalReport with
    | some report =>
      simp only [hreport] at he
      cases he
    | none =>
      simp only [hreport] at he
      cases he
  · rename_i e' herror
    have hkind : e'.kind = .notFound := by
      unfold knownScan at herror
      split at herror
      · cases herror
        rfl
      · cases herror
    cases he
    simp [WorkerError.isStateConflict, RepositoryError.isStateConflict, hkind]

theorem noConflict_finishTask (task : AnalysisTask) (input : Input) (world : World) :
    NoConflict ((finishTask rt engine task input).run world).1 := by
  unfold finishTask
  refine noConflict_bind (noConflict_rescue fun e world' => ?_) fun _ _ _ => noConflict_ok _
  split
  · exact noConflict_bind (noConflict_finalizeScanReportFailure _ _ _) fun _ _ _ => noConflict_ok _
  · split
    · exact noConflict_ok _
    · rename_i hcaught
      intro e' he'
      cases he'
      exact not_conflict_of_not_caught (Bool.eq_false_iff.mpr hcaught)

/-! ## The call under the lease -/

/-- A worker without the lease cannot fail its task. -/
theorem run_failTask_lost {task : AnalysisTask} {error : WorkerError} {world : World}
    (h : Lost settings.workerId task.taskId (world.met rt)) :
    (failTask rt settings engine task error).run world = (.error conflict, world.passed rt) := by
  obtain ⟨record, hfound, hnot⟩ := h
  have hrefused : ∀ message retryAt deadLetter now,
      (failAnalysisTask task.taskId settings.workerId message retryAt deadLetter now).run
        (world.met rt) = (notLeased, world.met rt) := fun message retryAt deadLetter now =>
    (inMemoryTasks rt).fail_refused message retryAt deadLetter now hfound hnot
  unfold failTask
  refine Method.run_bind_error _ ?_
  rw [run_onRepository]
  simp only [hrefused]
  rfl

/-- A worker with the lease fails its task, whatever becomes of the report. -/
theorem noConflict_failTask_keeps {task : AnalysisTask} {error : WorkerError} {world : World}
    (h : Keeps settings.workerId task.taskId (world.met rt)) :
    NoConflict ((failTask rt settings engine task error).run world).1 := by
  obtain ⟨record, hfound, hleased⟩ := h
  unfold failTask
  refine noConflict_bind ?_ fun _ world' _ => ?_
  · rw [run_onRepository]
    obtain ⟨repo', hrun, -⟩ := (inMemoryTasks rt).fail_leased (engine.describe error)
      (world.turn.readAt + if givesUp settings.maxAttempts error.isPermanent task then 0
        else engine.backoff task.attempts)
      (givesUp settings.maxAttempts error.isPermanent task) world.turn.now hfound hleased
    change (failAnalysisTask _ _ _ _ _ _).run _ = _ at hrun
    rw [hrun]
    exact noConflict_ok _
  · -- Only a task that is given up has its report looked at, and errors of that are suppressed.
    split
    · refine noConflict_bind (noConflict_rescue fun e world' => ?_) fun _ _ _ => noConflict_ok _
      split
      · exact noConflict_ok _
      · rename_i hcaught
        intro e' he'
        cases he'
        exact not_conflict_of_not_caught (Bool.eq_false_iff.mpr hcaught)
    · exact noConflict_ok _

/-- The analysis fails before the worker's call under the lease, or that call is a completion. -/
theorem analyzeAndComplete_cases (task : AnalysisTask) (world : World) :
    (∃ e, (analyzeAndComplete rt settings engine task).run world =
      (.error e, world.passed rt)) ∨
    ∃ input result, (analyzeAndComplete rt settings engine task).run world =
      ((fun _ => input) <$> onRepository rt fun turn => completeAnalysisTask task.taskId
        settings.workerId result turn.now).run (world.passed rt) := by
  unfold analyzeAndComplete
  rw [Method.run_bind, run_onRepository_reading]
  simp only [Method.run_ofExcept_bind]
  split
  · rename_i input hinput
    split
    · rename_i result hresult
      split
      · exact Or.inr ⟨input, result, rfl⟩
      · exact Or.inl ⟨_, rfl⟩
    · exact Or.inl ⟨_, rfl⟩
  · exact Or.inl ⟨_, rfl⟩

/-- What the others call before the worker's next calls. -/
def World.made (world : World) (turns : Nat) : List Call :=
  (world.turns.take turns).flatMap Turn.others

theorem met_eq (world : World) :
    world.met rt = runFrom (Call.step rt) world.repo (world.made 1) := by
  unfold World.made World.met World.turn
  cases world.turns with
  | nil => simp
  | cons turn turns => simp

theorem runFrom_passed (world : World) (n : Nat) :
    runFrom (Call.step rt) (world.passed rt).repo ((world.passed rt).made n) =
      runFrom (Call.step rt) world.repo (world.made (n + 1)) := by
  unfold World.passed World.made World.met World.turn
  cases world.turns with
  | nil => simp
  | cons turn turns => simp [runFrom_append]

theorem fenced_eq (world : World) :
    world.fenced rt = runFrom (Call.step rt) world.repo (world.made 2) := by
  rw [World.fenced, met_eq, runFrom_passed]

theorem mem_made_passed {world : World} {n : Nat} {call : Call}
    (h : call ∈ (world.passed rt).made n) : call ∈ world.made (n + 1) := by
  unfold World.passed World.made at *
  cases hturns : world.turns with
  | nil => simp [hturns] at h
  | cons turn turns =>
    rw [hturns] at h
    rw [List.take_succ_cons, List.flatMap_cons]
    exact List.mem_append_right _ h

theorem mem_made_of_le {world : World} {m n : Nat} {call : Call} (hle : m ≤ n)
    (h : call ∈ world.made m) : call ∈ world.made n := by
  unfold World.made at *
  rw [List.mem_flatMap] at *
  obtain ⟨turn, hturn, hcall⟩ := h
  exact ⟨turn, List.take_subset_take_left _ hle hturn, hcall⟩

/-- The worker that has lost its lease raises the conflict, and it has written nothing. -/
theorem run_processTask_lost {task : AnalysisTask} {world : World}
    (hothers : ∀ call ∈ world.made 3, call.worker ≠ some settings.workerId)
    (h : Lost settings.workerId task.taskId (world.fenced rt)) :
    ∃ turns world', 2 ≤ turns ∧ turns ≤ 3 ∧
      (processTask rt settings engine task).run world = (.error conflict, world') ∧
      world'.repo = runFrom (Call.step rt) world.repo (world.made turns) := by
  unfold processTask
  rcases analyzeAndComplete_cases task world with ⟨e, hrun⟩ | ⟨input, result, hrun⟩
  · -- The analysis fails, and its failure is refused.
    refine ⟨2, (world.passed rt).passed rt, le_refl _, by omega, ?_, fenced_eq world⟩
    refine Method.run_bind_error _ ?_
    have hmap : ((Sum.inr : Input → WorkerOutcome ⊕ Input) <$>
        analyzeAndComplete rt settings engine task).run world = (.error e, world.passed rt) := by
      rw [Method.run_map, hrun]
    rw [Method.run_rescue_error _ hmap, Method.run_map, run_failTask_lost h]
  · -- The completion is refused, and the handler's failure is refused after it.
    have hcomplete : (analyzeAndComplete rt settings engine task).run world =
        (.error conflict, (world.passed rt).passed rt) := by
      obtain ⟨record, hfound, hnot⟩ := h
      have hrefused : (completeAnalysisTask task.taskId settings.workerId result
          (world.passed rt).turn.now).run ((world.passed rt).met rt) =
            (notLeased, (world.passed rt).met rt) :=
        (inMemoryTasks rt).complete_refused result _ hfound hnot
      rw [hrun, Method.run_map, run_onRepository, hrefused]
      rfl
    refine ⟨3, ((world.passed rt).passed rt).passed rt, by omega, le_refl _, ?_, ?_⟩
    · refine Method.run_bind_error _ ?_
      have hmap : ((Sum.inr : Input → WorkerOutcome ⊕ Input) <$>
          analyzeAndComplete rt settings engine task).run world =
            (.error conflict, (world.passed rt).passed rt) := by
        rw [Method.run_map, hcomplete]
      have hlost : Lost settings.workerId task.taskId (((world.passed rt).passed rt).met rt) := by
        rw [met_eq]
        exact Lost.run (fun call hcall => hothers call (mem_made_passed (mem_made_passed hcall))) h
      rw [Method.run_rescue_error _ hmap, Method.run_map, run_failTask_lost hlost]
    · show ((world.passed rt).passed rt).met rt = _
      rw [met_eq, runFrom_passed, runFrom_passed]

/-- The worker that still holds its lease raises no conflict. -/
theorem noConflict_processTask_keeps {task : AnalysisTask} {world : World}
    (h : Keeps settings.workerId task.taskId (world.fenced rt)) :
    NoConflict ((processTask rt settings engine task).run world).1 := by
  unfold processTask
  rcases analyzeAndComplete_cases task world with ⟨e, hrun⟩ | ⟨input, result, hrun⟩
  · have hmap : ((Sum.inr : Input → WorkerOutcome ⊕ Input) <$>
        analyzeAndComplete rt settings engine task).run world = (.error e, world.passed rt) := by
      rw [Method.run_map, hrun]
    refine noConflict_bind ?_ fun attempt world' hattempt => ?_
    · rw [Method.run_rescue_error _ hmap]
      exact noConflict_bind (noConflict_failTask_keeps h) fun _ _ _ => noConflict_ok _
    · rw [Method.run_rescue_error _ hmap, Method.run_map] at hattempt
      split at hattempt
      · cases hattempt
        exact noConflict_ok _
      · cases hattempt
  · obtain ⟨record, hfound, hleased⟩ := h
    obtain ⟨repo', hcomplete, -⟩ := (inMemoryTasks rt).complete_leased result
      (world.passed rt).turn.now hfound hleased
    change (completeAnalysisTask _ _ _ _).run ((world.passed rt).met rt) = _ at hcomplete
    have hmap : ((Sum.inr : Input → WorkerOutcome ⊕ Input) <$>
        analyzeAndComplete rt settings engine task).run world = (.ok (.inr input),
          { world.passed rt with repo := repo', turns := (world.passed rt).turns.tail }) := by
      rw [Method.run_map, hrun, Method.run_map, run_onRepository, hcomplete]
      rfl
    rw [Method.run_bind_ok _ (Method.run_rescue_ok _ hmap)]
    exact noConflict_finishTask task input _

/-! ## `run_once` -/

/-- The task that a claim returns is leased by the worker. -/
theorem keeps_claimLoop {indexes : List Nat} {task : AnalysisTask} : ∀ {world working : World},
    (claimLoop rt settings indexes).run world = (.ok (some task), working) →
    Keeps settings.workerId task.taskId working.repo := by
  induction indexes with
  | nil => exact fun h => by cases h
  | cons index indexes ih =>
    intro world working h
    rw [claimLoop, Method.bind_eq_ok] at h
    obtain ⟨claimed, world', hclaim, hrest⟩ := h
    cases claimed with
    | none => exact ih hrest
    | some claimed =>
      rw [run_onRepository, Prod.mk.injEq] at hclaim
      obtain ⟨hresult, rfl⟩ := hclaim
      have hok : ((claimAnalysisTask (settings.kinds.getD index .osv) settings.workerId
          settings.leaseSeconds world.turn.readAt).run (world.met rt)).1 = .ok (some claimed) := by
        cases hanswer : ((claimAnalysisTask (settings.kinds.getD index .osv) settings.workerId
          settings.leaseSeconds world.turn.readAt).run (world.met rt)).1 with
        | ok task => rw [hanswer] at hresult; cases hresult; rfl
        | error e => rw [hanswer] at hresult; cases hresult
      cases hrest
      rcases claimAnalysisTask_effect (Prod.mk.eta).symm with
        ⟨-, hnone | ⟨e, he⟩⟩ | ⟨old, new, -, -, hnew, hsome, hrepo⟩
      · rw [hnone] at hok
        cases hok
      · rw [he] at hok
        cases hok
      · have hsame : new = task := Option.some.inj (Except.ok.inj (hsome.symm.trans hok))
        have hid : old.taskId = task.taskId := by rw [← hsame, hnew]
        refine ⟨new, ?_, by rw [hnew], by rw [hnew]⟩
        show (((claimAnalysisTask _ _ _ _).run (world.met rt)).2).tasks.get? _ = _
        rw [hrepo, hid]
        exact Dict.get?_set_self _ _ _

theorem keeps_claimNext {task : AnalysisTask} {world working : World}
    (h : (claimNext rt settings).run world = (.ok (some task), working)) :
    Keeps settings.workerId task.taskId working.repo := by
  rw [claimNext, Method.run_reading_bind] at h
  exact keeps_claimLoop h

/-- Once it has claimed a task, `run_once` is the processing of that task. -/
theorem run_runOnce {task : AnalysisTask} {world working : World}
    (h : (claimNext rt settings).run world = (.ok (some task), working)) :
    (runOnce rt settings engine).run world = (processTask rt settings engine task).run working :=
  Method.run_bind_ok _ h

/--
A worker claims a task, and no other worker goes by its name. Then a conflict escapes from
`run_once` exactly when the lease is lost at the worker's first call under it; and that is so
whenever another worker was handed the task before that call. What is in the repository then is
what the others wrote, and `run_forever` ends with the same conflict.
-/
theorem lost_lease_escapes {task : AnalysisTask} {world working : World}
    (hclaim : (claimNext rt settings).run world = (.ok (some task), working))
    (hothers : ∀ call ∈ working.made 3, call.worker ≠ some settings.workerId) :
    ((∃ e after, (runOnce rt settings engine).run world = (.error e, after) ∧
        e.isStateConflict = true) ↔
      Lost settings.workerId task.taskId (working.fenced rt)) ∧
    ∀ earlier call later, working.made 2 = earlier ++ call :: later →
      TakesOver rt task.taskId (runFrom (Call.step rt) working.repo earlier) call →
      ∃ turns after, 2 ≤ turns ∧ turns ≤ 3 ∧
        (runOnce rt settings engine).run world = (.error conflict, after) ∧
        after.repo = runFrom (Call.step rt) working.repo (working.made turns) ∧
        ∀ rounds, (runForever rt settings engine (rounds + 1)).run world =
          (.error conflict, after) := by
  have hkeeps := keeps_claimNext hclaim
  rw [run_runOnce hclaim]
  refine ⟨⟨?_, fun hlost => ?_⟩, fun earlier call later hmade htakes => ?_⟩
  · rintro ⟨e, after, hrun, hconflict⟩
    rcases @keeps_or_lost_run rt _ _ (working.made 2) _ hkeeps with hkept | hlost
    · rw [← fenced_eq] at hkept
      have hno := noConflict_processTask_keeps hkept e (by rw [hrun])
      rw [hno] at hconflict
      cases hconflict
    · rwa [fenced_eq]
  · obtain ⟨_, after, -, -, hrun, -⟩ := run_processTask_lost hothers hlost
    exact ⟨conflict, after, hrun, rfl⟩
  · have hmem : ∀ call' ∈ call :: later, call'.worker ≠ some settings.workerId := fun call' h =>
      hothers call' (mem_made_of_le (by omega : 2 ≤ 3) (hmade ▸ List.mem_append_right _ h))
    have hlost : Lost settings.workerId task.taskId (working.fenced rt) := by
      rw [fenced_eq, hmade, runFrom_append, runFrom_cons]
      exact Lost.run (fun call' h => hmem call' (List.mem_cons_of_mem _ h))
        (lost_of_takesOver (hmem call List.mem_cons_self) htakes)
    obtain ⟨turns, after, hlow, hhigh, hrun, hrepo⟩ :=
      run_processTask_lost hothers hlost
    refine ⟨turns, after, hlow, hhigh, hrun, hrepo, fun rounds => ?_⟩
    exact Method.run_bind_error _ ((run_runOnce hclaim).trans hrun)

end Worker

/-! ## Two workers and one task -/

/-- The evidence of the dispatched scan: an empty inventory in full. -/
def emptyInventoryUpload : JsonObject :=
  [("result", .obj [
      ("scan_id", .str "scan-1"),
      ("endpoint_id", .str "endpoint-1"),
      ("scan_type", .str "FULL"),
      ("authorization_scope_id", .str "scope-1"),
      ("policy_id", .str "policy-1"),
      ("status", .str "SUCCESS")]),
    ("inventory_sync", .obj [
      ("scan_id", .str "scan-1"),
      ("endpoint_id", .str "endpoint-1"),
      ("mode", .str "full"),
      ("snapshot_hash", .str (Storage.snapshotHash Runtime.sample [])),
      ("previous_hash", .null),
      ("snapshot", .obj [])])]

def emptyEvidence : Call :=
  .scan (.ingestScan sampleDevice "scan-1" emptyInventoryUpload "key-4" "digest-4" "task-osv"
    "task-depscan" (seconds 1700000180) (seconds 1700000180) (seconds 1700000180))

/-- An engine whose tools find nothing. -/
def quietEngine : AnalysisEngine Unit where
  coerceScanInput _ _ _ := .ok ()
  expectedTools _ := [.osv, .depscan]
  analyzeTool _ _ := .ok [("status", .str "SUCCESS")]
  buildFinalReport _ _ := .ok [("status", .str "SUCCESS")]
  describe _ := "error"
  backoff _ := 0

/-- The second worker claims the task when the lease of the first has expired. -/
def secondClaim : Call :=
  .scan (.claimAnalysisTask .osv "worker-2" 1200 (seconds 1700001500))

/-- The first worker claims at the first turn; before its completion the second one does. -/
def contestedWorld : World where
  repo := runFrom (Call.step Runtime.sample) {} (dispatchedRun ++ [emptyEvidence])
  turns := [⟨seconds 1700000240, [], seconds 1700000240⟩,
    ⟨seconds 1700000240, [], seconds 1700000240⟩,
    ⟨seconds 1700001500, [secondClaim], seconds 1700001500⟩]

/-- The first worker's task as the claim returns it. -/
def contestedTask : AnalysisTask :=
  claimedTask "cloud-analysis-worker" 1200 (seconds 1700000240)
    (newTask sampleDevice "scan-1" "task-osv" .osv (seconds 1700000180))

/-- The first worker at work. -/
def workingWorld : World :=
  ((claimNext Runtime.sample WorkerSettings.standard).run contestedWorld).2

/-- The second worker is handed the task; the first one completes it too late and dies of it. -/
theorem lost_lease_escapes_contested :
    TakesOver Runtime.sample "task-osv" workingWorld.repo secondClaim ∧
      ((runOnce Runtime.sample WorkerSettings.standard quietEngine).run contestedWorld).1 =
        .error conflict ∧
      (((runOnce Runtime.sample WorkerSettings.standard quietEngine).run
        contestedWorld).2.repo.tasks.get? "task-osv").map (·.leasedBy) = some (some "worker-2") := by
  refine ⟨⟨claimedTask "worker-2" 1200 (seconds 1700001500) contestedTask, ?_, rfl⟩, ?_, ?_⟩
  · decide +kernel
  · decide +kernel
  · decide +kernel

/-- The same world as an instance of the general result. -/
theorem lost_lease_escapes_workingWorld :
    (∃ turns after, 2 ≤ turns ∧ turns ≤ 3 ∧
      (runOnce Runtime.sample WorkerSettings.standard quietEngine).run contestedWorld =
        (.error conflict, after) ∧
      after.repo = runFrom (Call.step Runtime.sample) workingWorld.repo (workingWorld.made turns) ∧
      ∀ rounds, (runForever Runtime.sample WorkerSettings.standard quietEngine (rounds + 1)).run
        contestedWorld = (.error conflict, after)) := by
  have hclaim : (claimNext Runtime.sample WorkerSettings.standard).run contestedWorld =
      (.ok (some contestedTask), workingWorld) := by
    refine Prod.ext ?_ rfl
    decide +kernel
  have hothers : ∀ call ∈ workingWorld.made 3,
      call.worker ≠ some WorkerSettings.standard.workerId := by decide +kernel
  have hturns : workingWorld.made 2 = [secondClaim] := rfl
  exact (lost_lease_escapes hclaim hothers).2 [] secondClaim [] hturns
    ⟨claimedTask "worker-2" 1200 (seconds 1700001500) contestedTask, by decide +kernel, rfl⟩

end OsScanner.Cloud

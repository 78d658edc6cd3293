import Mathlib
import OsScanner.Cloud.ScanLifecycle

/-!
# Stores of analysis tasks

The queue of analysis tasks exists twice: in the in-memory repository and in PostgreSQL. A
`TaskStore` is what both of them promise about claiming, completing and failing a task. What is
proved of workers is proved over any such store, and the two implementations are instances.
-/

namespace OsScanner.Cloud

open Lib

/-! ## What the three operations make of a task -/

/-- The task as a claim hands it out. -/
def claimedTask (workerId : String) (leaseSeconds : Int) (now : Timestamp) (task : AnalysisTask) :
    AnalysisTask :=
  { task with
    state := .running
    attempts := task.attempts + 1
    leasedBy := some workerId
    leaseExpiresAt := some (now + seconds leaseSeconds)
    updatedAt := now }

def completedTask (result : JsonObject) (now : Timestamp) (task : AnalysisTask) : AnalysisTask :=
  { task with
    state := .succeeded
    result := some result
    leaseExpiresAt := none
    leasedBy := none
    updatedAt := now }

def failedTask (error : String) (retryAt : Timestamp) (deadLetter : Bool) (now : Timestamp)
    (task : AnalysisTask) : AnalysisTask :=
  { task with
    state := if deadLetter then .failed else .retry
    availableAt := max now retryAt
    leaseExpiresAt := none
    leasedBy := none
    lastError := some (sanitizeError error)
    updatedAt := now }

/-- The worker may report on the task. -/
def AnalysisTask.Leased (task : AnalysisTask) (workerId : String) : Prop :=
  task.state = .running ∧ task.leasedBy = some workerId

instance (task : AnalysisTask) (workerId : String) : Decidable (task.Leased workerId) := by
  unfold AnalysisTask.Leased
  infer_instance

/-- A task that was never handed out. -/
structure AnalysisTask.Unclaimed (task : AnalysisTask) : Prop where
  pending : task.state = .pending
  attempts : task.attempts = 0
  leasedBy : task.leasedBy = none

/-- Tasks are submitted: those that are there stay, and the new ones were never handed out. -/
structure Submits (tasks tasks' : Dict String AnalysisTask) : Prop where
  kept : ∀ {id task}, tasks.get? id = some task → tasks'.get? id = some task
  added : ∀ {id task}, tasks.get? id = none → tasks'.get? id = some task →
    task.taskId = id ∧ task.Unclaimed

theorem Submits.refl (tasks : Dict String AnalysisTask) : Submits tasks tasks :=
  ⟨id, fun hnone h => by rw [hnone] at h; cases h⟩

/-! ## The interface -/

/-- The refusal of a worker that does not hold the lease. -/
def notLeased {α : Type} : Except RepositoryError α :=
  fail .stateConflict "analysis task is not leased by this worker"

/--
A store in a state `σ` of which the tasks are a part, and on which other operations `ι` are
made. A claim is free to pass over the rows that other claims have locked.
-/
structure TaskStore (σ ι : Type) where
  start : σ
  tasks : σ → Dict String AnalysisTask
  claim : (AnalysisTask → Bool) → TaskKind → String → Int → Timestamp →
    Method σ RepositoryError (Option AnalysisTask)
  complete : String → String → JsonObject → Timestamp → Method σ RepositoryError Unit
  fail : String → String → String → Timestamp → Bool → Timestamp → Method σ RepositoryError Unit
  other : σ → ι → σ
  tasks_start : tasks start = ∅
  claim_cases : ∀ (unlocked : AnalysisTask → Bool) (kind : TaskKind) (workerId : String)
    (leaseSeconds : Int) (now : Timestamp) (s : σ), TaskKeys (tasks s) →
    (∃ result, (claim unlocked kind workerId leaseSeconds now).run s = (result, s) ∧
      ∀ task, result ≠ .ok (some task)) ∨
    ∃ task s', (tasks s).get? task.taskId = some task ∧ isClaimable kind now task = true ∧
      (claim unlocked kind workerId leaseSeconds now).run s =
        (.ok (some (claimedTask workerId leaseSeconds now task)), s') ∧
      tasks s' = (tasks s).set task.taskId (claimedTask workerId leaseSeconds now task)
  complete_leased : ∀ {taskId workerId : String} (result : JsonObject) (now : Timestamp) {s : σ}
    {task : AnalysisTask}, (tasks s).get? taskId = some task → task.Leased workerId →
    ∃ s', (complete taskId workerId result now).run s = (.ok (), s') ∧
      tasks s' = (tasks s).set taskId (completedTask result now task)
  complete_refused : ∀ {taskId workerId : String} (result : JsonObject) (now : Timestamp) {s : σ}
    {task : AnalysisTask}, (tasks s).get? taskId = some task → ¬ task.Leased workerId →
    (complete taskId workerId result now).run s = (notLeased, s)
  fail_leased : ∀ {taskId workerId : String} (error : String) (retryAt : Timestamp)
    (deadLetter : Bool) (now : Timestamp) {s : σ} {task : AnalysisTask},
    (tasks s).get? taskId = some task → task.Leased workerId →
    ∃ s', (fail taskId workerId error retryAt deadLetter now).run s = (.ok (), s') ∧
      tasks s' = (tasks s).set taskId (failedTask error retryAt deadLetter now task)
  fail_refused : ∀ {taskId workerId : String} (error : String) (retryAt : Timestamp)
    (deadLetter : Bool) (now : Timestamp) {s : σ} {task : AnalysisTask},
    (tasks s).get? taskId = some task → ¬ task.Leased workerId →
    (fail taskId workerId error retryAt deadLetter now).run s = (notLeased, s)
  other_submits : ∀ (s : σ) (op : ι), Submits (tasks s) (tasks (other s op))

/-! ## The in-memory repository -/

/-- The calls that only workers make. -/
def Call.isTaskCall : Call → Bool
  | .scan (.claimAnalysisTask ..) => true
  | .scan (.completeAnalysisTask ..) => true
  | .scan (.failAnalysisTask ..) => true
  | _ => false

theorem leasedTask_refused {taskId workerId : String} {repo : InMemoryRepository}
    {task : AnalysisTask} (hfound : repo.tasks.get? taskId = some task)
    (hleased : ¬ task.Leased workerId) : leasedTask taskId workerId repo = notLeased := by
  have hbad : task.state ≠ .running ∨ task.leasedBy ≠ some workerId := by
    by_contra h
    rw [not_or, not_not, not_not] at h
    exact hleased h
  unfold leasedTask
  rw [hfound]
  simp only [raiseIf, Check.raiseIf, if_pos hbad]
  rfl

/-- The tasks of an upload are new and were never handed out. -/
theorem submits_ingest {principal : DevicePrincipal} {scanId osvTaskId depscanTaskId : String}
    {now : Timestamp} {tasks : Dict String AnalysisTask}
    (hfresh : ∀ task ∈ analysisTasks principal scanId osvTaskId depscanTaskId now,
      tasks.get? task.taskId = none) :
    Submits tasks (Dict.setAll AnalysisTask.taskId id
      (analysisTasks principal scanId osvTaskId depscanTaskId now) tasks) := by
  have hosv := hfresh _ List.mem_cons_self
  have hdepscan := hfresh _ (List.mem_cons_of_mem _ List.mem_cons_self)
  simp only [newTask] at hosv hdepscan
  simp only [analysisTasks, Dict.setAll_cons, Dict.setAll_nil, newTask, id_eq]
  refine ⟨fun {id task} h => ?_, fun {id task} hnone h => ?_⟩
  · have hosvId : osvTaskId ≠ id := fun hid => by rw [hid, h] at hosv; cases hosv
    have hdepscanId : depscanTaskId ≠ id := fun hid => by rw [hid, h] at hdepscan; cases hdepscan
    rw [Dict.get?_set_ne hdepscanId, Dict.get?_set_ne hosvId, h]
  · simp only [Dict.get?_set] at h
    split at h
    · rename_i hid
      cases h
      exact ⟨hid, rfl, rfl, rfl⟩
    · split at h
      · rename_i hid
        cases h
        exact ⟨hid, rfl, rfl, rfl⟩
      · rw [hnone] at h
        cases h

/-- A call that no worker makes submits tasks at most. -/
theorem Call.submits (rt : Runtime) (repo : InMemoryRepository) {call : Call}
    (hcall : call.isTaskCall = false) : Submits repo.tasks (call.step rt repo).tasks := by
  cases call with
  | identity call =>
    cases call with
    | createEnrollmentGrant =>
      rcases createEnrollmentGrant_effect (Prod.mk.eta).symm with
        ⟨h, -⟩ | ⟨-, -, -, _, h⟩ <;> rw [Call.step, IdentityCall.step, h] <;> exact .refl _
    | enrollEndpoint =>
      rcases enrollEndpoint_effect (Prod.mk.eta).symm with
        ⟨h, -⟩ | ⟨_, -, -, -, -, -, _, h⟩ <;> rw [Call.step, IdentityCall.step, h] <;>
        exact .refl _
    | rotateCredential =>
      rcases rotateCredential_effect (Prod.mk.eta).symm with
        ⟨h, -⟩ | ⟨_, _, _, -, -, -, _, h⟩ <;> rw [Call.step, IdentityCall.step, h] <;>
        exact .refl _
  | scan call =>
    cases call with
    | createScanJob =>
      rcases createScanJob_effect (Prod.mk.eta).symm with
        ⟨h, -⟩ | ⟨-, -, -, -, _, h⟩ <;> rw [Call.step, ScanCall.step, h] <;> exact .refl _
    | claimNextJob principal now =>
      obtain ⟨⟨_, h⟩, -⟩ := claimNextJob_effect (Prod.mk.eta).symm
      rw [Call.step, ScanCall.step, h]
      show Submits repo.tasks (touchEndpoint principal now repo).tasks
      rw [(touchEndpoint_frame principal now repo).2.2.1]
      exact .refl _
    | ingestScan =>
      rcases ingestScan_effect (Prod.mk.eta).symm with
        ⟨h, -⟩ | ⟨_, _, -, source, -, _, h⟩ <;> rw [Call.step, ScanCall.step, h]
      · exact .refl _
      · exact submits_ingest fun task htask => (checkTasks_eq_ok source.tasks task htask).2
    | recordScanStatus =>
      rcases recordScanStatus_effect (Prod.mk.eta).symm with
        ⟨h, -⟩ | ⟨_, -, -, -, -, _, h⟩ <;> rw [Call.step, ScanCall.step, h] <;> exact .refl _
    | recordRejection =>
      rcases recordRejection_effect (Prod.mk.eta).symm with
        ⟨h, -⟩ | ⟨_, -, -, -, _, h⟩ <;> rw [Call.step, ScanCall.step, h] <;> exact .refl _
    | finalizeScanReport =>
      rcases finalizeScanReport_effect (Prod.mk.eta).symm with
        h | ⟨_, -, -, -, -, _, h⟩ <;> rw [Call.step, ScanCall.step, h] <;> exact .refl _
    | finalizeScanReportFailure =>
      rcases finalizeScanReportFailure_effect (Prod.mk.eta).symm with
        h | ⟨_, -, -, -, _, h⟩ <;> rw [Call.step, ScanCall.step, h] <;> exact .refl _
    | _ => cases hcall

/-- The in-memory repository under all the calls that it takes. -/
def inMemoryTasks (rt : Runtime) :
    TaskStore InMemoryRepository { call : Call // call.isTaskCall = false } where
  start := {}
  tasks := InMemoryRepository.tasks
  claim _ := claimAnalysisTask
  complete := completeAnalysisTask
  fail := failAnalysisTask
  other repo call := call.1.step rt repo
  tasks_start := rfl
  claim_cases _ kind workerId leaseSeconds now repo hkeys := by
    rcases h : (claimAnalysisTask kind workerId leaseSeconds now).run repo with ⟨result, repo'⟩
    rcases claimAnalysisTask_effect h with
      ⟨rfl, hresult⟩ | ⟨task, _, hmem, hclaimable, rfl, rfl, rfl⟩
    · refine Or.inl ⟨result, rfl, fun task htask => ?_⟩
      rcases hresult with hnone | ⟨e, he⟩
      · rw [htask] at hnone
        cases hnone
      · rw [htask] at he
        cases he
    · obtain ⟨k, hk⟩ := Dict.mem_values_iff.mp hmem
      have hid := hkeys k task hk
      exact Or.inr ⟨task, _, hid.symm ▸ hk, hclaimable, rfl, rfl⟩
  complete_leased result now repo task hfound hleased := by
    have hchecked := leasedTask_eq_ok.mpr ⟨hfound, hleased⟩
    simp only [completeAnalysisTask, Method.run_reading_bind, hchecked]
    exact ⟨_, rfl, rfl⟩
  complete_refused result now repo task hfound hleased := by
    have hchecked := leasedTask_refused hfound hleased
    simp only [completeAnalysisTask, Method.run_reading_bind, hchecked]
    rfl
  fail_leased error retryAt deadLetter now repo task hfound hleased := by
    have hchecked := leasedTask_eq_ok.mpr ⟨hfound, hleased⟩
    simp only [failAnalysisTask, Method.run_reading_bind, hchecked]
    exact ⟨_, rfl, rfl⟩
  fail_refused error retryAt deadLetter now repo task hfound hleased := by
    have hchecked := leasedTask_refused hfound hleased
    simp only [failAnalysisTask, Method.run_reading_bind, hchecked]
    rfl
  other_submits repo call := Call.submits rt repo call.2

/-! ## PostgreSQL -/

namespace Postgres

/-- The rows of `scanner_analysis_tasks` by their primary key. -/
abbrev TaskTable := Dict String AnalysisTask

/-- A row of another transaction is skipped; the first of the others is taken. -/
def claimAnalysisTask (unlocked : AnalysisTask → Bool) (kind : TaskKind) (workerId : String)
    (leaseSeconds : Int) (now : Timestamp) :
    Method TaskTable RepositoryError (Option AnalysisTask) := do
  .ofExcept (raiseIf (workerId = "" ∨ workerId.length > 128 ∨ leaseSeconds < 10 ∨
    3600 < leaseSeconds) .valueError "invalid worker lease request")
  let rows ← .reading fun table =>
    .ok (table.values.insertionSort fun a b => a.createdAt ≤ b.createdAt)
  match rows.find? fun row => isClaimable kind now row && unlocked row with
  | none => pure none
  | some row =>
    .modify fun table => table.set row.taskId (claimedTask workerId leaseSeconds now row)
    pure (some (claimedTask workerId leaseSeconds now row))

/-- `UPDATE … WHERE task_id=… AND state='RUNNING' AND leased_by=…`, which must hit one row. -/
def updateLeased (taskId workerId : String) (change : AnalysisTask → AnalysisTask) :
    Method TaskTable RepositoryError Unit := do
  let row ← .reading fun table =>
    match table.get? taskId with
    | none => notLeased
    | some row => if row.Leased workerId then .ok row else notLeased
  .modify fun table => table.set taskId (change row)

def completeAnalysisTask (taskId workerId : String) (result : JsonObject) (now : Timestamp) :
    Method TaskTable RepositoryError Unit :=
  updateLeased taskId workerId (completedTask result now)

def failAnalysisTask (taskId workerId error : String) (retryAt : Timestamp) (deadLetter : Bool)
    (now : Timestamp) : Method TaskTable RepositoryError Unit :=
  updateLeased taskId workerId (failedTask error retryAt deadLetter now)

/-- What `ingest_scan` inserts; the transaction fails when a primary key is taken. -/
structure Submission where
  principal : DevicePrincipal
  scanId : String
  osvTaskId : String
  depscanTaskId : String
  now : Timestamp

def Submission.tasks (submission : Submission) : List AnalysisTask :=
  analysisTasks submission.principal submission.scanId submission.osvTaskId
    submission.depscanTaskId submission.now

def insertTasks (table : TaskTable) (submission : Submission) : TaskTable :=
  if submission.osvTaskId = submission.depscanTaskId ∨
      submission.tasks.any fun task => table.contains task.taskId then table
  else Dict.setAll AnalysisTask.taskId id submission.tasks table

theorem updateLeased_leased {taskId workerId : String} (change : AnalysisTask → AnalysisTask)
    {table : TaskTable} {task : AnalysisTask} (hfound : table.get? taskId = some task)
    (hleased : task.Leased workerId) :
    (updateLeased taskId workerId change).run table = (.ok (), table.set taskId (change task)) := by
  simp only [updateLeased, Method.run_reading_bind, hfound, if_pos hleased]
  rfl

theorem updateLeased_refused {taskId workerId : String} (change : AnalysisTask → AnalysisTask)
    {table : TaskTable} {task : AnalysisTask} (hfound : table.get? taskId = some task)
    (hleased : ¬ task.Leased workerId) :
    (updateLeased taskId workerId change).run table = (notLeased, table) := by
  simp only [updateLeased, Method.run_reading_bind, hfound, if_neg hleased]
  rfl

/-- The task table under the claims of its workers and the submissions of the API. -/
def taskStore : TaskStore TaskTable Submission where
  start := ∅
  tasks := id
  claim := claimAnalysisTask
  complete := completeAnalysisTask
  fail := failAnalysisTask
  other := insertTasks
  tasks_start := rfl
  claim_cases unlocked kind workerId leaseSeconds now table hkeys := by
    simp only [claimAnalysisTask, Method.run_ofExcept_bind, Method.run_reading_bind]
    split
    · split
      · exact Or.inl ⟨_, rfl, fun task h => by cases h⟩
      · rename_i row hrow
        have hmem := List.mem_of_find?_eq_some hrow
        rw [List.mem_insertionSort, Dict.mem_values_iff] at hmem
        obtain ⟨k, hk⟩ := hmem
        have hid := hkeys k row hk
        have hclaimable := List.find?_some hrow
        rw [Bool.and_eq_true] at hclaimable
        exact Or.inr ⟨row, _, hid.symm ▸ hk, hclaimable.1, rfl, rfl⟩
    · exact Or.inl ⟨_, rfl, fun task h => by cases h⟩
  complete_leased result now table task hfound hleased :=
    ⟨_, updateLeased_leased _ hfound hleased, rfl⟩
  complete_refused result now table task hfound hleased := updateLeased_refused _ hfound hleased
  fail_leased error retryAt deadLetter now table task hfound hleased :=
    ⟨_, updateLeased_leased _ hfound hleased, rfl⟩
  fail_refused error retryAt deadLetter now table task hfound hleased :=
    updateLeased_refused _ hfound hleased
  other_submits table submission := by
    unfold insertTasks
    split
    · exact .refl _
    · rename_i hfresh
      refine submits_ingest fun task htask => ?_
      rw [not_or, Bool.not_eq_true, List.any_eq_false] at hfresh
      have hnot := hfresh.2 task htask
      rwa [Bool.not_eq_true, Dict.contains_eq_false] at hnot

end Postgres

end OsScanner.Cloud

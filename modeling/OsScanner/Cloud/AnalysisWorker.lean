import Mathlib
import OsScanner.Cloud.TaskStore

/-!
# The analysis worker

`cloud_service/worker.py`. A worker shares the repository with other workers and with the API:
each of its repository calls is a turn, before which the others may have made any calls. The
engine that coerces the evidence, runs the tools and builds the report is a parameter; so are
the texts of its errors and the backoff, which is random.
-/

namespace OsScanner.Cloud

open Lib

/-! ## Settings -/

/-- Settings out of their range are never built: `__post_init__` raises `ValueError`. -/
structure WorkerSettings where
  workerId : String := "cloud-analysis-worker"
  kinds : List TaskKind := [.osv, .depscan]
  leaseSeconds : Int := 1200
  maxAttempts : Nat := 5
  workerId_length : workerId ≠ "" ∧ workerId.length ≤ 128 := by decide
  kinds_unique : kinds ≠ [] ∧ kinds.Nodup := by decide
  leaseSeconds_range : 10 ≤ leaseSeconds ∧ leaseSeconds ≤ 3600 := by decide
  maxAttempts_range : 1 ≤ maxAttempts ∧ maxAttempts ≤ 20 := by decide

/-- Every default passes its own check. -/
def WorkerSettings.standard : WorkerSettings := {}

/-- `permanent or task.attempts >= self.settings.max_attempts` -/
def givesUp (maxAttempts : Nat) (permanent : Bool) (task : AnalysisTask) : Bool :=
  permanent || decide (maxAttempts ≤ task.attempts)

/-! ## Errors -/

/-- The exceptions that reach a handler of the worker. -/
inductive WorkerError where
  | repository (error : RepositoryError)
  /-- `PermanentAnalysisError` and its subclass `AnalysisInputError`. -/
  | permanent (message : String)
  | retryable (message : String)
  /-- Any other exception; the flag tells a `RuntimeError` or a `ValueError`. -/
  | other (caught : Bool) (message : String)
  deriving DecidableEq

def WorkerError.isPermanent : WorkerError → Bool
  | .permanent _ => true
  | _ => false

/-- `except (RetryableAnalysisError, RuntimeError, ValueError)`: the repository's own errors
derive from `RuntimeError`. -/
def WorkerError.isCaught : WorkerError → Bool
  | .repository error => error.kind ≠ .keyError ∧ error.kind ≠ .typeError
  | .permanent _ => true
  | .retryable _ => true
  | .other caught _ => caught

def WorkerError.isStateConflict : WorkerError → Bool
  | .repository error => error.isStateConflict
  | _ => false

/-! ## Turns -/

/-- One repository call of the worker: its clock before, the calls of the others, its clock. -/
structure Turn where
  readAt : Timestamp
  others : List Call
  now : Timestamp

/-- The repository, the turns to come and the worker's own field. -/
structure World where
  repo : InMemoryRepository
  turns : List Turn
  nextKindIndex : Nat := 0

abbrev WorkerMethod := Method World WorkerError

/-- When no turn is left, nobody else calls and the clock stands still. -/
def World.turn (world : World) : Turn := world.turns.headD ⟨0, [], 0⟩

/-- The repository as the next call of the worker finds it. -/
def World.met (rt : Runtime) (world : World) : InMemoryRepository :=
  runFrom (Call.step rt) world.repo world.turn.others

/-- `await self.repository.method(…)` -/
def onRepository {α : Type} (rt : Runtime) (method : Turn → RepositoryMethod α) :
    WorkerMethod α :=
  ⟨fun world =>
    (((method world.turn).run (world.met rt)).1.mapError .repository,
      { world with
        repo := ((method world.turn).run (world.met rt)).2
        turns := world.turns.tail })⟩

/-! ## Reading the repository -/

structure ScanAnalysisInput where
  tenantId : String
  endpointId : String
  scanId : String
  upload : JsonObject

/-- `get_scan_analysis_input` -/
def getScanAnalysisInput (scanId : String) (repo : InMemoryRepository) :
    Option ScanAnalysisInput :=
  match repo.scans.get? scanId with
  | none => none
  | some record =>
    record.upload.map fun upload => ⟨record.tenantId, record.endpointId, scanId, upload⟩

/-- The terminal result of a task; a task that was given up has a synthetic one. -/
def analysisResult (task : AnalysisTask) : Option JsonObject :=
  match task.state, task.result with
  | .succeeded, some result => some result
  | .failed, _ => some [
      ("tool", .str (match task.kind with | .osv => "osv" | .depscan => "depscan")),
      ("status", .str "FAILED"),
      ("error", .str (match task.lastError with
        | some error => if error = "" then "analysis task reached dead letter state" else error
        | none => "analysis task reached dead letter state")),
      ("attempts", .int task.attempts)]
  | _, _ => none

/-- `list_scan_analysis_results` -/
def listScanAnalysisResults (scanId : String) (repo : InMemoryRepository) :
    Dict TaskKind JsonObject :=
  (repo.tasks.values.filter fun task => decide (task.scanId = scanId)).foldl
    (fun results task => match analysisResult task with
      | some result => results.set task.kind result
      | none => results) ∅

/-- `next_scan_ready_for_finalization` -/
def nextScanReadyForFinalization (repo : InMemoryRepository) : Option String :=
  ((repo.scans.values.insertionSort fun a b => a.updatedAt ≤ b.updatedAt).find? fun record =>
    decide (record.state = .analyzing) && decide (record.finalReport = none) &&
      tasksTerminal (taskStates repo record.scanId)).map (·.scanId)

/-! ## The engine -/

structure AnalysisEngine (Input : Type) where
  /-- `coerce_scan_input(raw, tenant_id=…, endpoint_id=…, scan_id=…)` -/
  coerceScanInput : Option ScanAnalysisInput → Option (String × String) → String →
    Except WorkerError Input
  expectedTools : Input → List TaskKind
  analyzeTool : TaskKind → Input → Except WorkerError JsonObject
  buildFinalReport : Input → Dict TaskKind JsonObject → Except WorkerError JsonObject
  /-- `redact_text(str(error), max_length=2_048).strip() or type(error).__name__` -/
  describe : WorkerError → String
  /-- `timedelta(seconds=self._backoff(attempts))` -/
  backoff : Nat → Int

structure WorkerOutcome where
  processed : Bool
  taskId : Option String := none
  kind : Option String := none
  taskStatus : Option String := none
  finalized : Bool := false
  error : Option String := none
  deriving DecidableEq

section Worker

variable {Input : Type} (rt : Runtime) (settings : WorkerSettings) (engine : AnalysisEngine Input)

/-- `finalize_ready_scan` -/
def finalizeReadyScan (scanId : String) (scanInput : Option Input) : WorkerMethod Bool := do
  let input ← match scanInput with
    | some input => pure input
    | none => do
      let raw ← onRepository rt fun _ => .reading fun repo => .ok (getScanAnalysisInput scanId repo)
      .ofExcept (engine.coerceScanInput raw none scanId)
  let results ← onRepository rt fun _ => .reading fun repo =>
    .ok (listScanAnalysisResults scanId repo)
  if (engine.expectedTools input).any fun kind => !results.contains kind then pure false
  else do
    let report ← .ofExcept (engine.buildFinalReport input results)
    onRepository rt fun turn => finalizeScanReport scanId report turn.now turn.now
    let _ ← .ofExcept ((requireKey report "status").mapError .repository)
    pure true

/-- `_fail_task` -/
def failTask (task : AnalysisTask) (error : WorkerError) : WorkerMethod WorkerOutcome := do
  let message := engine.describe error
  let deadLetter := givesUp settings.maxAttempts error.isPermanent task
  onRepository rt fun turn => failAnalysisTask task.taskId settings.workerId message
    (turn.readAt + if deadLetter then 0 else engine.backoff task.attempts) deadLetter turn.now
  if deadLetter then do
    -- `with suppress(PermanentAnalysisError, RetryableAnalysisError, RuntimeError, ValueError)`
    let _ ← (finalizeReadyScan rt engine task.scanId none).rescue fun e =>
      if e.isCaught then pure false else .raise e
    pure ()
  else pure ()
  pure {
    processed := true
    taskId := some task.taskId
    kind := some task.kind.text
    taskStatus := some (if deadLetter then "FAILED" else "RETRY")
    error := some message }

/-- `str(result.get("status") or "FAILED").upper() in {"FAILED", "TIMEOUT", "UNAVAILABLE"}` -/
def isRetryableStatus (status : Json) : Bool :=
  match status with
  | .str text => decide (text = "" ∨ rt.upper text ∈ ["FAILED", "TIMEOUT", "UNAVAILABLE"])
  | .null => true
  | .bool b => !b
  | .int n => decide (n = 0)
  | .float f => decide (f.mantissa = 0)
  | .arr items => items.isEmpty
  | .obj fields => fields.isEmpty

/-- The `try` block of `_process`. -/
def analyzeAndComplete (task : AnalysisTask) : WorkerMethod Input := do
  let raw ← onRepository rt fun _ => .reading fun repo =>
    .ok (getScanAnalysisInput task.scanId repo)
  let input ← .ofExcept
    (engine.coerceScanInput raw (some (task.tenantId, task.endpointId)) task.scanId)
  let result ← .ofExcept (engine.analyzeTool task.kind input)
  .ofExcept (Check.raiseIf (isRetryableStatus rt (JsonObject.get result "status") = true)
    (.retryable (task.kind.text ++ " analysis returned retryable status")))
  onRepository rt fun turn =>
    completeAnalysisTask task.taskId settings.workerId result turn.now
  pure input

/-- What `_process` does once the outcome of the tool is durable. -/
def finishTask (task : AnalysisTask) (input : Input) : WorkerMethod WorkerOutcome := do
  let (finalized, error) ← ((·, none) <$> finalizeReadyScan rt engine task.scanId (some input)).rescue
    fun e =>
      if e.isPermanent then do
        onRepository rt fun turn => finalizeScanReportFailure rt task.scanId (engine.describe e)
          turn.now turn.now turn.now
        pure (true, some (engine.describe e))
      else if e.isCaught then pure (false, some (engine.describe e))
      else .raise e
  pure {
    processed := true
    taskId := some task.taskId
    kind := some task.kind.text
    taskStatus := some "SUCCEEDED"
    finalized := finalized
    error := error }

/-- `_process` -/
def processTask (task : AnalysisTask) : WorkerMethod WorkerOutcome := do
  let attempt ← (Sum.inr <$> analyzeAndComplete rt settings engine task).rescue fun e =>
    Sum.inl <$> failTask rt settings engine task e
  match attempt with
  | .inl outcome => pure outcome
  | .inr input => finishTask rt engine task input

/-- The loop of `run_once` over the kinds, from the one whose turn it is. -/
def claimLoop : List Nat → WorkerMethod (Option AnalysisTask)
  | [] => pure none
  | index :: indexes => do
    let task ← onRepository rt fun turn => claimAnalysisTask (settings.kinds.getD index .osv)
      settings.workerId settings.leaseSeconds turn.readAt
    match task with
    | some task => do
      .modify fun world => { world with nextKindIndex := (index + 1) % settings.kinds.length }
      pure (some task)
    | none => claimLoop indexes

def claimNext : WorkerMethod (Option AnalysisTask) := do
  let start ← .reading fun world => .ok world.nextKindIndex
  claimLoop rt settings ((List.range settings.kinds.length).map fun offset =>
    (start + offset) % settings.kinds.length)

/-- What `run_once` does when no task is to be had: it finalizes a scan that is ready. -/
def reconcile : WorkerMethod WorkerOutcome := do
  let ready ← onRepository rt fun _ => .reading fun repo => .ok (nextScanReadyForFinalization repo)
  match ready with
  | none => pure { processed := false }
  | some scanId =>
    ((fun finalized => ({
        processed := true
        kind := some "REPORT"
        taskStatus := some "SUCCEEDED"
        finalized := finalized } : WorkerOutcome)) <$>
      finalizeReadyScan rt engine scanId none).rescue fun e =>
        if e.isPermanent then do
          onRepository rt fun turn => finalizeScanReportFailure rt scanId (engine.describe e)
            turn.now turn.now turn.now
          pure {
            processed := true
            kind := some "REPORT"
            taskStatus := some "FAILED"
            finalized := true
            error := some (engine.describe e) }
        else if e.isCaught then pure {
          processed := false
          kind := some "REPORT"
          taskStatus := some "RETRY"
          error := some (engine.describe e) }
        else .raise e

/-- `run_once` -/
def runOnce : WorkerMethod WorkerOutcome := do
  match ← claimNext rt settings with
  | some task => processTask rt settings engine task
  | none => reconcile rt engine

/-- `run_forever`, when the stop event is set after so many rounds. -/
def runForever : Nat → WorkerMethod Unit
  | 0 => pure ()
  | rounds + 1 => do
    let _ ← runOnce rt settings engine
    runForever rounds

end Worker

end OsScanner.Cloud

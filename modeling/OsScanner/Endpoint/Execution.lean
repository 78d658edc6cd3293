import Mathlib
import OsScanner.Cloud.Api
import OsScanner.Endpoint.Executability
import OsScanner.Endpoint.Policies
import OsScanner.Endpoint.Sbom
import OsScanner.Lib.Interrupt
import OsScanner.Storage.Operations

/-!
# Executing a job

`execute` of `app/orchestrator/scanner.py`, with the storage maintenance that it runs. Everything it
calls may raise, and the process may die anywhere; between two transactions the other threads of the
agent work on the same tables. A scan that has a stored result is not scanned again: its uploads are
queued again instead.
-/

namespace OsScanner.Endpoint

open Lib Lib.Check Storage

/-! ## The agent -/

/-- A validated result, with its dump. -/
structure FinishedScan where
  result : ScanResult
  /-- `result.model_dump(mode="json", exclude_none=True)` -/
  document : JsonObject
  status_eq : document.get "status" = .str result.status.value

/-- What the methods of the orchestrator read of it. -/
structure Agent (Bundle : Type) where
  rt : Runtime
  text : SbomText
  /-- `str(value)` of a value that is not a text -/
  pyStr : Json → String
  /-- `value.isoformat()` -/
  timeText : Timestamp → String
  /-- The instant of an ISO text with a timezone. -/
  parseTime : String → Option Timestamp
  /-- `str(sanitize_for_log(exc))[:2048]` -/
  safe : String → String
  /-- `ScanResult.model_validate(payload)` -/
  validate : Json → Except String FinishedScan
  /-- `ScanJob.model_validate(payload)`, absent where it raises. -/
  validateJob : JsonObject → Option ScanJob
  validateJob_scanId : ∀ fields job, validateJob fields = some job →
    fields.get "scan_id" = .str job.scanId
  lib : PolicyLibrary Bundle
  orchestrator : Orchestrator Bundle
  schemaVersion : String := "1.0"
  scannerVersion : String := "1.1.0"
  maxRequestBytes : Nat
  scanSubmitPath : String
  scanStatusPath : String
  /-- The settings of the retention. -/
  retentionDays : Int := 90
  succeededUploadRetentionDays : Int := 7
  maxCompletedScans : Int := 10000
  maintenanceBatchSize : Int := 1000
  legalHoldScanIds : List String := []

/-- The places where an attempt may be interrupted, each in front of what it is named after. -/
inductive Stage where
  | rejection
  | create | readResult | decode
  | reuseReport | readChange | reuseLog
  | purgeUploads | pruneScans | pruneReports | maintenanceAudit | capacity
  | readJob | start | startAudit | startLog
  | collect | report | endpoint | save
  | queueResult | queueStatus | statusHistory | update
  | completionAudit | deadline | metrics | completionLog
  | failureClock | failureUpdate | failureAudit | failureMetrics
  deriving DecidableEq

/-- What happens around a call: interruptions, the other threads, clocks and random identifiers. -/
structure Surroundings where
  outcome : Stage → Method.Outcome String := fun _ => .passes
  /-- What the other threads do before the stage. -/
  meanwhile : Stage → List Background := fun _ => []
  /-- `utc_now_iso()`, `time()` and `uuid4()` at the stage -/
  now : Stage → String := fun _ => ""
  time : Stage → ℚ := fun _ => 0
  uuid : Stage → String := fun _ => ""

/-- One call of `execute`, with everything that it does not decide itself. -/
structure ScanAttempt (timeText : Timestamp → String) extends Surroundings where
  job : ScanJob
  identifier : Cloud.isIdentifier job.scanId = true
  /-- `job.model_dump(mode="json", exclude_none=True)` -/
  dump : JsonObject
  dumps : Model.DumpsFields (job.fields timeText) dump
  attemptedAt : Timestamp
  finishedAt : Timestamp
  failedAt : Timestamp
  /-- What collecting and analyzing come to. -/
  collected : ResultStore → Except String FinishedScan
  projections : Except StorageError Unit := .ok ()
  prunedReports : Nat := 0
  localBytes : Int := 0
  /-- What the audit event of a completed scan says besides. -/
  duration : Json := .null
  tools : JsonObject := []
  collectorStates : JsonObject := []
  reportName : String := ""

/-! ## Interruptions -/

/-- An exception inside `execute`. -/
inductive Failure where
  | exception (message : String)
  /-- `_CompletedScanReconciliationError` -/
  | reconciliation (message : String)

def Failure.message : Failure → String
  | .exception message => message
  | .reconciliation message => message

abbrev ExecutionMethod := Method ResultStore (Interrupt Failure)

def raiseException {α : Type} (message : String) : ExecutionMethod α :=
  .raise (.raised (.exception message))

/-- A method of the storage. -/
def ofStorage {α : Type} (m : ResultMethod α) : ExecutionMethod α :=
  m.lifted fun e => .raised (.exception e.message)

def SbomError.text : SbomError → String
  | .valueError message => message
  | .sbomLimit message => message
  | .reportTooLarge message => message

def ofSbom {α : Type} (x : Except SbomError α) : ExecutionMethod α :=
  .ofExcept (x.mapError fun e => .raised (.exception e.text))

/-- A stage inside a transaction. -/
def Surroundings.reach (env : Surroundings) (stage : Stage) : ExecutionMethod Unit :=
  (Method.reaching (env.outcome stage)).lifted fun
    | .raised message => .raised (.exception message)
    | .died => .died

/-- A stage between two transactions. -/
def Surroundings.pause (env : Surroundings) (rt : Runtime) (stage : Stage) :
    ExecutionMethod Unit := do
  .modify fun store => (env.meanwhile stage).foldl (Background.step rt) store
  env.reach stage

section

variable {Bundle : Type} (agent : Agent Bundle) (env : Surroundings) (job : ScanJob)
  (attempt : ScanAttempt agent.timeText)

/-! ## Uploads -/

/-- The fields of a result that its envelope shows. -/
def summaryFields : List String :=
  ["schema_version", "scanner_version", "scan_id", "endpoint_id", "scan_type", "timestamp",
    "started_at", "finished_at", "status", "policy_id", "policy_version", "policy_checksum",
    "authorization_scope_id", "findings", "risk", "collectors", "metadata"]

/-- The document that is uploaded for a result, and what its key is made of. -/
def uploadDocument (scan : FinishedScan) :
    Option SnapshotChange → ExecutionMethod (JsonObject × String)
  | none => pure (scan.document, "attack-surface")
  | some change => do
    let sync ← ofStorage (.reading fun store =>
      snapshotUploadPayload store.toScanStore change.snapshotId)
    let upload ← ofSbom (resultUpload agent.rt agent.text scan.result
      (scan.document.filter fun e => decide (e.1 ∈ summaryFields)) sync agent.maxRequestBytes)
    pure (upload, change.snapshotHash)

def enqueue (stage : Stage) (request : UploadRequest) : ExecutionMethod Unit :=
  ofStorage ((fun _ => ()) <$> Method.on ResultStore.database
    (.atomically (enqueueUpload agent.rt request (env.uuid stage) (env.time stage))))

/-- `_queue_result(job, result, change)` -/
def queueResult (scan : FinishedScan) (change : Option SnapshotChange) : ExecutionMethod Unit := do
  env.reach .queueResult
  let (upload, snapshotKey) ← uploadDocument agent scan change
  let _ ← ofSbom (serializeReport agent.rt upload agent.maxRequestBytes)
  enqueue agent env .queueResult
    { kind := "scan_result"
      payload := .document (.obj upload)
      idempotencyKey := "scan-result:" ++ agent.rt.hashText (job.scanId ++ ":" ++ snapshotKey)
      endpoint := agent.scanSubmitPath
      metadata := [("scan_id", .str job.scanId), ("endpoint_id", Json.ofOption job.endpointId),
        ("authorization_scope_id", .str job.authorization.scopeId)] }

/-- The policy that a terminal status names. -/
structure NamedPolicy where
  policyId : String
  policyVersion : Option String
  policyChecksum : Option String

/-- `resolve_policy(job)` -/
def resolvePolicy : Option Bundle :=
  agent.orchestrator.resolvePolicy agent.lib job.policyId job.policyVersion

/-- The policy of the result, or else the one of the job. -/
def namedPolicy (status : OverallStatus) : Option ScanResult → ExecutionMethod NamedPolicy
  | some result => do
    .ofExcept (raiseIf (result.scanId ≠ job.scanId ∨ result.status ≠ status)
      (.raised (.exception "terminal status result does not match the scan lifecycle")))
    pure ⟨result.policyId, result.policyVersion, result.policyChecksum⟩
  | none => pure (match resolvePolicy agent job with
    | some bundle => ⟨agent.lib.policyId bundle, some (agent.lib.policyVersion bundle),
        some (agent.lib.checksum agent.rt bundle)⟩
    | none => ⟨job.policyId, job.policyVersion, none⟩)

/-- What the cloud is told about a scan that has ended. -/
def terminalStatus (status : OverallStatus) (policy : NamedPolicy) : JsonObject :=
  [("schema_version", .str agent.schemaVersion), ("scanner_version", .str agent.scannerVersion),
    ("scan_id", .str job.scanId), ("endpoint_id", Json.ofOption job.endpointId),
    ("target", Json.ofOption job.target),
    ("authorization_scope_id", .str job.authorization.scopeId),
    ("policy_id", .str policy.policyId), ("policy_version", Json.ofOption policy.policyVersion),
    ("policy_checksum", Json.ofOption policy.policyChecksum), ("status", .str status.value),
    ("requested_at", .str (agent.timeText job.requestedAt))]

/-- What the keys of a terminal status are made of. -/
def statusDigest (scanId : String) (status : OverallStatus) : String :=
  agent.rt.hashText (scanId ++ ":" ++ status.value)

/-- The key of the history row that says that a terminal status was queued. -/
def statusKey (scanId : String) (status : OverallStatus) : String :=
  "terminal-status-queued:" ++ statusDigest agent scanId status

/--
`_queue_terminal_status(job, status, result=result)`; `between` is a stage of the transaction that
the call is in, or one between its two transactions.
-/
def queueTerminalStatus (between : Stage → ExecutionMethod Unit) (status : OverallStatus)
    (result : Option ScanResult) : ExecutionMethod Unit := do
  between .queueStatus
  let policy ← namedPolicy agent job status result
  let payload := terminalStatus agent job status policy
  let _ ← ofSbom (serializeReport agent.rt payload agent.maxRequestBytes)
  enqueue agent env .queueStatus
    { kind := "scan_status"
      payload := .document (.obj payload)
      idempotencyKey := "scan-status:" ++ statusDigest agent job.scanId status
      endpoint := agent.scanStatusPath
      metadata := [("scan_id", .str job.scanId), ("endpoint_id", Json.ofOption job.endpointId),
        ("terminal_status", .str status.value)] }
  between .statusHistory
  ofStorage (appendScanHistory agent.rt (env.now .statusHistory) job.scanId
    "TERMINAL_STATUS_QUEUED" (some status.value) [("endpoint", .str agent.scanStatusPath)]
    (some (statusKey agent job.scanId status)))

/-! ## Job rows and audit events -/

def updateJob (stage : Stage) (status : String)
    (startedAt completedAt resultStatus : Option String) :
    ExecutionMethod Unit :=
  ofStorage (Method.on ResultStore.scanJobs (updateScanJob (env.now stage) job.scanId status
    startedAt completedAt resultStatus))

def recordEvent (event : AuditEvent) : ExecutionMethod Unit :=
  ofStorage ((fun _ => ()) <$> Method.on ResultStore.database
    (.atomically (recordAuditEvent agent.rt event)))

/-- `_event_id(event, scan_id)` -/
def eventId (event scanId : String) : String :=
  event ++ ":" ++ String.ofList ((agent.rt.hashText scanId).toList.take 32)

/-- An event about the scan of this job. -/
def scanEvent (event eventType outcome : String) (details : JsonObject) (createdAt : Timestamp)
    (returnExisting : Bool) : AuditEvent where
  eventType := eventType
  outcome := outcome
  eventId := eventId agent event attempt.job.scanId
  actor := attempt.job.initiatedBy
  resourceType := some (if (attempt.job.target.getD "") = "" then "endpoint" else "domain")
  resourceId := if (attempt.job.target.getD "") = "" then attempt.job.endpointId
    else attempt.job.target
  scanId := some attempt.job.scanId
  endpointId := attempt.job.endpointId
  authorizationScopeId := some attempt.job.authorization.scopeId
  details := details
  createdAt := agent.timeText createdAt
  returnExisting := returnExisting

/-! ## Maintenance -/

/-- `current - timedelta(days=…)` -/
def cutoff (days : Int) : String := agent.timeText (attempt.attemptedAt - seconds (days * 86400))

/-- The audit event of maintenance that has removed something. -/
def recordMaintenance (pruned purged : Nat) : ExecutionMethod Unit :=
  if pruned ≠ 0 ∨ attempt.prunedReports ≠ 0 ∨ purged ≠ 0 then do
    attempt.pause agent.rt .maintenanceAudit
    recordEvent agent
      { eventType := "STORAGE_RETENTION_APPLIED"
        outcome := "SUCCESS"
        eventId := "storage-retention:" ++ attempt.uuid .maintenanceAudit
        resourceType := some "local-storage"
        resourceId := some "scanner-data"
        details := [("pruned_scans", .int pruned), ("pruned_reports", .int attempt.prunedReports),
          ("purged_uploads", .int purged), ("local_bytes", .int attempt.localBytes)]
        createdAt := agent.timeText attempt.attemptedAt }
  else pure ()

/-- `StorageMaintenance.run(now=…)` -/
def maintainStorage : ExecutionMethod Unit := do
  attempt.pause agent.rt .purgeUploads
  let purged ← ofStorage (Method.on ResultStore.database (.atomically (purgeSucceededUploads
    (cutoff agent attempt agent.succeededUploadRetentionDays) agent.maintenanceBatchSize)))
  attempt.pause agent.rt .pruneScans
  let pruned ← ofStorage (pruneCompletedScanRecords
    { olderThan := cutoff agent attempt agent.retentionDays
      maxCompletedScans := agent.maxCompletedScans
      protectedScanIds := agent.legalHoldScanIds
      limit := agent.maintenanceBatchSize })
  attempt.pause agent.rt .pruneReports
  recordMaintenance agent attempt pruned purged
  attempt.pause agent.rt .capacity

/-! ## A scan that has its result -/

/-- `get_snapshot_change_for_scan(scan_id)` -/
def snapshotChangeForScan (scanId : String) (store : ScanStore) :
    Except StorageError (Option SnapshotChange) := do
  let scanId ← cleanIdentifier (.str scanId) "scan_id"
  .ok ((store.ofScan? scanId).map fun e => store.changeOf e.1 e.2)

/-- The report and the uploads of a scan that is complete. -/
def reconcile (scan : FinishedScan) : ExecutionMethod Unit := do
  attempt.pause agent.rt .reuseReport
  .transaction do
    attempt.reach .readChange
    let change ← ofStorage (.reading fun store =>
      snapshotChangeForScan attempt.job.scanId store.toScanStore)
    queueResult agent attempt.toSurroundings attempt.job scan change
    queueTerminalStatus agent attempt.toSurroundings attempt.job attempt.reach scan.result.status
      (some scan.result)
    attempt.reach .update
    updateJob attempt.toSurroundings attempt.job .update "COMPLETED" none
      (scan.result.finishedAt.map agent.timeText) (some scan.result.status.value)

def reuseResult (stored : Json) : ExecutionMethod FinishedScan := do
  attempt.reach .decode
  let scan ← .ofExcept ((agent.validate stored).mapError fun e => .raised (.exception e))
  (reconcile agent attempt scan).catching fun failure =>
    .raise (.raised (.reconciliation (agent.safe failure.message)))
  attempt.pause agent.rt .reuseLog
  pure scan

/-! ## A scan that has none -/

/-- The time at which the scan was started first. -/
def startedAt (store : ResultStore) : Timestamp :=
  (((store.jobs.get? attempt.job.scanId).bind JobRow.startedAt).bind agent.parseTime).getD
    attempt.attemptedAt

/-- The last transaction of a scan: its result, its uploads and its end. -/
def complete (policy : Bundle) (scan : FinishedScan) : ExecutionMethod Unit :=
  .transaction do
    attempt.reach .endpoint
    attempt.reach .save
    let change ← ofStorage (saveScanResult agent.rt agent.pyStr (attempt.now .save)
      attempt.job.scanId attempt.job.endpointId scan.document attempt.projections)
    queueResult agent attempt.toSurroundings attempt.job scan change
    queueTerminalStatus agent attempt.toSurroundings attempt.job attempt.reach scan.result.status
      (some scan.result)
    attempt.reach .update
    updateJob attempt.toSurroundings attempt.job .update "COMPLETED" none
      (some (agent.timeText attempt.finishedAt)) (some scan.result.status.value)
    attempt.reach .completionAudit
    recordEvent agent (scanEvent agent attempt "scan-completed" "SCAN_COMPLETED"
      scan.result.status.value
      [("duration_seconds", attempt.duration),
        ("policy_version", .str (agent.lib.policyVersion policy)),
        ("policy_checksum", .str (agent.lib.checksum agent.rt policy)),
        ("tools", .obj attempt.tools), ("collectors", .obj attempt.collectorStates),
        ("report", .str attempt.reportName), ("target", Json.ofOption attempt.job.target)]
      attempt.finishedAt false)
    attempt.reach .deadline

def scanAfresh (policy : Bundle) : ExecutionMethod FinishedScan := do
  maintainStorage agent attempt
  attempt.pause agent.rt .readJob
  let startedAt ← .reading fun store => .ok (startedAt agent attempt store)
  attempt.pause agent.rt .start
  .transaction do
    updateJob attempt.toSurroundings attempt.job .start "RUNNING"
      (some (agent.timeText startedAt)) none none
    attempt.reach .startAudit
    recordEvent agent (scanEvent agent attempt "scan-started" "SCAN_STARTED" "SUCCESS"
      [("scan_type", .str attempt.job.scanType.value), ("policy_id", .str attempt.job.policyId)]
      startedAt true)
  attempt.pause agent.rt .startLog
  attempt.pause agent.rt .collect
  let scan ← .reading fun store =>
    (attempt.collected store).mapError fun e => .raised (.exception e)
  attempt.pause agent.rt .report
  complete agent attempt policy scan
  attempt.pause agent.rt .metrics
  attempt.pause agent.rt .completionLog
  pure scan

/-! ## The whole call -/

/-- The body of the outer `try`. -/
def attemptScan (policy : Bundle) : ExecutionMethod FinishedScan := do
  attempt.pause agent.rt .create
  let _ ← ofStorage (Method.on ResultStore.scanJobs (createScanJob agent.rt agent.pyStr
    (attempt.now .create) (jobPayload attempt.job attempt.dump)))
  attempt.pause agent.rt .readResult
  let existing ← ofStorage (.reading (normalizedResult attempt.job.scanId))
  match existing with
  | some stored => reuseResult agent attempt stored
  | none => scanAfresh agent attempt policy

/-- The transaction that ends a failed scan. -/
def persistFailure (message : String) : ExecutionMethod Unit := do
  attempt.pause agent.rt .failureUpdate
  .transaction do
    updateJob attempt.toSurroundings attempt.job .failureUpdate "FAILED" none
      (some (agent.timeText attempt.failedAt)) (some OverallStatus.failed.value)
    attempt.reach .failureAudit
    recordEvent agent (scanEvent agent attempt "scan-failed" "SCAN_FAILED" "FAILED"
      [("error", .str message), ("target", Json.ofOption attempt.job.target)] attempt.failedAt true)

/-- The terminal status of a scan whose failure is stored. -/
def queueFailure (persisted : Bool) : ExecutionMethod Unit :=
  if persisted = true then
    (queueTerminalStatus agent attempt.toSurroundings attempt.job (attempt.pause agent.rt) .failed
      none).catching fun _ => pure ()
  else pure ()

/-- What `execute` does about an exception. -/
def handleFailure : Failure → ExecutionMethod FinishedScan
  | .reconciliation message => raiseException ("completed scan " ++ attempt.job.scanId ++
      " reconciliation failed: " ++ agent.safe message)
  | .exception message => do
    attempt.pause agent.rt .failureClock
    let persisted ← Method.catching (do
      persistFailure agent attempt (agent.safe message)
      pure true) fun _ => pure false
    queueFailure agent attempt persisted
    attempt.pause agent.rt .failureMetrics
    raiseException ("scan " ++ attempt.job.scanId ++ " failed: " ++ agent.safe message)

/-- What is checked before anything is done. -/
def admissible : Except String Bundle := do
  attempt.job.validateForExecution attempt.attemptedAt
  match resolvePolicy agent attempt.job with
  | some policy => .ok policy
  | none => .error "requested policy ID/version is not validated and cached locally"

/-- `execute(job)` -/
def execute : ExecutionMethod FinishedScan :=
  match admissible agent attempt with
  | .error reason => do
    attempt.pause agent.rt .rejection
    recordEvent agent (scanEvent agent attempt "scan-rejected" "SCAN_REJECTED" "REJECTED"
      [("reason", .str (agent.safe reason))] attempt.attemptedAt true)
    raiseException reason
  | .ok policy => (attemptScan agent attempt policy).catching (handleFailure agent attempt)

/-! ## Repairing what a failure has left out -/

/-- `SELECT … FROM scan_jobs …`: terminal scans whose status was never queued. -/
def statusMissing (store : ResultStore) (scanId : String) (row : JobRow) : Bool :=
  row.terminal && row.resultStatus.isSome && !store.history.any fun history =>
    decide (history.scanId = scanId ∧ history.event = "TERMINAL_STATUS_QUEUED")

/-- `ORDER BY updated_at,scan_id` -/
def updateOrder (a b : String × JobRow) : Prop :=
  a.2.updatedAt < b.2.updatedAt ∨ (a.2.updatedAt = b.2.updatedAt ∧ a.1 ≤ b.1)

instance decidableUpdateOrder : DecidableRel updateOrder := fun a b => inferInstanceAs
  (Decidable (a.2.updatedAt < b.2.updatedAt ∨ (a.2.updatedAt = b.2.updatedAt ∧ a.1 ≤ b.1)))

/-- `terminal_scan_jobs(limit=…)` -/
def terminalScanJobs (limit : Int) (store : ResultStore) :
    Except StorageError (List (String × JobRow)) := do
  raiseIf (¬ (1 ≤ limit ∧ limit ≤ 10000))
    ⟨.valueError, "terminal job limit must be between 1 and 10,000"⟩
  .ok (((store.jobs.entries.filter fun e => statusMissing store e.1 e.2).insertionSort
    updateOrder).take limit.toNat)

/-- `OverallStatus(text)`, if it ends a scan. -/
def endStatus (text : Option String) : Option OverallStatus :=
  if text = some "SUCCESS" then some .success
  else if text = some "PARTIAL" then some .partialResult
  else if text = some "FAILED" then some .failed
  else none

/-- The document of a job without what `execute` has put into it. -/
def jobFields : Json → Option JsonObject
  | .obj fields => some (fields.filter fun e => decide (e.1 ≠ "status" ∧ e.1 ≠ "initiator"))
  | _ => none

/-- The job and the status of a row, where both can be read. -/
def readTerminal (row : JobRow) : Option (ScanJob × OverallStatus) := do
  let fields ← jobFields row.job
  let job ← agent.validateJob fields
  let status ← endStatus row.resultStatus
  some (job, status)

/-- The stored result of a scan that did not fail, where it can be read. -/
def readResult (job : ScanJob) (status : OverallStatus) (store : ResultStore) :
    Except (Interrupt Failure) (Option ScanResult) :=
  if status = .failed then .ok none
  else match normalizedResult job.scanId store with
    | .error e => .error (.raised (.exception e.message))
    | .ok none => .ok none
    | .ok (some stored) => match agent.validate stored with
      | .ok scan => .ok (some scan.result)
      | .error _ => .ok none

/-- The loop of `reconcile_terminal_statuses`, with the surroundings of each round. -/
def reconcileRows (envs : Nat → Surroundings) : Nat → List (String × JobRow) → ExecutionMethod Nat
  | reconciled, [] => pure reconciled
  | reconciled, (_, row) :: rows =>
    match readTerminal agent row with
    | none => reconcileRows envs reconciled rows
    | some (job, status) => do
      (envs reconciled).pause agent.rt .readResult
      let result ← .reading (readResult agent job status)
      queueTerminalStatus agent (envs reconciled) job ((envs reconciled).pause agent.rt) status
        result
      reconcileRows envs (reconciled + 1) rows

/-- `reconcile_terminal_statuses(limit=…)` -/
def reconcileTerminalStatuses (envs : Nat → Surroundings) (limit : Int) : ExecutionMethod Nat := do
  let rows ← ofStorage (.reading (terminalScanJobs limit))
  reconcileRows agent envs 0 rows

end

end OsScanner.Endpoint

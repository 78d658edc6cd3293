import Mathlib
import OsScanner.Cloud.Inventory
import OsScanner.Cloud.Dispatch

/-!
# The in-memory repository

The methods of `InMemoryRepository`. The lock that each method takes makes it one step, and
what it wrote before an exception stays written. A reading of the clock inside a method is an
argument: `now` where the method looks at it, `auditedAt` for the time of its audit events.
-/

namespace OsScanner.Cloud

open Lib

/-! ## Idempotency and audit -/

/-- `self._replay(tenant, operation, key, digest)` -/
def replay (tenant operation key digest : String) : RepositoryMethod (Option Response) :=
  .reading fun repo =>
    match repo.idempotency.get? ⟨tenant, operation, key⟩ with
    | none => .ok none
    | some (existingDigest, response) =>
      if existingDigest ≠ digest then
        fail .idempotencyConflict "idempotency key was reused with different content"
      else .ok (some response)

/-- `self._remember(tenant, operation, key, digest, response)` -/
def remember (tenant operation key digest : String) (response : Response) :
    RepositoryMethod Unit :=
  .modify fun repo =>
    { repo with idempotency := repo.idempotency.set ⟨tenant, operation, key⟩ (digest, response) }

/-- `self._audit(…)` -/
def audit (auditedAt : Timestamp) (tenantId eventType actorType : String) (actorId : Json)
    (resourceType : String) (resourceId : Json) (details : JsonObject) : RepositoryMethod Unit :=
  .modify fun repo =>
    { repo with
      auditEvents := repo.auditEvents ++ [{
        eventId := "audit-" ++ toString (repo.auditEvents.length + 1)
        tenantId := tenantId
        eventType := eventType
        actorType := actorType
        actorId := actorId
        resourceType := resourceType
        resourceId := resourceId
        occurredAt := auditedAt
        details := details }] }

/--
The frame of the operations that take an idempotency key: a recorded response answers before
anything else is looked at.
-/
def idempotent {α : Type} (tenant operation key digest : String)
    (response : Response → Except RepositoryError α) (fresh : RepositoryMethod α) :
    RepositoryMethod α := do
  match ← replay tenant operation key digest with
  | some recorded => .ofExcept (response recorded)
  | none => fresh

/-! A recorded response is read back at the type that its operation recorded. -/

def Response.asGrant : Response → Except RepositoryError EnrollmentGrantRecord
  | .grant value => .ok value
  | _ => fail .typeError "not an enrollment grant"

def Response.asCredential : Response → Except RepositoryError CredentialRecord
  | .credential value => .ok value
  | _ => fail .typeError "not a credential"

def Response.asScan : Response → Except RepositoryError ScanRecord
  | .scan value => .ok value
  | _ => fail .typeError "not a scan"

def Response.asAccepted : Response → Except RepositoryError Unit := fun _ => .ok ()

/-- `document[name]` -/
def requireKey (document : JsonObject) (name : String) : Except RepositoryError Json :=
  match Assoc.lookup name document with
  | some value => .ok value
  | none => fail .keyError name

/-! ## Authentication -/

/-- `authenticate_device(token_hash, now)` -/
def authenticateDevice (repo : InMemoryRepository) (tokenHash : String) (now : Timestamp) :
    Option DevicePrincipal :=
  match repo.credentials.get? tokenHash with
  | none => none
  | some credential =>
    if now ≥ credential.expiresAt then none
    else if ∃ validUntil ∈ credential.validUntil, now ≥ validUntil then none
    else some ⟨credential.tenantId, credential.endpointId, credential.credentialId,
      credential.generation⟩

/-- `authenticate_enrollment_grant(token_hash, now)` -/
def authenticateEnrollmentGrant (repo : InMemoryRepository) (tokenHash : String)
    (now : Timestamp) : Option EnrollmentGrantRecord :=
  match repo.enrollmentGrants.get? tokenHash with
  | none => none
  | some grant => if now ≥ grant.expiresAt then none else some grant

/-! ## Enrollment -/

/-- `create_enrollment_grant` -/
def createEnrollmentGrant (rt : Runtime) (grant : EnrollmentGrantRecord)
    (idempotencyKey requestHash : String) (auditedAt : Timestamp) :
    RepositoryMethod EnrollmentGrantRecord :=
  idempotent grant.tenantId "create-enrollment-grant" idempotencyKey requestHash
      Response.asGrant do
    .reading fun repo => raiseIf (repo.enrollmentGrants.contains grant.tokenHash) .stateConflict
      "generated enrollment grant already exists"
    .modify fun repo =>
      { repo with enrollmentGrants := repo.enrollmentGrants.set grant.tokenHash grant }
    remember grant.tenantId "create-enrollment-grant" idempotencyKey requestHash (.grant grant)
    audit auditedAt grant.tenantId "ENDPOINT_ENROLLMENT_GRANT_CREATED" "platform"
      (.str grant.issuedBy) "enrollment-grant" (.str grant.grantId)
      [("expires_at", .str (rt.isoformat grant.expiresAt)),
        ("os_family", Json.ofOption (grant.osFamily.map OsFamily.text))]
    pure grant

/-- The checks on the grant that a caller presents. -/
def presentedGrant (tenantId : String) (endpoint : EndpointRecord) (credential : CredentialRecord)
    (enrollmentGrantHash : Option String) (repo : InMemoryRepository) :
    Except RepositoryError (Option EnrollmentGrantRecord) :=
  match enrollmentGrantHash with
  | none => .ok none
  | some hash =>
    match repo.enrollmentGrants.get? hash with
    | none => fail .ownership "enrollment grant is invalid"
    | some grant => do
      raiseIf (grant.tenantId ≠ tenantId) .ownership "enrollment grant is invalid"
      raiseIf (credential.issuedAt ≥ grant.expiresAt) .stateConflict "enrollment grant has expired"
      raiseIf (grant.consumedAt ≠ none) .stateConflict "enrollment grant has already been used"
      raiseIf (grant.osFamily ≠ none ∧ grant.osFamily ≠ some endpoint.osFamily) .stateConflict
        "enrollment grant is for a different operating system"
      .ok (some grant)

/-- The grant of a hash, marked as consumed by an endpoint. -/
def consumeGrant (grants : Dict String EnrollmentGrantRecord) (enrollmentGrantHash : Option String)
    (grant : Option EnrollmentGrantRecord) (issuedAt : Timestamp) (endpointId : String) :
    Dict String EnrollmentGrantRecord :=
  match enrollmentGrantHash, grant with
  | some hash, some grant =>
    grants.set hash { grant with consumedAt := some issuedAt, endpointId := some endpointId }
  | _, _ => grants

/-- `enroll_endpoint` -/
def enrollEndpoint (tenantId : String) (endpoint : EndpointRecord) (credential : CredentialRecord)
    (idempotencyKey requestHash : String) (enrollmentGrantHash : Option String)
    (auditedAt : Timestamp) : RepositoryMethod CredentialRecord :=
  idempotent tenantId "enroll" idempotencyKey requestHash Response.asCredential do
    let grant ← .reading (presentedGrant tenantId endpoint credential enrollmentGrantHash)
    .reading fun repo => raiseIf (repo.endpoints.contains endpoint.endpointId ∨
        repo.credentials.contains credential.tokenHash) .stateConflict
      "generated endpoint or credential already exists"
    .modify fun repo =>
      { repo with endpoints := repo.endpoints.set endpoint.endpointId endpoint }
    .modify fun repo =>
      { repo with credentials := repo.credentials.set credential.tokenHash credential }
    .modify fun repo =>
      { repo with
        enrollmentGrants := consumeGrant repo.enrollmentGrants enrollmentGrantHash grant
          credential.issuedAt endpoint.endpointId }
    remember tenantId "enroll" idempotencyKey requestHash (.credential credential)
    audit auditedAt tenantId "ENDPOINT_ENROLLED"
      (if grant.isSome then "enrollment-grant" else "bootstrap")
      (.str ((grant.map (·.grantId)).getD tenantId)) "endpoint" (.str endpoint.endpointId) []
    pure credential

/-! ## Rotation -/

def rotateOperation (endpointId : String) : String := "rotate:" ++ endpointId

/-- The checks of a rotation; they read the endpoint and the current credential with its hash. -/
def rotationSource (principal : DevicePrincipal) (expectedGeneration : Nat)
    (expectedCredentialId : String) (credential : CredentialRecord) (repo : InMemoryRepository) :
    Except RepositoryError (EndpointRecord × String × CredentialRecord) :=
  match repo.endpoints.get? principal.endpointId with
  | none => fail .ownership "endpoint is not owned by authenticated tenant"
  | some endpoint => do
    raiseIf (endpoint.tenantId ≠ principal.tenantId) .ownership
      "endpoint is not owned by authenticated tenant"
    raiseIf (expectedGeneration ≠ principal.generation ∨
        endpoint.credentialGeneration ≠ principal.generation) .stateConflict
      "credential generation is stale"
    raiseIf (expectedCredentialId ≠ principal.credentialId) .stateConflict
      "credential identifier is stale"
    raiseIf (credential.generation ≠ principal.generation + 1) .stateConflict
      "new credential generation is invalid"
    match repo.credentials.entries.find? fun e => e.2.credentialId = principal.credentialId with
    | none => fail .stateConflict "current credential no longer exists"
    | some (currentHash, current) =>
      raiseIf (current.tenantId ≠ principal.tenantId ∨ current.endpointId ≠ principal.endpointId ∨
          current.generation ≠ principal.generation) .stateConflict
        "authenticated credential is stale"
      .ok (endpoint, currentHash, current)

/-- `rotate_credential` -/
def rotateCredential (principal : DevicePrincipal) (expectedGeneration : Nat)
    (expectedCredentialId : String) (credential : CredentialRecord) (overlapSeconds : Int)
    (idempotencyKey requestHash : String) (auditedAt : Timestamp) :
    RepositoryMethod CredentialRecord :=
  idempotent principal.tenantId (rotateOperation principal.endpointId) idempotencyKey requestHash
      Response.asCredential do
    let (endpoint, currentHash, current) ←
      .reading (rotationSource principal expectedGeneration expectedCredentialId credential)
    let overlapUntil := credential.issuedAt + seconds overlapSeconds
    .modify fun repo =>
      { repo with
        credentials := repo.credentials.set currentHash
          { current with
            supersededAt := some credential.issuedAt
            validUntil := some (min current.expiresAt overlapUntil) } }
    .modify fun repo =>
      { repo with credentials := repo.credentials.set credential.tokenHash credential }
    .modify fun repo =>
      { repo with
        endpoints := repo.endpoints.set endpoint.endpointId
          { endpoint with
            credentialGeneration := credential.generation
            lastSeenAt := credential.issuedAt } }
    remember principal.tenantId (rotateOperation principal.endpointId) idempotencyKey requestHash
      (.credential credential)
    audit auditedAt principal.tenantId "ENDPOINT_CREDENTIAL_ROTATED" "endpoint"
      (.str principal.endpointId) "endpoint" (.str principal.endpointId)
      [("generation", .int credential.generation)]
    pure credential

/-! ## Jobs -/

/-- `record.job_document["authorization"]["authorization_reference"]` -/
def authorizationReference (document : JsonObject) : Except RepositoryError Json := do
  match ← requireKey document "authorization" with
  | .obj authorization => requireKey authorization "authorization_reference"
  | _ => fail .typeError "authorization is not an object"

/-- `create_scan_job` -/
def createScanJob (tenantId : String) (record : ScanRecord) (idempotencyKey requestHash : String)
    (auditedAt : Timestamp) : RepositoryMethod ScanRecord :=
  idempotent tenantId "create-scan" idempotencyKey requestHash Response.asScan do
    .reading fun repo =>
      match repo.endpoints.get? record.endpointId with
      | none => fail .notFound "endpoint was not found"
      | some endpoint => raiseIf (endpoint.tenantId ≠ tenantId) .notFound "endpoint was not found"
    .reading fun repo => raiseIf (repo.scans.contains record.scanId) .stateConflict
      "scan identifier already exists"
    .modify fun repo => { repo with scans := repo.scans.set record.scanId record }
    remember tenantId "create-scan" idempotencyKey requestHash (.scan record)
    let reference ← .ofExcept (authorizationReference record.jobDocument)
    audit auditedAt tenantId "SCAN_AUTHORIZED" "platform"
      ((Assoc.lookup "initiated_by" record.jobDocument).getD (.str "platform"))
      "scan" (.str record.scanId)
      [("endpoint_id", .str record.endpointId), ("authorization_reference", reference)]
    pure record

/-- The records of the endpoint that a poll looks at. -/
def isDispatchCandidate (principal : DevicePrincipal) (record : ScanRecord) : Prop :=
  record.tenantId = principal.tenantId ∧ record.endpointId = principal.endpointId ∧
    (record.state = .queued ∨ record.state = .dispatched)

instance (principal : DevicePrincipal) (record : ScanRecord) :
    Decidable (isDispatchCandidate principal record) := by
  unfold isDispatchCandidate
  infer_instance

/-- The body of the loop for a record that is handed out. -/
def dispatchRecord (principal : DevicePrincipal) (now auditedAt : Timestamp)
    (record : ScanRecord) : RepositoryMethod ScanRecord := do
  let claimed := { record with state := .dispatched, updatedAt := now }
  .modify fun repo => { repo with scans := repo.scans.set record.scanId claimed }
  let timeout ← .ofExcept (requireKey record.jobDocument "timeout_seconds")
  audit auditedAt principal.tenantId
    (if record.state = .dispatched then "SCAN_REDISPATCHED" else "SCAN_DISPATCHED")
    "endpoint" (.str principal.endpointId) "scan" (.str record.scanId)
    [("lease_timeout_seconds", timeout), ("lease_grace_seconds", .int jobDispatchGraceSeconds)]
  pure claimed

/-- The body of the loop for a record whose authorization has ended. -/
def expireRecord (principal : DevicePrincipal) (now auditedAt : Timestamp)
    (record : ScanRecord) : RepositoryMethod Unit := do
  .modify fun repo =>
    { repo with
      scans := repo.scans.set record.scanId { record with state := .expired, updatedAt := now } }
  audit auditedAt principal.tenantId "SCAN_EXPIRED" "control-plane" (.str "dispatcher") "scan"
    (.str record.scanId) []

/-- The loop of `claim_next_job`: the first eligible record is handed out. -/
def dispatchLoop (rt : Runtime) (principal : DevicePrincipal) (now auditedAt : Timestamp) :
    List ScanRecord → RepositoryMethod (Option ScanRecord)
  | [] => pure none
  | record :: candidates =>
    if isDispatchCandidate principal record then
      match jobDispatchEligibility rt record principal.endpointId now with
      | .expired => do
        expireRecord principal now auditedAt record
        dispatchLoop rt principal now auditedAt candidates
      | .eligible => some <$> dispatchRecord principal now auditedAt record
      | .active | .waiting => dispatchLoop rt principal now auditedAt candidates
    else dispatchLoop rt principal now auditedAt candidates

/-- `sorted(self.scans.values(), key=lambda value: value.created_at)` -/
def dispatchOrder (repo : InMemoryRepository) : List ScanRecord :=
  repo.scans.values.insertionSort fun a b => a.createdAt ≤ b.createdAt

/-- The poll is a sign of life of the endpoint. -/
def touchEndpoint (principal : DevicePrincipal) (now : Timestamp) (repo : InMemoryRepository) :
    InMemoryRepository :=
  match repo.endpoints.get? principal.endpointId with
  | some endpoint =>
    if endpoint.tenantId = principal.tenantId then
      { repo with
        endpoints := repo.endpoints.set principal.endpointId { endpoint with lastSeenAt := now } }
    else repo
  | none => repo

/-- `claim_next_job` -/
def claimNextJob (rt : Runtime) (principal : DevicePrincipal) (now auditedAt : Timestamp) :
    RepositoryMethod (Option ScanRecord) := do
  .modify (touchEndpoint principal now)
  let candidates ← .reading fun repo => .ok (dispatchOrder repo)
  dispatchLoop rt principal now auditedAt candidates

/-! ## Evidence -/

/-- The record of a scan, if it belongs to the endpoint. -/
def ownedScan (principal : DevicePrincipal) (scanId : String) (repo : InMemoryRepository) :
    Except RepositoryError ScanRecord :=
  match repo.scans.get? scanId with
  | none => fail .ownership "scan is not owned by authenticated endpoint"
  | some record => do
    raiseIf (record.tenantId ≠ principal.tenantId ∨ record.endpointId ≠ principal.endpointId)
      .ownership "scan is not owned by authenticated endpoint"
    .ok record

/-- The checks on the tasks of an upload, one task after the other. -/
def checkTasks (principal : DevicePrincipal) (scanId : String) (tasks : List AnalysisTask)
    (repo : InMemoryRepository) : Except RepositoryError Unit :=
  tasks.forM fun task => do
    raiseIf (task.scanId ≠ scanId ∨ task.tenantId ≠ principal.tenantId ∨
        task.endpointId ≠ principal.endpointId) .stateConflict
      "analysis task does not match accepted scan"
    raiseIf (repo.tasks.contains task.taskId) .stateConflict
      "analysis task identifier already exists"

def ingestOperation (scanId : String) : String := "ingest:" ++ scanId

/-- `ingest_scan` -/
def ingestScan (rt : Runtime) (principal : DevicePrincipal) (scanId : String)
    (upload : JsonObject) (idempotencyKey requestHash : String) (tasks : List AnalysisTask)
    (now auditedAt : Timestamp) : RepositoryMethod ScanRecord :=
  idempotent principal.tenantId (ingestOperation scanId) idempotencyKey requestHash
      Response.asScan do
    let record ← .reading (ownedScan principal scanId)
    .ofExcept (raiseIf (record.upload ≠ none) .stateConflict
      "scan already has a different accepted upload")
    .ofExcept (validateScanUpload rt record upload now)
    let stateKey := (principal.tenantId, principal.endpointId)
    let reconstruction ← .reading fun repo =>
      reconstructInventory rt principal.tenantId principal.endpointId scanId
        (upload.get "inventory_sync") (repo.inventoryStates.get? stateKey) now
    let accepted := { record with
      state := .analyzing
      upload := some (upload.set "inventory_sync" (.obj reconstruction.inventorySync))
      updatedAt := now }
    .reading (checkTasks principal scanId tasks)
    .modify fun repo => { repo with scans := repo.scans.set scanId accepted }
    .modify fun repo =>
      { repo with inventoryStates := repo.inventoryStates.set stateKey reconstruction.state }
    .modify fun repo => { repo with tasks := Dict.setAll AnalysisTask.taskId id tasks repo.tasks }
    remember principal.tenantId (ingestOperation scanId) idempotencyKey requestHash
      (.scan accepted)
    let mode ← .ofExcept (requireKey reconstruction.inventorySync "mode")
    audit auditedAt principal.tenantId "SCAN_EVIDENCE_ACCEPTED" "endpoint"
      (.str principal.endpointId) "scan" (.str scanId)
      [("analysis_tasks", .arr (tasks.map fun task => .str task.kind.text)),
        ("inventory_mode", mode), ("snapshot_hash", .str reconstruction.state.snapshotHash)]
    pure accepted

def scanStatusOperation (scanId : String) : String := "scan-status:" ++ scanId

/-- `record_scan_status` -/
def recordScanStatus (principal : DevicePrincipal) (scanId : String) (status : JsonObject)
    (idempotencyKey requestHash : String) (now auditedAt : Timestamp) :
    RepositoryMethod ScanRecord :=
  idempotent principal.tenantId (scanStatusOperation scanId) idempotencyKey requestHash
      Response.asScan do
    let record ← .reading (ownedScan principal scanId)
    .ofExcept (validateScanStatus record status)
    let updated := { record with terminalStatus := some status, updatedAt := now }
    .modify fun repo => { repo with scans := repo.scans.set scanId updated }
    remember principal.tenantId (scanStatusOperation scanId) idempotencyKey requestHash
      (.scan updated)
    let terminal ← .ofExcept (requireKey status "status")
    audit auditedAt principal.tenantId "SCAN_ENDPOINT_STATUS_ACCEPTED" "endpoint"
      (.str principal.endpointId) "scan" (.str scanId) [("status", terminal)]
    pure updated

def rejectionOperation (documentSha256 : String) : String := "rejection:" ++ documentSha256

/-- The scan that a rejection names, if the repository has it. -/
def rejectedScan (principal : DevicePrincipal) (payload : ScanRejectionUpload)
    (repo : InMemoryRepository) : Except RepositoryError (Option ScanRecord) :=
  match payload.scanId with
  | none => .ok none
  | some scanId =>
    if scanId = "" then .ok none
    else match repo.scans.get? scanId with
      | none => .ok none
      | some record => do
        raiseIf (record.tenantId ≠ principal.tenantId ∨ record.endpointId ≠ principal.endpointId)
          .ownership "rejected scan is not owned by endpoint"
        .ok (some record)

/-- `record_rejection` -/
def recordRejection (principal : DevicePrincipal) (payload : ScanRejectionUpload)
    (idempotencyKey requestHash : String) (now auditedAt : Timestamp) : RepositoryMethod Unit :=
  idempotent principal.tenantId (rejectionOperation payload.documentSha256) idempotencyKey
      requestHash Response.asAccepted do
    let record ← .reading (rejectedScan principal payload)
    .modify fun repo =>
      match record with
      | none => repo
      | some record =>
        { repo with
          scans := repo.scans.set (payload.scanId.getD "")
            { record with state := .rejected, updatedAt := now } }
    .modify fun repo => { repo with rejections := repo.rejections ++ [payload] }
    remember principal.tenantId (rejectionOperation payload.documentSha256) idempotencyKey
      requestHash .accepted
    audit auditedAt principal.tenantId "SCAN_JOB_REJECTED" "endpoint" (.str principal.endpointId)
      "scan"
      (.str (match payload.scanId with
        | some scanId => if scanId = "" then payload.documentSha256 else scanId
        | none => payload.documentSha256))
      [("reason", .str payload.reason.text)]

/-! ## Analysis tasks -/

/-- `_sanitize_error(value)` -/
def sanitizeError (value : String) : String :=
  let cleaned := (value.toList.map fun c => if 32 ≤ c.toNat then c else ' ').take 512
  if cleaned = [] then "worker failure" else String.ofList cleaned

/-- A task that a worker of its kind may take. -/
def isClaimable (kind : TaskKind) (now : Timestamp) (task : AnalysisTask) : Bool :=
  decide (task.kind = kind) && decide (task.availableAt ≤ now) &&
    (decide (task.state = .pending) || decide (task.state = .retry) ||
      (decide (task.state = .running) && decide (∃ lease ∈ task.leaseExpiresAt, lease ≤ now)))

/-- `claim_analysis_task` -/
def claimAnalysisTask (kind : TaskKind) (workerId : String) (leaseSeconds : Int)
    (now : Timestamp) : RepositoryMethod (Option AnalysisTask) := do
  .ofExcept (raiseIf (workerId = "" ∨ workerId.length > 128 ∨ leaseSeconds < 10 ∨
    3600 < leaseSeconds) .valueError "invalid worker lease request")
  let candidates ← .reading fun repo =>
    .ok (repo.tasks.values.insertionSort fun a b => a.createdAt ≤ b.createdAt)
  match candidates.find? (isClaimable kind now) with
  | none => pure none
  | some task =>
    let claimed := { task with
      state := .running
      attempts := task.attempts + 1
      leasedBy := some workerId
      leaseExpiresAt := some (now + seconds leaseSeconds)
      updatedAt := now }
    .modify fun repo => { repo with tasks := repo.tasks.set task.taskId claimed }
    pure (some claimed)

/-- The running task that a worker reports on. -/
def leasedTask (taskId workerId : String) (repo : InMemoryRepository) :
    Except RepositoryError AnalysisTask :=
  match repo.tasks.get? taskId with
  | none => fail .notFound "analysis task was not found"
  | some task => do
    raiseIf (task.state ≠ .running ∨ task.leasedBy ≠ some workerId) .stateConflict
      "analysis task is not leased by this worker"
    .ok task

/-- `complete_analysis_task` -/
def completeAnalysisTask (taskId workerId : String) (result : JsonObject) (now : Timestamp) :
    RepositoryMethod Unit := do
  let task ← .reading (leasedTask taskId workerId)
  .modify fun repo =>
    { repo with
      tasks := repo.tasks.set taskId { task with
        state := .succeeded
        result := some result
        leaseExpiresAt := none
        leasedBy := none
        updatedAt := now } }

/-- `fail_analysis_task` -/
def failAnalysisTask (taskId workerId error : String) (retryAt : Timestamp) (deadLetter : Bool)
    (now : Timestamp) : RepositoryMethod Unit := do
  let task ← .reading (leasedTask taskId workerId)
  .modify fun repo =>
    { repo with
      tasks := repo.tasks.set taskId { task with
        state := if deadLetter then .failed else .retry
        availableAt := max now retryAt
        leaseExpiresAt := none
        leasedBy := none
        lastError := some (sanitizeError error)
        updatedAt := now } }

/-! ## Finalization -/

def TaskState.text : TaskState → String
  | .pending => "PENDING"
  | .running => "RUNNING"
  | .succeeded => "SUCCEEDED"
  | .retry => "RETRY"
  | .failed => "FAILED"

/-- `{task.kind: task.state for task in self.tasks.values() if task.scan_id == scan_id}` -/
def taskStates (repo : InMemoryRepository) (scanId : String) : Dict TaskKind TaskState :=
  (repo.tasks.values.filter fun task => decide (task.scanId = scanId)).foldl
    (fun states task => states.set task.kind task.state) ∅

/-- The two expected tasks are there and have ended. -/
def tasksTerminal (states : Dict TaskKind TaskState) : Bool :=
  states.contains .osv && states.contains .depscan && states.values.all TaskState.isTerminal

/-- The report of a scan whose results could not be normalized. -/
def failedNormalizationReport (rt : Runtime) (record : ScanRecord) (error : String)
    (completedAt : Timestamp) : JsonObject :=
  [("schema_version", .str "1.0"),
    ("report_type", .str "CLOUD_ENDPOINT_SECURITY_REPORT"),
    ("report_id", .str ("cloud-report:" ++ record.scanId)),
    ("tenant_id", .str record.tenantId),
    ("endpoint_id", .str record.endpointId),
    ("scan_id", .str record.scanId),
    ("status", .str "FAILED"),
    ("analysis_completed_at", .str (rt.isoformat completedAt)),
    ("endpoint_evidence", .obj []),
    ("cloud_analysis", .obj [("vulnerabilities", .arr []), ("tools", .obj [])]),
    ("summary", .obj [
      ("status", .str "FAILED"),
      ("vulnerability_count", .int 0),
      ("vulnerabilities_by_severity", .obj []),
      ("successful_tools", .arr []),
      ("degraded_tools", .arr [.str "REPORT_NORMALIZATION"])]),
    ("completeness", .obj [
      ("complete", .bool false),
      ("fixture_mode", .bool false),
      ("gaps", .arr [.str "cloud report normalization failed"])]),
    ("errors", .arr [.obj [
      ("code", .str "REPORT_NORMALIZATION_FAILED"),
      ("message", .str (sanitizeError error))]]),
    ("provenance", .obj [
      ("normalization_failure_recorded_at", .str (rt.isoformat completedAt))])]

/-- `self.scans.get(scan_id)`, or `NotFoundError`. -/
def knownScan (scanId : String) (repo : InMemoryRepository) : Except RepositoryError ScanRecord :=
  match repo.scans.get? scanId with
  | none => fail .notFound "scan was not found"
  | some record => .ok record

/-- `finalize_scan_report` -/
def finalizeScanReport (scanId : String) (report : JsonObject) (now auditedAt : Timestamp) :
    RepositoryMethod Unit := do
  let record ← .reading (knownScan scanId)
  match record.finalReport with
  | some existing =>
    .ofExcept (raiseIf (Json.pyEq (.obj existing) (.obj report) = false) .stateConflict
      "scan already has a different final report")
  | none =>
    let states ← .reading fun repo => .ok (taskStates repo scanId)
    .ofExcept (raiseIf (tasksTerminal states = false) .stateConflict
      "all expected analysis tasks must be terminal")
    .modify fun repo =>
      { repo with
        scans := repo.scans.set scanId { record with
          state := .complete
          finalReport := some report
          updatedAt := now } }
    audit auditedAt record.tenantId "SCAN_REPORT_FINALIZED" "worker" (.str "normalizer") "scan"
      (.str scanId)
      [("analysis_states",
        .obj (states.entries.map fun e => (e.1.text, .str e.2.text)))]

/-- `finalize_scan_report_failure` -/
def finalizeScanReportFailure (rt : Runtime) (scanId error : String)
    (completedAt now auditedAt : Timestamp) : RepositoryMethod Unit := do
  let record ← .reading (knownScan scanId)
  match record.finalReport with
  | some _ => pure ()
  | none =>
    .modify fun repo =>
      { repo with
        scans := repo.scans.set scanId { record with
          state := .complete
          finalReport := some (failedNormalizationReport rt record error completedAt)
          updatedAt := now } }
    audit auditedAt record.tenantId "SCAN_REPORT_NORMALIZATION_FAILED" "worker"
      (.str "normalizer") "scan" (.str scanId) [("error", .str (sanitizeError error))]

end OsScanner.Cloud

import Mathlib
import OsScanner.Storage.Audit

/-!
# The upload queue

`app/storage/upload_queue.py`, `queue.py` and `retry.py`. Each method is one transaction: it
returns a result with the new database, or raises and writes nothing. Clock readings and drawn
identifiers are arguments.
-/

namespace OsScanner.Storage

open Lib Lib.Check

/-! ## Causal groups -/

def causalUploadKinds : List String := ["inventory-snapshot", "scan-result", "scan-status"]

def unscopedCausalGroup : String := "endpoint:unscoped"

/-- `text.replace("_", "-")` -/
def replaceUnderscores (text : String) : String :=
  String.ofList (text.toList.map fun c => if c = '_' then '-' else c)

/-- `_normalized_kind(kind)` -/
def normalizedKind (rt : Runtime) (kind : String) : String :=
  replaceUnderscores (rt.casefold (strip kind))

/-- The `endpoint_id` of a document inside a document. -/
def nestedEndpoint (document : JsonObject) (field : String) : List Json :=
  match document.get field with
  | .obj inner => [JsonObject.get inner "endpoint_id"]
  | _ => []

/-- Where an upload may name its endpoint, the metadata first. -/
def groupCandidates (metadata : JsonObject) (payload : Payload) : List Json :=
  metadata.get "endpoint_id" :: match payload.parse with
    | some (.obj decoded) =>
      JsonObject.get decoded "endpoint_id" :: (nestedEndpoint decoded "result" ++
        nestedEndpoint decoded "inventory_sync")
    | _ => []

def endpointGroup (rt : Runtime) (candidate : Json) : Option String :=
  match cleanIdentifier candidate "endpoint_id" with
  | .ok endpointId => some ("endpoint:" ++ rt.hashText endpointId)
  | .error _ => none

/-- `_causal_group(kind, metadata, body)` -/
def causalGroup (rt : Runtime) (kind : String) (metadata : JsonObject) (payload : Payload) :
    Option String :=
  if normalizedKind rt kind ∈ causalUploadKinds then
    some (((groupCandidates metadata payload).filterMap (endpointGroup rt)).head?.getD
      unscopedCausalGroup)
  else none

/-! ## Rows without a group -/

/-- `lower(replace(kind,'_','-'))`: SQLite lowers ASCII letters only. -/
def sqlNormalizedKind (kind : String) : String :=
  String.ofList ((replaceUnderscores kind).toList.map Char.toLower)

/-- The newest upload of a group. -/
def newestUpload (uploads : Table UploadRow) (group : String) : Option (Nat × UploadRow) :=
  uploads.last? fun _ row => decide (row.causalGroup = some group)

def backfillRow (rt : Runtime) (uploads : Table UploadRow) (id : Nat) (row : UploadRow) :
    Table UploadRow :=
  match causalGroup rt row.kind row.metadata row.payload with
  | none => uploads
  | some group =>
    let predecessor := if row.resyncForUploadId = none then
      (uploads.last? fun id' row' => decide (row'.causalGroup = some group ∧ id' < id)).map Prod.fst
      else none
    uploads.modify id fun row' => if row'.causalGroup = none then
      { row' with
        causalGroup := some group
        predecessorUploadId := row'.predecessorUploadId <|> predecessor }
      else row'

/-- `_backfill_causal_links(connection)` -/
def backfillCausalLinks (rt : Runtime) (db : Database) : Database :=
  let rows := db.uploads.select fun _ row =>
    decide (row.causalGroup = none ∧ sqlNormalizedKind row.kind ∈ causalUploadKinds)
  { db with uploads := rows.foldl (fun uploads e => backfillRow rt uploads e.1 e.2) db.uploads }

/-! ## Enqueueing -/

/-- The arguments of `enqueue_upload`. -/
structure UploadRequest where
  kind : String
  payload : Payload
  idempotencyKey : String
  endpoint : String
  method : String := "POST"
  contentType : String := "application/json"
  requestId : Option String := none
  metadata : JsonObject := []
  maxAttempts : Int := 8
  notBefore : Option ℚ := none

structure EnqueueResult where
  uploadId : Nat
  created : Bool
  deriving DecidableEq, Repr

/-- What `enqueue_upload` makes of the texts it is given. -/
structure UploadFields where
  kind : String
  idempotencyKey : String
  endpoint : String
  method : String
  requestId : String

def absolutePath (path : String) : Bool :=
  match path.toList with
  | '/' :: '/' :: _ => false
  | '/' :: _ => true
  | _ => false

/-- `request_id or str(uuid4())` -/
def requestIdOr (requestId : Option String) (uuid : String) : String :=
  match requestId with
  | none => uuid
  | some text => if text = "" then uuid else text

def checkUpload (rt : Runtime) (request : UploadRequest) (uuid : String) :
    Except StorageError UploadFields := do
  let kind ← cleanIdentifier (.str request.kind) "kind" 128
  let idempotencyKey ← cleanIdentifier (.str request.idempotencyKey) "idempotency_key"
  let endpoint ← cleanIdentifier (.str request.endpoint) "endpoint" 2048
  raiseIf (absolutePath endpoint = false)
    ⟨.valueError, "upload endpoint must be an absolute API path"⟩
  let method ← cleanIdentifier (.str (rt.upper request.method)) "method" 16
  raiseIf (method ∉ ["POST", "PUT", "PATCH", "DELETE"])
    ⟨.valueError, "upload queue method is not supported"⟩
  raiseIf (¬ (1 ≤ request.maxAttempts ∧ request.maxAttempts ≤ 100))
    ⟨.valueError, "max_attempts must be between 1 and 100"⟩
  let requestId ← cleanIdentifier (.str (requestIdOr request.requestId uuid)) "request_id"
  .ok ⟨kind, idempotencyKey, endpoint, method, requestId⟩

/-- `SELECT * FROM upload_queue WHERE idempotency_key=?` -/
def uploadWithKey (db : Database) (idempotencyKey : String) : Option (Nat × UploadRow) :=
  db.uploads.first? fun _ row => decide (row.idempotencyKey = idempotencyKey)

/-- The fields of an object as reading its canonical text gives them. -/
def storedObject (fields : JsonObject) : JsonObject :=
  match Json.sortKeys (.obj fields) with
  | .obj sorted => sorted
  | _ => []

/-- The row that a new upload gets. -/
def newUpload (rt : Runtime) (request : UploadRequest) (fields : UploadFields) (now : ℚ)
    (group : Option String) (predecessor : Option Nat) : UploadRow where
  kind := fields.kind
  method := fields.method
  endpoint := fields.endpoint
  payload := request.payload
  payloadHash := request.payload.hash rt
  contentType := request.contentType
  idempotencyKey := fields.idempotencyKey
  requestId := fields.requestId
  status := .pending
  attemptCount := 0
  maxAttempts := request.maxAttempts.toNat
  nextAttemptAt := request.notBefore.getD now
  leasedUntil := none
  leaseToken := none
  lastError := none
  metadata := storedObject request.metadata
  deliveredAt := none
  causalGroup := group
  predecessorUploadId := predecessor
  supersededByUploadId := none
  resyncForUploadId := none

/-- `enqueue_upload` -/
def enqueueUpload (rt : Runtime) (request : UploadRequest) (uuid : String) (now : ℚ)
    (db : Database) : Except StorageError (EnqueueResult × Database) := do
  let fields ← checkUpload rt request uuid
  let group := causalGroup rt fields.kind request.metadata request.payload
  let db := backfillCausalLinks rt db
  match uploadWithKey db fields.idempotencyKey with
  | some (uploadId, existing) => do
    raiseIf ((existing.kind, existing.method, existing.endpoint, existing.payloadHash,
        existing.contentType) ≠
        (fields.kind, fields.method, fields.endpoint, request.payload.hash rt, request.contentType))
      ⟨.idempotencyConflict, "upload idempotency key was reused with different content"⟩
    .ok (⟨uploadId, false⟩, db)
  | none =>
    let predecessor := group.bind fun g => (newestUpload db.uploads g).map Prod.fst
    let row := newUpload rt request fields now group predecessor
    .ok (⟨db.uploads.nextId, true⟩, { db with uploads := db.uploads.insert row })

/-! ## Claiming -/

structure QueuedUpload where
  uploadId : Nat
  kind : String
  method : String
  endpoint : String
  payload : Payload
  contentType : String
  idempotencyKey : String
  requestId : String
  attemptCount : Nat
  maxAttempts : Nat
  leaseToken : String
  metadata : JsonObject

/-- `status='IN_FLIGHT' AND leased_until<=?` -/
def leaseExpired (current : ℚ) (row : UploadRow) : Bool :=
  decide (row.status = .inFlight) && row.leasedUntil.any fun until_ => decide (until_ ≤ current)

/-- The two `UPDATE`s that end expired leases: at the retry limit the upload is dead. -/
def expireLease (current : ℚ) (row : UploadRow) : UploadRow :=
  if leaseExpired current row then
    if row.attemptCount ≥ row.maxAttempts then
      { row with
        status := .dead
        leaseToken := none
        leasedUntil := none
        lastError := row.lastError <|> some "upload lease expired at retry limit" }
    else
      { row with
        status := .pending
        leaseToken := none
        leasedUntil := none
        nextAttemptAt := current }
  else row

/-- The upload was delivered, or a recovery upload was delivered in its place. -/
def delivered (uploads : Table UploadRow) (row : UploadRow) : Bool :=
  decide (row.status = .succeeded) ||
    (row.supersededByUploadId.bind uploads.get?).any fun replacement =>
      decide (replacement.status = .succeeded)

/-- The joins of `claim_uploads` with the predecessor and with its replacement. -/
def predecessorDelivered (uploads : Table UploadRow) (row : UploadRow) : Bool :=
  match row.predecessorUploadId with
  | none => true
  | some predecessor => (uploads.get? predecessor).any (delivered uploads)

def claimable (uploads : Table UploadRow) (current : ℚ) (row : UploadRow) : Bool :=
  decide (row.status = .pending ∧ row.nextAttemptAt ≤ current ∧
    row.attemptCount < row.maxAttempts) && predecessorDelivered uploads row

/-- `ORDER BY queued.next_attempt_at,queued.upload_id` -/
def claimOrder (a b : Nat × UploadRow) : Prop :=
  a.2.nextAttemptAt < b.2.nextAttemptAt ∨ (a.2.nextAttemptAt = b.2.nextAttemptAt ∧ a.1 ≤ b.1)

instance : DecidableRel claimOrder := fun a b => inferInstanceAs
  (Decidable (a.2.nextAttemptAt < b.2.nextAttemptAt ∨
    (a.2.nextAttemptAt = b.2.nextAttemptAt ∧ a.1 ≤ b.1)))

/-- The rows that one call claims. -/
def claimedRows (uploads : Table UploadRow) (current : ℚ) (limit : Nat) : List (Nat × UploadRow) :=
  ((uploads.select fun _ row => claimable uploads current row).insertionSort claimOrder).take limit

def leaseUpload (current leaseSeconds : ℚ) (leaseToken : String) (row : UploadRow) : UploadRow :=
  { row with
    status := .inFlight
    attemptCount := row.attemptCount + 1
    leaseToken := some leaseToken
    leasedUntil := some (current + leaseSeconds) }

def queuedUpload (leaseToken : String) (id : Nat) (row : UploadRow) : QueuedUpload where
  uploadId := id
  kind := row.kind
  method := row.method
  endpoint := row.endpoint
  payload := row.payload
  contentType := row.contentType
  idempotencyKey := row.idempotencyKey
  requestId := row.requestId
  attemptCount := row.attemptCount + 1
  maxAttempts := row.maxAttempts
  leaseToken := leaseToken
  metadata := row.metadata

/-- `claim_uploads`; `leaseToken id` is the `uuid4().hex` drawn for the row `id`. -/
def claimUploads (rt : Runtime) (limit : Int) (leaseSeconds : ℚ) (current : ℚ)
    (leaseToken : Nat → String) (db : Database) :
    Except StorageError (List QueuedUpload × Database) := do
  raiseIf (¬ (1 ≤ limit ∧ limit ≤ 1000)) ⟨.valueError, "limit must be between 1 and 1000"⟩
  raiseIf (¬ (1 ≤ leaseSeconds ∧ leaseSeconds ≤ 86400))
    ⟨.valueError, "lease_seconds must be between 1 and 86400"⟩
  let db := backfillCausalLinks rt db
  let uploads := db.uploads.update fun _ row => expireLease current row
  let rows := claimedRows uploads current limit.toNat
  let leased := uploads.update fun id row =>
    if id ∈ rows.map Prod.fst then leaseUpload current leaseSeconds (leaseToken id) row else row
  .ok (rows.map fun e => queuedUpload (leaseToken e.1) e.1 e.2, { db with uploads := leased })

/-! ## Outcomes of a delivery -/

/-- The row of a lease that is still held. -/
def leasedUpload (db : Database) (uploadId : Nat) (leaseToken : String) : Option UploadRow :=
  (db.uploads.get? uploadId).filter fun row =>
    decide (row.status = .inFlight ∧ row.leaseToken = some leaseToken)

def leaseLost {α : Type} : Except StorageError α :=
  .error ⟨.storage, "upload lease is no longer valid"⟩

/-- `mark_upload_succeeded` -/
def markUploadSucceeded (uploadId : Nat) (leaseToken : String) (deliveredAt : String)
    (db : Database) : Except StorageError (Bool × Database) := do
  let leaseToken ← cleanIdentifier (.str leaseToken) "lease_token"
  match leasedUpload db uploadId leaseToken with
  | none => .ok (false, db)
  | some _ => .ok (true, { db with uploads := db.uploads.modify uploadId fun row =>
      { row with
        status := .succeeded
        leaseToken := none
        leasedUntil := none
        lastError := none
        deliveredAt := some deliveredAt } })

/-- `RetryPolicy`; building one checks the bounds. -/
structure RetryPolicy where
  maxAttempts : Nat := 8
  baseDelaySeconds : ℚ := 1
  multiplier : ℚ := 2
  maxDelaySeconds : ℚ := 3600
  jitterRatio : ℚ := 1 / 5
  attempts_range : 1 ≤ maxAttempts ∧ maxAttempts ≤ 100
  base_pos : 0 < baseDelaySeconds
  one_le_multiplier : 1 ≤ multiplier
  base_le_max : baseDelaySeconds ≤ maxDelaySeconds
  jitter_range : 0 ≤ jitterRatio ∧ jitterRatio ≤ 1

/-- `delay_for_attempt`; `uniform` is what the random source draws between two bounds. -/
def RetryPolicy.delayForAttempt (policy : RetryPolicy) (attempt : Nat) (uniform : ℚ → ℚ → ℚ) :
    Except StorageError ℚ := do
  raiseIf (attempt < 1) ⟨.valueError, "attempt must be at least 1"⟩
  let exponent := min (attempt - 1) 63
  let delay := min policy.maxDelaySeconds (policy.baseDelaySeconds * policy.multiplier ^ exponent)
  let jitter := delay * policy.jitterRatio
  .ok (max 0 (min policy.maxDelaySeconds (delay + uniform (-jitter) jitter)))

/-- `RetryPolicy(max_attempts=…)` -/
def RetryPolicy.ofMaxAttempts (maxAttempts : Nat) (h : 1 ≤ maxAttempts ∧ maxAttempts ≤ 100) :
    RetryPolicy :=
  ⟨maxAttempts, 1, 2, 3600, 1 / 5, h, by norm_num, by norm_num, by norm_num, by norm_num⟩

/-- `retry_policy or RetryPolicy(max_attempts=…)` -/
def retryPolicyOr (policy : Option RetryPolicy) (maxAttempts : Nat) :
    Except StorageError RetryPolicy :=
  match policy with
  | some policy => .ok policy
  | none =>
    if h : 1 ≤ maxAttempts ∧ maxAttempts ≤ 100 then
      .ok (.ofMaxAttempts maxAttempts h)
    else .error ⟨.valueError, "max_attempts must be between 1 and 100"⟩

/-- The arguments of `mark_upload_failed`. -/
structure UploadFailure where
  error : String
  isPermanent : Bool := false
  retryAfterSeconds : Option ℚ := none
  retryPolicy : Option RetryPolicy := none
  uniform : ℚ → ℚ → ℚ := fun _ _ => 0

/-- When the upload is tried again. -/
def nextAttempt (failure : UploadFailure) (row : UploadRow) (terminal : Bool) (current : ℚ) :
    Except StorageError ℚ :=
  if terminal then .ok current
  else match failure.retryAfterSeconds with
    | some wait => .ok (current + max 0 wait)
    | none => do
      let policy ← retryPolicyOr failure.retryPolicy row.maxAttempts
      let delay ← policy.delayForAttempt row.attemptCount failure.uniform
      .ok (current + delay)

/-- `mark_upload_failed` -/
def markUploadFailed (rt : Runtime) (uploadId : Nat) (leaseToken : String) (failure : UploadFailure)
    (current : ℚ) (db : Database) : Except StorageError (UploadStatus × Database) := do
  let leaseToken ← cleanIdentifier (.str leaseToken) "lease_token"
  match leasedUpload db uploadId leaseToken with
  | none => leaseLost
  | some row => do
    let terminal := failure.isPermanent || decide (row.attemptCount ≥ row.maxAttempts)
    let status := if terminal then UploadStatus.dead else .pending
    let nextAttemptAt ← nextAttempt failure row terminal current
    .ok (status, { db with uploads := db.uploads.modify uploadId fun row =>
      { row with
        status := status
        nextAttemptAt := nextAttemptAt
        leaseToken := none
        leasedUntil := none
        lastError := some (cleanError rt failure.error) } })

/-! ## Recovery -/

/-- `bool(value)` of a JSON value -/
def truthy : Json → Bool
  | .null => false
  | .bool b => b
  | .int n => decide (n ≠ 0)
  | .float f => decide (f.mantissa ≠ 0)
  | .str s => decide (s ≠ "")
  | .arr items => decide (items ≠ [])
  | .obj fields => decide (fields ≠ [])

/-- The differential state that an upload carries. -/
def inventorySyncOf (payload : JsonObject) : Except StorageError JsonObject :=
  let inventorySync := payload.get "inventory_sync"
  let inventorySync :=
    if inventorySync = .null ∧ payload.has "mode" = true then .obj payload else inventorySync
  match inventorySync with
  | .obj sync => .ok sync
  | _ => .error ⟨.storage, "upload does not contain differential inventory state"⟩

/-- `metadata_value.get("scan_id") or inventory_sync.get("scan_id")` -/
def resyncScanId (metadata sync : JsonObject) : Except StorageError String :=
  let value := if truthy (metadata.get "scan_id") then metadata.get "scan_id" else sync.get "scan_id"
  match cleanIdentifier value "scan_id" with
  | .ok scanId => .ok scanId
  | .error _ => .error ⟨.storage, "differential upload has no valid scan_id"⟩

/-- A snapshot with its content: the row of `inventory_snapshots` joined with its payload. -/
def storedSnapshot (db : Database) (scanId : String) : Option (SnapshotRow × Json) :=
  (db.snapshots.first? fun _ row => decide (row.scanId = scanId)).bind fun e =>
    (db.payloads.get? e.2.payloadHash).map fun snapshot => (e.2, snapshot)

/-- The envelope that resets the remote base to a stored snapshot. -/
def fullSync (row : SnapshotRow) (snapshot : Json) : JsonObject :=
  [("endpoint_id", .str row.endpointId), ("scan_id", .str row.scanId),
    ("schema_version", .str row.schemaVersion), ("policy_version", Json.ofOption row.policyVersion),
    ("scanner_version", Json.ofOption row.scannerVersion),
    ("snapshot_hash", .str row.payloadHash), ("previous_hash", .null), ("mode", .str "full"),
    ("snapshot", snapshot)]

/-- The original payload with its differential state replaced. -/
def recoveryPayload (original : JsonObject) (sync : JsonObject) : JsonObject :=
  if original.has "inventory_sync" then original.set "inventory_sync" (.obj sync) else sync

def recoveryMetadata (metadata : JsonObject) (uploadId : Nat) (snapshotHash : String) : JsonObject :=
  ((metadata.set "causal_recovery" (.bool true)).set "resync_for_upload_id" (.int uploadId)).set
    "snapshot_hash" (.str snapshotHash)

def recoveryKey (rt : Runtime) (row : SnapshotRow) (scanId : String) : String :=
  "full-resync:" ++ rt.hashText (row.endpointId ++ ":" ++ scanId ++ ":" ++ row.payloadHash)

/-- The row that takes the place of a rejected upload. -/
def recoveryUpload (rt : Runtime) (row : UploadRow) (uploadId : Nat) (payload : JsonObject)
    (idempotencyKey uuid snapshotHash : String) (current : ℚ) : UploadRow where
  kind := "inventory_full_resync"
  method := row.method
  endpoint := row.endpoint
  payload := .document (.obj payload)
  payloadHash := Payload.hash rt (.document (.obj payload))
  contentType := row.contentType
  idempotencyKey := idempotencyKey
  requestId := uuid
  status := .pending
  attemptCount := 0
  maxAttempts := row.maxAttempts
  nextAttemptAt := current
  leasedUntil := none
  leaseToken := none
  lastError := none
  metadata := storedObject (recoveryMetadata row.metadata uploadId snapshotHash)
  deliveredAt := none
  causalGroup := row.causalGroup
  predecessorUploadId := row.predecessorUploadId
  supersededByUploadId := none
  resyncForUploadId := some uploadId

/-- The recovery upload: one with this key that is there already, or a new one. -/
def recoverWith (recovery : UploadRow) (db : Database) :
    Except StorageError (EnqueueResult × Database) :=
  match uploadWithKey db recovery.idempotencyKey with
  | some (recoveryId, existing) => do
    raiseIf ((existing.endpoint, existing.payloadHash, existing.contentType) ≠
        (recovery.endpoint, recovery.payloadHash, recovery.contentType))
      ⟨.idempotencyConflict, "full-resync idempotency key has conflicting content"⟩
    .ok (⟨recoveryId, false⟩, db)
  | none => do
    raiseIf ((db.uploads.first? fun _ row =>
        decide (row.resyncForUploadId = recovery.resyncForUploadId)) ≠ none)
      ⟨.integrity, "UNIQUE constraint failed: upload_queue.resync_for_upload_id"⟩
    .ok (⟨db.uploads.nextId, true⟩, { db with uploads := db.uploads.insert recovery })

/-- The recovery upload that `schedule_full_resync` asks for. -/
def recoveryFor (rt : Runtime) (row : UploadRow) (uploadId : Nat) (uuid : String) (current : ℚ)
    (db : Database) : Except StorageError UploadRow := do
  raiseIf (truthy (row.metadata.get "causal_recovery") = true)
    ⟨.storage, "a full-resync upload cannot be superseded again"⟩
  match row.payload.parse with
  | none => .error ⟨.valueError, "upload payload is not valid JSON"⟩
  | some (.obj original) => do
    let sync ← inventorySyncOf original
    let scanId ← resyncScanId row.metadata sync
    match storedSnapshot db scanId with
    | none => .error ⟨.storage, "full-resync snapshot is no longer available"⟩
    | some (snapshotRow, snapshot) =>
      .ok (recoveryUpload rt row uploadId (recoveryPayload original (fullSync snapshotRow snapshot))
        (recoveryKey rt snapshotRow scanId) uuid snapshotRow.payloadHash current)
  | some _ => .error ⟨.storage, "differential upload payload is not a JSON object"⟩

/-- `schedule_full_resync` -/
def scheduleFullResync (rt : Runtime) (uploadId : Nat) (leaseToken : String) (error : String)
    (uuid : String) (current : ℚ) (db : Database) :
    Except StorageError (EnqueueResult × Database) := do
  let leaseToken ← cleanIdentifier (.str leaseToken) "lease_token"
  match leasedUpload db uploadId leaseToken with
  | none => leaseLost
  | some row => do
    let recovery ← recoveryFor rt row uploadId uuid current db
    let (result, db) ← recoverWith recovery db
    .ok (result, { db with uploads := db.uploads.modify uploadId fun row =>
      { row with
        status := .dead
        nextAttemptAt := current
        leaseToken := none
        leasedUntil := none
        lastError := some (cleanError rt error)
        supersededByUploadId := some result.uploadId } })

/-- The arguments of `requeue_dead_upload`. -/
structure RequeueRequest where
  actor : String
  reason : String
  maxAttempts : Option Int := none

/-- `_optional_metadata_identifier(metadata, field)` -/
def optionalMetadataIdentifier (metadata : JsonObject) (field : String) : Option String :=
  match cleanIdentifier (metadata.get field) field with
  | .ok value => some value
  | .error _ => none

/-- The metadata of a requeued upload, with the operator's action. -/
def requeuedMetadata (metadata : JsonObject) (operator auditEventId reason recordedAt : String) :
    JsonObject :=
  metadata.set "operator_recovery" (.obj [("action", .str "requeue"), ("actor", .str operator),
    ("audit_event_id", .str auditEventId), ("reason", .str reason),
    ("recorded_at", .str recordedAt)])

/-- The audit event of a requeued upload. -/
def requeueEvent (rt : Runtime) (uploadId : Nat) (row : UploadRow) (metadata : JsonObject)
    (operator reason auditEventId recordedAt : String) (retryLimit : Nat) : AuditEvent where
  eventType := "upload.dead_letter_requeued"
  outcome := "SUCCESS"
  eventId := auditEventId
  actor := some operator
  resourceType := some "upload_queue"
  resourceId := some (toString uploadId)
  scanId := optionalMetadataIdentifier metadata "scan_id"
  endpointId := optionalMetadataIdentifier metadata "endpoint_id"
  details := [("action", .str "requeue"), ("kind", .str row.kind),
    ("previous_attempt_count", .int row.attemptCount),
    ("previous_error_sha256", Json.ofOption (row.lastError.map rt.hashText)),
    ("reason", .str reason), ("retry_limit", .int retryLimit)]
  createdAt := recordedAt

/-- `requeue_dead_upload` returns the retry limit and the hash of the audit event. -/
def requeueDeadUpload (rt : Runtime) (uploadId : Nat) (request : RequeueRequest)
    (recordedAt auditEventId : String) (current : ℚ) (db : Database) :
    Except StorageError ((Nat × String) × Database) := do
  let operator ← cleanIdentifier (.str request.actor) "actor" 256
  let requestedReason ← cleanIdentifier (.str request.reason) "reason" 512
  let reason := strip (cleanError rt requestedReason 512)
  raiseIf (reason = "") ⟨.valueError, "reason must not be empty after sanitization"⟩
  raiseIf (∃ limit ∈ request.maxAttempts, ¬ (1 ≤ limit ∧ limit ≤ 100))
    ⟨.valueError, "max_attempts must be between 1 and 100"⟩
  match db.uploads.get? uploadId with
  | none => .error ⟨.storage, "upload does not exist"⟩
  | some row => do
    raiseIf (row.status ≠ .dead)
      ⟨.storage, "only a DEAD upload can be requeued by an operator"⟩
    raiseIf (row.supersededByUploadId ≠ none)
      ⟨.storage, "upload has a replacement; requeue the superseding upload instead"⟩
    let retryLimit := (request.maxAttempts.map Int.toNat).getD row.maxAttempts
    let metadata := requeuedMetadata row.metadata operator auditEventId reason recordedAt
    let requeued := { db with uploads := db.uploads.modify uploadId fun row =>
      { row with
        status := .pending
        attemptCount := 0
        maxAttempts := retryLimit
        nextAttemptAt := current
        leaseToken := none
        leasedUntil := none
        lastError := none
        deliveredAt := none
        metadata := storedObject metadata } }
    let (auditHash, db) ← recordAuditEvent rt
      (requeueEvent rt uploadId row metadata operator reason auditEventId recordedAt retryLimit)
      requeued
    .ok ((retryLimit, auditHash), db)

/-! ## Purging -/

/-- `delivered_at<?`, which is not true of an upload that was never delivered. -/
def deliveredBefore (olderThan : String) (row : UploadRow) : Bool :=
  row.deliveredAt.any fun deliveredAt => decide (deliveredAt < olderThan)

/-- A link to a row that is deleted becomes `NULL`. -/
def keepLink (deleted : List Nat) (link : Option Nat) : Option Nat :=
  link.filter fun id => decide (id ∉ deleted)

/-- `DELETE FROM upload_queue WHERE upload_id IN (…)`, with `ON DELETE SET NULL`. -/
def deleteUploads (deleted : List Nat) (uploads : Table UploadRow) : Table UploadRow :=
  (uploads.delete fun id _ => decide (id ∈ deleted)).update fun _ row =>
    { row with
      predecessorUploadId := keepLink deleted row.predecessorUploadId
      supersededByUploadId := keepLink deleted row.supersededByUploadId
      resyncForUploadId := keepLink deleted row.resyncForUploadId }

/-- A rejected upload whose replacement was delivered before the cutoff. -/
def purgeableOriginal (uploads : Table UploadRow) (olderThan : String) (row : UploadRow) : Bool :=
  decide (row.status = .dead) &&
    (row.supersededByUploadId.bind uploads.get?).any fun replacement =>
      decide (replacement.status = .succeeded) && deliveredBefore olderThan replacement

/-- A delivered upload that no remaining row was superseded by. -/
def purgeableSucceeded (uploads : Table UploadRow) (olderThan : String) (id : Nat) (row : UploadRow) :
    Bool :=
  decide (row.status = .succeeded) && deliveredBefore olderThan row &&
    (uploads.first? fun _ other => decide (other.supersededByUploadId = some id)).isNone

/-- `purge_succeeded_uploads` -/
def purgeSucceededUploads (olderThan : String) (limit : Int) (db : Database) :
    Except StorageError (Nat × Database) := do
  raiseIf (¬ (1 ≤ limit ∧ limit ≤ 100000)) ⟨.valueError, "limit must be between 1 and 100000"⟩
  let resolved := ((db.uploads.select fun _ row => purgeableOriginal db.uploads olderThan row).take
    limit.toNat).map Prod.fst
  let uploads := deleteUploads resolved db.uploads
  let remaining := limit.toNat - resolved.length
  if remaining = 0 then .ok (resolved.length, { db with uploads := uploads })
  else
    let succeeded := ((uploads.select fun id row => purgeableSucceeded uploads olderThan id row).take
      remaining).map Prod.fst
    .ok (resolved.length + succeeded.length, { db with uploads := deleteUploads succeeded uploads })

end OsScanner.Storage

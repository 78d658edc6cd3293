import Mathlib
import OsScanner.Storage.CausalOrder

/-!
# The upload worker

`app/transport/worker.py`. The worker claims one upload after the other and records what became
of its request. What the client does, the clock, and the calls that other processes make of the
queue in the meantime are given for each upload, as a `Delivery`. Logs and metrics are left out:
the worker catches what they raise.
-/

namespace OsScanner.Transport

open Lib Lib.Check Storage

/-! ## Configuration -/

/-- What the worker reads of `CloudApiConfig`. -/
structure CloudApiConfig where
  timeoutSeconds : ℚ := 20
  connectTimeoutSeconds : Option ℚ := none
  readTimeoutSeconds : Option ℚ := none
  maxAttempts : Int := 3
  backoffMaxSeconds : ℚ := 10

/-- `value or default`, where zero counts as absent. -/
def secondsOr (value : Option ℚ) (default : ℚ) : ℚ :=
  match value with
  | some seconds => if seconds = 0 then default else seconds
  | none => default

def CloudApiConfig.effectiveConnectTimeoutSeconds (config : CloudApiConfig) : ℚ :=
  secondsOr config.connectTimeoutSeconds config.timeoutSeconds

def CloudApiConfig.effectiveReadTimeoutSeconds (config : CloudApiConfig) : ℚ :=
  secondsOr config.readTimeoutSeconds config.timeoutSeconds

/-- `UploadWorker`, with the configuration of its client. -/
structure UploadWorker where
  config : CloudApiConfig
  retryPolicy : RetryPolicy
  leaseSeconds : ℚ := 60

/-- `_effective_lease_seconds()` -/
def UploadWorker.effectiveLeaseSeconds (worker : UploadWorker) : Except StorageError ℚ := do
  let config := worker.config
  let requestBudget :=
    config.maxAttempts * (config.effectiveConnectTimeoutSeconds + config.effectiveReadTimeoutSeconds) +
      max 0 (config.maxAttempts - 1) * config.backoffMaxSeconds + 5
  let lease := max worker.leaseSeconds requestBudget
  raiseIf (¬ (1 ≤ lease ∧ lease ≤ 86400))
    ⟨.valueError, "upload request retry budget exceeds the maximum queue lease"⟩
  .ok lease

/-! ## The outside -/

/-- `uuid4().hex` -/
structure UuidHex where
  text : String
  length : text.toList.length = 32
  digits : ∀ c ∈ text.toList, c.isAlphanum = true

/-- How `client.request` ends. -/
inductive Outcome where
  | delivered
  | cloudApiError (statusCode : Int) (requestId : String) (retryable : Bool)
      (retryAfterSeconds : Option ℚ)
  | transportError (message : String) (retryable : Bool)
  | exception (typeName : String)

/-- What happens around one upload of the worker. -/
structure Delivery where
  /-- The calls of other processes before the claim. -/
  before : List QueueCall
  claimedAt : ℚ
  leaseToken : Nat → UuidHex
  /-- The calls of other processes while the request is in progress. -/
  meanwhile : List QueueCall
  outcome : Outcome
  rebasedAt : ℚ
  recoveryRequestId : String
  /-- The calls of other processes after a recovery was refused. -/
  afterRefusal : List QueueCall
  failedAt : ℚ
  uniform : ℚ → ℚ → ℚ
  deliveredAt : String

/-- The queue after calls of other processes. -/
def performed (rt : Runtime) (calls : List QueueCall) (db : Database) : Database :=
  runFrom (fun db call => QueueCall.perform rt call db) db calls

/-! ## Recording the outcome -/

/-- The counter that an upload adds to; none when its delivery was recorded under no lease. -/
inductive Counted where
  | succeeded
  | retried
  | dead
  | nothing
  deriving DecidableEq, Repr

structure UploadRunStats where
  claimed : Nat := 0
  succeeded : Nat := 0
  retried : Nat := 0
  dead : Nat := 0
  deriving DecidableEq, Repr

def UploadRunStats.count (stats : UploadRunStats) : Counted → UploadRunStats
  | .succeeded => { stats with claimed := stats.claimed + 1, succeeded := stats.succeeded + 1 }
  | .retried => { stats with claimed := stats.claimed + 1, retried := stats.retried + 1 }
  | .dead => { stats with claimed := stats.claimed + 1, dead := stats.dead + 1 }
  | .nothing => { stats with claimed := stats.claimed + 1 }

/-- A transaction and the database after it. -/
def recorded {α : Type} (count : α → Counted) (db : Database)
    (result : Except StorageError (α × Database)) : Except StorageError Counted × Database :=
  match result with
  | .ok (value, db') => (.ok (count value), db')
  | .error e => (.error e, db)

def countFailed (status : UploadStatus) : Counted := if status = .dead then .dead else .retried

variable (rt : Runtime) (worker : UploadWorker)

def UploadWorker.failure (delivery : Delivery) (error : String) (isPermanent : Bool)
    (retryAfterSeconds : Option ℚ) : UploadFailure where
  error := error
  isPermanent := isPermanent
  retryAfterSeconds := retryAfterSeconds
  retryPolicy := some worker.retryPolicy
  uniform := delivery.uniform

/-- `mark_upload_failed` with the policy of the worker -/
def UploadWorker.markFailed (upload : QueuedUpload) (delivery : Delivery) (error : String)
    (isPermanent : Bool) (retryAfterSeconds : Option ℚ) (db : Database) :
    Except StorageError Counted × Database :=
  recorded countFailed db (markUploadFailed rt upload.uploadId upload.leaseToken
    (worker.failure delivery error isPermanent retryAfterSeconds) delivery.failedAt db)

/-- `str(exc)` of a `CloudApiError` -/
def cloudApiErrorText (statusCode : Int) (requestId : String) : String :=
  "cloud API returned HTTP " ++ toString statusCode ++ " (request " ++ requestId ++ ")"

/-- `bool(upload.metadata.get("causal_recovery"))` -/
def isRecoveryUpload (upload : QueuedUpload) : Bool :=
  truthy (upload.metadata.get "causal_recovery")

/-- The status codes that ask for a full resync. -/
def isConflict (statusCode : Int) : Bool := decide (statusCode = 409 ∨ statusCode = 412)

def UploadWorker.scheduleResync (upload : QueuedUpload) (delivery : Delivery) (error : String)
    (db : Database) : Except StorageError (EnqueueResult × Database) :=
  scheduleFullResync rt upload.uploadId upload.leaseToken error delivery.recoveryRequestId
    delivery.rebasedAt db

/-- A conflict asks for a full resync; when that is refused the upload is given up. -/
def UploadWorker.rebase (upload : QueuedUpload) (delivery : Delivery) (error : String)
    (db : Database) : Except StorageError Counted × Database :=
  match UploadWorker.scheduleResync rt upload delivery error db with
  | .ok (_, db') => (.ok .retried, db')
  | .error e =>
    -- `except StorageError`: what is not one of these escapes.
    if e.isStorageError then
      worker.markFailed rt upload delivery e.message true none (performed rt delivery.afterRefusal db)
    else (.error e, db)

/-- The `try` statement of `run_once`, from the end of the request on. -/
def UploadWorker.settle (upload : QueuedUpload) (delivery : Delivery) (db : Database) :
    Except StorageError Counted × Database :=
  match delivery.outcome with
  | .delivered => recorded (fun done => if done then .succeeded else .nothing) db
      (markUploadSucceeded upload.uploadId upload.leaseToken delivery.deliveredAt db)
  | .cloudApiError statusCode requestId retryable retryAfterSeconds =>
    let error := cloudApiErrorText statusCode requestId
    if isConflict statusCode && !isRecoveryUpload upload then
      worker.rebase rt upload delivery error db
    else worker.markFailed rt upload delivery error (!retryable) retryAfterSeconds db
  | .transportError message retryable =>
    worker.markFailed rt upload delivery message (!retryable) none db
  | .exception typeName => worker.markFailed rt upload delivery typeName false none db

/-! ## The loop -/

/-- An upload that the worker claimed: the queue at the end of its request, and after it. -/
structure Handled where
  upload : QueuedUpload
  delivery : Delivery
  atOutcome : Database
  after : Database

/-- What a run returns or raises, the queue after it, and the uploads it claimed. -/
structure Run where
  result : Except StorageError UploadRunStats
  db : Database
  handled : List Handled

/-- `while claimed < limit`, for as many uploads as remain. -/
def UploadWorker.drain (lease : ℚ) (world : Nat → Delivery) : Nat → UploadRunStats → Database → Run
  | 0, stats, db => ⟨.ok stats, db, []⟩
  | remaining + 1, stats, db =>
    let delivery := world stats.claimed
    let db := performed rt delivery.before db
    match claimUploads rt 1 lease delivery.claimedAt (fun id => (delivery.leaseToken id).text) db with
    | .error e => ⟨.error e, db, []⟩
    | .ok ([], db) => ⟨.ok stats, db, []⟩
    | .ok (upload :: _, db) =>
      let db := performed rt delivery.meanwhile db
      let (counted, after) := worker.settle rt upload delivery db
      match counted with
      | .error e => ⟨.error e, after, [⟨upload, delivery, db, after⟩]⟩
      | .ok counted =>
        let run := UploadWorker.drain lease world remaining (stats.count counted) after
        { run with handled := ⟨upload, delivery, db, after⟩ :: run.handled }

/-- `run_once(limit=…)`; `world` says what happens around the first upload, the second, and so on. -/
def UploadWorker.runOnce (limit : Int) (world : Nat → Delivery) (db : Database) : Run :=
  if 1 ≤ limit ∧ limit ≤ 1000 then
    match worker.effectiveLeaseSeconds with
    | .error e => ⟨.error e, db, []⟩
    | .ok lease => worker.drain rt lease world limit.toNat {} db
  else ⟨.error ⟨.valueError, "limit must be between 1 and 1000"⟩, db, []⟩

end OsScanner.Transport

import Mathlib
import OsScanner.Cloud.Api
import OsScanner.Storage.OutboxRows
import OsScanner.Storage.PolicyCache

/-!
# Reporting rejected jobs

`CloudJobSource.fetch` polls for a job and reports a body that it cannot accept: it queues a
rejection and records an audit event in one transaction. A body that was reported is recognized
by its fingerprint, in the memory of the process or in the outbox; the outbox forgets it when its
delivered rejection is purged, the audit log never does.
-/

namespace OsScanner.Endpoint

open Lib Check Storage
open Cloud (RejectionReason ScanRejectionUpload isIdentifier)

/-! ## Decoding a body -/

/-- What a call of the standard library or of the job loader comes to. -/
inductive Decoded (α : Type) where
  | value (v : α)
  /-- An error that `fetch` catches. -/
  | refused
  /-- Any other exception, such as `RecursionError`. -/
  | raised

/-- The parts of a poll that are not modelled: JSON texts, and the validation of a job. -/
structure JobDecoder where
  /-- `response.json()`; `refused` is a `ProtocolError`. -/
  json : List UInt8 → Decoded Json
  /-- `load_job_json(encoded)` at some time: the endpoint that the job names. -/
  loadJob : Json → Timestamp → Decoded (Option String)
  /-- `character.isalnum()` -/
  isalnum : Char → Bool
  isalnum_ascii : ∀ c : Char, c.toNat < 128 → isalnum c = c.isAlphanum

structure CloudJobSource where
  endpointId : String
  scanRejectionsPath : String := "/api/v1/scans/rejections"
  decoder : JobDecoder

/-- The response to a poll, and what is drawn and read from the clock while it is handled. -/
structure Poll where
  statusCode : Nat
  body : List UInt8
  uuid : String
  instant : Timestamp
  now : ℚ
  createdAt : String

namespace CloudJobSource

variable (rt : Runtime) (source : CloudJobSource)

/-- `_safe_scan_id(document)` -/
def safeScanId : Json → Option String
  | .obj document =>
    match JsonObject.get document "scan_id" with
    | .str value =>
      match value.toList with
      | [] => none
      | c :: rest =>
        if rest.length ≤ 127 ∧ source.decoder.isalnum c = true ∧
            (∀ d ∈ c :: rest, source.decoder.isalnum d = true ∨ d ∈ "._:-".toList) then some value
        else none
    | _ => none
  | _ => none

/-- What a body comes to: nothing, a job, or a rejection with its reason and the scan it names. -/
inductive Verdict where
  | nothing
  | job (document : Json)
  | rejected (reason : RejectionReason) (scanId : Option String)
  | raised

/-- The part of `fetch` that looks at the response only. -/
def verdict (poll : Poll) : Verdict :=
  if poll.statusCode = 204 ∨ poll.body = [] then .nothing
  else match source.decoder.json poll.body with
    | .raised => .raised
    | .refused => .rejected .invalidJson none
    | .value document =>
      match source.decoder.loadJob document poll.instant with
      | .raised => .raised
      | .refused => .rejected .invalidOrUnauthorizedJob (source.safeScanId document)
      | .value endpointId =>
        if endpointId ≠ none ∧ endpointId ≠ some source.endpointId then
          .rejected .invalidOrUnauthorizedJob (source.safeScanId document)
        else .job document

/-- `hashlib.sha256(body).hexdigest()` -/
def fingerprint (body : List UInt8) : String := rt.sha256 body

def rejectionKey (body : List UInt8) : String := "job-rejection:" ++ fingerprint rt body

def rejectionEventId (body : List UInt8) : String :=
  "cloud-job-rejected:" ++ String.ofList ((fingerprint rt body).toList.take 32)

/-- The payload of a rejection. -/
def rejectionPayload (body : List UInt8) (reason : RejectionReason) (scanId : Option String) :
    JsonObject :=
  [("endpoint_id", .str source.endpointId), ("scan_id", Json.ofOption scanId),
    ("reason", .str reason.text), ("document_sha256", .str (fingerprint rt body))]

def rejectionRequest (body : List UInt8) (reason : RejectionReason) (scanId : Option String) :
    UploadRequest where
  kind := "scan_rejection"
  payload := .document (.obj (source.rejectionPayload rt body reason scanId))
  idempotencyKey := rejectionKey rt body
  endpoint := source.scanRejectionsPath
  metadata := [("endpoint_id", .str source.endpointId), ("remote_scan_id", Json.ofOption scanId)]

def rejectionEvent (body : List UInt8) (reason : RejectionReason) (scanId : Option String)
    (createdAt : String) : AuditEvent where
  eventType := "SCAN_JOB_REJECTED"
  outcome := "REJECTED"
  eventId := rejectionEventId rt body
  resourceType := some "endpoint"
  resourceId := some source.endpointId
  endpointId := some source.endpointId
  details := [("reason", .str reason.text), ("document_sha256", .str (fingerprint rt body)),
    ("remote_scan_id", Json.ofOption scanId)]
  createdAt := createdAt

/-- `self._rejected_fingerprints[fingerprint] = None`, with at most 1024 of them. -/
def remember (fingerprint : String) (remembered : List String) : List String :=
  if 1024 < remembered.length + 1 then (remembered ++ [fingerprint]).tail
  else remembered ++ [fingerprint]

/-- The storage, and the fingerprints that the process remembers. -/
structure State where
  db : Database
  rejectedFingerprints : List String

/-- `_reject(body, reason, document)` -/
def reject (poll : Poll) (reason : RejectionReason) (scanId : Option String) (s : State) :
    Except StorageError State :=
  if fingerprint rt poll.body ∈ s.rejectedFingerprints then .ok s
  else do
    let (queued, db) ← enqueueUpload rt (source.rejectionRequest rt poll.body reason scanId)
      poll.uuid poll.now s.db
    let db ← if queued.created then
        Prod.snd <$> recordAuditEvent rt
          (source.rejectionEvent rt poll.body reason scanId poll.createdAt) db
      else .ok db
    .ok ⟨db, remember (fingerprint rt poll.body) s.rejectedFingerprints⟩

/-- `fetch()` raises what storing a rejection raises, and whatever decoding does not catch. -/
inductive FetchError where
  | storage (e : StorageError)
  | decoding

/-- `fetch()`, after the response has arrived. -/
def fetch (poll : Poll) (s : State) : Except FetchError (Option Json × State) :=
  match source.verdict poll with
  | .nothing => .ok (none, s)
  | .job document => .ok (some document, s)
  | .raised => .error .decoding
  | .rejected reason scanId =>
    match source.reject rt poll reason scanId s with
    | .ok s' => .ok (none, s')
    | .error e => .error (.storage e)

end CloudJobSource

end OsScanner.Endpoint

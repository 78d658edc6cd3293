import Mathlib
import OsScanner.Cloud.Records

/-!
# Eligibility of a job and validity of its evidence

The pure checks of `cloud_service/repository.py` that bind a scan record to the clock and to
the documents an endpoint sends: `_job_dispatch_eligibility`, `validate_scan_upload` and
`validate_scan_status`.
-/

namespace OsScanner.Cloud

open Lib

def jobDispatchGraceSeconds : Int := 60
def scanUploadGraceSeconds : Int := 7 * 24 * 60 * 60

/-! ## Timestamps -/

/-- `value.replace("Z", "+00:00")` -/
def replaceZ (text : String) : String :=
  String.ofList (text.toList.flatMap fun c =>
    if c = 'Z' then ['+', '0', '0', ':', '0', '0'] else [c])

/-- `_timestamp(value)`: only a text that denotes an instant. -/
def timestamp (rt : Runtime) : Json → Option Timestamp
  | .str text =>
    match rt.fromIsoformat (replaceZ text) with
    | some (.aware t) => some t
    | _ => none
  | _ => none

/-! ## Dispatch -/

inductive Eligibility where
  | eligible
  | active
  | waiting
  | expired
  deriving DecidableEq, Repr

/-- `not isinstance(timeout, bool) and isinstance(timeout, int) and 10 <= timeout <= 86_400` -/
def leaseTimeout : Json → Option Int
  | .int timeout => if 10 ≤ timeout ∧ timeout ≤ 86400 then some timeout else none
  | _ => none

/-- `not_before` is optional; when present it must denote an instant. -/
def notBeforeEligibility (rt : Runtime) (value : Json) (now : Timestamp) : Option Eligibility :=
  match value with
  | .null => none
  | value => match timestamp rt value with
    | none => some .expired
    | some notBefore => if now < notBefore then some .waiting else none

/-- What the state of the record and its lease say once the authorization is in force. -/
def leaseEligibility (record : ScanRecord) (now : Timestamp) : Eligibility :=
  if record.state = .queued then .eligible
  else if record.state ≠ .dispatched then .active
  else match leaseTimeout (record.jobDocument.get "timeout_seconds") with
    | none => .expired
    | some timeout =>
      if now ≥ record.updatedAt + seconds (timeout + jobDispatchGraceSeconds) then .eligible
      else .active

/-- The instants and the endpoints of an authorization, absent unless it is complete. -/
def authorizationWindow (rt : Runtime) (document : JsonObject) (endpointId : String) :
    Option (Timestamp × Timestamp × Timestamp) :=
  match document.get "authorization", timestamp rt (document.get "deadline") with
  | .obj authorization, some deadline =>
    match JsonObject.get authorization "authorized",
        timestamp rt (JsonObject.get authorization "valid_from"),
        timestamp rt (JsonObject.get authorization "expires_at"),
        JsonObject.get authorization "allowed_endpoint_ids" with
    | .bool true, some validFrom, some expiresAt, .arr allowed =>
      if allowed.any (Json.pyEq (.str endpointId)) then some (deadline, validFrom, expiresAt)
      else none
    | _, _, _, _ => none
  | _, _ => none

/-- `_job_dispatch_eligibility(record, endpoint_id, now)` -/
def jobDispatchEligibility (rt : Runtime) (record : ScanRecord) (endpointId : String)
    (now : Timestamp) : Eligibility :=
  match authorizationWindow rt record.jobDocument endpointId with
  | none => .expired
  | some (deadline, validFrom, expiresAt) =>
    if now ≥ deadline ∨ now ≥ expiresAt then .expired
    else if now < validFrom then .waiting
    else match notBeforeEligibility rt (record.jobDocument.get "not_before") now with
      | some eligibility => eligibility
      | none => leaseEligibility record now

/-! ## Uploads -/

/-- `isinstance(value, dict)`, or the error of the caller. -/
def requireObject (value : Json) (kind : ErrorKind) (message : String) :
    Except RepositoryError JsonObject :=
  match value with
  | .obj fields => .ok fields
  | _ => fail kind message

/-- `result.get("status") not in {"SUCCESS", "PARTIAL", "FAILED"}`; a list or an object cannot
be hashed. -/
def checkTerminalStatus (value : Json) : Except RepositoryError Unit :=
  match value with
  | .arr _ | .obj _ => fail .typeError "unhashable type"
  | value => raiseIf (value ≠ .str "SUCCESS" ∧ value ≠ .str "PARTIAL" ∧ value ≠ .str "FAILED")
      .stateConflict "scan evidence has an invalid terminal status"

/-- `deadline is None or now > deadline + grace` -/
def uploadWindowClosed (rt : Runtime) (record : ScanRecord) (now : Timestamp) : Prop :=
  match timestamp rt (record.jobDocument.get "deadline") with
  | none => True
  | some deadline => now > deadline + seconds scanUploadGraceSeconds

instance (rt : Runtime) (record : ScanRecord) (now : Timestamp) :
    Decidable (uploadWindowClosed rt record now) := by
  unfold uploadWindowClosed
  split <;> infer_instance

/-- `validate_scan_upload(record, upload, now)` -/
def validateScanUpload (rt : Runtime) (record : ScanRecord) (upload : JsonObject)
    (now : Timestamp) : Except RepositoryError Unit := do
  raiseIf (record.state ≠ .dispatched) .stateConflict
    "scan evidence is accepted only for a dispatched job"
  let result ← requireObject (upload.get "result") .stateConflict
    "scan upload documents are invalid"
  let inventorySync ← requireObject (upload.get "inventory_sync") .stateConflict
    "scan upload documents are invalid"
  let job := record.jobDocument
  let authorization ← requireObject (job.get "authorization") .stateConflict
    "scan authorization is invalid"
  raiseIf (uploadWindowClosed rt record now) .stateConflict
    "scan upload authorization window has expired"
  raiseIf (∃ e ∈ [("scan_id", record.scanId), ("endpoint_id", record.endpointId)],
      (result.get e.1).pyEq (.str e.2) = false ∨ (inventorySync.get e.1).pyEq (.str e.2) = false)
    .stateConflict "scan upload identity does not match the dispatched job"
  raiseIf (∃ e ∈ [("scan_type", job.get "scan_type"),
        ("authorization_scope_id", authorization.get "scope_id"),
        ("policy_id", job.get "policy_id")],
      e.2 = .null ∨ (result.get e.1).pyEq e.2 = false)
    .stateConflict "scan evidence provenance does not match the dispatched job"
  raiseIf (job.get "policy_version" ≠ .null ∧
      (result.get "policy_version").pyEq (job.get "policy_version") = false)
    .stateConflict "scan evidence policy version does not match the dispatched job"
  checkTerminalStatus (result.get "status")

/-- The fields in which a terminal status must agree with the accepted result. -/
def statusFields : List String :=
  ["scan_id", "endpoint_id", "schema_version", "scanner_version", "authorization_scope_id",
    "policy_id", "policy_version", "status"]

/-- `validate_scan_status(record, status)` -/
def validateScanStatus (record : ScanRecord) (status : JsonObject) :
    Except RepositoryError Unit :=
  match record.upload with
  | none => fail .stateConflict "terminal status cannot precede scan evidence"
  | some upload => do
    raiseIf (record.terminalStatus ≠ none) .stateConflict "terminal scan status is immutable"
    let result ← requireObject (upload.get "result") .stateConflict
      "accepted scan evidence is invalid"
    raiseIf (∃ name ∈ statusFields, (status.get name).pyEq (result.get name) = false)
      .stateConflict "terminal status does not match accepted scan evidence"

/-! ## What passing a check means -/

theorem requireObject_eq_ok {value : Json} {kind : ErrorKind} {message : String}
    {fields : JsonObject} :
    requireObject value kind message = .ok fields ↔ value = .obj fields := by
  cases value <;> simp [requireObject, fail]

/-- Evidence is accepted only for a dispatched job. -/
theorem validateScanUpload_dispatched {rt : Runtime} {record : ScanRecord} {upload : JsonObject}
    {now : Timestamp} (h : validateScanUpload rt record upload now = .ok ()) :
    record.state = .dispatched := by
  rw [validateScanUpload, Check.bind_unit_eq_ok, raiseIf_eq_ok, not_not] at h
  exact h.1

theorem validateScanStatus_upload {record : ScanRecord} {status : JsonObject}
    (h : validateScanStatus record status = .ok ()) : ∃ upload, record.upload = some upload := by
  unfold validateScanStatus at h
  split at h
  · cases h
  · rename_i upload hu
    exact ⟨upload, hu⟩

end OsScanner.Cloud

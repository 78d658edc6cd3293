import Mathlib
import OsScanner.Cloud.Repository

/-!
# The scan handlers

The handlers of `cloud_service/app.py` behind the credential of an endpoint, from the call of
the repository on. What they check before it is read from the request alone. A caller sees the
status and the body of the answer.
-/

namespace OsScanner.Cloud

open Lib

/-! ## Answers -/

structure Reply where
  status : Nat
  body : Option Json
  deriving DecidableEq

/-- `JSONResponse(status_code=…, content={"detail": …})` -/
def detailReply (status : Nat) (detail : String) : Reply :=
  ⟨status, some (.obj [("detail", .str detail)])⟩

/-- The exception handlers of `create_app`; what none of them takes is a server error. -/
def errorReply (e : RepositoryError) : Reply :=
  match e.kind with
  | .idempotencyConflict | .stateConflict | .inventorySync | .inventoryResyncRequired =>
    detailReply 409 e.message
  | .notFound | .ownership => detailReply 404 "resource was not found"
  | .keyError | .valueError | .typeError => ⟨500, some (.str "Internal Server Error")⟩

def reply {α : Type} (answer : α → Reply) : Except RepositoryError α → Reply
  | .ok a => answer a
  | .error e => errorReply e

/-! ## The view of a scan -/

def ScanState.text : ScanState → String
  | .queued => "QUEUED"
  | .dispatched => "DISPATCHED"
  | .analyzing => "ANALYZING"
  | .complete => "COMPLETE"
  | .rejected => "REJECTED"
  | .expired => "EXPIRED"

/-- `phase_by_state` -/
def ScanState.phase : ScanState → String
  | .queued => "WAITING_FOR_ENDPOINT"
  | .dispatched => "ENDPOINT_COLLECTION"
  | .analyzing => "CLOUD_ANALYSIS"
  | .complete => "COMPLETE"
  | .rejected => "REJECTED"
  | .expired => "EXPIRED"

/-- `progress_by_state` -/
def ScanState.progress : ScanState → Int
  | .queued => 0
  | .dispatched => 15
  | .analyzing => 70
  | .complete | .rejected | .expired => 100

/-- `document.get(name) if document else None` -/
def field (document : Option JsonObject) (name : String) : Json :=
  match document with
  | some fields => JsonObject.get fields name
  | none => .null

/-- `_record_view(record, include_documents=True)` -/
def recordView (rt : Runtime) (record : ScanRecord) : JsonObject :=
  let download (suffix : String) : Json :=
    if record.finalReport ≠ none then
      .str ("/api/v1/platform/scans/" ++ record.scanId ++ suffix)
    else .null
  [("scan_id", .str record.scanId),
    ("job_id", .str record.jobId),
    ("endpoint_id", .str record.endpointId),
    ("state", .str record.state.text),
    ("status", .str record.state.text),
    ("phase", .str record.state.phase),
    ("progress_percent", .int record.state.progress),
    ("scan_type", JsonObject.get record.jobDocument "scan_type"),
    ("created_at", .str (rt.isoformat record.createdAt)),
    ("updated_at", .str (rt.isoformat record.updatedAt)),
    ("endpoint_status", field record.terminalStatus "status"),
    ("report_ready", .bool (record.finalReport ≠ none)),
    ("report_summary", field record.finalReport "summary"),
    ("actions", .obj [
      ("json_download_url", download "/report.json"),
      ("pdf_download_url", download "/report.pdf")]),
    ("job", .obj record.jobDocument),
    ("result", field record.upload "result"),
    ("final_report", match record.finalReport with
      | some report => .obj report
      | none => .null)]

/-! ## The operations -/

/-- `get_scan_for_endpoint` -/
def getScanForEndpoint (principal : DevicePrincipal) (scanId : String) :
    RepositoryMethod (Option ScanRecord) :=
  .reading fun repo =>
    match repo.scans.get? scanId with
    | none => .ok none
    | some record => do
      raiseIf (record.tenantId ≠ principal.tenantId ∨ record.endpointId ≠ principal.endpointId)
        .ownership "scan is not owned by authenticated endpoint"
      .ok (some record)

/-- What an endpoint can ask of the repository, with whatever the handler draws and reads. -/
inductive EndpointOperation where
  /-- `GET /api/v1/scans/next/…` -/
  | nextScan (now auditedAt : Timestamp)
  /-- `POST /api/v1/scans` -/
  | submitScan (scanId : String) (upload : JsonObject) (idempotencyKey requestHash : String)
      (tasks : List AnalysisTask) (now auditedAt : Timestamp)
  /-- `POST /api/v1/scans/status` -/
  | submitStatus (scanId : String) (status : JsonObject) (idempotencyKey requestHash : String)
      (now auditedAt : Timestamp)
  /-- `POST /api/v1/scans/rejections` -/
  | submitRejection (payload : ScanRejectionUpload) (idempotencyKey requestHash : String)
      (now auditedAt : Timestamp)
  /-- `GET /api/v1/scans/…` -/
  | getEndpointScan (scanId : String)

/-- The answer of the handler, in the state in which it calls the repository. -/
def EndpointOperation.reply (rt : Runtime) (principal : DevicePrincipal)
    (repo : InMemoryRepository) : EndpointOperation → Reply
  | .nextScan now auditedAt =>
    Cloud.reply (fun
        | none => ⟨204, none⟩
        | some record => ⟨200, some (.obj record.jobDocument)⟩)
      ((claimNextJob rt principal now auditedAt).run repo).1
  | .submitScan scanId upload idempotencyKey requestHash tasks now auditedAt =>
    Cloud.reply (fun record => ⟨202, some (.obj [
        ("scan_id", .str record.scanId),
        ("status", .str "accepted"),
        ("analysis_tasks", .arr [.str "OSV", .str "DEPSCAN"])])⟩)
      ((ingestScan rt principal scanId upload idempotencyKey requestHash tasks now auditedAt).run
        repo).1
  | .submitStatus scanId status idempotencyKey requestHash now auditedAt =>
    Cloud.reply (fun _ => ⟨202, some (.obj [
        ("scan_id", .str scanId),
        ("status", .str "accepted")])⟩)
      ((recordScanStatus principal scanId status idempotencyKey requestHash now auditedAt).run
        repo).1
  | .submitRejection payload idempotencyKey requestHash now auditedAt =>
    Cloud.reply (fun _ => ⟨202, some (.obj [("status", .str "accepted")])⟩)
      ((recordRejection principal payload idempotencyKey requestHash now auditedAt).run repo).1
  | .getEndpointScan scanId =>
    Cloud.reply (fun
        | none => detailReply 404 "scan was not found"
        | some record => ⟨200, some (.obj (recordView rt record))⟩)
      ((getScanForEndpoint principal scanId).run repo).1

end OsScanner.Cloud

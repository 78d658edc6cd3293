import Mathlib
import OsScanner.Cloud.ScanUpload
import OsScanner.Cloud.AnalysisWorker
import OsScanner.Storage.UploadQueue

/-!
# The final report

`build_final_report` of `cloud_service/analysis.py` and the checks that it makes: of the SBOM,
of the evidence, of the results of the tools and, last, of the report that wraps all of them.
How a vulnerability record is validated, merged and printed is a parameter.
-/

namespace OsScanner.Cloud

open Lib Security

/-! ## Limits -/

/-- Limits out of their range are never built: `__post_init__` raises `ValueError`. -/
structure AnalysisLimits where
  maxSbomBytes : Nat := 25 * 1024 * 1024
  maxComponents : Nat := 100000
  maxVulnerabilitiesPerTool : Nat := 50000
  maxEndpointEvidenceBytes : Nat := 50 * 1024 * 1024
  maxEndpointEvidenceNodes : Nat := 500000
  maxReportBytes : Nat := 100 * 1024 * 1024
  maxReportNodes : Nat := 1000000
  maxSbomBytes_range : 1024 ≤ maxSbomBytes ∧ maxSbomBytes ≤ 100 * 1024 * 1024 := by decide
  maxComponents_range : 1 ≤ maxComponents ∧ maxComponents ≤ 250000 := by decide
  maxVulnerabilitiesPerTool_range : 1 ≤ maxVulnerabilitiesPerTool ∧
    maxVulnerabilitiesPerTool ≤ 50000 := by decide
  maxEndpointEvidenceBytes_range : 1024 ≤ maxEndpointEvidenceBytes ∧
    maxEndpointEvidenceBytes ≤ 250 * 1024 * 1024 := by decide
  maxEndpointEvidenceNodes_range : 1000 ≤ maxEndpointEvidenceNodes ∧
    maxEndpointEvidenceNodes ≤ 2000000 := by decide
  maxReportBytes_range : 1024 ≤ maxReportBytes ∧ maxReportBytes ≤ 250 * 1024 * 1024 := by decide
  maxReportNodes_range : 10000 ≤ maxReportNodes ∧ maxReportNodes ≤ 4000000 := by decide

/-- Every default passes its own check. -/
def AnalysisLimits.standard : AnalysisLimits := {}

/-! ## The engine -/

inductive Severity where
  | critical
  | high
  | medium
  | low
  | info
  deriving DecidableEq, Repr

def Severity.text : Severity → String
  | .critical => "CRITICAL"
  | .high => "HIGH"
  | .medium => "MEDIUM"
  | .low => "LOW"
  | .info => "INFO"

def Severity.all : List Severity := [.critical, .high, .medium, .low, .info]

/-- The parts of `CloudAnalysisEngine` that a report depends on. -/
structure ReportEngine (V : Type) where
  limits : AnalysisLimits := .standard
  fixtureMode : Bool := false
  /-- `Vulnerability.model_validate(item)`, absent where it raises. -/
  modelValidate : Json → Option V
  /-- `merge_vulnerabilities` -/
  merge : List V → List V
  /-- `item.model_dump(mode="json", exclude_none=True)` -/
  dump : V → Json
  severity : V → Severity
  /-- `str(value)` of a value that is no string. -/
  str : Json → String
  /-- `\w` -/
  isWord : Char → Bool
  /-- `_iso(self._now())` -/
  now : String

/-- `raise AnalysisInputError(message)` and `raise PermanentAnalysisError(message)` -/
def permanent {α : Type} (message : String) : Except WorkerError α := .error (.permanent message)

def permanentIf (bad : Prop) [Decidable bad] (message : String) : Except WorkerError Unit :=
  Check.raiseIf bad (.permanent message)

/-! ## The input -/

structure CloudScanInput where
  tenantId : String
  endpointId : String
  scanId : String
  result : JsonObject
  inventorySync : JsonObject
  sbom : JsonObject
  sbomSha256 : Option String := none
  expectedTools : List TaskKind := [.osv, .depscan]
  deriving DecidableEq

/-- `_read_field(upload, name, {})`, which must be an object. -/
def requireMapping (upload : JsonObject) (name message : String) :
    Except WorkerError JsonObject :=
  match (Assoc.lookup name upload).getD (.obj []) with
  | .obj fields => .ok fields
  | _ => permanent message

/-- The SBOM of an upload; `None` stands for none. -/
def sbomEvidence (upload : JsonObject) : Except WorkerError JsonObject :=
  match (Assoc.lookup "sbom" upload).getD (.obj []) with
  | .obj fields => .ok fields
  | .null => .ok []
  | _ => permanent "CycloneDX SBOM evidence must be an object"

/-- `not value or len(value) > 128` -/
def identityText (name value : String) : Except WorkerError Unit :=
  permanentIf (value = "" ∨ value.length > 128) (name ++ " must contain 1 to 128 characters")

section Report

variable {V : Type} (rt : Runtime) (engine : ReportEngine V)

/-- `str(value)` -/
def pyStr (value : Json) : String :=
  match value with
  | .str s => s
  | other => engine.str other

/-- `str(value or "")` -/
def textOrEmpty (value : Json) : String := if Storage.truthy value then pyStr engine value else ""

/-- `__post_init__` -/
def checkedSha256 (sbom : JsonObject) (sbomSha256 : Json) : Except WorkerError (Option String) :=
  match sbomSha256 with
  | .null => .ok none
  | value => do
    let checksum := rt.casefold (pyStr engine value)
    permanentIf (isHexDigest checksum = false)
      "SBOM checksum must be a SHA-256 hexadecimal digest"
    permanentIf (sbom = []) "SBOM checksum cannot be supplied without an SBOM"
    .ok (some checksum)

/-- `coerce_scan_input` on what the repository returns. -/
def coerceScanInput (raw : Option ScanAnalysisInput) : Except WorkerError CloudScanInput :=
  match raw with
  | none => .error (.retryable "durable scan analysis input is not available")
  | some input => do
    let result ← requireMapping input.upload "result" "endpoint result evidence must be an object"
    let inventorySync ← requireMapping input.upload "inventory_sync"
      "inventory synchronization evidence must be an object"
    let sbom ← sbomEvidence input.upload
    identityText "tenant_id" input.tenantId
    identityText "endpoint_id" input.endpointId
    identityText "scan_id" input.scanId
    let sbomSha256 ← checkedSha256 rt engine sbom (input.upload.get "sbom_sha256")
    .ok {
      tenantId := input.tenantId
      endpointId := input.endpointId
      scanId := input.scanId
      result := result
      inventorySync := inventorySync
      sbom := sbom
      sbomSha256 := sbomSha256 }

/-! ## The SBOM -/

def supportedCycloneDx : List String := ["1.4", "1.5", "1.6", "1.7"]

/-- `str(document.get("specVersion") or "")`: only a text or a float can be a known version. -/
def specVersion (document : JsonObject) : String :=
  match document.get "specVersion" with
  | .str s => s
  | .float f => String.ofList (rt.floatRepr f)
  | _ => ""

/-- `raw.get("components", [])` -/
def nestedComponents (component : JsonObject) : Json :=
  (Assoc.lookup "components" component).getD (.arr [])

/-- The loop of `_count_components`: `remaining` more components may be counted. -/
def countLoop : Nat → List Json → Except WorkerError Nat
  | _, [] => .ok 0
  | 0, .obj _ :: _ => permanent "CycloneDX component count exceeds the configured limit"
  | remaining + 1, .obj component :: stack =>
    match nestedComponents component with
    | .arr nested => (countLoop remaining (nested.reverse ++ stack)).map (· + 1)
    | _ => permanent "nested CycloneDX components must be an array"
  | _, _ :: _ => permanent "CycloneDX component entries must be objects"

/-- `_count_components(document, maximum)` -/
def countComponents (document : JsonObject) (maximum : Nat) : Except WorkerError Nat :=
  match nestedComponents document with
  | .arr components => countLoop maximum components.reverse
  | _ => permanent "CycloneDX components must be an array"

structure ValidatedSbom where
  sha256 : String
  specVersion : String
  componentCount : Nat
  deriving DecidableEq

/-- `len(_canonical_bytes(value))` -/
def canonicalSize (value : Json) : Nat := (Json.canonicalJson rt value).utf8ByteSize

/-- `_validate_sbom(scan, limits)` -/
def validateSbom (limits : AnalysisLimits) (scan : CloudScanInput) :
    Except WorkerError ValidatedSbom := do
  let _ ← (boundedCopy 20 limits.maxReportNodes (.obj scan.sbom)).mapError fun _ =>
    .permanent "CycloneDX SBOM exceeds structural limits"
  permanentIf (scan.sbom.get "bomFormat" ≠ .str "CycloneDX") "SBOM must use the CycloneDX format"
  permanentIf (¬ specVersion rt scan.sbom ∈ supportedCycloneDx)
    "unsupported CycloneDX SBOM specification version"
  let componentCount ← countComponents scan.sbom limits.maxComponents
  permanentIf (canonicalSize rt (.obj scan.sbom) > limits.maxSbomBytes)
    "CycloneDX SBOM exceeds the configured byte limit"
  let digest := Json.canonicalSha256 rt (.obj scan.sbom)
  permanentIf (∃ checksum ∈ scan.sbomSha256, digest ≠ checksum)
    "CycloneDX SBOM checksum does not match its content"
  .ok ⟨digest, specVersion rt scan.sbom, componentCount⟩

/-- `_validate_sbom(scan, self.limits) if scan.sbom else None` -/
def reportSbom (limits : AnalysisLimits) (scan : CloudScanInput) :
    Except WorkerError (Option ValidatedSbom) :=
  if scan.sbom = [] then .ok none else (validateSbom rt limits scan).map some

/-! ## The evidence -/

/-- `_bounded_evidence(value, limits=…, label=…)` -/
def boundedEvidence (value : JsonObject) (label : String) : Except WorkerError JsonObject := do
  let _ ← (boundedCopy 20 engine.limits.maxEndpointEvidenceNodes (.obj value)).mapError fun _ =>
    .permanent (label ++ " exceeds structural limits")
  permanentIf (canonicalSize rt (.obj value) > engine.limits.maxEndpointEvidenceBytes)
    (label ++ " exceeds the configured byte limit")
  match redactValue rt engine.isWord 20 engine.limits.maxEndpointEvidenceNodes (.obj value) with
  | .obj redacted => .ok redacted
  | _ => permanent (label ++ " redaction produced an invalid object")

/-! ## The tools -/

def knownStatuses : List String :=
  ["SUCCESS", "PARTIAL", "FAILED", "UNAVAILABLE", "TIMEOUT", "SKIPPED"]

/-- `_normalized_status(value)`: what is no string is no known status. -/
def normalizedStatus (value : Json) : String :=
  match value with
  | .str s => if rt.upper s ∈ knownStatuses then rt.upper s else "FAILED"
  | _ => "FAILED"

/-- `cleaned or None` -/
def noneIfEmpty (text : String) : Option String := if text = "" then none else some text

/-- `_tool_result_error(error)` -/
def toolResultError (error : Json) : Option String :=
  match error with
  | .null => none
  | value => noneIfEmpty (Storage.strip (redactText engine.isWord (pyStr engine value) 2048))

/-- `redact_mapping(value)`, which only a mapping reaches. -/
def redactMapping (value : JsonObject) : Json := redactValue rt engine.isWord 12 20000 (.obj value)

structure ToolSummary where
  status : String
  fixtureMode : Bool
  toolVersion : Option String
  finishedAt : Option String
  durationSeconds : Json
  error : Option String
  warnings : List String
  recordsAccepted : Nat
  recordsRejected : Nat
  provenance : Json

def ToolSummary.dump (summary : ToolSummary) : Json := .obj [
  ("status", .str summary.status),
  ("fixture_mode", .bool summary.fixtureMode),
  ("tool_version", Json.ofOption summary.toolVersion),
  ("finished_at", Json.ofOption summary.finishedAt),
  ("duration_seconds", summary.durationSeconds),
  ("error", Json.ofOption summary.error),
  ("warnings", .arr (summary.warnings.map .str)),
  ("records_accepted", .int summary.recordsAccepted),
  ("records_rejected", .int summary.recordsRejected),
  ("provenance", summary.provenance)]

def isUsable (status : String) : Bool := status = "SUCCESS" || status = "PARTIAL"

/-- The records of a tool; a persisted result without any has none. -/
def rawVulnerabilities (tool : TaskKind) (raw : JsonObject) : Except WorkerError (List Json) :=
  match (Assoc.lookup "vulnerabilities" raw).getD (.arr []) with
  | .arr records => .ok records
  | _ => permanent ("persisted " ++ tool.text ++ " vulnerabilities must be an array")

/-- A dead-letter summary carries no identity of its own. -/
def isSyntheticFailure (status : String) (raw : JsonObject) : Bool :=
  decide (status = "FAILED") && !raw.has "scan_id"

/-- The body of the loop over the tools. -/
def toolSummary (scan : CloudScanInput) (tool : TaskKind) (raw : JsonObject) :
    Except WorkerError (ToolSummary × List V) := do
  let status := normalizedStatus rt (raw.get "status")
  permanentIf (isSyntheticFailure status raw = false ∧
      textOrEmpty engine (raw.get "scan_id") ≠ scan.scanId)
    ("persisted " ++ tool.text ++ " result belongs to another scan")
  permanentIf (isSyntheticFailure status raw = false ∧
      textOrEmpty engine (raw.get "endpoint_id") ≠ scan.endpointId)
    ("persisted " ++ tool.text ++ " result belongs to another endpoint")
  let records ← rawVulnerabilities tool raw
  permanentIf (records.length > engine.limits.maxVulnerabilitiesPerTool)
    ("persisted " ++ tool.text ++ " result exceeds record limits")
  let accepted := if isUsable status then records.filterMap engine.modelValidate else []
  .ok ({
    status := status
    fixtureMode := decide (raw.get "fixture_mode" = .bool true)
    toolVersion := noneIfEmpty (textOrEmpty engine (raw.get "tool_version"))
    finishedAt := noneIfEmpty (textOrEmpty engine (raw.get "finished_at"))
    durationSeconds := raw.get "duration_seconds"
    error := toolResultError engine (raw.get "error")
    warnings := match raw.get "warnings" with
      | .arr items => (items.take 128).map fun item =>
        redactText engine.isWord (pyStr engine item) 1024
      | _ => []
    recordsAccepted := accepted.length
    recordsRejected := records.length - accepted.length
    provenance := match raw.get "provenance" with
      | .obj fields => redactMapping rt engine fields
      | _ => redactMapping rt engine [] }, accepted)

/-- The loop over the tools: their summaries, and the records of all of them. -/
def toolSummaries (scan : CloudScanInput) (results : Dict TaskKind JsonObject) :
    List TaskKind → Except WorkerError (List (TaskKind × ToolSummary) × List V)
  | [] => .ok ([], [])
  | tool :: tools => do
    let first ← toolSummary rt engine scan tool ((results.get? tool).getD [])
    let others ← toolSummaries scan results tools
    .ok ((tool, first.1) :: others.1, first.2 ++ others.2)

/-! ## The report -/

/-- `sorted(names)` -/
def sortedNames (names : List String) : Json :=
  .arr ((names.insertionSort (· ≤ ·)).map .str)

/-- The report before its own limits are checked. -/
def assembleReport (scan : CloudScanInput) (validated : Option ValidatedSbom)
    (endpointResult inventorySync : JsonObject) (summaries : List (TaskKind × ToolSummary))
    (merged : List V) : JsonObject :=
  let namesOf (p : ToolSummary → Bool) : List String :=
    (summaries.filter fun e => p e.2).map fun e => e.1.text
  let successful := namesOf fun summary => summary.status = "SUCCESS"
  let usable := namesOf fun summary => isUsable summary.status
  let degraded := (summaries.filter fun e => !decide (e.2.status = "SUCCESS"))
  let fixture := engine.fixtureMode || summaries.any fun e => e.2.fixtureMode
  let complete := !fixture && degraded.isEmpty &&
    summaries.all fun e => e.2.recordsRejected = 0
  let status :=
    if fixture then "FIXTURE"
    else if complete then "SUCCESS"
    else if !usable.isEmpty || !endpointResult.isEmpty then "PARTIAL"
    else "FAILED"
  let fullInventory := Storage.truthy (inventorySync.get "reconstructed_snapshot") ||
    decide (inventorySync.get "mode" = .str "full") ||
    Storage.truthy (inventorySync.get "snapshot") ||
    (match endpointResult.get "metadata" with
      | .obj metadata => Storage.truthy (JsonObject.get metadata "inventory_complete")
      | _ => false)
  let finished := summaries.filterMap fun e => e.2.finishedAt
  let componentCount : Json := match validated with
    | some sbom => .int sbom.componentCount
    | none => .null
  let sha256 := Json.ofOption (validated.map (·.sha256))
  [("schema_version", .str "1.0"),
    ("report_type", .str "CLOUD_ENDPOINT_SECURITY_REPORT"),
    ("report_id", .str ("cloud-report:" ++ scan.scanId)),
    ("analysis_version", .str "1.0.0"),
    ("tenant_id", .str scan.tenantId),
    ("endpoint_id", .str scan.endpointId),
    ("scan_id", .str scan.scanId),
    ("status", .str status),
    ("analysis_completed_at", .str (if finished.isEmpty then engine.now
      else finished.foldl max "")),
    ("endpoint_evidence", .obj [
      ("result", .obj endpointResult),
      ("inventory_sync", .obj inventorySync),
      ("sbom", .obj [
        ("bom_format", .str "CycloneDX"),
        ("spec_version", Json.ofOption (validated.map (·.specVersion))),
        ("sha256", sha256),
        ("component_count", componentCount)])]),
    ("cloud_analysis", .obj [
      ("vulnerabilities", .arr (merged.map engine.dump)),
      ("tools", .obj (summaries.map fun e => (e.1.text, e.2.dump)))]),
    ("summary", .obj [
      ("status", .str status),
      ("component_count", componentCount),
      ("vulnerability_count", .int merged.length),
      ("vulnerabilities_by_severity", .obj (Severity.all.map fun severity =>
        (severity.text, .int (merged.countP fun v => engine.severity v = severity)))),
      ("successful_tools", sortedNames successful),
      ("usable_tools", sortedNames usable),
      ("degraded_tools", sortedNames (degraded.map fun e => e.1.text))]),
    ("completeness", .obj [
      ("complete", .bool complete),
      ("fixture_mode", .bool fixture),
      ("endpoint_result_received", .bool (!endpointResult.isEmpty)),
      ("inventory_sync_received", .bool (!inventorySync.isEmpty)),
      ("full_inventory_available", .bool fullInventory),
      ("sbom_received", .bool validated.isSome),
      ("expected_tools", .arr (scan.expectedTools.map fun tool => .str tool.text)),
      ("terminal_tools", sortedNames (summaries.map fun e => e.1.text)),
      ("successful_tools", sortedNames successful),
      ("usable_tools", sortedNames usable),
      ("degraded_tools", sortedNames (degraded.map fun e => e.1.text)),
      ("gaps", .arr (
        (if fixture then [.str "non-production deterministic fixture evidence"] else []) ++
        ((degraded.insertionSort fun a b => a.1.text ≤ b.1.text).map fun e =>
          .str (e.1.text ++ " analysis status is " ++ e.2.status)) ++
        ((summaries.filter fun e => decide (0 < e.2.recordsRejected)).map fun e =>
          .str (e.1.text ++ " rejected normalized records"))))]),
    ("provenance", .obj [
      ("cloud_analysis_version", .str "1.0.0"),
      ("endpoint_schema_version", endpointResult.get "schema_version"),
      ("endpoint_scanner_version", endpointResult.get "scanner_version"),
      ("endpoint_policy_id", endpointResult.get "policy_id"),
      ("endpoint_policy_version", endpointResult.get "policy_version"),
      ("sbom_sha256", sha256),
      ("tool_versions", .obj (summaries.map fun e =>
        (e.1.text, Json.ofOption e.2.toolVersion)))])]

/-- `_bound_report_object(value, label=…)` -/
def boundReportObject (value : JsonObject) (label : String) : Except WorkerError JsonObject := do
  let _ ← (boundedCopy 20 engine.limits.maxReportNodes (.obj value)).mapError fun _ =>
    .permanent (label ++ " exceeds structural limits")
  permanentIf (canonicalSize rt (.obj value) > engine.limits.maxReportBytes)
    (label ++ " exceeds the configured byte limit")
  .ok value

/-- `build_final_report(scan_input, tool_results)` -/
def buildFinalReport (input : Option ScanAnalysisInput) (results : Dict TaskKind JsonObject) :
    Except WorkerError JsonObject := do
  let scan ← coerceScanInput rt engine input
  let validated ← reportSbom rt engine.limits scan
  let endpointResult ← boundedEvidence rt engine scan.result "endpoint result evidence"
  let inventorySync ← boundedEvidence rt engine scan.inventorySync
    "inventory synchronization evidence"
  Check.raiseIf (∃ tool ∈ scan.expectedTools, results.contains tool = false)
    (.retryable "analysis results are not terminal")
  let tools ← toolSummaries rt engine scan results scan.expectedTools
  permanentIf (tools.2.length >
      engine.limits.maxVulnerabilitiesPerTool * scan.expectedTools.length)
    "combined cloud vulnerability limit exceeded"
  boundReportObject rt engine (assembleReport engine scan validated endpointResult inventorySync
    tools.1 (engine.merge tools.2)) "final cloud report"

end Report

end OsScanner.Cloud

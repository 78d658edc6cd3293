import Mathlib
import OsScanner.Cloud.FinalReport
import OsScanner.Json.Size

/-!
# The SBOM of an endpoint

`app/sbom/cyclonedx.py`: a CycloneDX document with one component for each distinct record of the
software inventory, redacted as a whole. `_queue_result` of `app/orchestrator/scanner.py` puts it
into the payload of a scan result, with its checksum.
-/

namespace OsScanner.Endpoint

open Lib Security Cloud

/-! ## Scan results -/

inductive ScanType where
  | quick
  | full
  | compliance
  | vulnerability
  | attackSurface
  | onDemand
  deriving DecidableEq, Repr

def ScanType.value : ScanType → String
  | .quick => "QUICK"
  | .full => "FULL"
  | .compliance => "COMPLIANCE"
  | .vulnerability => "VULNERABILITY"
  | .attackSurface => "ATTACK_SURFACE"
  | .onDemand => "ON_DEMAND"

inductive OverallStatus where
  | queued
  | running
  | success
  | partialResult
  | failed
  | cancelled
  deriving DecidableEq, Repr

def OverallStatus.value : OverallStatus → String
  | .queued => "QUEUED"
  | .running => "RUNNING"
  | .success => "SUCCESS"
  | .partialResult => "PARTIAL"
  | .failed => "FAILED"
  | .cancelled => "CANCELLED"

/-- A record of the software inventory. -/
structure Software where
  name : String
  version : Option String := none
  vendor : Option String := none
  /-- `installation_date.isoformat()` -/
  installationDate : Option String := none
  packageManager : Option String := none
  architecture : Option String := none
  source : Option String := none
  deriving DecidableEq

/-- The fields of a scan result that the SBOM shows. -/
structure ScanResult where
  schemaVersion : String := "1.0"
  scannerVersion : String := "1.1.0"
  scanId : String
  endpointId : Option String
  scanType : ScanType
  timestamp : Timestamp
  finishedAt : Option Timestamp := none
  status : OverallStatus
  policyId : String := "enterprise-default"
  policyVersion : Option String := none
  policyChecksum : Option String := none
  software : List Software := []
  metadata : JsonObject := []

inductive SbomError where
  | valueError (message : String)
  | sbomLimit (message : String)
  | reportTooLarge (message : String)
  deriving DecidableEq

/-- What the standard library makes of texts and instants. -/
structure SbomText where
  /-- `\w` -/
  isWord : Char → Bool
  /-- `uuid5(NAMESPACE_URL, seed)` -/
  uuid5 : String → String
  /-- `value.isoformat(timespec="microseconds")` of an instant in UTC, with `Z` for the offset. -/
  timestamp : Timestamp → String

def defaultMaxComponents : Nat := 100000

section Sbom

variable (rt : Runtime) (text : SbomText)

/-! ## Components -/

/-- `_safe_text(value, maximum=…)` -/
def safeText (value : Option String) (maximum : Nat) : Option String :=
  value.bind fun value =>
    noneIfEmpty (Storage.strip (redactText text.isWord value maximum))

/-- What tells two records apart. -/
structure SoftwareIdentity where
  name : String
  version : String
  vendor : String
  packageManager : String
  architecture : String
  source : String
  deriving DecidableEq

def SoftwareIdentity.parts (identity : SoftwareIdentity) : List String :=
  [identity.name, identity.version, identity.vendor, identity.packageManager,
    identity.architecture, identity.source]

/-- `_software_identity(software)` -/
def softwareIdentity (software : Software) : SoftwareIdentity where
  name := (safeText text (some software.name) 512).getD ""
  version := (safeText text software.version 256).getD ""
  vendor := (safeText text software.vendor 512).getD ""
  packageManager := (safeText text software.packageManager 128).getD ""
  architecture := (safeText text software.architecture 64).getD ""
  source := (safeText text software.source 256).getD ""

def purlTypes : List (String × String) :=
  [("apk", "apk"), ("cargo", "cargo"), ("composer", "composer"), ("deb", "deb"), ("dpkg", "deb"),
    ("gem", "gem"), ("golang", "golang"), ("go", "golang"), ("homebrew", "brew"),
    ("brew", "brew"), ("maven", "maven"), ("npm", "npm"), ("nuget", "nuget"),
    ("pacman", "alpm"), ("pip", "pypi"), ("pypi", "pypi"), ("rpm", "rpm")]

/-- `_PURL_TYPES.get(package_manager.casefold())` -/
def purlType (packageManager : String) : Option String :=
  Assoc.lookup (rt.casefold packageManager) purlTypes

/-- A hexadecimal digit of an escape. -/
def hexDigit (n : Nat) : Char := (Nat.digitChar n).toUpper

/-- `quote(value, safe=".-_~")` -/
def quote (value : String) : String :=
  String.ofList (value.toList.flatMap fun c =>
    if c.isAlphanum || ".-_~".toList.contains c then [c]
    else (utf8Bytes (String.singleton c)).flatMap fun b =>
      ['%', hexDigit (b.toNat / 16), hexDigit (b.toNat % 16)])

/-- `_package_url(name, version, package_manager, architecture)` -/
def packageUrl (identity : SoftwareIdentity) : Option String :=
  match purlType rt identity.packageManager with
  | none => none
  | some kind =>
    if identity.name = "" ∨ identity.version = "" ∨ '/' ∈ identity.name.toList ∨
        '\\' ∈ identity.name.toList then none
    else some ("pkg:" ++ kind ++ "/" ++ quote identity.name ++ "@" ++ quote identity.version ++
      if identity.architecture = "" then "" else "?arch=" ++ quote identity.architecture)

/-- `_property(name, value)` -/
def property (name : String) (value : Option String) : Option Json :=
  value.map fun value => .obj [("name", .str name), ("value", .str value)]

def componentProperties (identity : SoftwareIdentity) (installationDate : Option String) :
    List Json :=
  [property "com.endpoint-scanner.package-manager" (noneIfEmpty identity.packageManager),
    property "com.endpoint-scanner.architecture" (noneIfEmpty identity.architecture),
    property "com.endpoint-scanner.inventory-source" (noneIfEmpty identity.source),
    property "com.endpoint-scanner.installation-date" installationDate].filterMap id

/-- `f"software:{sha256(json.dumps(identity).encode()).hexdigest()}"` -/
def componentReference (identity : SoftwareIdentity) : String :=
  "software:" ++ Json.canonicalSha256 rt (.arr (identity.parts.map .str))

/-- `_component(identity, installation_date)` -/
def component (identity : SoftwareIdentity) (installationDate : Option String) : JsonObject :=
  [("bom-ref", .str (componentReference rt identity)),
    ("type", .str (if (purlType rt identity.packageManager).isSome then "library"
      else "application")),
    ("name", .str identity.name)] ++
  (if identity.version = "" then [] else [("version", .str identity.version)]) ++
  (if identity.vendor = "" then [] else
    [("supplier", .obj [("name", .str identity.vendor)])]) ++
  ((packageUrl rt identity).toList.map fun purl => ("purl", .str purl)) ++
  (if componentProperties identity installationDate = [] then [] else
    [("properties", .arr (componentProperties identity installationDate))])

/-- `date is not None and (previous is None or date < previous)` -/
def isEarlier (date previous : Option String) : Bool :=
  match date, previous with
  | some date, some previous => decide (date < previous)
  | some _, none => true
  | none, _ => false

/-- Duplicates collapse into one record, with the earliest date that is known. -/
def addRecord (records : Dict SoftwareIdentity (Option String)) (software : Software) :
    Dict SoftwareIdentity (Option String) :=
  let identity := softwareIdentity text software
  match records.get? identity with
  | none => records.set identity software.installationDate
  | some previous =>
    if isEarlier software.installationDate previous then
      records.set identity software.installationDate
    else records

def softwareRecords (software : List Software) : Dict SoftwareIdentity (Option String) :=
  software.foldl (addRecord text) ∅

/-- `(tuple(part.casefold() for part in item), item)` -/
def sortKey (identity : SoftwareIdentity) : List String :=
  identity.parts.map rt.casefold ++ identity.parts

/-- The records in the order of their components. -/
def sortedRecords (result : ScanResult) : List (SoftwareIdentity × Option String) :=
  (softwareRecords text result.software).entries.insertionSort fun a b =>
    sortKey rt a.1 ≤ sortKey rt b.1

def components (result : ScanResult) : List Json :=
  (sortedRecords rt text result).map fun record => .obj (component rt record.1 record.2)

/-! ## The document -/

/-- `"software" in sections`, where the sections are a list. -/
def namesSoftware (sections : Json) : Bool :=
  match sections with
  | .arr items => decide (Json.str "software" ∈ items)
  | _ => false

/-- `_software_completeness(result)` -/
def softwareCompleteness (result : ScanResult) : String :=
  if namesSoftware (result.metadata.get "observed_inventory_sections") then "observed"
  else if namesSoftware (result.metadata.get "unobserved_inventory_sections") then "unobserved"
  else "unknown"

def sbomEndpointId (endpointId : String) : String :=
  (safeText text (some endpointId) 128).getD "unknown-endpoint"

def metadataProperties (result : ScanResult) (endpointId : String) : List Json :=
  [property "com.endpoint-scanner.scan-id" (safeText text (some result.scanId) 128),
    property "com.endpoint-scanner.endpoint-id" (some endpointId),
    property "com.endpoint-scanner.scan-type" (some result.scanType.value),
    property "com.endpoint-scanner.scan-status" (some result.status.value),
    property "com.endpoint-scanner.schema-version" (some result.schemaVersion),
    property "com.endpoint-scanner.software-completeness" (some (softwareCompleteness result)),
    property "com.endpoint-scanner.policy-id" (safeText text (some result.policyId) 128),
    property "com.endpoint-scanner.policy-version" (safeText text result.policyVersion 64),
    property "com.endpoint-scanner.policy-checksum" result.policyChecksum].filterMap id

def sbomMetadata (result : ScanResult) (endpointId : String) : JsonObject :=
  [("timestamp", .str (text.timestamp (result.finishedAt.getD result.timestamp))),
    ("tools", .obj [("components", .arr [.obj [
      ("type", .str "application"),
      ("name", .str "endpoint-security-scanner"),
      ("version", .str result.scannerVersion)]])]),
    ("component", .obj [
      ("bom-ref", .str ("endpoint:" ++ rt.hashText endpointId)),
      ("type", .str "device"),
      ("name", .str "managed-endpoint")]),
    ("properties", .arr (metadataProperties text result endpointId))]

/-- The document before its redaction. -/
def sbomDocument (result : ScanResult) (endpointId : String) : JsonObject :=
  [("bomFormat", .str "CycloneDX"),
    ("specVersion", .str "1.6"),
    ("serialNumber", .str ("urn:uuid:" ++
      text.uuid5 ("endpoint-security-scanner:" ++ result.scanId ++ ":" ++ endpointId))),
    ("version", .int 1),
    ("metadata", .obj (sbomMetadata rt text result endpointId)),
    ("components", .arr (components rt text result))]

/-- `build_cyclonedx_sbom(result, max_components=…)` -/
def buildCyclonedxSbom (result : ScanResult) (maxComponents : Nat := defaultMaxComponents) :
    Except SbomError JsonObject := do
  Check.raiseIf (¬ (1 ≤ maxComponents ∧ maxComponents ≤ defaultMaxComponents))
    (.valueError s!"max_components must be between 1 and {defaultMaxComponents}")
  match result.endpointId with
  | none =>
    .error (.valueError "CycloneDX endpoint SBOM export requires an endpoint scan result")
  | some endpointId =>
    Check.raiseIf (result.software.length > maxComponents) (.sbomLimit
      s!"software inventory has {result.software.length} records; maximum is {maxComponents}")
    match redactValue rt text.isWord 12
        (max 20000 ((components rt text result).length * 40 + 1000))
        (.obj (sbomDocument rt text result (sbomEndpointId text endpointId))) with
    | .obj redacted => .ok redacted
    | _ => .error (.valueError "SBOM redaction produced an invalid document")

/-! ## The payload -/

/-- `serialize_report(report, max_bytes=…)` without a redactor. -/
def serializeReport (report : JsonObject) (maxBytes : Nat) : Except SbomError String := do
  let encoded := Json.canonicalJson rt (.obj report)
  Check.raiseIf (encoded.utf8ByteSize > maxBytes)
    (.reportTooLarge s!"report is {encoded.utf8ByteSize} bytes; maximum is {maxBytes}")
  .ok encoded

/--
The document that `_queue_result` queues for a scan with a new snapshot. The summary of the result
and the inventory envelope are whatever the rest of the scan has made them.
-/
def resultUpload (result : ScanResult) (summary inventorySync : JsonObject)
    (maxRequestBytes : Nat) : Except SbomError JsonObject := do
  let sbom ← buildCyclonedxSbom rt text result
  let upload : JsonObject := [
    ("evidence_envelope_version", .str "1.0"),
    ("result", .obj summary),
    ("inventory_sync", .obj inventorySync),
    ("sbom", .obj sbom),
    ("sbom_sha256", .str (Json.canonicalSha256 rt (.obj sbom)))]
  let _ ← serializeReport rt upload maxRequestBytes
  .ok upload

end Sbom

end OsScanner.Endpoint

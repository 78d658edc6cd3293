import Mathlib
import OsScanner.Lib.Part
import OsScanner.Storage.SnapshotStore

/-!
# Stored scan results

The rest of `app/storage/results.py` and the history of `app/storage/jobs.py`. A result is saved
together with a snapshot: what the scan observed, completed with the sections of the endpoint's
latest snapshot that it did not observe.
-/

namespace OsScanner.Storage

open Lib Lib.Check

/-- A row of `scan_results`. -/
structure ResultRow where
  endpointId : Option String
  resultType : String
  status : String
  payloadHash : String
  deriving DecidableEq

/-- A row of `scan_history`. -/
structure HistoryRow where
  scanId : String
  event : String
  status : Option String
  details : Json
  idempotencyKey : Option String

/-- The tables, with the results. `resultPayloads` maps the hash of a result to the result. -/
structure ResultStore extends ScanStore where
  results : Dict String ResultRow
  resultPayloads : Dict String Json
  history : List HistoryRow

namespace ResultStore

/-- The database of a new installation. -/
def empty : ResultStore := ⟨.empty, ∅, ∅, []⟩

instance : Inhabited ResultStore := ⟨empty⟩

def scans : Part ResultStore ScanStore where
  get store := store.toScanStore
  set store scans := { store with toScanStore := scans }
  get_set _ _ := rfl
  set_get _ := rfl

def scanJobs : Part ResultStore ScanJobs where
  get store := store.jobs
  set store jobs := { store with jobs := jobs }
  get_set _ _ := rfl
  set_get _ := rfl

def database : Part ResultStore Database where
  get store := store.toDatabase
  set store db := { store with toDatabase := db }
  get_set _ _ := rfl
  set_get _ := rfl

end ResultStore

abbrev ResultMethod := Method ResultStore StorageError

/-! ## History -/

/-- `clean_identifier(idempotency_key, "idempotency_key")`, if there is one. -/
def historyKey : Option String → Except StorageError (Option String)
  | none => .ok none
  | some key => if key = "" then .ok (some key)
    else some <$> cleanIdentifier (.str key) "idempotency_key"

/-- `append_scan_history(scan_id, event, status=…, details=…, idempotency_key=…)` -/
def appendScanHistory (rt : Runtime) (now scanId event : String) (status : Option String)
    (details : JsonObject) (idempotencyKey : Option String) : ResultMethod Unit := do
  let scanId ← .ofExcept (cleanIdentifier (.str scanId) "scan_id")
  let event ← .ofExcept (cleanIdentifier (.str event) "event" 128)
  let idempotencyKey ← .ofExcept (historyKey idempotencyKey)
  .atomically fun before =>
    let store := { before with jobs := ensureScan rt scanId none now before.jobs }
    let row : HistoryRow := ⟨scanId, event, status, Json.sortKeys (.obj details), idempotencyKey⟩
    let existing := if idempotencyKey = none ∨ idempotencyKey = some "" then none
      else store.history.find? fun row => decide (row.idempotencyKey = idempotencyKey)
    match existing with
    | some existing => do
      raiseIf ((existing.event, existing.status, existing.details) ≠
          (row.event, row.status, row.details))
        ⟨.idempotencyConflict, "history idempotency key was reused with different content"⟩
      .ok ((), store)
    | none => .ok ((), { store with history := store.history ++ [row] })

/-! ## Results -/

/-- `str(value)` -/
def textOf (pyStr : Json → String) : Json → String
  | .str text => text
  | value => pyStr value

/-- `clean_identifier(endpoint_id, "endpoint_id") if endpoint_id else None` -/
def cleanEndpoint : Option String → Except StorageError (Option String)
  | none => .ok none
  | some endpointId => if endpointId = "" then .ok none
    else some <$> cleanIdentifier (.str endpointId) "endpoint_id"

/-- The checked fields of a result. -/
structure ResultFields where
  scanId : String
  endpointId : Option String
  resultType : String
  status : String

def checkResult (pyStr : Json → String) (scanId : String) (endpointId : Option String)
    (resultType : String) (result : JsonObject) : Except StorageError ResultFields := do
  let scanId ← cleanIdentifier (.str scanId) "scan_id"
  let endpointId ← cleanEndpoint endpointId
  let resultType ← cleanIdentifier (.str (if resultType = "" then
      textOf pyStr (getOr result "scan_type" (.str "ENDPOINT")) else resultType)) "result_type" 64
  let _ ← cleanIdentifier (.str (textOf pyStr (getOr result "schema_version" (.str "1.0"))))
    "schema_version" 64
  let status ← cleanIdentifier (.str (textOf pyStr (getOr result "status" (.str "SUCCESS"))))
    "status" 64
  .ok ⟨scanId, endpointId, resultType, status⟩

/-- `store_normalized_result(scan_id, result, endpoint_id=…, result_type=…)` -/
def storeNormalizedResult (rt : Runtime) (pyStr : Json → String) (now scanId : String)
    (endpointId : Option String) (resultType : String) (result : JsonObject) :
    ResultMethod Unit := do
  let fields ← .ofExcept (checkResult pyStr scanId endpointId resultType result)
  let digest := Json.canonicalSha256 rt (.obj result)
  .atomically fun before =>
    let store := { before with jobs := ensureScan rt fields.scanId fields.endpointId now before.jobs }
    match store.results.get? fields.scanId with
    | some existing => do
      raiseIf ((existing.payloadHash, existing.endpointId, existing.resultType) ≠
          (digest, fields.endpointId, fields.resultType))
        ⟨.idempotencyConflict, "scan_id was reused for a different normalized result"⟩
      .ok ((), store)
    | none => .ok ((), { store with
        resultPayloads := if store.resultPayloads.contains digest then store.resultPayloads
          else store.resultPayloads.set digest (Json.sortKeys (.obj result))
        results := store.results.set fields.scanId
          ⟨fields.endpointId, fields.resultType, fields.status, digest⟩ })

/-- `get_normalized_result(scan_id)["payload"]`, if there is one. -/
def normalizedResult (scanId : String) (store : ResultStore) : Except StorageError (Option Json) := do
  let scanId ← cleanIdentifier (.str scanId) "scan_id"
  .ok ((store.results.get? scanId).bind fun row => store.resultPayloads.get? row.payloadHash)

/-! ## What a snapshot is made of -/

/-- The fields of a result that belong to the inventory. -/
def inventoryFields : List String :=
  ["endpoint", "os", "hardware", "software", "processes", "services", "users", "groups", "network",
    "network_interfaces", "listening_ports", "security", "updates", "browser_extensions",
    "certificates", "persistence", "compliance", "vulnerabilities"]

/-- `result["inventory"]`, or the fields of the result that belong to it. -/
def savedInventory (result : JsonObject) : Json :=
  match result.get "inventory" with
  | .null => .obj (result.filter fun e => decide (e.1 ∈ inventoryFields))
  | inventory => inventory

/-- `metadata["observed_inventory_sections"]`, if it is a list of texts. -/
def observedSections (result : JsonObject) : Option (List String) :=
  match result.get "metadata" with
  | .obj metadata => match JsonObject.get metadata "observed_inventory_sections" with
    | .arr items => items.mapM Json.asString?
    | _ => none
  | _ => none

/-- `sorted(set(names))` -/
def sortedNames (names : List String) : List String := names.dedup.insertionSort (· ≤ ·)

/-- The section that says what was observed. -/
def collectionCompleteness (observed : List String) : Json :=
  .obj [("observed_sections", .arr ((sortedNames observed).map .str)),
    ("unobserved_sections", .arr ((sortedNames (inventoryFields.filter fun key =>
      decide (key ≠ "endpoint" ∧ key ∉ observed))).map .str))]

/-- `inventory.setdefault(key, value)` -/
def setDefault (inventory : JsonObject) (e : String × Json) : JsonObject :=
  if inventory.has e.1 = true then inventory else inventory ++ [e]

/-- What was observed, with the sections of the previous snapshot that were not. -/
def carryForward (observed : List String) (inventory : JsonObject) (previous : Option JsonObject) :
    JsonObject :=
  let current := inventory.filter fun e => decide (e.1 ∈ observed ∨ e.1 = "endpoint")
  let carried := ((previous.getD []).filter fun e =>
    decide (e.1 ∉ observed ∧ e.1 ≠ "collection_completeness")).foldl setDefault current
  carried.set "collection_completeness" (collectionCompleteness observed)

/-- `get_latest_snapshot(endpoint_id)["snapshot"]`, if it is an object. -/
def latestSnapshot (endpointId : Option String) (store : ScanStore) :
    Except StorageError (Option JsonObject) := do
  match ← cleanEndpoint endpointId with
  | none => .ok none
  | some endpointId =>
    match (store.latest? endpointId).bind fun e => store.payloads.get? e.2.payloadHash with
    | some (.obj snapshot) => .ok (some snapshot)
    | _ => .ok none

/-- The inventory that is stored for a result. -/
def inventoryToStore (endpointId : Option String) (result : JsonObject) (store : ScanStore) :
    Except StorageError Json :=
  match savedInventory result, observedSections result with
  | .obj inventory, some observed => do
    let previous ← latestSnapshot endpointId store
    .ok (.obj (carryForward observed inventory previous))
  | inventory, _ => .ok inventory

/-! ## Saving a result -/

/-- `str(result[name]) if result.get(name) else None` -/
def versionOf (pyStr : Json → String) (result : JsonObject) (name : String) : Option String :=
  if truthy (result.get name) then some (textOf pyStr (result.get name)) else none

/-- The snapshot of a result, unless the scan has no endpoint. -/
def storeInventory (rt : Runtime) (pyStr : Json → String) (now scanId : String)
    (endpointId : Option String) (result : JsonObject) (inventory : Json) :
    ResultMethod (Option SnapshotChange) :=
  match endpointId with
  | none => pure none
  | some endpointId =>
    if endpointId = "" then pure none
    else match inventory with
      | .obj inventory => some <$> Method.on ResultStore.scans
          (storeSnapshot rt now endpointId scanId
            { schemaVersion := textOf pyStr (getOr result "schema_version" (.str "1.0"))
              policyVersion := versionOf pyStr result "policy_version"
              scannerVersion := versionOf pyStr result "scanner_version" } inventory)
      | _ => .raise ⟨.typeError, "result.inventory must be a mapping"⟩

/--
`save_scan_result(scan_id, endpoint_id, result)`. `projections` is what saving the findings and
the states of the collectors comes to, in tables of their own.
-/
def saveScanResult (rt : Runtime) (pyStr : Json → String) (now scanId : String)
    (endpointId : Option String) (result : JsonObject) (projections : Except StorageError Unit) :
    ResultMethod (Option SnapshotChange) := do
  let inventory ← .reading fun store => inventoryToStore endpointId result store.toScanStore
  let resultType := getOr result "scan_type" (.str "ENDPOINT")
  .transaction do
    storeNormalizedResult rt pyStr now scanId endpointId (textOf pyStr resultType) result
    let change ← storeInventory rt pyStr now scanId endpointId result inventory
    .ofExcept projections
    appendScanHistory rt now scanId "RESULT_STORED"
      (some (textOf pyStr (getOr result "status" (.str "SUCCESS"))))
      [("snapshot_id", (change.map fun change => Json.int change.snapshotId).getD .null),
        ("snapshot_hash", Json.ofOption (change.map SnapshotChange.snapshotHash)),
        ("result_type", resultType)]
      (some ("result-stored:" ++ scanId))
    pure change

end OsScanner.Storage

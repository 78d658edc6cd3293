import Mathlib
import OsScanner.Storage.ScanJobs
import OsScanner.Storage.Snapshots

/-!
# Stored snapshots

The methods of `app/storage/results.py` that store a snapshot and say what is uploaded for it. A
snapshot is compared with the latest one of its endpoint; what differs is kept beside it as
`diff_json`.
-/

namespace OsScanner.Storage

open Lib Lib.Check

/-- The tables, with the scans. -/
structure ScanStore extends Database where
  jobs : ScanJobs

/-- The database of a new installation. -/
def ScanStore.empty : ScanStore := ⟨.empty, ∅⟩

instance : Inhabited ScanStore := ⟨ScanStore.empty⟩

abbrev SnapshotMethod := Method ScanStore StorageError

/-! ## `diff_json` -/

/-- What the comparison with the previous snapshot said. -/
structure SnapshotDiff where
  initial : Bool
  changed : Bool
  changes : List SectionChange

/-- `SectionChange.as_dict()` -/
def SectionChange.asDict (change : SectionChange) : JsonObject :=
  [("section", .str change.sectionName), ("event", .str change.event),
    ("before_hash", Json.ofOption change.beforeHash), ("after_hash", Json.ofOption change.afterHash),
    ("added_count", .int change.addedCount), ("removed_count", .int change.removedCount),
    ("modified_count", .int change.modifiedCount)]

/-- What reading a stored object back gives. -/
def parsed (document : JsonObject) : JsonObject :=
  (Json.sortFields document).insertionSort Json.keyLe

/-- The column, read back. -/
def SnapshotDiff.column (diff : SnapshotDiff) : JsonObject :=
  parsed [("initial", .bool diff.initial), ("changed", .bool diff.changed),
    ("changes", .arr (diff.changes.map fun change => .obj change.asDict))]

/-- `[item["section"] for item in diff["changes"]]` -/
def changedSections (diff : JsonObject) : List String :=
  match diff.get "changes" with
  | .arr items => items.filterMap fun
      | .obj item => (JsonObject.get item "section").asString?
      | _ => none
  | _ => []

/-! ## Storing a snapshot -/

/-- `SnapshotChange` -/
structure SnapshotChange where
  snapshotId : Nat
  endpointId : String
  scanId : String
  snapshotHash : String
  previousHash : Option String
  initial : Bool
  changed : Bool
  changes : Json

namespace ScanStore

/-- The digest of the snapshot that a row was compared with, if it is still there. -/
def previousHash (store : ScanStore) (row : SnapshotRow) : Option String :=
  (row.previousSnapshotId.bind store.snapshots.get?).map SnapshotRow.payloadHash

/-- The latest snapshot of an endpoint that has its payload. -/
def latest? (store : ScanStore) (endpointId : String) : Option (Nat × SnapshotRow) :=
  store.snapshots.last? fun _ row =>
    decide (row.endpointId = endpointId) && store.payloads.contains row.payloadHash

/-- The snapshot of a scan. -/
def ofScan? (store : ScanStore) (scanId : String) : Option (Nat × SnapshotRow) :=
  store.snapshots.first? fun _ row => decide (row.scanId = scanId)

/-- `_deserialize_change(row, endpoint_id, scan_id)` -/
def changeOf (store : ScanStore) (id : Nat) (row : SnapshotRow) : SnapshotChange where
  snapshotId := id
  endpointId := row.endpointId
  scanId := row.scanId
  snapshotHash := row.payloadHash
  previousHash := store.previousHash row
  initial := truthy (row.diff.get "initial")
  changed := row.changed
  changes := row.diff.get "changes"

/-- The fields of a stored object. -/
def fieldsOf : Json → JsonObject
  | .obj fields => fields
  | _ => []

/-- The comparison with the latest snapshot. -/
def diffWith (rt : Runtime) (store : ScanStore) (previous : Option (Nat × SnapshotRow))
    (normalized : JsonObject) : SnapshotDiff :=
  let payload := previous.bind fun e => (store.payloads.get? e.2.payloadHash).map fieldsOf
  let changes := compareSnapshots rt payload normalized
  { initial := previous.isNone
    changed := previous.isNone || !changes.isEmpty
    changes := changes }

/-- The two insertions. A payload that is stored already is kept. -/
def insertSnapshot (store : ScanStore) (row : SnapshotRow) (normalized : JsonObject) : ScanStore :=
  { store with
    payloads := if store.payloads.contains row.payloadHash then store.payloads
      else store.payloads.set row.payloadHash (Json.sortKeys (.obj normalized))
    snapshots := store.snapshots.insert row }

end ScanStore

/-- The arguments of `store_snapshot` that are only kept. -/
structure SnapshotVersions where
  schemaVersion : String
  policyVersion : Option String := none
  scannerVersion : Option String := none

namespace ScanStore

/-- `_ensure_scan` on the tables. -/
def withScan (rt : Runtime) (store : ScanStore) (scanId endpointId now : String) : ScanStore :=
  { store with jobs := ensureScan rt scanId (some endpointId) now store.jobs }

/-- The row of a new snapshot. -/
def newSnapshot (rt : Runtime) (store : ScanStore) (endpointId scanId : String)
    (versions : SnapshotVersions) (snapshot : JsonObject) : SnapshotRow :=
  let previous := store.latest? endpointId
  let diff := store.diffWith rt previous (normalizeSnapshot rt snapshot)
  { endpointId := endpointId
    scanId := scanId
    payloadHash := snapshotHash rt snapshot
    previousSnapshotId := previous.map Prod.fst
    schemaVersion := versions.schemaVersion
    policyVersion := versions.policyVersion
    scannerVersion := versions.scannerVersion
    changed := diff.changed
    diff := diff.column }

end ScanStore

/-- The transaction of `store_snapshot`, once its arguments are checked. -/
def storeChecked (rt : Runtime) (now endpointId scanId : String) (versions : SnapshotVersions)
    (snapshot : JsonObject) (before : ScanStore) :
    Except StorageError (SnapshotChange × ScanStore) := do
  let store := before.withScan rt scanId endpointId now
  match store.ofScan? scanId with
  | some (id, row) => do
    raiseIf (row.endpointId ≠ endpointId ∨ row.payloadHash ≠ snapshotHash rt snapshot)
      ⟨.idempotencyConflict, "scan_id was reused for a different inventory snapshot"⟩
    .ok (store.changeOf id row, store)
  | none =>
    let row := store.newSnapshot rt endpointId scanId versions snapshot
    .ok (store.changeOf store.snapshots.nextId row,
      store.insertSnapshot row (normalizeSnapshot rt snapshot))

/-- `store_snapshot(endpoint_id, scan_id, snapshot, schema_version, …)` -/
def storeSnapshot (rt : Runtime) (now endpointId scanId : String) (versions : SnapshotVersions)
    (snapshot : JsonObject) : SnapshotMethod SnapshotChange := do
  let endpointId ← .ofExcept (cleanIdentifier (.str endpointId) "endpoint_id")
  let scanId ← .ofExcept (cleanIdentifier (.str scanId) "scan_id")
  let schemaVersion ←
    .ofExcept (cleanIdentifier (.str versions.schemaVersion) "schema_version" 64)
  .atomically (storeChecked rt now endpointId scanId { versions with schemaVersion } snapshot)

/-! ## What is uploaded -/

/-- The fields that every upload has. -/
def uploadEnvelope (store : ScanStore) (row : SnapshotRow) : JsonObject :=
  [("endpoint_id", .str row.endpointId), ("scan_id", .str row.scanId),
    ("schema_version", .str row.schemaVersion), ("policy_version", Json.ofOption row.policyVersion),
    ("scanner_version", Json.ofOption row.scannerVersion), ("snapshot_hash", .str row.payloadHash),
    ("previous_hash", Json.ofOption (store.previousHash row))]

/-- What an upload says of the sections. -/
def uploadSections (diff snapshot : JsonObject) : JsonObject :=
  if truthy (diff.get "initial") then [("mode", .str "full"), ("snapshot", .obj snapshot)]
  else if truthy (diff.get "changed") then
    let names := changedSections diff
    [("mode", .str "delta"), ("changes", diff.get "changes"),
      ("sections", .obj ((names.filter fun name => snapshot.has name).map fun name =>
        (name, snapshot.get name))),
      ("removed_sections", .arr ((names.filter fun name => !snapshot.has name).map .str))]
  else [("mode", .str "unchanged")]

/-- `snapshot_upload_payload(snapshot_id)` -/
def snapshotUploadPayload (store : ScanStore) (id : Nat) : Except StorageError JsonObject :=
  match store.snapshots.get? id with
  | none => .error ⟨.storage, "unknown snapshot_id: " ++ toString id⟩
  | some row =>
    match store.payloads.get? row.payloadHash with
    | none => .error ⟨.storage, "unknown snapshot_id: " ++ toString id⟩
    | some snapshot =>
      .ok (uploadEnvelope store row ++ uploadSections row.diff (ScanStore.fieldsOf snapshot))

/-! ## Reading a difference back -/

@[simp] theorem get_parsed (document : JsonObject) (name : String) :
    (parsed document).get name = Json.sortKeys (document.get name) := by
  rw [JsonObject.get, parsed, Json.lookup_sortedFields, JsonObject.get]
  cases Assoc.lookup name document <;> rfl

@[simp] theorem initial_column (diff : SnapshotDiff) :
    truthy (diff.column.get "initial") = diff.initial := by
  rw [SnapshotDiff.column, get_parsed]
  cases diff.initial <;> rfl

@[simp] theorem changed_column (diff : SnapshotDiff) :
    truthy (diff.column.get "changed") = diff.changed := by
  rw [SnapshotDiff.column, get_parsed]
  cases diff.changed <;> rfl

theorem changes_column (diff : SnapshotDiff) : diff.column.get "changes" =
    .arr (diff.changes.map fun change => Json.sortKeys (.obj change.asDict)) := by
  rw [SnapshotDiff.column, get_parsed]
  show Json.sortKeys (.arr (diff.changes.map fun change => Json.obj change.asDict)) = _
  rw [Json.sortKeys, Json.sortItems_eq, List.map_map]
  rfl

theorem changedSections_column (diff : SnapshotDiff) :
    changedSections diff.column = diff.changes.map SectionChange.sectionName := by
  rw [changedSections, changes_column]
  show List.filterMap _ (diff.changes.map _) = _
  rw [List.filterMap_map, ← List.filterMap_eq_map]
  refine List.filterMap_congr fun change _ => ?_
  show ((parsed change.asDict).get "section").asString? = _
  rw [get_parsed]
  rfl

end OsScanner.Storage

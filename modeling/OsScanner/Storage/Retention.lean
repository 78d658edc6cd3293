import Mathlib
import OsScanner.Storage.CausalOrder
import OsScanner.Storage.ScanResults

/-!
# Retention

`prune_completed_scan_records` of `app/storage/results.py`: terminal scans that are too old, or that
more recent ones have pushed out, are deleted with everything that belongs to them. Scans under a
legal hold, scans with an upload that was not delivered and the scans of the latest snapshots stay.
A snapshot whose base is deleted becomes a baseline itself.
-/

namespace OsScanner.Lib.Dict

variable {κ α : Type} [DecidableEq κ]

/-- The entries whose keys are kept. -/
def restrict (p : κ → Bool) (d : Dict κ α) : Dict κ α :=
  ⟨d.entries.filter fun e => p e.1, d.nodup.sublist (List.filter_sublist.map Prod.fst)⟩

theorem get?_restrict {p : κ → Bool} {d : Dict κ α} {k : κ} {v : α} :
    (d.restrict p).get? k = some v ↔ d.get? k = some v ∧ p k = true := by
  rw [← mem_entries_iff, ← mem_entries_iff, restrict, List.mem_filter]

theorem contains_restrict {p : κ → Bool} {d : Dict κ α} {k : κ} :
    (d.restrict p).contains k = true ↔ d.contains k = true ∧ p k = true := by
  simp [contains_iff, get?_restrict]

end OsScanner.Lib.Dict

namespace OsScanner.Lib.Table

/-- A query that sees no deleted row, and of an updated one what it was, finds the same row. -/
theorem first?_delete_update {α : Type} {t : Table α} {deleted p : Nat → α → Bool}
    {f : Nat → α → α} (hkept : ∀ id row, p id row = true → deleted id row = false)
    (hsame : ∀ id row, p id (f id row) = p id row) :
    ((t.delete deleted).update f).first? p = (t.first? p).map fun e => (e.1, f e.1 e.2) := by
  rw [first?, first?, ← List.head?_map]
  congr 1
  dsimp only [select, update, delete]
  rw [List.filter_map, List.filter_filter]
  congr 1
  refine List.filter_congr fun e _ => ?_
  rw [Function.comp_apply, hsame]
  cases hp : p e.1 e.2 with
  | false => rfl
  | true => rw [hkept _ _ hp]; rfl

end OsScanner.Lib.Table

namespace OsScanner.Storage

open Lib Lib.Check

/-! ## Terminal scans -/

/-- `status IN ('COMPLETED','FAILED')` -/
def JobRow.terminal (row : JobRow) : Bool := decide (row.status = "COMPLETED" ∨ row.status = "FAILED")

/-- `COALESCE(completed_at,updated_at)` -/
def JobRow.finishedAt (row : JobRow) : String := row.completedAt.getD row.updatedAt

/-- A terminal scan with the time at which it ended. -/
structure EndedScan where
  finishedAt : String
  scanId : String
  deriving DecidableEq

/-- `ORDER BY COALESCE(completed_at,updated_at),scan_id` -/
def endedOrder (a b : EndedScan) : Prop :=
  a.finishedAt < b.finishedAt ∨ (a.finishedAt = b.finishedAt ∧ a.scanId ≤ b.scanId)

instance decidableEndedOrder : DecidableRel endedOrder := fun a b => inferInstanceAs
  (Decidable (a.finishedAt < b.finishedAt ∨ (a.finishedAt = b.finishedAt ∧ a.scanId ≤ b.scanId)))

instance totalEndedOrder : Std.Total endedOrder := ⟨fun a b => by
  rcases lt_trichotomy a.finishedAt b.finishedAt with h | h | h
  · exact Or.inl (Or.inl h)
  · exact (le_total a.scanId b.scanId).imp (fun hle => Or.inr ⟨h, hle⟩)
      fun hle => Or.inr ⟨h.symm, hle⟩
  · exact Or.inr (Or.inl h)⟩

instance transEndedOrder : IsTrans EndedScan endedOrder := ⟨fun a b c hab hbc => by
  rcases hab with hab | ⟨hab, hle⟩ <;> rcases hbc with hbc | ⟨hbc, hle'⟩
  · exact Or.inl (lt_trans hab hbc)
  · exact Or.inl (hbc ▸ hab)
  · exact Or.inl (hab ▸ hbc)
  · exact Or.inr ⟨hab.trans hbc, le_trans hle hle'⟩⟩

/-- The terminal scans, the oldest first. -/
def endedScans (jobs : ScanJobs) : List EndedScan :=
  ((jobs.entries.filter fun e => e.2.terminal).map fun e => ⟨e.2.finishedAt, e.1⟩).insertionSort
    endedOrder

/-! ## Selecting -/

/-- The arguments of `prune_completed_scan_records`. -/
structure PruneRequest where
  olderThan : String
  maxCompletedScans : Int
  protectedScanIds : List String := []
  limit : Int := 1000

namespace PruneRequest

/-- `min(100_000, max(limit * 4, limit))` -/
def candidateLimit (request : PruneRequest) : Nat := min 100000 (request.limit.toNat * 4)

/-- `aged`, and `overflow` without those that are `aged` too, in the order of both queries. -/
def candidates (request : PruneRequest) (jobs : ScanJobs) : List String :=
  let aged := ((endedScans jobs).filter fun e => decide (e.finishedAt < request.olderThan)).take
    request.candidateLimit
  let overflow := ((endedScans jobs).reverse.drop request.maxCompletedScans.toNat).take
    request.candidateLimit
  ((aged ++ overflow).map EndedScan.scanId).eraseDups

end PruneRequest

/-- The snapshot is the latest one of its endpoint. -/
def isLatestSnapshot (snapshots : Table SnapshotRow) (id : Nat) (row : SnapshotRow) : Bool :=
  (snapshots.last? fun _ other => decide (other.endpointId = row.endpointId)).any fun e =>
    decide (e.1 = id)

/-- The scan of an endpoint's latest snapshot. -/
def hasLatestSnapshot (snapshots : Table SnapshotRow) (scanId : String) : Bool :=
  (snapshots.first? fun id row =>
    isLatestSnapshot snapshots id row && decide (row.scanId = scanId)).isSome

/-- The upload is on its way, or it is dead and nothing was delivered in its place. -/
def unresolvedUpload (uploads : Table UploadRow) (row : UploadRow) : Bool :=
  decide (row.status = .pending ∨ row.status = .inFlight) ||
    (decide (row.status = .dead) &&
      !(row.supersededByUploadId.bind uploads.get?).any fun replacement =>
        decide (replacement.status = .succeeded))

/-- `json_extract(metadata_json,'$.scan_id')` of an unresolved upload names the scan. -/
def hasUnresolvedUpload (uploads : Table UploadRow) (scanId : String) : Bool :=
  decide (scanId ≠ "") && (uploads.first? fun _ row => unresolvedUpload uploads row &&
    decide (row.metadata.get "scan_id" = .str scanId)).isSome

/-- The scans that are deleted; `held` are those under a legal hold. -/
def PruneRequest.selected (request : PruneRequest) (held : List String) (store : ResultStore) :
    List String :=
  ((request.candidates store.jobs).filter fun scanId =>
    !(held.contains scanId || hasLatestSnapshot store.snapshots scanId ||
      hasUnresolvedUpload store.uploads scanId)).take request.limit.toNat

/-! ## Deleting -/

/-- `diff_json` of a snapshot that has lost its base. -/
def baselineDiff : JsonObject :=
  [("changed", .bool true), ("changes", .arr []), ("initial", .bool true)]

/-- A snapshot whose base is deleted becomes a baseline. -/
def rebase (removed : Nat → Bool) (row : SnapshotRow) : SnapshotRow :=
  if row.previousSnapshotId.any removed then
    { row with previousSnapshotId := none, changed := true, diff := baselineDiff }
  else row

/-- The snapshot belongs to one of these scans. -/
def ofScans (scanIds : List String) (snapshots : Table SnapshotRow) (id : Nat) : Bool :=
  (snapshots.get? id).any fun row => scanIds.contains row.scanId

/-- The statements of `prune_completed_scan_records`, with the cascades of the deleted scans. -/
def deleteScans (scanIds : List String) (store : ResultStore) : ResultStore :=
  let kept := fun scanId : String => !scanIds.contains scanId
  let snapshots := (store.snapshots.delete fun _ row => scanIds.contains row.scanId).update
    fun _ row => rebase (ofScans scanIds store.snapshots) row
  let results := store.results.restrict kept
  { store with
    jobs := store.jobs.restrict kept
    history := store.history.filter fun row => kept row.scanId
    snapshots := snapshots
    payloads := store.payloads.restrict fun hash =>
      (snapshots.first? fun _ row => decide (row.payloadHash = hash)).isSome
    results := results
    resultPayloads := store.resultPayloads.restrict fun hash =>
      results.values.any fun row => decide (row.payloadHash = hash) }

/-- `prune_completed_scan_records` returns the number of the scans that it has deleted. -/
def pruneCompletedScanRecords (request : PruneRequest) : ResultMethod Nat := do
  .ofExcept (raiseIf (¬ (1 ≤ request.maxCompletedScans ∧ request.maxCompletedScans ≤ 1000000))
    ⟨.valueError, "max_completed_scans must be between 1 and 1,000,000"⟩)
  .ofExcept (raiseIf (¬ (1 ≤ request.limit ∧ request.limit ≤ 100000))
    ⟨.valueError, "limit must be between 1 and 100,000"⟩)
  let held ← .ofExcept (request.protectedScanIds.mapM fun scanId =>
    cleanIdentifier (.str scanId) "protected_scan_id")
  .modifyGet fun store =>
    let selected := request.selected held store
    if selected = [] then (0, store) else (selected.length, deleteScans selected store)

end OsScanner.Storage

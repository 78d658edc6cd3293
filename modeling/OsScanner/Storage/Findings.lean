import Mathlib
import OsScanner.Storage.ScanResults

/-!
# Stored findings

The table of findings of `app/storage/jobs.py`. A finding has one row, which every scan that makes the
finding again overwrites; the row keeps the document of the finding, and with it the time at which
it was first seen.
-/

namespace OsScanner.Storage

open Lib Lib.Check

/-- A row of `findings`. -/
structure FindingRow where
  scanId : String
  endpointId : Option String
  ruleId : String
  severity : String
  status : String
  detectedAt : String
  payload : Json

/-- The tables that saving findings writes. -/
structure FindingStore where
  jobs : ScanJobs
  findings : Dict String FindingRow

def findingSeverities : List String := ["CRITICAL", "HIGH", "MEDIUM", "LOW", "INFO"]

/-- `str(finding.get("detected_at") or now)` -/
def detectedText (pyStr : Json → String) (now : String) (finding : JsonObject) : String :=
  if truthy (finding.get "detected_at") = true then textOf pyStr (finding.get "detected_at") else now

/-- The row of a finding, and its key. -/
def findingRow (rt : Runtime) (pyStr : Json → String) (now scanId : String)
    (endpointId : Option String) (finding : JsonObject) : Except StorageError (String × FindingRow) := do
  let findingId ← cleanIdentifier (finding.get "finding_id") "finding_id"
  let ruleId ← cleanIdentifier (finding.get "rule_id") "rule_id"
  let severity ← cleanIdentifier
    (.str (rt.upper (textOf pyStr (getOr finding "severity" (.str "INFO"))))) "severity" 16
  raiseIf (severity ∉ findingSeverities) ⟨.valueError, "unsupported finding severity: " ++ severity⟩
  let status ← cleanIdentifier (getOr finding "status" (.str "OPEN")) "status" 64
  .ok (findingId,
    { scanId := scanId
      endpointId := endpointId
      ruleId := ruleId
      severity := severity
      status := status
      detectedAt := detectedText pyStr now finding
      payload := Json.sortKeys (.obj finding) })

/-- `save_findings(scan_id, endpoint_id, findings)` -/
def saveFindings (rt : Runtime) (pyStr : Json → String) (now scanId : String)
    (endpointId : Option String) (findings : List JsonObject) : Method FindingStore StorageError Nat := do
  let scanId ← .ofExcept (cleanIdentifier (.str scanId) "scan_id")
  let endpointId ← .ofExcept (cleanEndpoint endpointId)
  .atomically fun before => do
    let rows ← findings.mapM (findingRow rt pyStr now scanId endpointId)
    .ok (rows.length,
      { jobs := ensureScan rt scanId endpointId now before.jobs
        findings := rows.foldl (fun table row => table.set row.1 row.2) before.findings })

/-- The time in the document of a row, or the one beside it. -/
def FindingRow.firstSeen (row : FindingRow) : Option String :=
  let beside := if row.detectedAt = "" then none else some row.detectedAt
  match row.payload with
  | .obj payload =>
    let value := if truthy (JsonObject.get payload "first_seen_at") = true
      then JsonObject.get payload "first_seen_at" else JsonObject.get payload "detected_at"
    match value with
    | .str text => if text = "" then beside else some text
    | _ => beside
  | _ => beside

/-- `get_finding_first_seen(finding_id)` -/
def getFindingFirstSeen (findingId : String) (store : FindingStore) :
    Except StorageError (Option String) := do
  let findingId ← cleanIdentifier (.str findingId) "finding_id"
  .ok ((store.findings.get? findingId).bind FindingRow.firstSeen)

/-! ## What saving does to the table -/

/-- The row of a finding after some rows were written: the last of its rows, or the one before. -/
theorem get?_foldl_set {rows : List (String × FindingRow)} {table : Dict String FindingRow}
    {id : String} {row : FindingRow}
    (h : (rows.foldl (fun table row => table.set row.1 row.2) table).get? id = some row) :
    (id, row) ∈ rows ∨ (∀ e ∈ rows, e.1 ≠ id) ∧ table.get? id = some row := by
  induction rows generalizing table with
  | nil => exact Or.inr ⟨by simp, h⟩
  | cons first rows ih =>
    rcases ih h with hmem | ⟨hrest, hget⟩
    · exact Or.inl (List.mem_cons_of_mem _ hmem)
    · rw [Dict.get?_set] at hget
      split at hget
      · next heq =>
        left
        rw [← heq, ← Option.some.inj hget]
        exact List.mem_cons_self
      · next hne =>
        refine Or.inr ⟨?_, hget⟩
        rintro e he
        rcases List.mem_cons.mp he with rfl | he
        · exact hne
        · exact hrest e he

/-- Rows of other findings leave the row of a finding as it is. -/
theorem get?_foldl_set_of_ne {rows : List (String × FindingRow)} {table : Dict String FindingRow}
    {id : String} (h : ∀ e ∈ rows, e.1 ≠ id) :
    (rows.foldl (fun table row => table.set row.1 row.2) table).get? id = table.get? id := by
  induction rows generalizing table with
  | nil => rfl
  | cons first rows ih =>
    rw [List.forall_mem_cons] at h
    rw [List.foldl_cons, ih h.2, Dict.get?_set_ne h.1]

/-- A finding that was saved has a row. -/
theorem isSome_foldl_set {rows : List (String × FindingRow)} {table : Dict String FindingRow}
    {id : String} (h : (∃ e ∈ rows, e.1 = id) ∨ (table.get? id).isSome = true) :
    ((rows.foldl (fun table row => table.set row.1 row.2) table).get? id).isSome = true := by
  induction rows generalizing table with
  | nil =>
    rcases h with ⟨e, he, -⟩ | h
    · cases he
    · exact h
  | cons first rows ih =>
    refine ih ?_
    rw [Dict.get?_set]
    rcases h with ⟨e, he, rfl⟩ | h
    · rcases List.mem_cons.mp he with rfl | he
      · rw [if_pos rfl]
        exact Or.inr rfl
      · exact Or.inl ⟨e, he, rfl⟩
    · right
      split
      · rfl
      · exact h

end OsScanner.Storage

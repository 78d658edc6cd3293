import Mathlib
import OsScanner.Lib.Run
import OsScanner.Storage.Database
import OsScanner.Storage.UploadQueue

/-!
# Scan jobs

The table `scan_jobs` and the methods of `app/storage/jobs.py` and `base.py` that write it. A
job is created once; the placeholder that other tables may have needed before is replaced by
it, and a second creation must bring the content of the first.
-/

namespace OsScanner.Storage

open Lib Lib.Check

/-- A row of `scan_jobs`. -/
structure JobRow where
  endpointId : Option String
  scanType : String
  status : String
  startedAt : Option String := none
  completedAt : Option String := none
  resultStatus : Option String := none
  job : Json
  jobHash : String
  updatedAt : String

abbrev ScanJobs := Dict String JobRow

abbrev JobMethod := Method ScanJobs StorageError

/-- `job.get(name, default)` -/
def getOr (job : JsonObject) (name : String) (default : Json) : Json :=
  if job.has name = true then job.get name else default

/-- `str(job.get("requested_at") or utc_now_iso())` -/
def requestedAt (pyStr : Json → String) (now : String) (job : JsonObject) : String :=
  match job.get "requested_at" with
  | .str text => if text = "" then now else text
  | value => if truthy value then pyStr value else now

/-- The digest of a job's content. -/
def jobDigest (rt : Runtime) (job : JsonObject) : String :=
  rt.hashText (Json.canonicalJson rt (.obj job))

/-- `clean_identifier(endpoint_value, "endpoint_id") if endpoint_value else None` -/
def jobEndpoint (job : JsonObject) : Except StorageError (Option String) :=
  if truthy (job.get "endpoint_id") then some <$> cleanIdentifier (job.get "endpoint_id") "endpoint_id"
  else .ok none

/-- The checked fields of a job. -/
structure JobFields where
  scanId : String
  endpointId : Option String
  scanType : String
  status : String

def checkJob (job : JsonObject) : Except StorageError JobFields := do
  let scanId ← cleanIdentifier (job.get "scan_id") "scan_id"
  let endpointId ← jobEndpoint job
  let scanType ← cleanIdentifier (getOr job "scan_type" (.str "UNKNOWN")) "scan_type" 64
  let status ← cleanIdentifier (getOr job "status" (.str "PENDING")) "status" 64
  .ok ⟨scanId, endpointId, scanType, status⟩

/-- The row that a job gets. -/
def newJob (rt : Runtime) (fields : JobFields) (timestamp : String) (job : JsonObject) : JobRow where
  endpointId := fields.endpointId
  scanType := fields.scanType
  status := fields.status
  job := Json.sortKeys (.obj job)
  jobHash := jobDigest rt job
  updatedAt := timestamp

/-- `create_scan_job(job)` -/
def createScanJob (rt : Runtime) (pyStr : Json → String) (now : String) (job : JsonObject) :
    JobMethod Bool := do
  let fields ← .ofExcept (checkJob job)
  let created := newJob rt fields (requestedAt pyStr now job) job
  let existing ← .reading fun jobs => .ok (jobs.get? fields.scanId)
  match existing with
  | some row => do
    .ofExcept (raiseIf (row.scanType ≠ "UNKNOWN" ∧ row.jobHash ≠ created.jobHash)
      ⟨.idempotencyConflict, "scan_id was reused with different job content"⟩)
    if row.scanType ≠ "UNKNOWN" then pure false
    else do
      -- The placeholder keeps what was recorded about it.
      .modify fun jobs => jobs.set fields.scanId { created with
        startedAt := row.startedAt
        completedAt := row.completedAt
        resultStatus := row.resultStatus }
      pure true
  | none => do
    .modify fun jobs => jobs.set fields.scanId created
    pure true

/-- `update_scan_job(scan_id, status, …)` -/
def updateScanJob (now scanId status : String) (startedAt completedAt resultStatus : Option String) :
    JobMethod Unit := do
  let scanId ← .ofExcept (cleanIdentifier (.str scanId) "scan_id")
  let status ← .ofExcept (cleanIdentifier (.str status) "status" 64)
  let existing ← .reading fun jobs => .ok (jobs.get? scanId)
  match existing with
  | none => .raise ⟨.storage, "unknown scan_id: " ++ scanId⟩
  | some row => .modify fun jobs => jobs.set scanId { row with
      status := status
      startedAt := startedAt <|> row.startedAt
      completedAt := completedAt <|> row.completedAt
      resultStatus := resultStatus <|> row.resultStatus
      updatedAt := now }

/-- The content of a placeholder. -/
def placeholderJob (scanId : String) (endpointId : Option String) : JsonObject :=
  [("scan_id", .str scanId), ("endpoint_id", Json.ofOption endpointId),
    ("scan_type", .str "UNKNOWN")]

/-- `_ensure_scan(connection, scan_id, endpoint_id, now)` -/
def ensureScan (rt : Runtime) (scanId : String) (endpointId : Option String) (now : String)
    (jobs : ScanJobs) : ScanJobs :=
  match jobs.get? scanId with
  | some row => jobs.set scanId { row with endpointId := row.endpointId <|> endpointId }
  | none => jobs.set scanId
    { endpointId := endpointId
      scanType := "UNKNOWN"
      status := "PENDING"
      job := Json.sortKeys (.obj (placeholderJob scanId endpointId))
      jobHash := jobDigest rt (placeholderJob scanId endpointId)
      updatedAt := now }

/-! ## Calls -/

/-- What can happen to the table. -/
inductive JobCall where
  | create (pyStr : Json → String) (now : String) (job : JsonObject)
  | update (now scanId status : String) (startedAt completedAt resultStatus : Option String)
  | ensure (scanId : String) (endpointId : Option String) (now : String)
  /-- `DELETE FROM scan_jobs WHERE scan_id=?` -/
  | delete (scanId : String)

def JobCall.step (rt : Runtime) (jobs : ScanJobs) : JobCall → ScanJobs
  | .create pyStr now job => ((createScanJob rt pyStr now job).run jobs).2
  | .update now scanId status startedAt completedAt resultStatus =>
    ((updateScanJob now scanId status startedAt completedAt resultStatus).run jobs).2
  | .ensure scanId endpointId now => ensureScan rt scanId endpointId now jobs
  | .delete scanId => jobs.erase scanId

/-- The call does not delete this scan. -/
def JobCall.Retains (scanId : String) (_ : ScanJobs) : JobCall → Prop
  | .delete deleted => deleted ≠ scanId
  | _ => True

/-! ## What a call does -/

/-- A job of this content is stored. -/
def HoldsJob (jobs : ScanJobs) (scanId digest : String) : Prop :=
  ∃ row, jobs.get? scanId = some row ∧ row.scanType ≠ "UNKNOWN" ∧ row.jobHash = digest

variable {rt : Runtime}

/-- An update keeps the type and the content of the row. -/
theorem updateScanJob_cases {now scanId status : String}
    {startedAt completedAt resultStatus : Option String} {jobs jobs' : ScanJobs}
    {result : Except StorageError Unit}
    (h : (updateScanJob now scanId status startedAt completedAt resultStatus).run jobs =
      (result, jobs')) :
    jobs' = jobs ∨ ∃ id before after, jobs.get? id = some before ∧ jobs' = jobs.set id after ∧
      after.scanType = before.scanType ∧ after.jobHash = before.jobHash := by
  unfold updateScanJob at h
  rw [Method.run_ofExcept_bind] at h
  split at h
  · next id hid =>
    rw [Method.run_ofExcept_bind] at h
    split at h
    · rw [Method.run_reading_bind] at h
      dsimp only at h
      cases hget : jobs.get? id with
      | none => rw [hget] at h; cases h; exact Or.inl rfl
      | some row =>
        rw [hget] at h
        cases h
        exact Or.inr ⟨id, row, _, hget, rfl, rfl, rfl⟩
    · cases h
      exact Or.inl rfl
  · cases h
    exact Or.inl rfl

/-- A creation that succeeds. -/
theorem createScanJob_ok {pyStr : Json → String} {now : String} {job : JsonObject}
    {jobs jobs' : ScanJobs} {created : Bool}
    (h : (createScanJob rt pyStr now job).run jobs = (.ok created, jobs')) :
    ∃ fields, checkJob job = .ok fields ∧
      ((created = false ∧ jobs' = jobs ∧ HoldsJob jobs fields.scanId (jobDigest rt job)) ∨
        (created = true ∧ (∀ row, jobs.get? fields.scanId = some row → row.scanType = "UNKNOWN") ∧
          ∃ row, jobs' = jobs.set fields.scanId row ∧ row.scanType = fields.scanType ∧
            row.jobHash = jobDigest rt job)) := by
  unfold createScanJob at h
  rw [Method.run_ofExcept_bind] at h
  cases hcheck : checkJob job with
  | error e => rw [hcheck] at h; cases h
  | ok fields =>
    rw [hcheck] at h
    dsimp only at h
    rw [Method.run_reading_bind] at h
    refine ⟨fields, rfl, ?_⟩
    cases hget : jobs.get? fields.scanId with
    | none =>
      rw [hget] at h
      cases h
      exact Or.inr ⟨rfl, fun _ hrow => (nomatch hrow), _, rfl, rfl, rfl⟩
    | some row =>
      rw [hget] at h
      dsimp only at h
      rw [Method.run_ofExcept_bind] at h
      by_cases hconflict : row.scanType ≠ "UNKNOWN" ∧
          row.jobHash ≠ (newJob rt fields (requestedAt pyStr now job) job).jobHash
      · rw [raiseIf, if_pos hconflict] at h
        cases h
      · rw [raiseIf, if_neg hconflict] at h
        dsimp only at h
        by_cases hknown : row.scanType ≠ "UNKNOWN"
        · rw [if_pos hknown] at h
          cases h
          have hhash := not_not.mp fun hne => hconflict ⟨hknown, hne⟩
          exact Or.inl ⟨rfl, rfl, row, hget, hknown, hhash⟩
        · rw [if_neg hknown] at h
          cases h
          refine Or.inr ⟨rfl, fun row' hrow' => ?_, _, rfl, rfl, rfl⟩
          cases hrow'
          exact not_not.mp hknown

/-- A creation that raises changes nothing. -/
theorem createScanJob_error {pyStr : Json → String} {now : String} {job : JsonObject}
    {jobs jobs' : ScanJobs} {e : StorageError}
    (h : (createScanJob rt pyStr now job).run jobs = (.error e, jobs')) : jobs' = jobs := by
  unfold createScanJob at h
  rw [Method.run_ofExcept_bind] at h
  cases hcheck : checkJob job with
  | error e => rw [hcheck] at h; cases h; rfl
  | ok fields =>
    rw [hcheck] at h
    dsimp only at h
    rw [Method.run_reading_bind] at h
    cases hget : jobs.get? fields.scanId with
    | none => rw [hget] at h; cases h
    | some row =>
      rw [hget] at h
      dsimp only at h
      rw [Method.run_ofExcept_bind] at h
      by_cases hconflict : row.scanType ≠ "UNKNOWN" ∧
          row.jobHash ≠ (newJob rt fields (requestedAt pyStr now job) job).jobHash
      · rw [raiseIf, if_pos hconflict] at h
        cases h
        rfl
      · rw [raiseIf, if_neg hconflict] at h
        dsimp only at h
        by_cases hknown : row.scanType ≠ "UNKNOWN"
        · rw [if_pos hknown] at h; cases h
        · rw [if_neg hknown] at h; cases h

/-- A job that is stored is not created again. -/
theorem createScanJob_again {pyStr : Json → String} {now : String} {job : JsonObject}
    {jobs : ScanJobs} {fields : JobFields} (hcheck : checkJob job = .ok fields)
    (hholds : HoldsJob jobs fields.scanId (jobDigest rt job)) :
    (createScanJob rt pyStr now job).run jobs = (.ok false, jobs) := by
  obtain ⟨row, hget, hknown, hhash⟩ := hholds
  unfold createScanJob
  rw [Method.run_ofExcept_bind, hcheck]
  dsimp only
  rw [Method.run_reading_bind, hget]
  dsimp only
  rw [Method.run_ofExcept_bind, raiseIf, if_neg (fun h => h.2 hhash)]
  dsimp only
  rw [if_pos hknown]
  rfl

/-- A scan that is unknown is created. -/
theorem createScanJob_new {pyStr : Json → String} {now : String} {job : JsonObject}
    {jobs : ScanJobs} {fields : JobFields} (hcheck : checkJob job = .ok fields)
    (hget : jobs.get? fields.scanId = none) :
    (createScanJob rt pyStr now job).run jobs =
      (.ok true, jobs.set fields.scanId (newJob rt fields (requestedAt pyStr now job) job)) := by
  unfold createScanJob
  rw [Method.run_ofExcept_bind, hcheck]
  dsimp only
  rw [Method.run_reading_bind, hget]
  rfl

/-- A job of other content than the one stored is a conflict. -/
theorem createScanJob_conflict {pyStr : Json → String} {now : String} {job : JsonObject}
    {jobs : ScanJobs} {fields : JobFields} {row : JobRow} (hcheck : checkJob job = .ok fields)
    (hget : jobs.get? fields.scanId = some row) (hknown : row.scanType ≠ "UNKNOWN")
    (hhash : row.jobHash ≠ jobDigest rt job) :
    (createScanJob rt pyStr now job).run jobs =
      (.error ⟨.idempotencyConflict, "scan_id was reused with different job content"⟩, jobs) := by
  unfold createScanJob
  rw [Method.run_ofExcept_bind, hcheck]
  dsimp only
  rw [Method.run_reading_bind, hget]
  dsimp only
  rw [Method.run_ofExcept_bind, raiseIf, if_pos ⟨hknown, hhash⟩]

/-- Only a deletion takes a stored job away, and nothing changes its content. -/
theorem HoldsJob.step {jobs : ScanJobs} {scanId digest : String} {call : JobCall}
    (hretains : call.Retains scanId jobs) (h : HoldsJob jobs scanId digest) :
    HoldsJob (call.step rt jobs) scanId digest := by
  obtain ⟨row, hget, hknown, hhash⟩ := h
  cases call with
  | create pyStr now job =>
    rw [JobCall.step]
    rcases hrun : (createScanJob rt pyStr now job).run jobs with ⟨e | created, jobs'⟩
    · rw [createScanJob_error hrun]
      exact ⟨row, hget, hknown, hhash⟩
    · obtain ⟨fields, -, ⟨-, rfl, -⟩ | ⟨-, hnew, row', rfl, -, -⟩⟩ := createScanJob_ok hrun
      · exact ⟨row, hget, hknown, hhash⟩
      · have hne : fields.scanId ≠ scanId := fun heq => hknown (hnew row (heq ▸ hget))
        exact ⟨row, by rw [Dict.get?_set_ne hne, hget], hknown, hhash⟩
  | update now updated status startedAt completedAt resultStatus =>
    rw [JobCall.step]
    rcases hrun : (updateScanJob now updated status startedAt completedAt resultStatus).run jobs with
      ⟨result, jobs'⟩
    obtain rfl | ⟨id, before, after, hbefore, rfl, htype, hsame⟩ := updateScanJob_cases hrun
    · exact ⟨row, hget, hknown, hhash⟩
    · by_cases heq : id = scanId
      · subst heq
        rw [hget, Option.some.injEq] at hbefore
        subst hbefore
        exact ⟨after, Dict.get?_set_self _ _ _, htype ▸ hknown, hsame.trans hhash⟩
      · exact ⟨row, by rw [Dict.get?_set_ne heq, hget], hknown, hhash⟩
  | ensure ensured endpointId now =>
    rw [JobCall.step, ensureScan]
    by_cases heq : ensured = scanId
    · subst heq
      rw [hget]
      exact ⟨_, Dict.get?_set_self _ _ _, hknown, hhash⟩
    · split
      · exact ⟨row, by rw [Dict.get?_set_ne heq, hget], hknown, hhash⟩
      · exact ⟨row, by rw [Dict.get?_set_ne heq, hget], hknown, hhash⟩
  | delete deleted =>
    have hne : deleted ≠ scanId := hretains
    refine ⟨row, ?_, hknown, hhash⟩
    rw [JobCall.step, Dict.get?_erase, if_neg hne, hget]

end OsScanner.Storage

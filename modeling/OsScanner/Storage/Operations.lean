import Mathlib
import OsScanner.Storage.CausalOrder
import OsScanner.Storage.Retention

/-!
# Operations on the local database

The methods of the storage as steps of one machine. The threads that deliver uploads work beside the
one that scans; each of their calls is a transaction of its own.
-/

namespace OsScanner.Storage

open Lib Lib.Check

/-! ## Steps -/

/-- What the other threads do to the tables. A call of the queue writes no other table. -/
inductive Background where
  | queue (call : QueueCall)
  | audit (event : AuditEvent)

/-- What happens to the tables, each time in one transaction. -/
inductive Operation where
  | create (now : String) (job : JsonObject)
  | update (now scanId status : String) (startedAt completedAt resultStatus : Option String)
  | history (now scanId event : String) (status : Option String) (details : JsonObject)
      (idempotencyKey : Option String)
  | save (now scanId : String) (endpointId : Option String) (result : JsonObject)
      (projections : Except StorageError Unit)
  | prune (request : PruneRequest)
  | background (action : Background)

section

variable (rt : Runtime) (pyStr : Json → String)

def Background.step (store : ResultStore) : Background → ResultStore
  | .queue call => { store with
      uploads := (call.perform rt store.toDatabase).uploads
      auditLog := (call.perform rt store.toDatabase).auditLog }
  | .audit event => { store with
      auditLog := (committed store.toDatabase (recordAuditEvent rt event store.toDatabase)).auditLog }

def Operation.step (store : ResultStore) : Operation → ResultStore
  | .create now job =>
    ((Method.on ResultStore.scanJobs (createScanJob rt pyStr now job)).run store).2
  | .update now scanId status startedAt completedAt resultStatus =>
    ((Method.on ResultStore.scanJobs
      (updateScanJob now scanId status startedAt completedAt resultStatus)).run store).2
  | .history now scanId event status details idempotencyKey =>
    ((appendScanHistory rt now scanId event status details idempotencyKey).run store).2
  | .save now scanId endpointId result projections =>
    ((saveScanResult rt pyStr now scanId endpointId result projections).run store).2
  | .prune request => ((pruneCompletedScanRecords request).run store).2
  | .background action => action.step rt store

/-- The tables after some operations on a new installation. -/
def operated (operations : List Operation) : ResultStore :=
  runFrom (Operation.step rt pyStr) .empty operations

end

/-! ## Calls of the queue -/

/-- A transaction of the queue that returns has left the snapshots as they were. -/
theorem committed_snapshots {α : Type} {db : Database} {result : Except StorageError (α × Database)}
    (h : ∀ a db', result = .ok (a, db') → db'.snapshots = db.snapshots ∧ db'.payloads = db.payloads) :
    (committed db result).snapshots = db.snapshots ∧ (committed db result).payloads = db.payloads := by
  cases result with
  | error e => exact ⟨rfl, rfl⟩
  | ok r => exact h r.1 r.2 rfl

/-- No call of the queue writes the snapshots. -/
theorem perform_snapshots (rt : Runtime) (db : Database) {call : QueueCall}
    (h : ∀ snapshots payloads, call ≠ .stored snapshots payloads) :
    (call.perform rt db).snapshots = db.snapshots ∧ (call.perform rt db).payloads = db.payloads := by
  cases call with
  | enqueue request uuid now =>
    refine committed_snapshots fun result db' hresult => ?_
    unfold enqueueUpload at hresult
    obtain ⟨fields, -, hresult⟩ := bind_eq_ok.mp hresult
    dsimp only at hresult
    split at hresult
    · rw [bind_unit_eq_ok] at hresult
      cases hresult.2
      exact ⟨rfl, rfl⟩
    · cases hresult
      exact ⟨rfl, rfl⟩
  | claim limit leaseSeconds current leaseToken =>
    refine committed_snapshots fun result db' hresult => ?_
    unfold claimUploads at hresult
    rw [bind_unit_eq_ok, bind_unit_eq_ok] at hresult
    cases hresult.2.2
    exact ⟨rfl, rfl⟩
  | succeeded uploadId leaseToken deliveredAt =>
    refine committed_snapshots fun result db' hresult => ?_
    obtain ⟨-, rfl⟩ | ⟨-, -, f, rfl, -⟩ := markUploadSucceeded_eq_ok hresult
    · exact ⟨rfl, rfl⟩
    · exact ⟨rfl, rfl⟩
  | failed uploadId leaseToken failure current =>
    refine committed_snapshots fun result db' hresult => ?_
    obtain ⟨-, f, rfl, -⟩ := markUploadFailed_eq_ok hresult
    exact ⟨rfl, rfl⟩
  | resync uploadId leaseToken error uuid current =>
    refine committed_snapshots fun result db' hresult => ?_
    obtain ⟨row, recovery, f, -, -, -, ⟨_, -, -, rfl⟩ | ⟨-, -, rfl⟩⟩ :=
      scheduleFullResync_eq_ok hresult
    · exact ⟨rfl, rfl⟩
    · exact ⟨rfl, rfl⟩
  | requeue uploadId request recordedAt auditEventId current =>
    refine committed_snapshots fun result db' hresult => ?_
    obtain ⟨row, f, auditLog, -, -, -, -, rfl⟩ := requeueDeadUpload_eq_ok hresult
    exact ⟨rfl, rfl⟩
  | purge olderThan limit =>
    refine committed_snapshots fun result db' hresult => ?_
    obtain ⟨deleted, -, rfl⟩ := purgeSucceededUploads_eq_ok hresult
    exact ⟨rfl, rfl⟩
  | stored snapshots payloads => exact absurd rfl (h snapshots payloads)

/-- So a call of the queue does to the database what `Background.step` says. -/
theorem step_queue {rt : Runtime} {store : ResultStore} {call : QueueCall}
    (h : ∀ snapshots payloads, call ≠ .stored snapshots payloads) :
    (Background.queue call).step rt store =
      { store with toDatabase := call.perform rt store.toDatabase } := by
  obtain ⟨hsnapshots, hpayloads⟩ := perform_snapshots rt store.toDatabase h
  rw [Background.step, ← hsnapshots, ← hpayloads]

end OsScanner.Storage

import Mathlib
import OsScanner.Storage.Database

/-!
# The audit log

`app/storage/audit.py`: events in the order in which they were recorded, each with the hash of
the one before it. A method whose body is one transaction is a function that returns a result
with the new database, or raises and writes nothing.
-/

namespace OsScanner.Storage

open Lib Lib.Check

/-- The arguments of `record_audit_event`. -/
structure AuditEvent where
  eventType : String
  outcome : String
  eventId : String
  actor : Option String := none
  resourceType : Option String := none
  resourceId : Option String := none
  scanId : Option String := none
  endpointId : Option String := none
  authorizationScopeId : Option String := none
  details : JsonObject := []
  createdAt : String
  returnExisting : Bool := false

/-- The columns of an event that its hash covers. -/
def AuditEvent.content (rt : Runtime) (event : AuditEvent) (eventId eventType outcome : String) :
    JsonObject :=
  [("event_id", .str eventId), ("event_type", .str eventType),
    ("actor", Json.ofOption event.actor), ("resource_type", Json.ofOption event.resourceType),
    ("resource_id", Json.ofOption event.resourceId), ("scan_id", Json.ofOption event.scanId),
    ("endpoint_id", Json.ofOption event.endpointId),
    ("authorization_scope_id", Json.ofOption event.authorizationScopeId),
    ("outcome", .str outcome),
    ("details_json", .str (Json.canonicalJson rt (.obj event.details))),
    ("created_at", .str event.createdAt)]

/-- `record_audit_event` returns the hash of the event. -/
def recordAuditEvent (rt : Runtime) (event : AuditEvent) (db : Database) :
    Except StorageError (String × Database) := do
  let eventType ← cleanIdentifier (.str event.eventType) "event_type" 128
  let outcome ← cleanIdentifier (.str event.outcome) "outcome" 64
  let eventId ← cleanIdentifier (.str event.eventId) "event_id"
  let content := event.content rt eventId eventType outcome
  match db.auditLog.find? fun row => decide (row.eventId = eventId) with
  | some existing => do
    raiseIf (existing.content ≠ content ∧ event.returnExisting = false)
      ⟨.idempotencyConflict, "audit event_id was reused with different content"⟩
    .ok (existing.eventHash, db)
  | none => do
    let previousHash := db.auditLog.getLast?.map (·.eventHash)
    let eventHash :=
      Json.canonicalSha256 rt (.obj (("previous_hash", Json.ofOption previousHash) :: content))
    raiseIf (∃ row ∈ db.auditLog, row.eventHash = eventHash)
      ⟨.integrity, "UNIQUE constraint failed: audit_log.event_hash"⟩
    .ok (eventHash, { db with auditLog := db.auditLog ++ [⟨eventId, content, previousHash, eventHash⟩] })

/-- Recording an event writes the audit log only. -/
theorem recordAuditEvent_eq_ok {rt : Runtime} {event : AuditEvent} {db db' : Database}
    {eventHash : String} (h : recordAuditEvent rt event db = .ok (eventHash, db')) :
    ∃ auditLog, db' = { db with auditLog := auditLog } := by
  simp only [recordAuditEvent, bind_eq_ok] at h
  obtain ⟨eventType, -, outcome, -, eventId, -, h⟩ := h
  split at h
  · simp only [bind_unit_eq_ok, Except.ok.injEq, Prod.mk.injEq] at h
    exact ⟨db.auditLog, h.2.2.symm⟩
  · simp only [bind_unit_eq_ok, Except.ok.injEq, Prod.mk.injEq] at h
    exact ⟨_, h.2.2.symm⟩

end OsScanner.Storage
